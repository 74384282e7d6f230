import CodebaseGraph.Syntax.Arena

/-! What the builder reads off the nodes of a tree: labels, children that carry meaning and the
tables of captures and node types (`src/syntax_materializer/capture.rs`, `ids.rs`).
-/

namespace CodebaseGraph.Syntax

/-- The part of a text before the first such character, or all of it. -/
def beforeFirst (mark : Char) (text : String) : String :=
  String.ofList (text.toList.takeWhile (· ≠ mark))

/-- The part of a text behind the last such character, or all of it. -/
def afterLast (mark : Char) (text : String) : String :=
  String.ofList (text.toList.reverse.takeWhile (· ≠ mark)).reverse

/-- The part of a text before the last such character, or all of it. -/
def beforeLast (mark : Char) (text : String) : String :=
  if text.toList.contains mark then
    String.ofList ((text.toList.reverse.dropWhile (· ≠ mark)).drop 1).reverse
  else text

def trimStartMatches (mark : Char) (text : String) : String :=
  String.ofList (text.toList.dropWhile (· = mark))

def startsWith (text start : String) : Bool := start.toList.isPrefixOf text.toList

structure Owner where
  nodeId : String
  table : String
  qualifiedName : String
  scopeId : String

structure Capture where
  captureName : String
  nodeType : String
  label : String
  text : String
  lineStart : Option Int
  lineEnd : Option Int
  byteStart : Option Int
  byteEnd : Option Int
  fields : List String

/-- The first key with a label that is not empty; a key without any label ends the search. -/
def labelAmong (labels : List (String × Option String)) : List String → Option String
  | [] => none
  | key :: rest =>
      match labels.lookup key with
      | none => labelAmong labels rest
      | some none => none
      | some (some label) => if label ≠ "" then some label else labelAmong labels rest

mutual

def jsonValueLabel (unicode : UnicodeFunctions) : Value → Option String
  | .string text => some (unicode.trim text)
  | .number text => some text
  | .bool value => some (if value then "true" else "false")
  | .object entries =>
      labelAmong (entryLabels unicode entries) ["id", "name", "arg", "attr", "value"]
  | .array _ => none
  | .null => none

def entryLabels (unicode : UnicodeFunctions)
    : List (String × Value) → List (String × Option String)
  | [] => []
  | (key, value) :: rest => (key, jsonValueLabel unicode value) :: entryLabels unicode rest

end

def jsonFieldLabel (unicode : UnicodeFunctions) (node : TreeNodeRef) (field : String)
    : Option String :=
  (node.fieldValue field).bind (jsonValueLabel unicode)

/-- The first of the fields with a label that is not empty. -/
def firstFieldLabel (unicode : UnicodeFunctions) (node : TreeNodeRef) (fields : List String)
    : Option String :=
  fields.findSome? (fun field => (jsonFieldLabel unicode node field).filter (· ≠ ""))

def treeLabel (unicode : UnicodeFunctions) (node : TreeNodeRef) : String :=
  match firstFieldLabel unicode node
      ["name", "id", "arg", "attr", "module", "path", "function", "value"] with
  | some label => label
  | none =>
      let text := unicode.trim node.text
      if text = "" then node.nodeType else text

def treeCapture (unicode : UnicodeFunctions) (node : TreeNodeRef) : Capture :=
  {
    captureName := node.node.captureName
    nodeType := node.nodeType
    label := treeLabel unicode node
    text := node.text
    lineStart := node.node.lineStart
    lineEnd := node.node.lineEnd
    byteStart := node.node.byteStart
    byteEnd := node.node.byteEnd
    fields := node.fieldKeys
  }

/-- A capture at the place of a node, with its own name, type, label and fields. -/
def captureAt (node : TreeNodeRef) (captureName nodeType label : String) (fields : List String)
    : Capture :=
  {
    captureName
    nodeType
    label
    text := node.text
    lineStart := node.node.lineStart
    lineEnd := node.node.lineEnd
    byteStart := node.node.byteStart
    byteEnd := node.node.byteEnd
    fields
  }

def shouldDeriveRootModule (language rootNodeType : String) : Bool :=
  !(rootNodeType = "source_file"
    || (language = "python" && rootNodeType = "module")
    || (language = "markdown" && rootNodeType = "Module"))

def shouldInlineChild (child : TreeNodeRef) (language : String) : Bool :=
  (language = "python" && child.nodeType = "block")
  || (language = "fortran" && child.nodeType = "variable_declaration")

/-- The part of `should_traverse_child` for Python; none where it does not decide. -/
def pythonTraverseChild (unicode : UnicodeFunctions) (parent child : TreeNodeRef)
    : Option Bool :=
  if parent.nodeType = "attribute" then
    some (jsonFieldLabel unicode parent "value" = some (treeLabel unicode child))
  else if ["parameters", "decorator"].contains child.nodeType then some false
  else if ["class_definition", "function_definition"].contains parent.nodeType
      && ["identifier", "type", "type_identifier"].contains child.nodeType then some false
  else if ["identifier", "type_identifier"].contains child.nodeType
      && !(["assignment", "call", "attribute"].contains parent.nodeType) then some false
  else none

def shouldTraverseChild (unicode : UnicodeFunctions) (parent child : TreeNodeRef)
    (language : String)
    : Bool :=
  match if language = "python" then pythonTraverseChild unicode parent child else none with
  | some decided => decided
  | none =>
      if child.nodeType = "block" then true
      else if ["import_statement", "import_from_statement", "import_declaration",
            "use_declaration"].contains parent.nodeType
          && ["identifier", "dotted_name", "aliased_import", "import_list", "string",
            "interpreted_string_literal", "raw_string_literal",
            "string_literal"].contains child.nodeType then
        language = "python" && child.nodeType = "dotted_name"
      else true

/-- What one child contributes to the children to walk on to. -/
def semanticChild (unicode : UnicodeFunctions) (arena : NativeSyntaxArena) (language : String)
    (inlined : TreeNodeRef → Option (List Nat)) (parent : TreeNodeRef) (childId : Nat)
    : Option (List Nat) :=
  match arena.getNode childId with
  | none => some []
  | some child =>
      if shouldInlineChild child language then inlined child
      else if shouldTraverseChild unicode parent child language then some [childId]
      else some []

/-- The children to walk on to. The fuel bounds how deep inlined children nest; without any the
answer is none.
-/
def semanticChildIds (unicode : UnicodeFunctions) (arena : NativeSyntaxArena) (language : String)
    : Nat → TreeNodeRef → Option (List Nat)
  | 0, _ => none
  | fuel + 1, parent => do
      let found ←
        parent.children.mapM
          (semanticChild unicode arena language (semanticChildIds unicode arena language fuel)
            parent)
      pure found.flatten

/-- The table of a callable: a method inside a class or a component. -/
def callableTable (owner : Owner) : String :=
  if ["Class", "Component"].contains owner.table then "Method" else "Function"

def tableForNodeType (nodeType : String) (owner : Owner) : Option String :=
  if ["import_statement", "import_from_statement", "import_declaration", "use_declaration",
      "preproc_include", "use_statement"].contains nodeType then some "ImportDeclaration"
  else if ["export_statement", "export_clause", "export_declaration"].contains nodeType then
    some "ExportDeclaration"
  else if ["class_definition", "class_declaration", "struct_item", "interface_declaration",
      "struct_specifier", "union_specifier", "enum_specifier", "class_specifier",
      "type_declaration"].contains nodeType then some "Class"
  else if ["function_definition", "function_declaration", "method_definition",
      "method_declaration", "function_item", "subroutine", "function"].contains nodeType then
    some (callableTable owner)
  else if nodeType = "arg" then some "Parameter"
  else if ["return_type", "returns"].contains nodeType then some "ReturnType"
  else if ["type", "type_identifier", "qualified_type", "type_annotation",
      "annotation"].contains nodeType then some "TypeAnnotation"
  else if ["assignment", "assignment_expression"].contains nodeType then some "Assignment"
  else if ["call", "call_expression", "invocation_expression", "call_statement",
      "subroutine_call"].contains nodeType then some "CallExpression"
  else if ["identifier", "field_identifier", "attribute"].contains nodeType then
    some "Reference"
  else if ["string", "integer", "float", "true", "false", "null", "none",
      "intrinsic_type"].contains nodeType then some "Literal"
  else if ["if_statement", "for_statement", "while_statement", "match_statement",
      "switch_statement"].contains nodeType then some "ControlFlowBlock"
  else if ["try_statement", "except_clause", "catch_clause", "raise_statement",
      "throw_statement"].contains nodeType then some "ExceptionFlow"
  else none

def tableForCapture (capture : String) (owner : Owner) : Option String :=
  let normalized := trimStartMatches '@' capture
  if ["definition.class", "definition.struct", "definition.interface", "definition.enum",
      "definition.union"].contains normalized then some "Class"
  else if ["definition.module", "definition.namespace",
      "definition.package"].contains normalized then some "Module"
  else if ["definition.component", "component"].contains normalized then some "Component"
  else if normalized = "definition.method" then some "Method"
  else if normalized = "definition.function" then some (callableTable owner)
  else if ["definition.parameter", "parameter"].contains normalized then some "Parameter"
  else if ["type.return", "return_type"].contains normalized then some "ReturnType"
  else if ["type", "type.annotation", "reference.type"].contains normalized then
    some "TypeAnnotation"
  else if normalized = "definition.type_alias" then some "TypeAlias"
  else if normalized = "definition.macro" then some "Symbol"
  else if normalized = "definition.constant" then some "Constant"
  else if normalized = "definition.variable" then some "Variable"
  else if ["decorator", "definition.decorator"].contains normalized then some "Decorator"
  else if ["reference.import", "reference.include", "reference.require", "reference.use",
      "import"].contains normalized then some "ImportDeclaration"
  else if ["export", "definition.export"].contains normalized then some "ExportDeclaration"
  else if ["reference.call", "call"].contains normalized then some "CallExpression"
  else if normalized = "entrypoint.api" then some "APIEndpoint"
  else if normalized = "endpoint" then some "APIEndpoint"
  else if normalized = "route" then some "Route"
  else if normalized = "doc.source" then some "DocumentationSource"
  else if ["literal", "string", "number"].contains normalized then some "Literal"
  else if normalized = "control_flow" then some "ControlFlowBlock"
  else if ["exception", "raises", "handles"].contains normalized then some "ExceptionFlow"
  else if startsWith normalized "query." then some "Query"
  else if startsWith normalized "secret." then some "SecretRef"
  else if startsWith normalized "doc" then some "DocumentationChunk"
  else if startsWith normalized "reference" then some "Reference"
  else none

/-- The names of an import, each behind the module it comes from. -/
def importLabel (unicode : UnicodeFunctions) (node : TreeNodeRef) : Option String :=
  let moduleName := (jsonFieldLabel unicode node "module").getD ""
  let names :=
    ((((node.fieldValue "names").bind Value.asArray).getD []).filterMap
      (jsonValueLabel unicode)).filter (· ≠ "")
  if moduleName ≠ "" ∧ names ≠ [] then
    some (", ".intercalate (names.map (fun name => moduleName ++ "." ++ name)))
  else if moduleName ≠ "" then some moduleName
  else if names ≠ [] then some (", ".intercalate names)
  else none

/-- The children of a node that the arena holds. -/
def childNodes (arena : NativeSyntaxArena) (node : TreeNodeRef) : List TreeNodeRef :=
  node.children.filterMap arena.getNode

def assignmentTargetLabel (unicode : UnicodeFunctions) (arena : NativeSyntaxArena)
    (node : TreeNodeRef)
    : Option String :=
  (jsonFieldLabel unicode node "target").or
    ((((childNodes arena node).find?
      (fun child => !(["call", "call_expression"].contains child.nodeType))).map
        (treeLabel unicode)).filter (· ≠ ""))

def assignmentTargetTable (unicode : UnicodeFunctions) (label : String) (owner : Owner)
    (nodeType : String)
    : String :=
  if label.toList.any unicode.isAlphabetic
      && (label.toList.filter unicode.isAlphabetic).all unicode.isUppercase then "Constant"
  else if owner.table = "Class" then "ClassAttribute"
  else if label.toList.contains '.' then "InstanceAttribute"
  else if nodeType = "AnnAssign" && owner.table = "Class" then "ClassAttribute"
  else "Variable"

def callValueChild (arena : NativeSyntaxArena) (node : TreeNodeRef) : Option Nat :=
  node.children.find? (fun childId =>
    (arena.getNode childId).any (fun child =>
      ["call", "call_expression"].contains child.nodeType))

def parameterChildIds (arena : NativeSyntaxArena) (functionNode : TreeNodeRef) : List Nat :=
  (((childNodes arena functionNode).filter (fun child => child.nodeType = "parameters")).flatMap
    NativeSyntaxNode.children).filter (fun childId =>
      (arena.getNode childId).any (fun child =>
        ["identifier", "typed_parameter", "default_parameter",
          "parameter"].contains child.nodeType))

def parameterLabel (unicode : UnicodeFunctions) (node : TreeNodeRef) : String :=
  trimStartMatches '*'
    (unicode.trim (beforeFirst '=' (beforeFirst ':' (treeLabel unicode node))))

def parameterCapture (unicode : UnicodeFunctions) (node : TreeNodeRef) (language : String)
    : Capture :=
  if language ≠ "python" then
    {
      treeCapture unicode node with
      captureName := "parameter"
      label := parameterLabel unicode node
    }
  else captureAt node "" "arg" (parameterLabel unicode node) ["arg"]

def firstChildWithType (arena : NativeSyntaxArena) (node : TreeNodeRef)
    (nodeTypes : List String)
    : Option TreeNodeRef :=
  (childNodes arena node).find? (fun child => nodeTypes.contains child.nodeType)

def parameterAnnotationLabel (unicode : UnicodeFunctions) (arena : NativeSyntaxArena)
    (node : TreeNodeRef)
    : Option String :=
  (jsonFieldLabel unicode node "annotation").or
    (((firstChildWithType arena node
      ["type", "type_identifier", "qualified_type", "annotation"]).map
        (treeLabel unicode)).filter (· ≠ ""))

def parameterAnnotationCapture (unicode : UnicodeFunctions) (arena : NativeSyntaxArena)
    (node : TreeNodeRef) (language : String)
    : Option Capture :=
  if language = "python" then
    match firstChildWithType arena node ["type", "type_identifier"] with
    | some typeChild => some (treeCapture unicode typeChild)
    | none =>
        (jsonFieldLabel unicode node "annotation").map (fun label =>
          captureAt node "" "type" label ["id"])
  else
    (parameterAnnotationLabel unicode arena node).map (fun label =>
      captureAt node "" "type_annotation" label [])

def returnTypeCapture (unicode : UnicodeFunctions) (arena : NativeSyntaxArena)
    (functionNode : TreeNodeRef) (language : String)
    : Option Capture :=
  if language = "python" then
    (firstChildWithType arena functionNode ["type", "type_identifier"]).map (treeCapture unicode)
  else
    ((jsonFieldLabel unicode functionNode "return_type").or
      (jsonFieldLabel unicode functionNode "returns")).map (fun label =>
        captureAt functionNode "return_type" "return_type" label [])

def fortranLiteralCapture (arena : NativeSyntaxArena) (node : TreeNodeRef) : Option Capture :=
  if node.nodeType ≠ "intrinsic_type" then none
  else
    match node.parentId.bind arena.getNode with
    | none => none
    | some parent =>
        if parent.nodeType ≠ "variable_declaration" then none
        else some { captureAt node "" "integer" parent.text [] with text := parent.text }

/-- The first key with a label that is not empty, in the three rounds of the source. -/
def metadataLabelAmong (labels : List (String × Option String)) : Option String :=
  ["name", "id", "arg", "attr", "module", "value", "name", "module", "path", "function", "type",
    "return_type", "declarator"].findSome? (fun key =>
      ((labels.lookup key).bind id).filter (· ≠ ""))

mutual

def metadataValueLabel : Value → Option String
  | .string text => some text
  | .number text => some text
  | .bool value => some (if value then "true" else "false")
  | .array items =>
      some
        ("[" ++ ", ".intercalate ((metadataItemLabels items).map (fun item => "'" ++ item ++ "'"))
          ++ "]")
  | .object entries => metadataLabelAmong (metadataEntryLabels entries)
  | .null => none

/-- The labels of the items that have one. -/
def metadataItemLabels : List Value → List String
  | [] => []
  | item :: rest => (metadataValueLabel item).toList ++ metadataItemLabels rest

def metadataEntryLabels : List (String × Value) → List (String × Option String)
  | [] => []
  | (key, value) :: rest => (key, metadataValueLabel value) :: metadataEntryLabels rest

end

def metadataObjectLabel (entries : List (String × Value)) : Option String :=
  metadataLabelAmong (metadataEntryLabels entries)

def parserLikeMetadataCapture (node : TreeNodeRef) (fieldName : String) : Option Capture := do
  let entries ← (← node.fieldValue fieldName).asObject
  let nodeType ← metadataValueLabel (← entries.lookup "type")
  if nodeType = "" then none
  else
    let label := (metadataObjectLabel entries).getD nodeType
    pure
      {
        captureName := ""
        nodeType
        label
        text := label
        lineStart := none
        lineEnd := none
        byteStart := none
        byteEnd := none
        fields := entries.map Prod.fst
      }

def moduleLabel (path : String) : String :=
  (beforeLast '.' path).map (fun letter => if letter = '/' then '.' else letter)

def qualifiedName (owner label : String) : String :=
  if owner = "" ∨ owner = label then label
  else if label = "" then owner
  else owner ++ "." ++ label

def kindFor (table nodeType : String) : String :=
  match table with
  | "Method" => "method"
  | "Function" => "function"
  | "Class" => "class"
  | _ => nodeType

def symbolKey (unicode : UnicodeFunctions) (label : String) : String :=
  unicode.toLowercase (unicode.trim label)

def stableOptionalI64 (value : Option Int) : String :=
  match value with
  | some item => toString item
  | none => "None"

end CodebaseGraph.Syntax
