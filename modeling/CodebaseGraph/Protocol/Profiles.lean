import CodebaseGraph.Protocol.Request
import CodebaseGraph.Syntax.Arena

/-! Language profiles and their lookup by path and by language (`src/profiles.rs`). -/

namespace CodebaseGraph.Protocol

open CodebaseGraph.Syntax

def mappingWithContext (captureName : String) (parserNodeTypes : List String)
    (targetNodeType contextRule : String)
    : CaptureMapping :=
  { captureName, parserNodeTypes, targetNodeType, contextRule }

def mapping (captureName : String) (parserNodeTypes : List String) (targetNodeType : String)
    : CaptureMapping :=
  mappingWithContext captureName parserNodeTypes targetNodeType ""

def typescriptMappings : List CaptureMapping :=
  [
    mapping "definition.class" ["class_declaration", "abstract_class_declaration"] "Class",
    mapping "definition.interface" ["interface_declaration"] "Class",
    mapping "definition.enum" ["enum_declaration"] "Class",
    mapping "definition.type_alias" ["type_alias_declaration"] "TypeAlias",
    mapping "definition.function" ["function_declaration", "generator_function_declaration"]
      "Function",
    mapping "definition.method"
      ["method_definition", "method_signature", "abstract_method_signature"] "Method",
    mapping "reference.import" ["import_statement"] "ImportDeclaration",
    mapping "reference.call" ["call_expression"] "CallExpression"
  ]

def javascriptMappings : List CaptureMapping :=
  [
    mapping "definition.class" ["class_declaration"] "Class",
    mapping "definition.function" ["function_declaration", "generator_function_declaration"]
      "Function",
    mapping "definition.method" ["method_definition"] "Method",
    mapping "reference.import" ["import_statement"] "ImportDeclaration",
    mapping "reference.call" ["call_expression"] "CallExpression"
  ]

def webassemblyMappings : List CaptureMapping :=
  [
    mappingWithContext "definition.module" ["module"] "Module" "has name",
    mappingWithContext "definition.function" ["module_field_func"] "Function" "has name",
    mappingWithContext "definition.type_alias" ["type_def"] "TypeAlias" "has name",
    mapping "reference.import" ["module_field_import"] "ImportDeclaration",
    mapping "definition.export" ["module_field_export", "export"] "ExportDeclaration",
    mappingWithContext "reference.call" ["plain_instr"] "CallExpression" "has function"
  ]

def cFamilyMappings : List CaptureMapping :=
  [
    mapping "definition.function" ["function_definition"] "Function",
    mappingWithContext "definition.function" ["declaration"] "Function" "function declarator",
    mapping "definition.struct" ["struct_specifier"] "Class",
    mapping "definition.union" ["union_specifier"] "Class",
    mapping "definition.enum" ["enum_specifier"] "Class",
    mapping "definition.class" ["class_specifier"] "Class",
    mapping "reference.include" ["preproc_include"] "ImportDeclaration",
    mapping "reference.call" ["call_expression"] "CallExpression"
  ]

def builtInProfiles : List LanguageProfile :=
  [
    {
      language := "python"
      suffixes := [".py"]
      grammarPackage := "tree_sitter_python"
      grammarVersion := "tree_sitter_python@0.25.0"
      rootNodeTypes := ["module"]
      captureMappings :=
        [
          mapping "definition.class" ["class_definition"] "Class",
          mapping "definition.function" ["function_definition"] "Function",
          mapping "reference.import" ["import_statement", "import_from_statement"]
            "ImportDeclaration",
          mapping "reference.call" ["call"] "CallExpression"
        ]
    },
    {
      language := "markdown"
      suffixes := [".md", ".mdx"]
      grammarPackage := ""
      grammarVersion := "builtin-markdown@1"
      rootNodeTypes := ["Module"]
      captureMappings :=
        [
          mapping "doc.source" ["DocumentationSource"] "DocumentationSource",
          mapping "doc.chunk" ["DocumentationChunk"] "DocumentationChunk"
        ]
    },
    {
      language := "css"
      suffixes := [".css"]
      grammarPackage := "tree_sitter_css"
      grammarVersion := "tree_sitter_css@0.25.0"
      rootNodeTypes := ["stylesheet"]
    },
    {
      language := "typescript"
      suffixes := [".ts", ".mts", ".cts"]
      grammarPackage := "tree_sitter_typescript"
      grammarVersion := "tree_sitter_typescript@0.23.2"
      rootNodeTypes := ["program"]
      captureMappings := typescriptMappings
    },
    {
      language := "tsx"
      suffixes := [".tsx"]
      grammarPackage := "tree_sitter_typescript"
      grammarVersion := "tree_sitter_typescript@0.23.2"
      rootNodeTypes := ["program"]
      captureMappings := typescriptMappings
    },
    {
      language := "javascript"
      suffixes := [".js", ".jsx", ".mjs", ".cjs"]
      grammarPackage := "tree_sitter_javascript"
      grammarVersion := "tree_sitter_javascript@0.25.0"
      rootNodeTypes := ["program"]
      captureMappings := javascriptMappings
    },
    {
      language := "html"
      suffixes := [".html", ".htm"]
      grammarPackage := "tree_sitter_html"
      grammarVersion := "tree_sitter_html@0.23.2"
      rootNodeTypes := ["document"]
    },
    {
      language := "webassembly"
      suffixes := [".wat"]
      grammarPackage := "tree_sitter_wat"
      grammarVersion := "tree_sitter_wat@0.1.0+e3769473"
      rootNodeTypes := ["root"]
      captureMappings := webassemblyMappings
    },
    {
      language := "rust"
      suffixes := [".rs"]
      grammarPackage := "tree_sitter_rust"
      grammarVersion := "tree_sitter_rust@0.24.2"
      rootNodeTypes := ["source_file"]
      captureMappings :=
        [
          mapping "definition.struct" ["struct_item"] "Class",
          mappingWithContext "definition.method" ["function_item"] "Method" "inside impl",
          mapping "definition.function" ["function_item"] "Function",
          mapping "reference.use" ["use_declaration"] "ImportDeclaration",
          mapping "reference.call" ["call_expression"] "CallExpression",
          mapping "reference.call" ["macro_invocation"] "CallExpression"
        ]
    },
    {
      language := "go"
      suffixes := [".go"]
      grammarPackage := "tree_sitter_go"
      grammarVersion := "tree_sitter_go@0.25.0"
      rootNodeTypes := ["source_file"]
      captureMappings :=
        [
          mapping "definition.package" ["package_clause"] "Module",
          mapping "definition.function" ["function_declaration"] "Function",
          mapping "definition.method" ["method_declaration"] "Method",
          mapping "reference.import" ["import_declaration"] "ImportDeclaration",
          mapping "reference.call" ["call_expression"] "CallExpression"
        ]
    },
    {
      language := "c"
      suffixes := [".c", ".h"]
      grammarPackage := "tree_sitter_c"
      grammarVersion := "tree_sitter_c@0.24.2"
      rootNodeTypes := ["translation_unit"]
      captureMappings := cFamilyMappings
    },
    {
      language := "cpp"
      suffixes := [".cc", ".cpp", ".cxx", ".hpp", ".hh"]
      grammarPackage := "tree_sitter_cpp"
      grammarVersion := "tree_sitter_cpp@0.23.4"
      rootNodeTypes := ["translation_unit"]
      captureMappings := cFamilyMappings
    },
    {
      language := "fortran"
      suffixes := [".f", ".f90", ".f95", ".for"]
      grammarPackage := "tree_sitter_fortran"
      grammarVersion := "tree_sitter_fortran@0.6.0"
      rootNodeTypes := ["translation_unit"]
      captureMappings :=
        [
          mapping "definition.module" ["module"] "Module",
          mapping "definition.function" ["program"] "Function",
          mapping "definition.function" ["subroutine"] "Function",
          mapping "definition.function" ["function"] "Function",
          mapping "reference.use" ["use_statement"] "ImportDeclaration",
          mapping "reference.call" ["subroutine_call"] "CallExpression",
          mapping "reference.call" ["call_expression"] "CallExpression"
        ]
    }
  ]

/-- The two maps of a profile set, as the lookups see them. -/
structure ProfileSet where
  byLanguage : String → Option LanguageProfile
  suffixToLanguage : String → Option String

namespace ProfileSet

variable (text : TextFunctions)

/-- One turn of the loop of `ProfileSet::new`; a later entry replaces an earlier one. -/
def add (set : ProfileSet) (profile : LanguageProfile) : ProfileSet where
  byLanguage language :=
    if language = profile.language then some profile else set.byLanguage language
  suffixToLanguage :=
    profile.suffixes.foldl
      (fun map suffix key =>
        if key = text.toLowercase suffix then some profile.language else map key)
      set.suffixToLanguage

def new (profiles : List LanguageProfile) : ProfileSet :=
  (builtInProfiles ++ profiles).foldl (add text)
    { byLanguage := fun _ => none, suffixToLanguage := fun _ => none }

def profileForLanguage (set : ProfileSet) (language : String) : Option LanguageProfile :=
  set.byLanguage language

end ProfileSet

/-- The last component of a path that names a file. -/
def pathFileName (path : String) : Option (List Char) :=
  let components := (path.toList.splitOn '/').filter (fun part => part ≠ [] ∧ part ≠ ['.'])
  components.getLast?.filter (fun part => part ≠ ['.', '.'])

/-- `Path::extension`: what follows the last dot of the file name, unless the name begins with
its only dot.
-/
def pathExtension (path : String) : Option String := do
  let name ← pathFileName path
  match name.reverse.span (· ≠ '.') with
  | (_, []) | (_, [_]) => none
  | (after, _) => some (String.ofList after.reverse)

/-- The key under which a path is looked up. -/
def pathSuffix (text : TextFunctions) (path : String) : Option String :=
  (pathExtension path).map (fun extension => "." ++ text.toLowercase extension)

def ProfileSet.languageForPath (text : TextFunctions) (set : ProfileSet) (path : String)
    : Option String :=
  (pathSuffix text path).bind set.suffixToLanguage

end CodebaseGraph.Protocol

/-! The choice of a capture mapping for each node of a tree (`src/normalize.rs`,
`src/parser/captures.rs`).
-/

namespace CodebaseGraph.Protocol

open CodebaseGraph.Syntax

def contextNameMatches (nodeType expected : String) : Bool :=
  if expected = "impl" then nodeType = "impl_item"
  else if expected = "class" then nodeType = "class_specifier" || nodeType = "struct_specifier"
  else nodeType = expected

def fieldTypeMatches (node : SyntaxNode) (fieldName expectedType : String) : Bool :=
  let found := do
    let values ← (← node.fields.lookup "_field_types").asObject
    (← values.lookup fieldName).asStr
  found = some expectedType

def fieldDescendantHas (node : SyntaxNode) (fieldName expectedType : String) : Bool :=
  let found := do
    let values ← (← node.fields.lookup "_field_descendant_types").asObject
    (← values.lookup fieldName).asArray
  match found with
  | some values => (values.filterMap Value.asStr).any (· = expectedType)
  | none => false

def contextRuleMatches (text : TextFunctions) (rule : String) (node : SyntaxNode)
    (ancestors : List String)
    : Bool :=
  let normalized := text.toLowercase (text.trim rule)
  match stripPrefix normalized "inside " with
  | some expected => ancestors.any (fun ancestor => contextNameMatches ancestor expected)
  | none =>
      match stripPrefix normalized "type is " with
      | some expectedType => fieldTypeMatches node "type" expectedType
      | none =>
          match stripPrefix normalized "has " with
          | some fieldName =>
              match (node.fields.lookup fieldName).bind Value.asStr with
              | some value => value ≠ ""
              | none => false
          | none =>
              if normalized = "qualified declarator" then
                fieldDescendantHas node "declarator" "qualified_identifier"
              else if normalized = "function declarator" then
                fieldTypeMatches node "declarator" "function_declarator"
                || fieldDescendantHas node "declarator" "function_declarator"
              else false

/-- The mappings that list the type of the node. -/
def mappingCandidates (node : SyntaxNode) (mappings : List CaptureMapping)
    : List CaptureMapping :=
  mappings.filter (fun mapping => mapping.parserNodeTypes.any (· = node.nodeType))

def mappingForSyntaxNode (text : TextFunctions) (node : SyntaxNode)
    (mappings : List CaptureMapping) (ancestors : List String)
    : Option CaptureMapping :=
  let candidates := mappingCandidates node mappings
  match candidates.find? (fun mapping =>
      mapping.contextRule ≠ "" && contextRuleMatches text mapping.contextRule node ancestors) with
  | some mapping => some mapping
  | none => candidates.find? (fun mapping => mapping.contextRule = "")

mutual

def markCaptures (text : TextFunctions) (profile : LanguageProfile) (ancestors : List String)
    : SyntaxNode → SyntaxNode
  | ⟨nodeType, body, lineStart, lineEnd, byteStart, byteEnd, captureName, fieldName, children,
      fields⟩ =>
      let node : SyntaxNode :=
        ⟨nodeType, body, lineStart, lineEnd, byteStart, byteEnd, captureName, fieldName,
          markChildren text profile (ancestors ++ [nodeType]) children, fields⟩
      match mappingForSyntaxNode text node profile.captureMappings ancestors with
      | some mapping => { node with captureName := mapping.captureName }
      | none => node

def markChildren (text : TextFunctions) (profile : LanguageProfile) (ancestors : List String)
    : List SyntaxNode → List SyntaxNode
  | [] => []
  | child :: rest =>
      markCaptures text profile ancestors child :: markChildren text profile ancestors rest

end

end CodebaseGraph.Protocol
