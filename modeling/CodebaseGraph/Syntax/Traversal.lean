import CodebaseGraph.Syntax.Builder

/-! The walk over a parsed tree that emits the rows of its graph
(`src/syntax_materializer/builder/semantic.rs`, `traversal.rs`).
-/

namespace CodebaseGraph.Syntax

open CodebaseGraph.Staging (GraphNodeRow)
open CodebaseGraph.Transition

variable (environment : Environment)

/-- The newest registered node under the label or its last part, or a new symbol. -/
def resolveReferenceTarget (label : String) : Build (Option GraphNodeRow) := do
  let referenceLabel := environment.unicode.trim label
  if referenceLabel = "" then pure none
  else
    let builder ← get
    let candidates := [referenceLabel, afterLast '.' referenceLabel]
    match
      candidates.findSome? (fun candidate =>
        (builder.symbolsByName (symbolKey environment.unicode candidate)).reverse.findSome?
          builder.nodes.get?)
    with
    | some node => pure (some node)
    | none =>
        let node ← symbolNode environment referenceLabel
        pure (some node)

def emitReferenceEdges (source : GraphNodeRow) (label kindPrefix : String)
    : Build (Option GraphNodeRow) := do
  let resolved ← resolveReferenceTarget environment label
  match resolved with
  | none => pure none
  | some target =>
      if target.id = source.id then pure none
      else
        let further := [("label", .string label), ("resolver", .string "label")]
        edgeIfAllowed "References" source.id target.id (kindPrefix ++ "_reference") further
        edgeIfAllowed "ResolvesTo" source.id target.id (kindPrefix ++ "_resolution") further
        pure (some target)

def emitTypeAnnotationCapture (capture : Capture) (ownerId ownerQualifiedName : String)
    : Build GraphNodeRow := do
  let syntaxId ← syntaxCapture environment capture
  let typeNode ←
    semanticNode environment "TypeAnnotation" capture capture.label ownerId ownerQualifiedName []
  let _ ← emitReferenceEdges environment typeNode typeNode.label "type_annotation"
  derivedFrom typeNode.id syntaxId
  pure typeNode

def emitTypeAnnotationLabel (label : String) (sourceCapture : Capture)
    (ownerId ownerQualifiedName : String)
    : Build GraphNodeRow :=
  emitTypeAnnotationCapture environment
    {
      captureName := "type.annotation"
      nodeType := "type"
      label
      text := label
      lineStart := sourceCapture.lineStart
      lineEnd := sourceCapture.lineEnd
      byteStart := sourceCapture.byteStart
      byteEnd := sourceCapture.byteEnd
      fields := []
    }
    ownerId ownerQualifiedName

def emitImport (capture : Capture) (owner : Owner) (syntaxId : String) : Build GraphNodeRow := do
  let imported := capture.label
  let semantic ←
    semanticNode environment "ImportDeclaration" capture imported owner.nodeId ""
      [("imported_name", .string imported)]
  connectOwner environment owner semantic
  let importSourceId :=
    if ["Repository", "SourceRoot", "File", "Module", "Class", "Function", "Method",
        "Component"].contains owner.table then owner.nodeId
    else owner.scopeId
  edgeIfAllowed "Imports" importSourceId semantic.id "declares_import" []
  derivedFrom semantic.id syntaxId
  onlyIf (imported ≠ "") do
    let builder ← get
    let dependency ← supportNode environment "Dependency" imported imported builder.path
    let _ ← edge "DependsOn" semantic.id dependency.id "import_dependency" []
    let _ ← edge "EvidencedBy" dependency.id syntaxId "parser_evidence" []
  pure semantic

def emitDeclaration (table : String) (capture : Capture) (owner : Owner) (syntaxId : String)
    : Build GraphNodeRow := do
  let semantic ←
    semanticNode environment table capture capture.label owner.nodeId owner.qualifiedName []
  connectOwner environment owner semantic
  let lower := environment.unicode.toLowercase table
  let _ ← edge "Defines" owner.nodeId semantic.id ("defines_" ++ lower) []
  onlyIf (["Module", "Scope", "Class", "Function", "Method"].contains owner.table) do
    let _ ← edge "Declares" owner.nodeId semantic.id ("declares_" ++ lower) []
  derivedFrom semantic.id syntaxId
  pure semantic

def emitCall (capture : Capture) (owner : Owner) (syntaxId : String) : Build GraphNodeRow := do
  let call ←
    semanticNode environment "CallExpression" capture capture.label owner.nodeId
      owner.qualifiedName []
  connectOwner environment owner call
  onlyIf (["Function", "Method", "APIEndpoint", "Route", "Component"].contains owner.table)
    (edgeIfAllowed "Calls" owner.nodeId call.id "body_call" [])
  let resolved ← emitReferenceEdges environment call call.label "call"
  ifSome resolved (fun target => edgeIfAllowed "Calls" call.id target.id "call_target" [])
  derivedFrom call.id syntaxId
  pure call

def emitReference (capture : Capture) (owner : Owner) (syntaxId : String)
    : Build GraphNodeRow := do
  let reference ←
    semanticNode environment "Reference" capture capture.label owner.nodeId owner.qualifiedName []
  connectOwner environment owner reference
  let _ ← emitReferenceEdges environment reference reference.label "reference"
  derivedFrom reference.id syntaxId
  pure reference

def emitSimpleSemantic (table : String) (capture : Capture) (owner : Owner) (syntaxId : String)
    : Build GraphNodeRow := do
  let semantic ←
    semanticNode environment table capture capture.label owner.nodeId owner.qualifiedName []
  connectOwner environment owner semantic
  onlyIf (table = "Parameter")
    (edgeIfAllowed "HasParameter" owner.nodeId semantic.id "captured_parameter" [])
  onlyIf (table = "ReturnType") do
    edgeIfAllowed "HasReturnType" owner.nodeId semantic.id "captured_return_type" []
    let typeNode ←
      emitTypeAnnotationLabel environment semantic.label capture semantic.id
        semantic.qualifiedName
    edgeIfAllowed "HasTypeAnnotation" semantic.id typeNode.id "return_type_annotation" []
  onlyIf (table = "TypeAnnotation") do
    edgeIfAllowed "HasTypeAnnotation" owner.nodeId semantic.id "captured_type_annotation" []
    let _ ← emitReferenceEdges environment semantic semantic.label "type_annotation"
  onlyIf (["DocumentationSource", "DocumentationChunk"].contains table) do
    edgeIfAllowed "Documents" semantic.id owner.nodeId "documents_owner" []
    edgeIfAllowed "EvidencedBy" semantic.id syntaxId "parser_evidence" []
  derivedFrom semantic.id syntaxId
  pure semantic

/-- Python captures carry no name. -/
def namedCapture (node : TreeNodeRef) (language : String) : Capture :=
  let capture := treeCapture environment.unicode node
  if language = "python" then { capture with captureName := "" } else capture

def emitTreeImport (node : TreeNodeRef) (owner : Owner) (syntaxId : String)
    : Build GraphNodeRow := do
  let builder ← get
  let capture := namedCapture environment node builder.language
  let capture :=
    match importLabel environment.unicode node with
    | some label => { capture with label }
    | none => capture
  emitImport environment capture owner syntaxId

/-- The target of an assignment and its annotation. -/
def emitAssignmentTarget (node : TreeNodeRef) (capture : Capture) (owner : Owner)
    (syntaxId : String) (assignment : GraphNodeRow) (targetLabel : String)
    : Build PUnit := do
  let targetTable :=
    assignmentTargetTable environment.unicode targetLabel owner capture.nodeType
  let target ←
    semanticNode environment targetTable capture targetLabel owner.nodeId owner.qualifiedName []
  connectOwner environment owner target
  edgeIfAllowed "Defines" owner.nodeId target.id
    ("defines_" ++ environment.unicode.toLowercase targetTable) []
  edgeIfAllowed "Assigns" assignment.id target.id "assignment_target" []
  derivedFrom target.id syntaxId
  ifSome (jsonFieldLabel environment.unicode node "annotation") (fun annotation => do
    let typeNode ←
      emitTypeAnnotationLabel environment annotation capture target.id target.qualifiedName
    edgeIfAllowed "HasTypeAnnotation" target.id typeNode.id "assignment_annotation" [])

def emitTreeAssignment (arena : NativeSyntaxArena) (node : TreeNodeRef) (owner : Owner)
    (syntaxId : String)
    : Build GraphNodeRow := do
  let builder ← get
  let capture := treeCapture environment.unicode node
  let label := if builder.language = "python" then "Assignment" else capture.label
  let assignment ←
    semanticNode environment "Assignment" capture label owner.nodeId owner.qualifiedName []
  connectOwner environment owner assignment
  derivedFrom assignment.id syntaxId
  ifSome (assignmentTargetLabel environment.unicode arena node)
    (emitAssignmentTarget environment node capture owner syntaxId assignment)
  ifSome ((callValueChild arena node).bind arena.getNode) (fun valueNode => do
    let callCapture := treeCapture environment.unicode valueNode
    let callSyntaxId ← syntaxCapture environment callCapture
    let call ← emitCall environment callCapture owner callSyntaxId
    edgeIfAllowed "Assigns" assignment.id call.id "assignment_value" [])
  pure assignment

def emitTreeParameter (arena : NativeSyntaxArena) (callable : GraphNodeRow)
    (numbered : Nat × Nat)
    : Build PUnit := do
  let builder ← get
  ifSome (arena.getNode numbered.1) (fun parameterNode => do
    let named := parameterCapture environment.unicode parameterNode builder.language
    let capture :=
      if named.label = "" then { named with label := "param_" ++ toString numbered.2 } else named
    let syntaxId ← syntaxCapture environment capture
    let parameter ←
      semanticNode environment "Parameter" capture capture.label callable.id
        callable.qualifiedName []
    edgeIfAllowed "HasParameter" callable.id parameter.id "callable_parameter" []
    derivedFrom parameter.id syntaxId
    ifSome (parameterAnnotationCapture environment.unicode arena parameterNode builder.language)
      (fun annotation => do
        let typeNode ←
          emitTypeAnnotationCapture environment annotation parameter.id parameter.qualifiedName
        edgeIfAllowed "HasTypeAnnotation" parameter.id typeNode.id "parameter_annotation" []))

def emitTreeParameters (arena : NativeSyntaxArena) (functionNode : TreeNodeRef)
    (callable : GraphNodeRow)
    : Build PUnit :=
  (parameterChildIds arena functionNode).zipIdx.forM
    (emitTreeParameter environment arena callable)

def emitTreeReturnType (arena : NativeSyntaxArena) (functionNode : TreeNodeRef)
    (callable : GraphNodeRow)
    : Build PUnit := do
  let builder ← get
  ifSome (returnTypeCapture environment.unicode arena functionNode builder.language)
    (fun capture => do
      let syntaxId ← syntaxCapture environment capture
      let returnNode ←
        semanticNode environment "ReturnType" capture capture.label callable.id
          callable.qualifiedName []
      edgeIfAllowed "HasReturnType" callable.id returnNode.id "callable_return_type" []
      let typeNode ←
        emitTypeAnnotationCapture environment capture returnNode.id returnNode.qualifiedName
      edgeIfAllowed "HasTypeAnnotation" returnNode.id typeNode.id "return_type_annotation" []
      derivedFrom returnNode.id syntaxId)

def emitParserLikeMetadataField (node : TreeNodeRef) (owner : Owner) (fieldName : String)
    : Build PUnit :=
  ifSome (parserLikeMetadataCapture node fieldName) (fun capture => do
    let syntaxId ← syntaxCapture environment capture
    ifSome (tableForNodeType capture.nodeType owner) (fun table => do
      let _ ← emitSimpleSemantic environment table capture owner syntaxId))

def emitParserLikeMetadataFields (node : TreeNodeRef) (owner : Owner) : Build PUnit := do
  let builder ← get
  onlyIf (builder.language ≠ "python")
    (["_field_types", "_field_descendant_types"].forM
      (emitParserLikeMetadataField environment node owner))

/-- The semantic node of a table, by the branch of `emit_tree_node` that makes it. -/
def emitSemantic (arena : NativeSyntaxArena) (node : TreeNodeRef) (capture : Capture)
    (owner : Owner) (syntaxId table : String)
    : Build GraphNodeRow := do
  let builder ← get
  if table = "ImportDeclaration" then emitTreeImport environment node owner syntaxId
  else if ["Class", "Function", "Method"].contains table then
    emitDeclaration environment table capture owner syntaxId
  else if table = "Assignment" then emitTreeAssignment environment arena node owner syntaxId
  else if table = "CallExpression" then emitCall environment capture owner syntaxId
  else if table = "Reference" then emitReference environment capture owner syntaxId
  else if table = "Literal" then
    emitSimpleSemantic environment "Literal"
      (if builder.language = "fortran" then (fortranLiteralCapture arena node).getD capture
        else capture)
      owner syntaxId
  else emitSimpleSemantic environment table capture owner syntaxId

/-- The scope of a declaration, its parameters and return type; it owns the nodes below it. -/
def openScope (arena : NativeSyntaxArena) (node : TreeNodeRef) (table : String)
    (fromCapture : Bool) (semantic : GraphNodeRow)
    : Build Owner := do
  let builder ← get
  let scope ← scopeFor environment semantic
  let lower := environment.unicode.toLowercase table
  let _ ← edge "Contains" semantic.id scope.id (lower ++ "_contains_scope") []
  let _ ← edge "HasScope" semantic.id scope.id (lower ++ "_scope") []
  onlyIf
    (["Function", "Method"].contains table && (builder.language = "python" || !fromCapture)) do
      emitTreeParameters environment arena node semantic
      emitTreeReturnType environment arena node semantic
  pure
    {
      nodeId := semantic.id
      table
      qualifiedName := semantic.qualifiedName
      scopeId := scope.id
    }

def emitTreeNode (arena : NativeSyntaxArena) (node : TreeNodeRef) (owner : Owner)
    : Build (Option Owner) := do
  let builder ← get
  let capture := namedCapture environment node builder.language
  let syntaxId ← syntaxCapture environment capture
  let captureTable := tableForCapture capture.captureName owner
  match captureTable.or (tableForNodeType capture.nodeType owner) with
  | none => pure none
  | some table =>
      let semantic ← emitSemantic environment arena node capture owner syntaxId table
      if ["Class", "Function", "Method", "Component"].contains table then
        let inner ← openScope environment arena node table captureTable.isSome semantic
        pure (some inner)
      else pure none

/-- The message where a walk is given too little fuel. -/
def outOfFuel : String := "tree graph is deeper than its arena is long"

def missingNode (id : Nat) : String := "tree graph node " ++ toString id ++ " is missing"

def missingRoot : String := "tree graph root node is missing"

/-- The recursion of `traverse_tree_node`; the fuel bounds its depth. -/
def traverseTreeNode (arena : NativeSyntaxArena) : Nat → Nat → Owner → Build PUnit
  | 0, _, _ => throw outOfFuel
  | fuel + 1, nodeId, owner =>
      match arena.getNode nodeId with
      | none => throw (missingNode nodeId)
      | some node => do
          let nextOwner ← emitTreeNode environment arena node owner
          let childOwner := nextOwner.getD owner
          let builder ← get
          match
            semanticChildIds environment.unicode arena builder.language arena.nodes.length node
          with
          | none => throw outOfFuel
          | some childIds =>
              childIds.forM (fun childId => traverseTreeNode arena fuel childId childOwner)
              emitParserLikeMetadataFields environment node childOwner

/-- The recursion of `materialize_syntax_children`. -/
def materializeSyntaxChildren (arena : NativeSyntaxArena)
    : Nat → TreeNodeRef → String → Build PUnit
  | 0, _, _ => throw outOfFuel
  | fuel + 1, parent, parentSyntaxId =>
      parent.children.zipIdx.forM (fun numbered =>
        match arena.getNode numbered.1 with
        | none => throw (missingNode numbered.1)
        | some child => do
            let childSyntaxId ←
              syntaxCapture environment (treeCapture environment.unicode child)
            syntaxChild parentSyntaxId childSyntaxId child.node.fieldName numbered.2
            materializeSyntaxChildren arena fuel child childSyntaxId)

def materializeSyntaxTree (arena : NativeSyntaxArena) (rootId : Nat) (fileId : String)
    : Build PUnit :=
  match arena.getNode rootId with
  | none => throw missingRoot
  | some root => do
      let rootSyntaxId ← syntaxCapture environment (treeCapture environment.unicode root)
      let _ ← edge "EvidencedBy" fileId rootSyntaxId "syntax_root" []
      materializeSyntaxChildren environment arena arena.nodes.length root rootSyntaxId

/-- The branch of `build_tree` for a root that is a module. -/
def buildModule (arena : NativeSyntaxArena) (root : TreeNodeRef) (file : GraphNodeRow)
    : Build PUnit := do
  let builder ← get
  let rootCapture := treeCapture environment.unicode root
  let syntaxId ← syntaxCapture environment rootCapture
  let moduleNode ←
    semanticNode environment "Module" rootCapture (moduleLabel builder.path) file.id "" []
  let moduleScope ← scopeFor environment moduleNode
  let _ ← edge "Contains" file.id moduleNode.id "file_module" []
  let _ ← edge "Contains" moduleNode.id moduleScope.id "module_contains_scope" []
  let _ ← edge "HasScope" moduleNode.id moduleScope.id "module_scope" []
  onlyIf (shouldDeriveRootModule builder.language root.nodeType)
    (derivedFrom moduleNode.id syntaxId)
  let owner : Owner :=
    {
      nodeId := moduleNode.id
      table := "Module"
      qualifiedName := moduleNode.qualifiedName
      scopeId := moduleScope.id
    }
  root.children.forM (fun childId =>
    traverseTreeNode environment arena arena.nodes.length childId owner)

/-- The branch for any other root. -/
def buildFile (arena : NativeSyntaxArena) (rootId : Nat) (file : GraphNodeRow)
    : Build PUnit := do
  let fileScope ← scopeFor environment file
  let _ ← edge "HasScope" file.id fileScope.id "file_scope" []
  traverseTreeNode environment arena arena.nodes.length rootId
    {
      nodeId := file.id
      table := "File"
      qualifiedName := file.qualifiedName
      scopeId := fileScope.id
    }

def buildTree (arena : NativeSyntaxArena) (rootId : Nat) : Build PUnit :=
  match arena.getNode rootId with
  | none => throw missingRoot
  | some root => do
      let builder ← get
      let repository ←
        supportNode environment "Repository" builder.repositoryLabel builder.repositoryLabel ""
      let source ←
        supportNode environment "SourceRoot" builder.sourceRoot builder.sourceRoot
          builder.sourceRoot
      let file ←
        supportNode environment "File" builder.path (afterLast '/' builder.path) builder.path
      let _ ← edge "Contains" repository.id source.id "repository_source_root" []
      let _ ← edge "Contains" source.id file.id "source_root_file" []
      materializeSyntaxTree environment arena rootId file.id
      if ["Module", "module", "program", "source_file"].contains root.nodeType then
        buildModule environment arena root file
      else buildFile environment arena rootId file

/-- The first part of `build_tree`, which makes the rows above the file. -/
def openTree : Build GraphNodeRow := do
  let builder ← get
  let repository ←
    supportNode environment "Repository" builder.repositoryLabel builder.repositoryLabel ""
  let source ←
    supportNode environment "SourceRoot" builder.sourceRoot builder.sourceRoot
      builder.sourceRoot
  let file ←
    supportNode environment "File" builder.path (afterLast '/' builder.path) builder.path
  let _ ← edge "Contains" repository.id source.id "repository_source_root" []
  let _ ← edge "Contains" source.id file.id "source_root_file" []
  pure file

/-- The syntax layer is made right after, before the walk that finds the declarations. -/
theorem buildTree_eq (arena : NativeSyntaxArena) {rootId : Nat} {root : TreeNodeRef}
    (found : arena.getNode rootId = some root)
    : buildTree environment arena rootId
      = (do
          let file ← openTree environment
          materializeSyntaxTree environment arena rootId file.id
          if ["Module", "module", "program", "source_file"].contains root.nodeType then
            buildModule environment arena root file
          else buildFile environment arena rootId file) := by
  simp only [buildTree, openTree, found, bind_assoc, pure_bind]

def buildSyntaxTreeGraphRows (metadata : Metadata) (root : SyntaxNode)
    : Except String BuiltGraphRows := do
  let builder ← NativeBuilder.new environment metadata
  let arena := NativeSyntaxArena.new root
  let (_, built) ← (buildTree environment arena arena.rootId).run builder
  pure built.intoRows

end CodebaseGraph.Syntax
