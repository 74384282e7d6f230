import CodebaseGraph.Collections.SortedMap
import CodebaseGraph.Hashing.Sha1
import CodebaseGraph.Sorting.Cursors
import CodebaseGraph.Staging.Rows
import CodebaseGraph.Syntax.Capture
import CodebaseGraph.Syntax.Relations
import CodebaseGraph.Transition.Growing

/-! The rows of one file's graph while they are built: nodes and edges under their ids and the
nodes that names resolve to (`src/syntax_materializer/builder/mod.rs`, `nodes.rs`, `edges.rs`).
-/

namespace CodebaseGraph.Syntax

open CodebaseGraph.Collections
open CodebaseGraph.Hashing
open CodebaseGraph.Protocol
open CodebaseGraph.Sorting (sortBy)
open CodebaseGraph.Staging (GraphNodeRow GraphEdgeRow JsonValue)
open CodebaseGraph.Transition

/-- What the builder calls outside its sources: text functions and the JSON of relation types.
-/
structure Environment where
  unicode : UnicodeFunctions
  encodeRelations : List OntologyRelationType → String
  decodeRelations : String → Except String (List OntologyRelationType)

/-- A map from metadata keys to values. -/
abbrev Metadata := List (String × String)

structure NativeBuilder where
  path : String
  language : String
  grammarVersion : Option String
  sourceRoot : String
  repositoryLabel : String
  nodes : Keyed GraphNodeRow GraphNodeRow.id
  edges : Keyed GraphEdgeRow GraphEdgeRow.id
  symbolsByName : String → List String
  relationAllowlist : RelationAllowlist

abbrev Build := StateT NativeBuilder (Except String)

def graphId (start value : String) : String := start ++ ":" ++ sha1Hex value

/-- The allowlist of the metadata; relations that do not decode are an error. -/
def relationAllowlistFromMeta (environment : Environment) (metadata : Metadata)
    : Except String RelationAllowlist :=
  match metadata.lookup "ontology_relations" with
  | none => .ok (.fromMeta none)
  | some encoded =>
      match environment.decodeRelations encoded with
      | .error problem => .error ("invalid ontology_relations metadata: " ++ problem)
      | .ok relations => .ok (.fromMeta (some relations))

def NativeBuilder.new (environment : Environment) (metadata : Metadata)
    : Except String NativeBuilder := do
  let relationAllowlist ← relationAllowlistFromMeta environment metadata
  pure
    {
      path := (metadata.lookup "path").getD ""
      language := (metadata.lookup "language").getD ""
      grammarVersion :=
        (metadata.lookup "grammar_version").filter
          (fun version => environment.unicode.trim version ≠ "")
      sourceRoot := (metadata.lookup "source_root").getD ""
      repositoryLabel := (metadata.lookup "repository_label").getD "repository"
      nodes := Keyed.empty
      edges := Keyed.empty
      symbolsByName := fun _ => []
      relationAllowlist
    }

/-- The metadata of a row: its canonical key and further entries. -/
def metadataOf (canonicalKey : String) (further : List (String × JsonValue)) : JsonValue :=
  .object
    (further.foldl (fun entries entry => insertSorted entry.1 entry.2 entries)
      [("canonical_key", .string canonicalKey)])

/-- A text entry of the metadata. -/
def metadataText (metadata : JsonValue) (key : String) : Option String :=
  match metadata with
  | .object entries =>
      match entries.lookup key with
      | some (.string text) => some text
      | _ => none
  | _ => none

def importedName (node : GraphNodeRow) : String :=
  (metadataText node.metadata "imported_name").getD ""

variable (environment : Environment)

/-- One name under which a node is found; a name without letters is none. -/
def registerName (node : GraphNodeRow) (symbols : String → List String) (name : String)
    : String → List String :=
  let normalized := symbolKey environment.unicode name
  if normalized = "" ∨ node.id ∈ symbols normalized then symbols
  else fun key => if key = normalized then symbols key ++ [node.id] else symbols key

def registerResolvable (symbols : String → List String) (node : GraphNodeRow)
    : String → List String :=
  if ["Symbol", "Module", "Class", "Function", "Method", "Variable", "Constant",
      "Dependency"].contains node.table then
    [node.label, node.qualifiedName, importedName node].foldl (registerName environment node)
      symbols
  else symbols

/-- The row that was there first stays. -/
def addNode (node : GraphNodeRow) : Build GraphNodeRow :=
  modifyGet (fun builder =>
    let nodes := builder.nodes.orInsert node
    let added := (nodes.get? node.id).getD node
    (added,
      { builder with
        nodes,
        symbolsByName := registerResolvable environment builder.symbolsByName added }))

def supportNode (table stableKey label path : String) : Build GraphNodeRow :=
  addNode environment
    {
      id := graphId table stableKey
      table
      label
      kind := environment.unicode.toLowercase table
      language := ""
      grammarVersion := none
      path
      qualifiedName := ""
      scopeId := ""
      lineStart := none
      lineEnd := none
      byteStart := none
      byteEnd := none
      treeSitterNodeType := ""
      captureName := ""
      summary := label
      metadata := metadataOf stableKey []
    }

def semanticNode (table : String) (capture : Capture) (label ownerId ownerQualifiedName : String)
    (further : List (String × JsonValue))
    : Build GraphNodeRow := do
  let builder ← get
  let name := qualifiedName ownerQualifiedName label
  let stableKey :=
    "|".intercalate
      [builder.path, table, name, capture.nodeType, stableOptionalI64 capture.lineStart,
        stableOptionalI64 capture.byteStart, label]
  let trimmed := environment.unicode.trim capture.text
  addNode environment
    {
      id := graphId table stableKey
      table
      label
      kind := kindFor table capture.nodeType
      language := builder.language
      grammarVersion := none
      path := builder.path
      qualifiedName := name
      scopeId := ownerId
      lineStart := capture.lineStart
      lineEnd := capture.lineEnd
      byteStart := capture.byteStart
      byteEnd := capture.byteEnd
      treeSitterNodeType := capture.nodeType
      captureName := capture.captureName
      summary :=
        if ["DocumentationSource", "DocumentationChunk"].contains table ∧ trimmed ≠ "" then
          trimmed
        else label
      metadata := metadataOf stableKey further
    }

def symbolNode (label : String) : Build GraphNodeRow := do
  let builder ← get
  let trimmed := environment.unicode.trim label
  let stableKey := builder.path ++ "|Symbol|" ++ trimmed
  addNode environment
    {
      id := graphId "Symbol" stableKey
      table := "Symbol"
      label := trimmed
      kind := "symbol_reference"
      language := builder.language
      grammarVersion := none
      path := builder.path
      qualifiedName := trimmed
      scopeId := ""
      lineStart := none
      lineEnd := none
      byteStart := none
      byteEnd := none
      treeSitterNodeType := ""
      captureName := ""
      summary := trimmed
      metadata := metadataOf stableKey [("resolution", .string "name_placeholder")]
    }

def scopeFor (owner : GraphNodeRow) : Build GraphNodeRow := do
  let builder ← get
  let stableKey := builder.path ++ "|" ++ owner.id ++ "|scope"
  addNode environment
    {
      id := graphId "Scope" stableKey
      table := "Scope"
      label := owner.label ++ " scope"
      kind := environment.unicode.toLowercase owner.table ++ "_scope"
      language := owner.language
      grammarVersion := none
      path := owner.path
      qualifiedName :=
        (if owner.qualifiedName = "" then owner.label else owner.qualifiedName) ++ ".<scope>"
      scopeId := owner.id
      lineStart := owner.lineStart
      lineEnd := owner.lineEnd
      byteStart := owner.byteStart
      byteEnd := owner.byteEnd
      treeSitterNodeType := ""
      captureName := ""
      summary := "Scope for " ++ owner.label
      metadata := metadataOf stableKey []
    }

/-- The id of the capture's node, which is added unless it is there. -/
def syntaxCapture (capture : Capture) : Build String := do
  let builder ← get
  let stableKey :=
    "|".intercalate
      [builder.path, capture.nodeType, stableOptionalI64 capture.lineStart,
        stableOptionalI64 capture.byteStart, capture.label]
  let syntaxId := graphId "SyntaxCapture" stableKey
  if (builder.nodes.get? syntaxId).isSome then pure syntaxId
  else
    let _ ←
      addNode environment
        {
          id := syntaxId
          table := "SyntaxCapture"
          label := if capture.captureName = "" then capture.nodeType else capture.captureName
          kind := capture.nodeType
          language := builder.language
          grammarVersion := builder.grammarVersion
          path := builder.path
          qualifiedName := ""
          scopeId := ""
          lineStart := capture.lineStart
          lineEnd := capture.lineEnd
          byteStart := capture.byteStart
          byteEnd := capture.byteEnd
          treeSitterNodeType := capture.nodeType
          captureName := capture.captureName
          summary := String.ofList (capture.text.toList.take 160)
          metadata :=
            metadataOf stableKey [("fields", .array (capture.fields.map JsonValue.string))]
        }
    pure syntaxId

omit environment

/-- The row of an edge before it is stored. -/
def edgeRow (edgeType sourceId targetId kind : String) (further : List (String × JsonValue))
    : GraphEdgeRow :=
  let canonicalKey := edgeType ++ "|" ++ sourceId ++ "|" ++ targetId ++ "|" ++ kind
  {
    id := graphId "edge" canonicalKey
    edgeType
    sourceId
    targetId
    kind
    confidence := 1.0
    fieldName := none
    childIndex := none
    lineStart := none
    lineEnd := none
    byteStart := none
    byteEnd := none
    metadata := metadataOf canonicalKey further
  }

def relationError (edgeType sourceTable targetTable : String) : String :=
  "relation " ++ edgeType ++ " does not allow " ++ sourceTable ++ " -> " ++ targetTable

/-- The tables of two ends that are both known must be allowed; an unknown end is not checked.
-/
def checkRelation (edgeType sourceId targetId : String) : Build PUnit := do
  let builder ← get
  match builder.nodes.get? sourceId, builder.nodes.get? targetId with
  | some source, some target =>
      if builder.relationAllowlist.allows edgeType source.table target.table then pure ⟨⟩
      else throw (relationError edgeType source.table target.table)
  | _, _ => pure ⟨⟩

def edge (edgeType sourceId targetId kind : String) (further : List (String × JsonValue))
    : Build GraphEdgeRow := do
  checkRelation edgeType sourceId targetId
  let row := edgeRow edgeType sourceId targetId kind further
  modifyGet (fun builder =>
    let edges := builder.edges.orInsert row
    ((edges.get? row.id).getD row, { builder with edges }))

def edgeIfAllowed (edgeType sourceId targetId kind : String)
    (further : List (String × JsonValue))
    : Build PUnit := do
  let builder ← get
  match builder.nodes.get? sourceId, builder.nodes.get? targetId with
  | some source, some target =>
      onlyIf (builder.relationAllowlist.allows edgeType source.table target.table) do
        let _ ← edge edgeType sourceId targetId kind further
  | _, _ => pure ⟨⟩

def derivedFrom (semanticId syntaxId : String) : Build PUnit := do
  let builder ← get
  onlyIf (builder.nodes.get? syntaxId).isSome do
    let _ ← edge "DerivedFrom" semanticId syntaxId "parser_capture" []

theorem id_placed (fieldName : Option String) (childIndex : Nat) (row : GraphEdgeRow)
    : ({ row with fieldName, childIndex := some (childIndex : Int) } : GraphEdgeRow).id = row.id :=
  rfl

def syntaxChild (parentId childId : String) (fieldName : Option String) (childIndex : Nat)
    : Build PUnit := do
  let stored ← edge "SyntaxChild" parentId childId "syntax_child" []
  modifyGet (fun builder =>
    (⟨⟩,
      { builder with
        edges :=
          builder.edges.modify stored.id
            (fun row => { row with fieldName, childIndex := some (childIndex : Int) })
            (id_placed fieldName childIndex) }))

def connectOwner (environment : Environment) (owner : Owner) (semantic : GraphNodeRow)
    : Build PUnit := do
  let kind := environment.unicode.toLowercase semantic.table
  let _ ← edge "Contains" owner.nodeId semantic.id ("contains_" ++ kind) []
  onlyIf (owner.scopeId ≠ "") do
    let _ ← edge "Contains" owner.scopeId semantic.id ("scope_contains_" ++ kind) []

structure BuiltGraphRows where
  nodes : List GraphNodeRow
  edges : List GraphEdgeRow

def NativeBuilder.intoRows (builder : NativeBuilder) : BuiltGraphRows where
  nodes := sortBy (fun row => toLex (row.table, row.id)) builder.nodes.rows
  edges := sortBy (fun row => toLex (row.edgeType, row.id)) builder.edges.rows

end CodebaseGraph.Syntax
