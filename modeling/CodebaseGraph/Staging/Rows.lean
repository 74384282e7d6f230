import Mathlib.Data.Nat.Notation

/-! Graph rows, the staged rows made of them and how rows of one identity merge
(`src/syntax_materializer/rows.rs`, `src/staging_writer/rows.rs`, `merge.rs`).
-/

namespace CodebaseGraph.Staging

/-- A JSON value; a number is kept as its text. -/
inductive JsonValue where
  | null
  | bool (value : Bool)
  | number (text : String)
  | string (value : String)
  | array (items : List JsonValue)
  | object (fields : List (String × JsonValue))

structure GraphNodeRow where
  id : String
  table : String
  label : String
  kind : String
  language : String
  grammarVersion : Option String
  path : String
  qualifiedName : String
  scopeId : String
  lineStart : Option Int
  lineEnd : Option Int
  byteStart : Option Int
  byteEnd : Option Int
  treeSitterNodeType : String
  captureName : String
  summary : String
  metadata : JsonValue

structure GraphEdgeRow where
  id : String
  edgeType : String
  sourceId : String
  targetId : String
  kind : String
  confidence : Float
  fieldName : Option String
  childIndex : Option Int
  lineStart : Option Int
  lineEnd : Option Int
  byteStart : Option Int
  byteEnd : Option Int
  metadata : JsonValue

/-- The one field of a manifest entry that staging reads. -/
structure ManifestEntry where
  contentHash : String

structure GraphPartition where
  entry : ManifestEntry
  nodes : List GraphNodeRow
  edges : List GraphEdgeRow

structure NodeStagedRow where
  id : String
  label : String
  kind : String
  language : String
  grammarVersion : Option String
  path : String
  qualifiedName : String
  scopeId : String
  lineStart : Option Int
  lineEnd : Option Int
  byteStart : Option Int
  byteEnd : Option Int
  treeSitterNodeType : String
  captureName : String
  summary : String
  text : String
  metadata : JsonValue
  contentHash : Option String

structure EdgeStagedRow where
  id : String
  kind : String
  sourceId : String
  targetId : String
  confidence : Float
  fieldName : Option String
  childIndex : Option Int
  lineStart : Option Int
  lineEnd : Option Int
  byteStart : Option Int
  byteEnd : Option Int
  metadata : JsonValue

/-- The text column starts as a copy of the summary. -/
def nodeFields (node : GraphNodeRow) (contentHash : Option String) : NodeStagedRow :=
  {
    id := node.id
    label := node.label
    kind := node.kind
    language := node.language
    grammarVersion := node.grammarVersion
    path := node.path
    qualifiedName := node.qualifiedName
    scopeId := node.scopeId
    lineStart := node.lineStart
    lineEnd := node.lineEnd
    byteStart := node.byteStart
    byteEnd := node.byteEnd
    treeSitterNodeType := node.treeSitterNodeType
    captureName := node.captureName
    summary := node.summary
    text := node.summary
    metadata := node.metadata
    contentHash
  }

def edgeFields (edge : GraphEdgeRow) : EdgeStagedRow :=
  {
    id := edge.id
    kind := edge.kind
    sourceId := edge.sourceId
    targetId := edge.targetId
    confidence := edge.confidence
    fieldName := edge.fieldName
    childIndex := edge.childIndex
    lineStart := edge.lineStart
    lineEnd := edge.lineEnd
    byteStart := edge.byteStart
    byteEnd := edge.byteEnd
    metadata := edge.metadata
  }

def mergeString (existing incoming : String) : String :=
  if existing.isEmpty && !incoming.isEmpty then incoming else existing

def mergeOptionalString (existing incoming : Option String) : Option String :=
  match incoming with
  | none => existing
  | some text =>
      if !text.isEmpty && existing.all (fun current => current.isEmpty) then some text
      else existing

def mergeOptionalI64 (existing incoming : Option Int) : Option Int :=
  if existing.isNone && incoming.isSome then incoming else existing

def jsonValueIsEmpty : JsonValue → Bool
  | .null => true
  | .string value => value.isEmpty
  | .array items => items.isEmpty
  | .object fields => fields.isEmpty
  | .bool _ | .number _ => false

def mergeValue (existing incoming : JsonValue) : JsonValue :=
  if jsonValueIsEmpty existing && !jsonValueIsEmpty incoming then incoming else existing

/-- The machine epsilon of 64-bit floating point numbers. -/
def f64Epsilon : Float := 2.220446049250313e-16

/-- The default confidence of one gives way to a differing one. -/
def mergeConfidence (existing incoming : Float) : Float :=
  if Float.abs (existing - 1.0) < f64Epsilon ∧ f64Epsilon ≤ Float.abs (incoming - 1.0) then
    incoming
  else existing

/-- Fields that are still empty are filled; the text column is not merged. -/
def mergeNodeValue (existing incoming : NodeStagedRow) : NodeStagedRow :=
  {
    id := mergeString existing.id incoming.id
    label := mergeString existing.label incoming.label
    kind := mergeString existing.kind incoming.kind
    language := mergeString existing.language incoming.language
    grammarVersion := mergeOptionalString existing.grammarVersion incoming.grammarVersion
    path := mergeString existing.path incoming.path
    qualifiedName := mergeString existing.qualifiedName incoming.qualifiedName
    scopeId := mergeString existing.scopeId incoming.scopeId
    lineStart := mergeOptionalI64 existing.lineStart incoming.lineStart
    lineEnd := mergeOptionalI64 existing.lineEnd incoming.lineEnd
    byteStart := mergeOptionalI64 existing.byteStart incoming.byteStart
    byteEnd := mergeOptionalI64 existing.byteEnd incoming.byteEnd
    treeSitterNodeType := mergeString existing.treeSitterNodeType incoming.treeSitterNodeType
    captureName := mergeString existing.captureName incoming.captureName
    summary := mergeString existing.summary incoming.summary
    text := existing.text
    metadata := mergeValue existing.metadata incoming.metadata
    contentHash := mergeOptionalString existing.contentHash incoming.contentHash
  }

def mergeEdgeValue (existing incoming : EdgeStagedRow) : EdgeStagedRow :=
  {
    id := mergeString existing.id incoming.id
    kind := mergeString existing.kind incoming.kind
    sourceId := mergeString existing.sourceId incoming.sourceId
    targetId := mergeString existing.targetId incoming.targetId
    confidence := mergeConfidence existing.confidence incoming.confidence
    fieldName := mergeOptionalString existing.fieldName incoming.fieldName
    childIndex := mergeOptionalI64 existing.childIndex incoming.childIndex
    lineStart := mergeOptionalI64 existing.lineStart incoming.lineStart
    lineEnd := mergeOptionalI64 existing.lineEnd incoming.lineEnd
    byteStart := mergeOptionalI64 existing.byteStart incoming.byteStart
    byteEnd := mergeOptionalI64 existing.byteEnd incoming.byteEnd
    metadata := mergeValue existing.metadata incoming.metadata
  }

end CodebaseGraph.Staging
