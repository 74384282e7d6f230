import Mathlib.Data.List.Perm.Subperm
import CodebaseGraph.Collections.RankedRuns
import CodebaseGraph.GraphRead.SearchHits

/-! The context of a node (`execute_graph_context` in `src/api/graph_read.rs`): the neighbours of
the node and of the nodes found on the way, one query after another up to the limit of the request.
-/

namespace CodebaseGraph.GraphRead

open CodebaseGraph.Collections

-- The schema and the graph

inductive Direction where
  | outgoing
  | incoming
deriving DecidableEq, Repr

def Direction.text : Direction → String
  | .outgoing => "outgoing"
  | .incoming => "incoming"

structure RelationType where
  name : String
  sourceTypes : List String
  targetTypes : List String
deriving DecidableEq, Repr

structure ContextProfile where
  relations : Option (List String)
  maxDepth : Option Nat
deriving DecidableEq, Repr

/-- The parts of the graph schema that searches read. No name in it has a colon. -/
structure GraphSchema where
  relationTypes : List RelationType
  contextProfiles : List (String × ContextProfile)
  plainName : ∀ relationType ∈ relationTypes, ':' ∉ relationType.name.toList
  plainTypes
    : ∀ relationType ∈ relationTypes,
        ∀ name ∈ relationType.sourceTypes ++ relationType.targetTypes, ':' ∉ name.toList

structure GraphNode where
  id : String
  nodeType : String
  label : String
  qualifiedName : String
  path : String
  lineStart : Option Int
  lineEnd : Option Int
  summary : String
deriving DecidableEq, Repr

structure GraphEdge where
  relation : String
  source : GraphNode
  target : GraphNode
  id : String
  sourceId : String
  targetId : String
  fieldName : String
  childIndex : Option Int
deriving DecidableEq, Repr

def GraphEdge.neighbor (edge : GraphEdge) : Direction → GraphNode
  | .outgoing => edge.target
  | .incoming => edge.source

def GraphEdge.origin (edge : GraphEdge) : Direction → GraphNode
  | .outgoing => edge.source
  | .incoming => edge.target

def GraphSchema.relationType (schema : GraphSchema) (relation : String) : Option RelationType :=
  schema.relationTypes.find? (fun relationType => relationType.name = relation)

/-- The stored edges. Their tables exist only for the types of the schema, and every node has an
id.
-/
structure Graph (schema : GraphSchema) where
  edges : List GraphEdge
  typed
    : ∀ edge ∈ edges,
        ∃ relationType,
          schema.relationType edge.relation = some relationType
          ∧ edge.source.nodeType ∈ relationType.sourceTypes
          ∧ edge.target.nodeType ∈ relationType.targetTypes
  identified
    : ∀ edge ∈ edges,
        ∀ direction, (edge.neighbor direction).id ≠ "" ∧ (edge.neighbor direction).nodeType ≠ ""

-----------------------------------------------------------------------------------------
-- Queries for neighbours
-----------------------------------------------------------------------------------------

structure NeighborStatement where
  nodeType : String
  neighborType : String
  relation : String
  direction : Direction
  nodeId : String
  limit : Nat
deriving DecidableEq, Repr

/-- The edges that a statement matches, without its limit. -/
def Graph.matching {schema : GraphSchema} (graph : Graph schema) (statement : NeighborStatement)
    : List GraphEdge :=
  graph.edges.filter (fun edge =>
    edge.relation = statement.relation
    ∧ (edge.origin statement.direction).nodeType = statement.nodeType
    ∧ (edge.origin statement.direction).id = statement.nodeId
    ∧ (edge.neighbor statement.direction).nodeType = statement.neighborType)

inductive QueryError where
  | missingTarget
  | failed (message : String)
deriving DecidableEq, Repr

/-- What the expansion asks of one node: the neighbours by one relation in one direction, no more
than there is room for, when some rows have been listed already.
-/
structure Ask where
  nodeId : String
  nodeType : String
  relation : String
  direction : Direction
  remaining : Nat
  seen : List String
deriving DecidableEq, Repr

/-- The answers of the database. They may depend on what it has been asked before. -/
abbrev Database := List Ask → NeighborStatement → Except QueryError (List GraphEdge)

structure ContextRow where
  direction : Direction
  relation : String
  layer : String
  nodeType : String
  label : String
  path : String
  lineStart : Option Int
  lineEnd : Option Int
  id : String
  summary : Option String
  evidencePath : Option String
  fieldName : Option String
  childIndex : Option Int
deriving DecidableEq, Repr

/-- The payload of one row of an answer. -/
def contextRow (relation : String) (direction : Direction) (neighborType : String)
    (edge : GraphEdge)
    : ContextRow :=
  let neighbor := edge.neighbor direction
  let label := if neighbor.label.isEmpty then neighbor.qualifiedName else neighbor.label
  let isChild := relation = "SyntaxChild"
  { direction := direction
    relation := relation
    layer := if neighborType = "SyntaxCapture" then "syntax" else "semantic"
    nodeType := neighborType
    label := label
    path := neighbor.path
    lineStart := neighbor.lineStart
    lineEnd := neighbor.lineEnd
    id := neighbor.id
    summary :=
      if !neighbor.summary.isEmpty ∧ neighbor.summary ≠ label then some neighbor.summary else none
    evidencePath :=
      if edge.id.isEmpty then none else some s!"{relation}:{edge.sourceId}->{edge.targetId}"
    fieldName := if isChild ∧ !edge.fieldName.isEmpty then some edge.fieldName else none
    childIndex := if isChild then edge.childIndex else none }

/-- The types that the relation leads to from the node, if it may start there. -/
def neighborTypes (schema : GraphSchema) (relation : String) (direction : Direction)
    (nodeType : String)
    : List String :=
  match schema.relationType relation with
  | none => []
  | some relationType =>
      match direction with
      | .outgoing =>
          if nodeType ∈ relationType.sourceTypes then relationType.targetTypes else []
      | .incoming =>
          if nodeType ∈ relationType.targetTypes then relationType.sourceTypes else []

section Queries

variable (database : Database) (asked : List Ask)

end Queries

-- The expansion

/-- The nodes that wait to be expanded, with what has been listed and asked so far. -/
structure Expansion where
  context : List ContextRow := []
  seen : List String := []
  frontier : List (String × String × Nat) := []
  asked : List Ask := []
deriving DecidableEq, Repr

def dedupeKey (direction : Direction) (relation neighborType neighborId : String) : String :=
  direction.text ++ ":" ++ relation ++ ":" ++ neighborType ++ ":" ++ neighborId

def ContextRow.key (row : ContextRow) : String :=
  dedupeKey row.direction row.relation row.nodeType row.id

/-- A new row is listed, and its node waits for its turn unless it lies too deep. -/
def Expansion.add (expansion : Expansion) (depthLimit depth : Nat) (row : ContextRow) : Expansion :=
  { expansion with
    context := expansion.context ++ [row]
    seen := expansion.seen ++ [row.key]
    frontier :=
      if depth + 1 < depthLimit then expansion.frontier ++ [(row.id, row.nodeType, depth + 1)]
      else expansion.frontier }

section Expanding

variable (database : Database) (schema : GraphSchema) (contextLimit depthLimit : Nat)

def inBothDirections (relations : List String) : List (String × Direction) :=
  relations.flatMap (fun relation => [(relation, .outgoing), (relation, .incoming)])

end Expanding

-----------------------------------------------------------------------------------------
-- The request
-----------------------------------------------------------------------------------------

end CodebaseGraph.GraphRead

/-! What a single query adds to the context of a node. An answer is any choice of as many matching
rows as its limit allows; the limit counts the rows before repeated ones are dropped.
-/

namespace CodebaseGraph.GraphRead

open CodebaseGraph.Collections

/-- A node by its id and its type. -/
abbrev NodeKey := String × String

/-- The database answers with any rows that match, all of them unless the limit cuts them. A table
that is missing has no rows.
-/
def Database.Answers {schema : GraphSchema} (database : Database) (graph : Graph schema) : Prop :=
  ∀ asked statement,
    (∃ rows,
      database asked statement = .ok rows
      ∧ rows.Subperm (graph.matching statement)
      ∧ rows.length = min statement.limit (graph.matching statement).length)
    ∨ (database asked statement = .error .missingTarget ∧ graph.matching statement = [])

section Rows

variable {schema : GraphSchema} (graph : Graph schema)

/-- The relation leads from one node to the other in the direction. -/
def Graph.Related (node : NodeKey) (direction : Direction) (relation : String) (neighbor : NodeKey)
    : Prop :=
  ∃ edge ∈ graph.edges,
    edge.relation = relation
    ∧ ((edge.origin direction).id, (edge.origin direction).nodeType) = node
    ∧ ((edge.neighbor direction).id, (edge.neighbor direction).nodeType) = neighbor

def ContextRow.node (row : ContextRow) : NodeKey := (row.id, row.nodeType)

/-- The rows that match an ask, type by type and without a limit. -/
def Graph.matchingOfType (ask : Ask) (neighborType : String) : List ContextRow :=
  (graph.matching
    { nodeType := ask.nodeType
      neighborType := neighborType
      relation := ask.relation
      direction := ask.direction
      nodeId := ask.nodeId
      limit := 0 }).map
    (contextRow ask.relation ask.direction neighborType)

def Graph.matchingRows (ask : Ask) : List ContextRow :=
  (neighborTypes schema ask.relation ask.direction ask.nodeType).flatMap (graph.matchingOfType ask)

/-- No listed row can crowd out another one: all matching rows fit into the room that is left, or
each of them is new and has a key of its own.
-/
def Graph.Uncrowded (ask : Ask) : Prop :=
  (graph.matchingRows ask).length ≤ ask.remaining
  ∨ (ask.seen ++ (graph.matchingRows ask).map ContextRow.key).Nodup

variable {graph} {ask : Ask} {database : Database}

@[simp] theorem contextRow_relation {relation neighborType : String} {direction : Direction}
    {edge : GraphEdge}
    : (contextRow relation direction neighborType edge).relation = relation := rfl

@[simp] theorem contextRow_direction {relation neighborType : String} {direction : Direction}
    {edge : GraphEdge}
    : (contextRow relation direction neighborType edge).direction = direction := rfl

/-- Every relation of the node matches, for its types are those of the schema. -/
theorem Graph.Related.matches {neighbor : NodeKey}
    (related : graph.Related (ask.nodeId, ask.nodeType) ask.direction ask.relation neighbor)
    : ∃ row ∈ graph.matchingRows ask, row.node = neighbor := by
  obtain ⟨edge, stored, relation, origin, rfl⟩ := related
  obtain ⟨originId, originType⟩ := Prod.mk.inj origin
  obtain ⟨relationType, known, sourceTyped, targetTyped⟩ := graph.typed edge stored
  rw [relation] at known
  have typed
      : (edge.neighbor ask.direction).nodeType
        ∈ neighborTypes schema ask.relation ask.direction ask.nodeType := by
    rw [neighborTypes, known, ← originType]
    cases ask.direction with
    | outgoing =>
        simp only [GraphEdge.origin, sourceTyped, if_true]
        exact targetTyped
    | incoming =>
        simp only [GraphEdge.origin, targetTyped, if_true]
        exact sourceTyped
  refine ⟨contextRow ask.relation ask.direction (edge.neighbor ask.direction).nodeType edge, ?_, rfl⟩
  refine List.mem_flatMap.mpr ⟨_, typed, List.mem_map_of_mem (List.mem_filter.mpr ⟨stored, ?_⟩)⟩
  exact decide_eq_true ⟨relation, originType, originId, rfl⟩

end Rows

end CodebaseGraph.GraphRead
