import CodebaseGraph.Syntax.Tracing
import Mathlib.Data.List.Infix

/-! All states of a graph under construction: what a builder can become by the rows and edges that
the walk adds, and the calls that the edges of references come from.
-/

namespace CodebaseGraph.Syntax

open CodebaseGraph.Collections
open CodebaseGraph.Staging (GraphNodeRow GraphEdgeRow JsonValue)
open CodebaseGraph.Transition

-- Keys of rows

/-- The tables whose rows the files of a repository share. -/
def sharedTables : List String := ["Repository", "SourceRoot", "Dependency"]

/-- The text from which a row's id is made. -/
def canonicalKey (row : GraphNodeRow) : Option String := metadataText row.metadata "canonical_key"

/-- A key that names its file: the path itself, or more behind a bar. -/
def NamesFile (path stableKey : String) : Prop :=
  stableKey = path ∨ ∃ rest, stableKey = path ++ "|" ++ rest

/-- A row as the builder of a file makes it. -/
def Made (path : String) (row : GraphNodeRow) : Prop :=
  ∃ stableKey,
    row.id = graphId row.table stableKey
    ∧ canonicalKey row = some stableKey
    ∧ (row.table ∈ sharedTables ∨ NamesFile path stableKey)

theorem lookup_insertSorted_ne {key other : String} {value : JsonValue}
    {entries : List (String × JsonValue)} (differs : other ≠ key)
    : (insertSorted key value entries).lookup other = entries.lookup other := by
  induction entries with
  | nil => simp [insertSorted, differs]
  | cons entry rest ih =>
      obtain ⟨first, stored⟩ := entry
      rw [insertSorted]
      split_ifs with less same
      · simp [List.lookup_cons, beq_false_of_ne differs]
      · subst same
        simp [List.lookup_cons, beq_false_of_ne differs]
      · simp only [List.lookup_cons, ih]

/-- Further metadata leaves the key. -/
theorem metadataText_metadataOf {stableKey : String} {further : List (String × JsonValue)}
    (others : ∀ entry ∈ further, entry.1 ≠ "canonical_key")
    : metadataText (metadataOf stableKey further) "canonical_key" = some stableKey := by
  have kept (entries : List (String × JsonValue))
      : (further.foldl (fun entries entry => insertSorted entry.1 entry.2 entries)
          entries).lookup "canonical_key"
        = entries.lookup "canonical_key" := by
    induction further generalizing entries with
    | nil => rfl
    | cons entry rest ih =>
        rw [List.foldl_cons, ih (fun other inside => others other (List.mem_cons_of_mem _ inside)),
          lookup_insertSorted_ne (others entry List.mem_cons_self).symm]
  simp only [metadataText, metadataOf, kept]
  rfl

theorem intercalate_namesFile (path second : String) (rest : List String)
    : NamesFile path ("|".intercalate (path :: second :: rest)) := by
  refine Or.inr ⟨"|".intercalate (second :: rest), ?_⟩
  rw [String.intercalate_cons_of_ne_nil (List.cons_ne_nil _ _)]

-----------------------------------------------------------------------------------------
-- States

/-- A builder after `add_node`. -/
def NativeBuilder.withNode (environment : Environment) (builder : NativeBuilder)
    (row : GraphNodeRow)
    : NativeBuilder :=
  let nodes := builder.nodes.orInsert row
  { builder with
    nodes
    symbolsByName :=
      registerResolvable environment builder.symbolsByName ((nodes.get? row.id).getD row) }

/-- A builder after `edge`. -/
def NativeBuilder.withEdge (builder : NativeBuilder) (row : GraphEdgeRow) : NativeBuilder :=
  { builder with edges := builder.edges.orInsert row }

/-- A builder after an edge was given a field and the place of a child. -/
def NativeBuilder.withPlace (builder : NativeBuilder) (id : String) (fieldName : Option String)
    (childIndex : Nat)
    : NativeBuilder :=
  { builder with
    edges :=
      builder.edges.modify id
        (fun row => { row with fieldName, childIndex := some (childIndex : Int) })
        (id_placed fieldName childIndex) }

/-- An edge that leads from a reference to what it was resolved to. -/
def Resolving (edgeType kind : String) : Prop :=
  edgeType = "References" ∨ edgeType = "ResolvesTo" ∨ (edgeType = "Calls" ∧ kind = "call_target")

/-- The builders that a fresh one can become. An edge of a reference leads from a node to what an
earlier call of `resolve_reference_target` has found for the label of that node.
-/
inductive Building (environment : Environment) (fresh : NativeBuilder) : NativeBuilder → Prop
  | start : Building environment fresh fresh
  | node {builder : NativeBuilder} {row : GraphNodeRow} (earlier : Building environment fresh builder)
      (made : Made builder.path row)
      : Building environment fresh (builder.withNode environment row)
  | edge {builder : NativeBuilder} {edgeType kind : String} (sourceId targetId : String)
      (further : List (String × JsonValue)) (earlier : Building environment fresh builder)
      (plain : ¬ Resolving edgeType kind)
      : Building environment fresh
          (builder.withEdge (edgeRow edgeType sourceId targetId kind further))
  | reference {builder before after : NativeBuilder} {source target : GraphNodeRow}
      (edgeType kind : String) (further : List (String × JsonValue))
      (earlier : Building environment fresh builder)
      (stored : builder.nodes.get? source.id = some source)
      (started : Building environment fresh before)
      (grown : before.nodes.rows <+: builder.nodes.rows)
      (called : (resolveReferenceTarget environment source.label).run before
        = .ok (some target, after))
      : Building environment fresh
          (builder.withEdge (edgeRow edgeType source.id target.id kind further))
  | place {builder : NativeBuilder} (id : String) (fieldName : Option String) (childIndex : Nat)
      (earlier : Building environment fresh builder)
      : Building environment fresh (builder.withPlace id fieldName childIndex)

section

variable {environment : Environment} {fresh builder : NativeBuilder}

theorem Building.path_eq (building : Building environment fresh builder)
    : builder.path = fresh.path := by
  induction building with
  | start => rfl
  | node _ _ ih => exact ih
  | edge _ _ _ _ _ ih => exact ih
  | reference _ _ _ _ _ _ _ _ ih => exact ih
  | place _ _ _ _ ih => exact ih

theorem rows_withNode (builder : NativeBuilder) (row : GraphNodeRow)
    : builder.nodes.rows <+: (builder.withNode environment row).nodes.rows := by
  rw [NativeBuilder.withNode]
  cases found : builder.nodes.get? row.id with
  | some stored =>
      rw [Keyed.orInsert_of_some found]
  | none =>
      rw [Keyed.rows_orInsert_of_none found]
      exact List.prefix_append _ _

/-- What a call for a label has found in the past of a state. -/
def Found (environment : Environment) (fresh builder : NativeBuilder) (label targetId : String)
    : Prop :=
  ∃ before after target,
    Building environment fresh before
    ∧ before.nodes.rows <+: builder.nodes.rows
    ∧ (resolveReferenceTarget environment label).run before = .ok (some target, after)
    ∧ target.id = targetId

theorem Found.mono {first second : NativeBuilder} {label targetId : String}
    (grown : first.nodes.rows <+: second.nodes.rows)
    (found : Found environment fresh first label targetId)
    : Found environment fresh second label targetId := by
  obtain ⟨before, after, target, started, kept, called, same⟩ := found
  exact ⟨before, after, target, started, kept.trans grown, called, same⟩

theorem get?_of_prefix {first second : NativeBuilder} {row : GraphNodeRow}
    (grown : first.nodes.rows <+: second.nodes.rows)
    (stored : first.nodes.get? row.id = some row)
    : second.nodes.get? row.id = some row :=
  Keyed.get?_eq_some_iff.mpr ⟨grown.subset (Keyed.get?_eq_some_iff.mp stored).1, rfl⟩

/-- An edge of a reference leads from a node to what a call for its label has found. -/
def Referring (environment : Environment) (fresh builder : NativeBuilder) (edge : GraphEdgeRow)
    : Prop :=
  ∃ source : GraphNodeRow,
    builder.nodes.get? source.id = some source
    ∧ source.id = edge.sourceId
    ∧ Found environment fresh builder source.label edge.targetId

theorem Building.referring (building : Building environment fresh builder)
    (empty : fresh.edges.rows = [])
    : ∀ edge ∈ builder.edges.rows,
        Resolving edge.edgeType edge.kind → Referring environment fresh builder edge := by
  induction building with
  | start =>
      intro edge inside
      rw [empty] at inside
      exact absurd inside List.not_mem_nil
  | @node builder row earlier made ih =>
      intro edge inside resolving
      have grown : builder.nodes.rows <+: (builder.withNode environment row).nodes.rows :=
        rows_withNode builder row
      obtain ⟨source, stored, same, found⟩ := ih edge inside resolving
      exact ⟨source, get?_of_prefix grown stored, same, found.mono grown⟩
  | edge sourceId targetId further earlier plain ih =>
      intro edge inside resolving
      rcases Keyed.mem_orInsert inside with old | rfl
      · exact ih edge old resolving
      · exact absurd resolving plain
  | reference edgeType kind further earlier stored started grown called ih =>
      intro edge inside resolving
      rcases Keyed.mem_orInsert inside with old | rfl
      · exact ih edge old resolving
      · exact ⟨_, stored, rfl, _, _, _, started, grown, called, rfl⟩
  | place id fieldName childIndex earlier ih =>
      intro edge inside resolving
      obtain ⟨before, member, rfl | rfl⟩ := Keyed.mem_modify (by intro row; rfl) inside
      · exact ih _ member resolving
      · exact ih before member resolving

end

end CodebaseGraph.Syntax
