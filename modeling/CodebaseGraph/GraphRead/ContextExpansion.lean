import CodebaseGraph.GraphRead.Context

/-! One node of the frontier is expanded: what its relations add to the context, and when nothing
of them is left out.
-/

namespace CodebaseGraph.GraphRead

open CodebaseGraph.Collections

/-- The row as it waits for its turn. -/
def ContextRow.waiting (depth : Nat) (row : ContextRow) : String × String × Nat :=
  (row.id, row.nodeType, depth)

/-- Rows are listed, and their nodes wait unless they lie too deep. -/
structure Lists (depthLimit depth : Nat) (before after : Expansion) (added : List ContextRow)
    : Prop where
  context : after.context = before.context ++ added
  seen : after.seen = before.seen ++ added.map ContextRow.key
  frontier
    : after.frontier
      = before.frontier
        ++ if depth + 1 < depthLimit then added.map (ContextRow.waiting (depth + 1)) else []

section Lists

variable {depthLimit depth : Nat} {before middle after : Expansion} {added more : List ContextRow}

theorem Lists.nothing (same : after.context = before.context) (same' : after.seen = before.seen)
    (same'' : after.frontier = before.frontier)
    : Lists depthLimit depth before after [] := by
  refine ⟨by simp [same], by simp [same'], ?_⟩
  rw [same'', List.map_nil, ite_self, List.append_nil]

theorem Lists.trans (first : Lists depthLimit depth before middle added)
    (second : Lists depthLimit depth middle after more)
    : Lists depthLimit depth before after (added ++ more) := by
  refine ⟨?_, ?_, ?_⟩
  · rw [second.context, first.context, List.append_assoc]
  · rw [second.seen, first.seen, List.map_append, List.append_assoc]
  · rw [second.frontier, first.frontier, List.append_assoc]
    split
    · rw [List.map_append]
    · rfl

theorem Lists.add (row : ContextRow)
    : Lists depthLimit depth before (before.add depthLimit depth row) [row] := by
  refine ⟨rfl, rfl, ?_⟩
  simp only [Expansion.add]
  split
  · rfl
  · rw [List.append_nil]

end Lists

section Adding

variable {contextLimit : Nat}

end Adding

section Expanding

variable {schema : GraphSchema} {graph : Graph schema} {database : Database}
  {contextLimit depthLimit depth : Nat}

/-- A row tells of a relation of the node by one of the followed pairs. -/
def Graph.Tells (graph : Graph schema) (pairs : List (String × Direction)) (node : NodeKey)
    (row : ContextRow)
    : Prop :=
  (row.relation, row.direction) ∈ pairs
  ∧ graph.Related node row.direction row.relation row.node

/-- What the expansion of a node by some relations does, without regard to the frontier. -/
structure Expands (graph : Graph schema) (contextLimit : Nat) (node : NodeKey)
    (pairs : List (String × Direction)) (before after : Expansion) (added : List ContextRow)
    (finished : Bool)
    : Prop where
  asked : before.asked <+: after.asked
  real : ∀ row ∈ added, graph.Tells pairs node row
  distinct : before.seen.Nodup → after.seen.Nodup
  bounded : after.context.length ≤ contextLimit
  full : finished = true → after.context.length = contextLimit
  short : finished = false → after.context.length < contextLimit
  covered
    : finished = false
      → (∀ ask ∈ after.asked, graph.Uncrowded ask)
      → ∀ relation direction neighbor,
          (relation, direction) ∈ pairs
          → graph.Related node direction relation neighbor
          → dedupeKey direction relation neighbor.2 neighbor.1 ∈ after.seen

/-- Relations followed one after another. -/
theorem Expands.trans {node : NodeKey} {pairs others : List (String × Direction)}
    {before middle after : Expansion} {added more : List ContextRow} {finished : Bool}
    (first : Expands graph contextLimit node pairs before middle added false)
    (second : Expands graph contextLimit node others middle after more finished)
    (lists : Lists depthLimit depth middle after more)
    : Expands graph contextLimit node (pairs ++ others) before after (added ++ more) finished where
  asked := first.asked.trans second.asked
  real := by
    intro row member
    rcases List.mem_append.mp member with early | late
    · obtain ⟨followed, related⟩ := first.real row early
      exact ⟨List.mem_append_left _ followed, related⟩
    · obtain ⟨followed, related⟩ := second.real row late
      exact ⟨List.mem_append_right _ followed, related⟩
  distinct := fun unique => second.distinct (first.distinct unique)
  bounded := second.bounded
  full := second.full
  short := second.short
  covered := by
    intro unfinished uncrowded relation direction neighbor member related
    rcases List.mem_append.mp member with early | late
    · rw [lists.seen]
      exact List.mem_append_left _
        (first.covered rfl (fun ask inside => uncrowded ask (second.asked.subset inside)) relation
          direction neighbor early related)
    · exact second.covered unfinished uncrowded relation direction neighbor late related

end Expanding

end CodebaseGraph.GraphRead
