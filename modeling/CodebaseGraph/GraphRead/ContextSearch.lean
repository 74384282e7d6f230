import CodebaseGraph.GraphRead.ContextExpansion

/-! The whole expansion of a node. It ends, every listed row is real, and as long as no answer is
crowded by rows that are dropped, a context that is not full leaves nothing out.
-/

namespace CodebaseGraph.GraphRead

open CodebaseGraph.Collections

-- Keys

/-- What stands before the first divider is determined by the whole. -/
theorem divided_inj {α : Type} {divider : α} {left left' right right' : List α}
    (outside : divider ∉ left) (outside' : divider ∉ left')
    (same : left ++ divider :: right = left' ++ divider :: right')
    : left = left' ∧ right = right' := by
  rcases List.append_eq_append_iff.mp same with ⟨more, grown, rest⟩ | ⟨more, grown, rest⟩
  · cases more with
    | nil => exact ⟨by simpa using grown.symm, by simpa using rest⟩
    | cons head tail =>
        obtain ⟨rfl, -⟩ := List.cons.inj rest
        exact absurd (by simp [grown]) outside'
  · cases more with
    | nil => exact ⟨by simpa using grown, by simpa using rest.symm⟩
    | cons head tail =>
        obtain ⟨rfl, -⟩ := List.cons.inj rest
        exact absurd (by simp [grown]) outside

theorem Direction.text_inj {direction direction' : Direction} (same : direction.text = direction'.text)
    : direction = direction' := by
  cases direction <;> cases direction' <;> first | rfl | exact absurd same (by decide)

theorem Direction.text_plain (direction : Direction) : ':' ∉ direction.text.toList := by
  cases direction <;> decide

/-- The parts of a key can be read off it, for only an id may have a colon. -/
theorem dedupeKey_inj {direction direction' : Direction}
    {relation relation' nodeType nodeType' id id' : String}
    (plain : ':' ∉ relation.toList ∧ ':' ∉ nodeType.toList)
    (plain' : ':' ∉ relation'.toList ∧ ':' ∉ nodeType'.toList)
    (same : dedupeKey direction relation nodeType id = dedupeKey direction' relation' nodeType' id')
    : direction = direction' ∧ relation = relation' ∧ nodeType = nodeType' ∧ id = id' := by
  have spelled (direction : Direction) (relation nodeType id : String)
      : (dedupeKey direction relation nodeType id).toList
        = direction.text.toList
          ++ ':' :: (relation.toList ++ ':' :: (nodeType.toList ++ ':' :: id.toList)) := by
    simp only [dedupeKey, String.toList_append, List.append_assoc]
    rfl
  have same := congrArg String.toList same
  rw [spelled, spelled] at same
  obtain ⟨directions, same⟩ := divided_inj direction.text_plain direction'.text_plain same
  obtain ⟨relations, same⟩ := divided_inj plain.1 plain'.1 same
  obtain ⟨types, ids⟩ := divided_inj plain.2 plain'.2 same
  exact ⟨Direction.text_inj (String.toList_inj.mp directions), String.toList_inj.mp relations,
    String.toList_inj.mp types, String.toList_inj.mp ids⟩

variable {schema : GraphSchema} {graph : Graph schema}

/-- What is related is named as the schema names it. -/
theorem Graph.Related.plain {node neighbor : NodeKey} {direction : Direction} {relation : String}
    (related : graph.Related node direction relation neighbor)
    : ':' ∉ relation.toList ∧ ':' ∉ neighbor.2.toList := by
  obtain ⟨edge, stored, rfl, -, rfl⟩ := related
  obtain ⟨relationType, known, sourceTyped, targetTyped⟩ := graph.typed edge stored
  have member := List.mem_of_find?_eq_some known
  have named : relationType.name = edge.relation := by simpa using List.find?_some known
  refine ⟨named ▸ schema.plainName relationType member, ?_⟩
  cases direction with
  | outgoing =>
      exact schema.plainTypes relationType member _ (List.mem_append_right _ targetTyped)
  | incoming => exact schema.plainTypes relationType member _ (List.mem_append_left _ sourceTyped)

-- Sound expansions

/-- The node lies so many relations away from the start. -/
inductive Graph.Within (graph : Graph schema) (relations : List String) (start : NodeKey)
    : Nat → NodeKey → Prop where
  | start : graph.Within relations start 0 start
  | step {distance : Nat} {node neighbor : NodeKey} {direction : Direction} {relation : String}
    (reached : graph.Within relations start distance node) (followed : relation ∈ relations)
    (related : graph.Related node direction relation neighbor)
    : graph.Within relations start (distance + 1) neighbor

/-- An entry of the frontier as a node. -/
def entryNode (entry : String × String × Nat) : NodeKey := (entry.1, entry.2.1)

theorem mem_inBothDirections {relations : List String} {relation : String} {direction : Direction}
    : (relation, direction) ∈ inBothDirections relations ↔ relation ∈ relations := by
  cases direction <;> simp [inBothDirections]

variable (graph) in
/-- What holds of an expansion throughout. -/
structure Sound (relations : List String) (contextLimit depthLimit : Nat) (start : NodeKey)
    (expansion : Expansion)
    : Prop where
  keys : expansion.seen = expansion.context.map ContextRow.key
  distinct : expansion.seen.Nodup
  bounded : expansion.context.length ≤ contextLimit
  real
    : ∀ row ∈ expansion.context,
        ∃ distance node,
          distance < depthLimit
          ∧ graph.Within relations start distance node
          ∧ graph.Tells (inBothDirections relations) node row
  waiting
    : ∀ entry ∈ expansion.frontier,
        entry.2.2 < depthLimit ∧ graph.Within relations start entry.2.2 (entryNode entry)

section Rounds

variable {relations : List String} {contextLimit depthLimit : Nat} {start : NodeKey}
  {expansion after : Expansion} {nodeId nodeType : String} {depth : Nat}
  {waiting done : List (String × String × Nat)} {current : Nat} {added : List ContextRow}
  {finished : Bool}

/-- The first entry is taken off the frontier. -/
theorem Sound.pop (sound : Sound graph relations contextLimit depthLimit start expansion)
    (next : expansion.frontier = (nodeId, nodeType, depth) :: waiting)
    : Sound graph relations contextLimit depthLimit start { expansion with frontier := waiting } :=
  { sound with
    waiting := fun entry member => sound.waiting entry (next ▸ List.mem_cons_of_mem _ member) }

theorem Sound.round (sound : Sound graph relations contextLimit depthLimit start expansion)
    (next : expansion.frontier = (nodeId, nodeType, depth) :: waiting)
    (lists : Lists depthLimit depth { expansion with frontier := waiting } after added)
    (expands
      : Expands graph contextLimit (nodeId, nodeType) (inBothDirections relations)
          { expansion with frontier := waiting } after added finished)
    : Sound graph relations contextLimit depthLimit start after := by
  obtain ⟨shallow, reached⟩ := sound.waiting (nodeId, nodeType, depth) (by simp [next])
  refine ⟨?_, expands.distinct sound.distinct, expands.bounded, ?_, ?_⟩
  · rw [lists.seen, lists.context, List.map_append, sound.keys]
  · intro row member
    rw [lists.context] at member
    rcases List.mem_append.mp member with old | new
    · exact sound.real row old
    · exact ⟨depth, _, shallow, reached, expands.real row new⟩
  · intro entry member
    rw [lists.frontier] at member
    rcases List.mem_append.mp member with old | new
    · exact (sound.pop next).waiting entry old
    · split at new
      case isTrue deeper =>
          obtain ⟨row, listed, rfl⟩ := List.mem_map.mp new
          obtain ⟨followed, related⟩ := expands.real row listed
          exact ⟨deeper, .step reached (mem_inBothDirections.mp followed) related⟩
      case isFalse => exact absurd new List.not_mem_nil

variable (graph) in
/-- The search after some entries are done, all of depths up to the current one. -/
structure Searched (relations : List String) (depthLimit : Nat) (start : NodeKey)
    (expansion : Expansion) (done : List (String × String × Nat)) (current : Nat)
    : Prop where
  started : (start.1, start.2, 0) ∈ done ++ expansion.frontier
  sorted : expansion.frontier.Pairwise (fun entry later => entry.2.2 ≤ later.2.2)
  level : ∀ entry ∈ expansion.frontier, current ≤ entry.2.2 ∧ entry.2.2 ≤ current + 1
  listed
    : ∀ row ∈ expansion.context,
        ∃ found ≤ current,
          found + 1 < depthLimit → row.waiting (found + 1) ∈ done ++ expansion.frontier
  expanded
    : ∀ entry ∈ done,
        ∀ relation direction neighbor,
          relation ∈ relations
          → graph.Related (entryNode entry) direction relation neighbor
          → dedupeKey direction relation neighbor.2 neighbor.1 ∈ expansion.seen
            ∧ (entry.2.2 + 1 < depthLimit
              → ∃ found ≤ entry.2.2 + 1,
                  (neighbor.1, neighbor.2, found) ∈ done ++ expansion.frontier)

theorem Searched.initial
    : Searched graph relations depthLimit start { frontier := [(start.1, start.2, 0)] } [] 0 where
  started := List.mem_singleton_self _
  sorted := List.pairwise_singleton _ _
  level := by simp
  listed := by simp
  expanded := by simp

/-- A key that has been seen belongs to a listed row of the same node. -/
theorem Sound.row_of_key (sound : Sound graph relations contextLimit depthLimit start expansion)
    {node neighbor : NodeKey} {direction : Direction} {relation : String}
    (related : graph.Related node direction relation neighbor)
    (seen : dedupeKey direction relation neighbor.2 neighbor.1 ∈ expansion.seen)
    : ∃ row ∈ expansion.context, row.node = neighbor := by
  rw [sound.keys] at seen
  obtain ⟨row, listed, same⟩ := List.mem_map.mp seen
  obtain ⟨-, origin, -, -, -, told⟩ := sound.real row listed
  obtain ⟨-, -, types, ids⟩ := dedupeKey_inj told.plain related.plain same
  exact ⟨row, listed, Prod.ext ids types⟩

theorem Searched.round
    (searched : Searched graph relations depthLimit start expansion done current)
    (sound : Sound graph relations contextLimit depthLimit start expansion)
    (next : expansion.frontier = (nodeId, nodeType, depth) :: waiting)
    (lists : Lists depthLimit depth { expansion with frontier := waiting } after added)
    (expands
      : Expands graph contextLimit (nodeId, nodeType) (inBothDirections relations)
          { expansion with frontier := waiting } after added false)
    (uncrowded : ∀ ask ∈ after.asked, graph.Uncrowded ask)
    : Searched graph relations depthLimit start after (done ++ [(nodeId, nodeType, depth)]) depth := by
  set new :=
    if depth + 1 < depthLimit then added.map (ContextRow.waiting (depth + 1)) else [] with named
  have frontier : after.frontier = waiting ++ new := lists.frontier
  have deep {entry : String × String × Nat} (member : entry ∈ new) : entry.2.2 = depth + 1 := by
    rw [named] at member
    split at member
    · obtain ⟨row, -, rfl⟩ := List.mem_map.mp member
      rfl
    · exact absurd member List.not_mem_nil
  have known
      : done ++ [(nodeId, nodeType, depth)] ++ after.frontier
        = done ++ expansion.frontier ++ new := by
    rw [frontier, next]
    simp
  have kept {entry : String × String × Nat} (member : entry ∈ done ++ expansion.frontier)
      : entry ∈ done ++ [(nodeId, nodeType, depth)] ++ after.frontier :=
    known ▸ List.mem_append_left _ member
  have sorted := searched.sorted
  rw [next, List.pairwise_cons] at sorted
  obtain ⟨least, sorted⟩ := sorted
  have level := searched.level
  rw [next, List.forall_mem_cons] at level
  obtain ⟨⟨reached, -⟩, level⟩ := level
  have reached : current ≤ depth := reached
  have listed
      : ∀ row ∈ after.context,
          ∃ found ≤ depth,
            found + 1 < depthLimit
            → row.waiting (found + 1) ∈ done ++ [(nodeId, nodeType, depth)] ++ after.frontier := by
    intro row member
    rw [lists.context] at member
    rcases List.mem_append.mp member with old | fresh
    · obtain ⟨found, early, entered⟩ := searched.listed row old
      exact ⟨found, early.trans reached, fun shallow => kept (entered shallow)⟩
    · refine ⟨depth, le_rfl, fun shallow => ?_⟩
      rw [frontier]
      refine List.mem_append_right _ (List.mem_append_right _ ?_)
      rw [named, if_pos shallow]
      exact List.mem_map_of_mem fresh
  refine ⟨kept searched.started, ?_, ?_, listed, ?_⟩
  · rw [frontier, List.pairwise_append]
    refine ⟨sorted, ?_, fun entry member later fresh => ?_⟩
    · refine List.Pairwise.imp_of_mem (fun member member' _ => ?_) (List.pairwise_of_forall fun _ _ => trivial)
      rw [deep member, deep member']
    · rw [deep fresh]
      exact (level entry member).2.trans (Nat.add_le_add_right reached 1)
  · intro entry member
    rw [frontier] at member
    rcases List.mem_append.mp member with old | fresh
    · exact ⟨least entry old, (level entry old).2.trans (Nat.add_le_add_right reached 1)⟩
    · rw [deep fresh]
      exact ⟨Nat.le_succ _, le_rfl⟩
  · intro entry member relation direction neighbor followed related
    rcases List.mem_append.mp member with old | fresh
    · obtain ⟨seen, entered⟩ := searched.expanded entry old relation direction neighbor followed related
      refine ⟨?_, fun shallow => ?_⟩
      · rw [lists.seen]
        exact List.mem_append_left _ seen
      · obtain ⟨found, early, entered⟩ := entered shallow
        exact ⟨found, early, kept entered⟩
    · obtain rfl := List.mem_singleton.mp fresh
      have seen :=
        expands.covered rfl uncrowded relation direction neighbor (mem_inBothDirections.mpr followed)
          related
      refine ⟨seen, fun shallow => ?_⟩
      -- the neighbour may have been found before, but then from no deeper an entry
      obtain ⟨row, inside, rfl⟩ := (sound.round next lists expands).row_of_key related seen
      obtain ⟨found, early, entered⟩ := listed row inside
      have early' : found + 1 ≤ depth + 1 := Nat.add_le_add_right early 1
      exact ⟨found + 1, early', entered (lt_of_le_of_lt early' shallow)⟩

/-- With an empty frontier, every node within the depth limit has been expanded. -/
theorem Searched.reaches
    (searched : Searched graph relations depthLimit start expansion done current)
    (ended : expansion.frontier = []) {distance : Nat} {node : NodeKey}
    (within : graph.Within relations start distance node) (shallow : distance < depthLimit)
    : ∃ found ≤ distance, (node.1, node.2, found) ∈ done := by
  induction within with
  | start =>
      have started := searched.started
      rw [ended, List.append_nil] at started
      exact ⟨0, le_rfl, started⟩
  | @step distance node neighbor direction relation _ followed related ih =>
      obtain ⟨found, early, member⟩ := ih (Nat.lt_of_succ_lt shallow)
      obtain ⟨-, entered⟩ :=
        searched.expanded _ member relation direction neighbor followed related
      have early' : found + 1 ≤ distance + 1 := Nat.add_le_add_right early 1
      obtain ⟨deeper, bound, inside⟩ := entered (lt_of_le_of_lt early' shallow)
      rw [ended, List.append_nil] at inside
      exact ⟨deeper, bound.trans early', inside⟩

end Rounds

-----------------------------------------------------------------------------------------
-- The loop over the frontier
-----------------------------------------------------------------------------------------

section Loop

variable {database : Database} {relations : List String} {contextLimit depthLimit : Nat}
  {start : NodeKey}

end Loop

end CodebaseGraph.GraphRead

/-! The context that a request gets (`execute_graph_context`): it is bounded, real and without
repetition, and it is complete up to its limit unless a query was crowded.
-/

namespace CodebaseGraph.GraphRead

open CodebaseGraph.Collections

section Contexts

variable {schema : GraphSchema}

/-- Rows of a context: no more than allowed, no two of one relation, all of them real. -/
structure Graph.ContextOf (graph : Graph schema) (relations : List String)
    (contextLimit depthLimit : Nat) (start : NodeKey) (rows : List ContextRow)
    : Prop where
  bounded : rows.length ≤ contextLimit
  distinct
    : (rows.map (fun row => (row.direction, row.relation, row.nodeType, row.id))).Nodup
  real
    : ∀ row ∈ rows,
        row.relation ∈ relations
        ∧ ∃ distance node,
            distance < depthLimit
            ∧ graph.Within relations start distance node
            ∧ graph.Related node row.direction row.relation row.node

/-- A context with room left has every relation of every node within the depth limit. -/
def Graph.CompleteUpTo (graph : Graph schema) (relations : List String)
    (contextLimit depthLimit : Nat) (start : NodeKey) (rows : List ContextRow)
    : Prop :=
  rows.length < contextLimit
  → ∀ distance node,
      distance < depthLimit
      → graph.Within relations start distance node
      → ∀ relation direction neighbor,
          relation ∈ relations
          → graph.Related node direction relation neighbor
          → ∃ row ∈ rows,
              row.direction = direction ∧ row.relation = relation ∧ row.node = neighbor

variable {graph : Graph schema} {relations : List String} {contextLimit depthLimit : Nat}
  {start : NodeKey} {rows other : List ContextRow}

theorem Graph.ContextOf.perm (held : graph.ContextOf relations contextLimit depthLimit start rows)
    (perm : other.Perm rows)
    : graph.ContextOf relations contextLimit depthLimit start other where
  bounded := perm.length_eq ▸ held.bounded
  distinct := (perm.map _).nodup_iff.mpr held.distinct
  real := fun row member => held.real row (perm.subset member)

theorem Graph.CompleteUpTo.perm
    (held : graph.CompleteUpTo relations contextLimit depthLimit start rows) (perm : other.Perm rows)
    : graph.CompleteUpTo relations contextLimit depthLimit start other := by
  intro space distance node shallow within relation direction neighbor followed related
  obtain ⟨row, member, told⟩ :=
    held (perm.length_eq ▸ space) distance node shallow within relation direction neighbor followed
      related
  exact ⟨row, perm.symm.subset member, told⟩

theorem Searched.complete {expansion : Expansion} {done : List (String × String × Nat)}
    {current : Nat} (searched : Searched graph relations depthLimit start expansion done current)
    (sound : Sound graph relations contextLimit depthLimit start expansion)
    (ended : expansion.frontier = [])
    : graph.CompleteUpTo relations contextLimit depthLimit start expansion.context := by
  intro _ distance node shallow within relation direction neighbor followed related
  obtain ⟨found, -, member⟩ := searched.reaches ended within shallow
  have seen := (searched.expanded _ member relation direction neighbor followed related).1
  rw [sound.keys] at seen
  obtain ⟨row, listed, same⟩ := List.mem_map.mp seen
  obtain ⟨-, origin, -, -, -, told⟩ := sound.real row listed
  obtain ⟨directions, relations, types, ids⟩ := dedupeKey_inj told.plain related.plain same
  exact ⟨row, listed, directions, relations, Prod.ext ids types⟩

end Contexts

instance {schema : GraphSchema} (graph : Graph schema) (ask : Ask)
    : Decidable (graph.Uncrowded ask) :=
  inferInstanceAs (Decidable (_ ∨ _))

section Requests

variable {schema : GraphSchema} {graph : Graph schema} {database : Database}
  {relations : List String} {depthLimit : Nat}

end Requests

-- A type that the schema names twice

def plainNode (id nodeType : String) : GraphNode :=
  { id := id
    nodeType := nodeType
    label := id
    qualifiedName := id
    path := "src/lib.rs"
    lineStart := some 1
    lineEnd := some 2
    summary := "" }

end CodebaseGraph.GraphRead
