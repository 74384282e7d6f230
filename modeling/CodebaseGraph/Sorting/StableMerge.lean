import CodebaseGraph.Sorting.Levels
import CodebaseGraph.Sorting.Cursors

/-! The merge of sorted runs is stable: elements of one key come out in the order of the runs, and
within a run in the order of the run. So merging level after level is one stable sort.
-/

namespace CodebaseGraph.Sorting

variable {α κ ε : Type*} [LinearOrder κ]

theorem SortedBy.sortBy_eq {key : α → κ} {list : List α} (sorted : SortedBy key list)
    : sortBy key list = list :=
  List.Pairwise.insertionSort_eq sorted

/-- Only the stable sorts of two lists matter for the one of both in a row. -/
theorem sortBy_append_congr {key : α → κ} {first first' second second' : List α}
    (left : sortBy key first = sortBy key first') (right : sortBy key second = sortBy key second')
    : sortBy key (first ++ second) = sortBy key (first' ++ second') := by
  rw [sortBy_eq_iff] at left right ⊢
  intro value
  rw [List.filter_append, List.filter_append, left, right]

@[simp]
theorem sortBy_idem (key : α → κ) (list : List α) : sortBy key (sortBy key list) = sortBy key list :=
  (sortBy_sorted key list).sortBy_eq

-----------------------------------------------------------------------------------------
-- Cursors
-----------------------------------------------------------------------------------------

namespace Cursors

/-- What is still to come from a reader, its queued item first. -/
def part (cursors : Cursors α) (reader : Nat) : List α :=
  (cursors.heap.filter (·.2 = reader)).map Prod.fst ++ (cursors.readers[reader]?).getD []

/-- What is still to come, one reader after the other. -/
def pending (cursors : Cursors α) : List α :=
  (List.range cursors.readers.length).flatMap cursors.part

/-- No reader has more than one item queued, and those in `waiting` have none. -/
structure Single (waiting : Set Nat) (cursors : Cursors α) : Prop where
  queued : (cursors.heap.map Prod.snd).Nodup
  inside : ∀ item ∈ cursors.heap, item.2 < cursors.readers.length
  free : ∀ item ∈ cursors.heap, item.2 ∉ waiting

theorem Single.mono {waiting fewer : Set Nat} {cursors : Cursors α}
    (single : cursors.Single waiting) (subset : fewer ⊆ waiting)
    : cursors.Single fewer :=
  ⟨single.queued, single.inside, fun item member less => single.free item member (subset less)⟩

/-- A waiting reader has nothing queued. -/
theorem Single.filter_eq_nil {waiting : Set Nat} {cursors : Cursors α}
    (single : cursors.Single waiting) {reader : Nat} (waits : reader ∈ waiting)
    : cursors.heap.filter (·.2 = reader) = [] := by
  rw [List.filter_eq_nil_iff]
  intro item member same
  have at_ : item.2 = reader := of_decide_eq_true same
  exact single.free item member (at_ ▸ waits)

/-- Where an item is inserted does not matter to those of other readers. -/
theorem filter_insertBy {key : α × Nat → κ} {item : α × Nat} {heap : List (α × Nat)} {reader : Nat}
    (other : item.2 ≠ reader)
    : (insertBy key item heap).filter (·.2 = reader) = heap.filter (·.2 = reader) := by
  rw [insertBy, List.orderedInsert_eq_take_drop, List.filter_append, List.filter_cons_of_neg,
    ← List.filter_append, List.takeWhile_append_dropWhile]
  simpa using other

theorem filter_insertBy_self {key : α × Nat → κ} {item : α} {reader : Nat} {heap : List (α × Nat)}
    (none : heap.filter (·.2 = reader) = [])
    : (insertBy key (item, reader) heap).filter (·.2 = reader) = [(item, reader)] := by
  have same := (insertBy_perm key (item, reader) heap).filter (·.2 = reader)
  rw [List.filter_cons_of_pos (by simp), none] at same
  exact List.perm_singleton.mp same

/-- Reading the first item of a waiting reader leaves what is to come as it is. -/
theorem Single.part_refill {key : α → κ} {waiting : Set Nat} {cursors : Cursors α}
    (single : cursors.Single waiting) {reader : Nat} (waits : reader ∈ waiting) (other : Nat)
    : (cursors.refill key reader).part other = cursors.part other := by
  have none := single.filter_eq_nil waits
  unfold refill
  split
  next item rest found =>
      have bound := (List.getElem?_eq_some_iff.mp found).1
      by_cases same : reader = other
      · subst same
        have queued : (insertBy (heapRank key) (item, reader) cursors.heap).filter (·.2 = reader)
            = [(item, reader)] := filter_insertBy_self none
        simp only [part, queued, none, found, List.getElem?_set_self bound, Option.getD_some,
          List.map_cons, List.map_nil, List.cons_append, List.nil_append]
      · have kept : (insertBy (heapRank key) (item, reader) cursors.heap).filter (·.2 = other)
            = cursors.heap.filter (·.2 = other) := filter_insertBy same
        simp only [part, kept, List.getElem?_set_ne same]
  next => rfl

theorem Single.pending_refill {key : α → κ} {waiting : Set Nat} {cursors : Cursors α}
    (single : cursors.Single waiting) {reader : Nat} (waits : reader ∈ waiting)
    : (cursors.refill key reader).pending = cursors.pending := by
  rw [pending, pending, refill_readers_length]
  exact List.flatMap_congr fun other _ => single.part_refill waits other

theorem Single.refill {key : α → κ} {waiting : Set Nat} {cursors : Cursors α}
    (single : cursors.Single waiting) {reader : Nat} (waits : reader ∈ waiting)
    : (cursors.refill key reader).Single (waiting \ {reader}) := by
  unfold Cursors.refill
  split
  next item rest found =>
      have bound := (List.getElem?_eq_some_iff.mp found).1
      have member (other : α × Nat)
          : other ∈ insertBy (heapRank key) (item, reader) cursors.heap
            ↔ other = (item, reader) ∨ other ∈ cursors.heap :=
        (insertBy_perm _ _ _).mem_iff.trans List.mem_cons
      constructor
      · have positions := (insertBy_perm (heapRank key) (item, reader) cursors.heap).map Prod.snd
        apply positions.nodup_iff.mpr
        rw [List.map_cons, List.nodup_cons]
        refine ⟨?_, single.queued⟩
        intro again
        obtain ⟨other, inHeap, at_⟩ := List.mem_map.mp again
        exact single.free other inHeap (at_ ▸ waits)
      · intro other inHeap
        rw [List.length_set]
        rcases (member other).mp inHeap with rfl | old
        · exact bound
        · exact single.inside other old
      · intro other inHeap
        rcases (member other).mp inHeap with rfl | old
        · exact fun still => still.2 rfl
        · exact fun still => single.free other old still.1
  next => exact single.mono Set.sdiff_subset

/-- A reader whose queued item is taken waits. -/
theorem Single.pop {waiting : Set Nat} {item : α × Nat} {heap : List (α × Nat)}
    {readers : List (List α)} (single : Single waiting { heap := item :: heap, readers })
    : Single (insert item.2 waiting) { heap, readers } := by
  have apart := List.nodup_cons.mp single.queued
  refine ⟨apart.2, ?_, ?_⟩
  · intro other member
    exact single.inside other (List.mem_cons_of_mem _ member)
  · intro other member waits
    rcases waits with same | waits
    · exact apart.1 (List.mem_map.mpr ⟨other, member, same⟩)
    · exact single.free other (List.mem_cons_of_mem _ member) waits

theorem Single.advance {key : α → κ} {item : α × Nat} {heap : List (α × Nat)}
    {readers : List (List α)} (single : Single ∅ { heap := item :: heap, readers })
    : Single ∅ (Cursors.refill key { heap, readers } item.2) :=
  (single.pop.refill (Set.mem_insert _ _)).mono (Set.empty_subset _)

/-- The readers before the one of the least item have no element of its key. -/
theorem Ordered.key_ne_of_lt {key : α → κ} {item : α × Nat} {heap : List (α × Nat)}
    {readers : List (List α)} (ordered : Ordered key ∅ { heap := item :: heap, readers })
    {reader : Nat} (before : reader < item.2)
    : ∀ other ∈ part { heap, readers } reader, key other ≠ key item.1 := by
  have queued : ∀ head ∈ item :: heap, head.2 = reader → key item.1 < key head.1 := by
    intro head inHeap at_
    rcases List.mem_cons.mp inHeap with rfl | later
    · omega
    · rcases Prod.Lex.le_iff.mp (List.rel_of_pairwise_cons ordered.heap later) with less | tied
      · exact less
      · have position : item.2 ≤ head.2 := tied.2
        omega
  intro other inPart
  rw [part, List.mem_append, List.mem_map] at inPart
  rcases inPart with ⟨head, selected, rfl⟩ | unread
  · obtain ⟨inHeap, at_⟩ := List.mem_filter.mp selected
    exact (queued head (List.mem_cons_of_mem _ inHeap) (of_decide_eq_true at_)).ne'
  · cases lookup : readers[reader]? with
    | none => simp [lookup] at unread
    | some run =>
        rw [lookup, Option.getD_some] at unread
        rcases ordered.queued reader run lookup (List.ne_nil_of_mem unread) with waits | head
        · exact absurd waits (Set.notMem_empty reader)
        · obtain ⟨head, inHeap, at_⟩ := head
          have behind := ordered.ahead head inHeap run (at_ ▸ lookup) other unread
          exact ((queued head inHeap at_).trans_le behind).ne'

/-- Taking the least item takes the first element of its key. -/
theorem Ordered.filter_pending {key : α → κ} {item : α × Nat} {heap : List (α × Nat)}
    {readers : List (List α)} (ordered : Ordered key ∅ { heap := item :: heap, readers })
    (single : Single ∅ { heap := item :: heap, readers }) (value : κ)
    : (pending { heap := item :: heap, readers }).filter (key · = value)
      = [item.1].filter (key · = value) ++ (pending { heap, readers }).filter (key · = value) := by
  have inside : item.2 < readers.length := single.inside item List.mem_cons_self
  obtain ⟨more, length⟩ := Nat.exists_eq_add_of_lt inside
  have split : List.range readers.length
      = List.range item.2 ++ item.2 :: (List.range more).map (item.2 + 1 + ·) := by
    have total : readers.length = item.2 + 1 + more := by omega
    rw [total, List.range_add, List.range_succ, List.append_assoc, List.singleton_append]
  have others {reader : Nat} (other : reader ≠ item.2)
      : part { heap := item :: heap, readers } reader = part { heap, readers } reader := by
    rw [part, part, List.filter_cons_of_neg (by simpa using other.symm)]
  have own : part { heap := item :: heap, readers } item.2
      = item.1 :: part { heap, readers } item.2 := by
    rw [part, part, List.filter_cons_of_pos (by simp), List.map_cons, List.cons_append]
  have front : (List.range item.2).flatMap (part { heap := item :: heap, readers })
      = (List.range item.2).flatMap (part { heap, readers }) :=
    List.flatMap_congr fun reader member => others (List.mem_range.mp member).ne
  have back : ((List.range more).map (item.2 + 1 + ·)).flatMap
        (part { heap := item :: heap, readers })
      = ((List.range more).map (item.2 + 1 + ·)).flatMap (part { heap, readers }) := by
    apply List.flatMap_congr
    intro reader member
    obtain ⟨behind, -, rfl⟩ := List.mem_map.mp member
    exact others (by omega)
  simp only [pending, split, List.flatMap_append, List.flatMap_cons, front, back, own,
    List.filter_append, List.cons_append]
  by_cases same : key item.1 = value
  · have none : ((List.range item.2).flatMap (part { heap, readers })).filter (key · = value)
        = [] := by
      rw [List.filter_eq_nil_iff]
      intro other member tied
      obtain ⟨reader, before, inPart⟩ := List.mem_flatMap.mp member
      apply ordered.key_ne_of_lt (List.mem_range.mp before) other inPart
      exact (of_decide_eq_true tied).trans same.symm
    rw [none]
    simp [same]
  · simp [same]

/-- What the queue delivers has the elements of each key in the order of the readers. -/
theorem Ordered.filter_drain {key : α → κ} {cursors : Cursors α}
    (ordered : cursors.Ordered key ∅) (single : cursors.Single ∅) (value : κ)
    : (cursors.drain key).filter (key · = value) = cursors.pending.filter (key · = value) := by
  fun_induction drain key cursors with
  | case1 readers =>
      have empty : pending { heap := ([] : List (α × Nat)), readers } = [] := by
        have items : readers.flatten = [] := ordered.items_eq_nil
        rw [pending, List.flatMap_eq_nil_iff]
        intro reader member
        have bound := List.mem_range.mp member
        rw [part, List.getElem?_eq_getElem bound]
        simpa using List.flatten_eq_nil_iff.mp items _ (List.getElem_mem bound)
      rw [empty]
  | case2 item heap readers ih =>
      have after := ih ordered.advance single.advance
      rw [single.pop.pending_refill (Set.mem_insert _ _)] at after
      rw [ordered.filter_pending single value, ← after]
      exact List.filter_append [item.1] (drain key _)

/-- Opening the runs queues at most one item of each, and leaves what is to come as it is. -/
theorem openRuns_single (key : α → κ) (runs : List (List α))
    : (openRuns key runs).Single ∅ ∧ (openRuns key runs).pending = runs.flatten := by
  have opened (count : Nat)
      : ((List.range count).foldl (refill key) { heap := [], readers := runs }).Single
          { reader | count ≤ reader }
        ∧ ((List.range count).foldl (refill key) { heap := [], readers := runs }).pending
          = pending { heap := [], readers := runs } := by
    induction count with
    | zero =>
        refine ⟨⟨List.nodup_nil, ?_, ?_⟩, rfl⟩
        · intro item member
          exact absurd member List.not_mem_nil
        · intro item member
          exact absurd member List.not_mem_nil
    | succ count ih =>
        have fewer : { reader | count + 1 ≤ reader } ⊆ { reader | count ≤ reader } \ {count} := by
          intro reader (behind : count + 1 ≤ reader)
          exact ⟨Nat.le_of_succ_le behind, Nat.ne_of_gt behind⟩
        have waits : count ∈ { reader | count ≤ reader } := le_refl count
        rw [List.range_succ, List.foldl_append]
        exact ⟨(ih.1.refill waits).mono fewer, (ih.1.pending_refill waits).trans ih.2⟩
  have whole : pending { heap := ([] : List (α × Nat)), readers := runs } = runs.flatten := by
    have parts : (List.range runs.length).map (part { heap := [], readers := runs }) = runs := by
      apply List.ext_getElem
      · simp
      · intro reader inside bound
        simp [part, List.getElem?_eq_getElem bound]
    rw [pending, List.flatMap, parts]
  have all := opened runs.length
  exact ⟨all.1.mono (Set.empty_subset _), all.2.trans whole⟩

end Cursors

/-- Merging sorted runs is the stable sort of the runs in a row. -/
theorem mergeRuns_eq_sortBy {key : α → κ} {runs : List (List α)}
    (sorted : ∀ run ∈ runs, SortedBy key run)
    : mergeRuns key runs = sortBy key runs.flatten := by
  apply (mergeRuns_sorted sorted).eq_of_filter (sortBy_sorted key runs.flatten)
  intro value
  obtain ⟨single, whole⟩ := Cursors.openRuns_single key runs
  rw [filter_sortBy, mergeRuns, (Cursors.openRuns_ordered sorted).filter_drain single, whole]

-- Levels

section

variable {key : α → κ} {merge : List (List α) → Except ε (List α)}

/-- A merged group is the stable sort of its runs in a row, and so is a run on its own. -/
theorem mergeGroup_eq
    (merges : ∀ runs, (∀ run ∈ runs, SortedBy key run) → merge runs = .ok (mergeRuns key runs))
    {group : List (List α)} (sorted : ∀ run ∈ group, SortedBy key run)
    : mergeGroup merge group = .ok (sortBy key group.flatten) := by
  match group with
  | [] => exact (merges [] sorted).trans (congrArg Except.ok (mergeRuns_eq_sortBy sorted))
  | [single] =>
      have alone := (sorted single (List.mem_singleton_self _)).sortBy_eq
      rw [List.flatten_singleton, alone]
      rfl
  | first :: second :: rest =>
      exact (merges _ sorted).trans (congrArg Except.ok (mergeRuns_eq_sortBy sorted))

/-- A level sorts each group, which the stable sort of all the runs does not see. -/
theorem mergeLevel_eq
    (merges : ∀ runs, (∀ run ∈ runs, SortedBy key run) → merge runs = .ok (mergeRuns key runs))
    (fanIn : FanIn) {runs : List (List α)} (sorted : ∀ run ∈ runs, SortedBy key run)
    : ∃ merged,
        mergeLevel fanIn merge runs = .ok merged
        ∧ (∀ run ∈ merged, SortedBy key run)
        ∧ sortBy key merged.flatten = sortBy key runs.flatten := by
  have grouped (groups : List (List (List α))) (sorted : ∀ run ∈ groups.flatten, SortedBy key run)
      : groups.mapM (mergeGroup merge)
          = .ok (groups.map (fun group => sortBy key group.flatten))
        ∧ sortBy key (groups.map (fun group => sortBy key group.flatten)).flatten
          = sortBy key groups.flatten.flatten := by
    induction groups with
    | nil => exact ⟨rfl, rfl⟩
    | cons group groups ih =>
        obtain ⟨first, others⟩ := List.forall_mem_append.mp sorted
        obtain ⟨mapped, same⟩ := ih others
        refine ⟨?_, ?_⟩
        · rw [List.mapM_cons, mergeGroup_eq merges first, mapped]
          rfl
        · rw [List.map_cons, List.flatten_cons, List.flatten_cons, List.flatten_append]
          exact sortBy_append_congr (sortBy_idem key _) same
  obtain ⟨mapped, same⟩ := grouped (chunks fanIn.size fanIn.positive runs)
    (by rwa [chunks_flatten])
  rw [chunks_flatten] at same
  refine ⟨_, mapped, ?_, same⟩
  intro run member
  obtain ⟨group, -, rfl⟩ := List.mem_map.mp member
  exact sortBy_sorted key _

/-- Few enough runs are left in the end, and they sort to what the runs at first sort to. -/
theorem reduceRuns_eq
    (merges : ∀ runs, (∀ run ∈ runs, SortedBy key run) → merge runs = .ok (mergeRuns key runs))
    (fanIn : FanIn) {runs : List (List α)} (sorted : ∀ run ∈ runs, SortedBy key run)
    : ∃ merged,
        reduceRuns fanIn merge runs = .ok merged
        ∧ (∀ run ∈ merged, SortedBy key run)
        ∧ sortBy key merged.flatten = sortBy key runs.flatten := by
  fun_induction reduceRuns fanIn merge runs with
  | case1 runs many problem failed =>
      obtain ⟨merged, done, -⟩ := mergeLevel_eq merges fanIn sorted
      rw [failed] at done
      contradiction
  | case2 runs many merged level ih =>
      obtain ⟨merged', done, ordered, same⟩ := mergeLevel_eq merges fanIn sorted
      obtain rfl := Except.ok.inj (level.symm.trans done)
      obtain ⟨final, reduced, sortedFinal, whole⟩ := ih ordered
      exact ⟨final, reduced, sortedFinal, whole.trans same⟩
  | case3 runs few => exact ⟨runs, rfl, sorted, rfl⟩

end

end CodebaseGraph.Sorting
