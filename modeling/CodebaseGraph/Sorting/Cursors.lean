import Mathlib.Data.List.Sort
import Mathlib.Data.Prod.Lex
import CodebaseGraph.Collections.Lists

/-! Merging sorted runs through a priority queue of their heads.
The queue is kept as an ordered list, so its first element is the one a heap would pop.
-/

namespace CodebaseGraph.Sorting

variable {α κ : Type*} [LinearOrder κ]

/-- The keys never decrease along the list. -/
def SortedBy (key : α → κ) (list : List α) : Prop :=
  list.Pairwise (fun first second => key first ≤ key second)

/-- The stable sort by key. -/
def sortBy (key : α → κ) (list : List α) : List α :=
  list.insertionSort (fun first second => key first ≤ key second)

/-- Insertion in front of the elements whose key is at least as large. -/
def insertBy (key : α → κ) (item : α) (list : List α) : List α :=
  list.orderedInsert (fun first second => key first ≤ key second) item

instance instTransKey (key : α → κ)
    : IsTrans α (fun first second => key first ≤ key second) :=
  ⟨fun _ _ _ => le_trans⟩

instance instTotalKey (key : α → κ)
    : Std.Total (fun first second : α => key first ≤ key second) :=
  ⟨fun first second => le_total (key first) (key second)⟩

theorem sortBy_perm (key : α → κ) (list : List α) : (sortBy key list).Perm list :=
  List.perm_insertionSort _ _

theorem sortBy_sorted (key : α → κ) (list : List α) : SortedBy key (sortBy key list) :=
  List.pairwise_insertionSort _ _

theorem insertBy_perm (key : α → κ) (item : α) (list : List α)
    : (insertBy key item list).Perm (item :: list) :=
  List.perm_orderedInsert _ _ _

theorem SortedBy.insertBy {key : α → κ} {list : List α} (sorted : SortedBy key list)
    (item : α)
    : SortedBy key (insertBy key item list) :=
  List.Pairwise.orderedInsert item list sorted

/-- Keys that tell the elements apart leave one sorted arrangement only. -/
theorem SortedBy.eq_of_perm {key : α → κ} {first second : List α}
    (sorted : SortedBy key first) (sorted' : SortedBy key second)
    (same : first.Perm second)
    (distinct : ∀ a ∈ second, ∀ b ∈ second, key a = key b → a = b)
    : first = second := by
  refine List.Perm.eq_of_pairwise ?_ sorted sorted' same
  intro a b inFirst inSecond le ge
  exact distinct a (same.mem_iff.mp inFirst) b inSecond (le_antisymm le ge)

/-- A sorted rearrangement is the sort, when keys tell the elements apart. -/
theorem SortedBy.eq_sortBy {key : α → κ} {sorted list : List α}
    (ordered : SortedBy key sorted) (same : sorted.Perm list)
    (distinct : ∀ a ∈ list, ∀ b ∈ list, key a = key b → a = b)
    : sorted = sortBy key list := by
  have inside (item : α) : item ∈ sortBy key list → item ∈ list :=
    (sortBy_perm key list).mem_iff.mp
  apply ordered.eq_of_perm (sortBy_sorted key list) (same.trans (sortBy_perm key list).symm)
  intro a inA b inB
  exact distinct a (inside a inA) b (inside b inB)

/-- The queue compares keys first and reader positions second. -/
def heapRank (key : α → κ) (item : α × Nat) : κ ×ₗ Nat :=
  toLex (key item.1, item.2)

theorem key_le_of_heapRank_le {key : α → κ} {first second : α × Nat}
    (le : heapRank key first ≤ heapRank key second)
    : key first.1 ≤ key second.1 := by
  rcases Prod.Lex.le_iff.mp le with lt | ⟨eq, _⟩
  · exact lt.le
  · exact eq.le

/-- The queued heads and, by position, what each reader has not delivered yet. -/
structure Cursors (α : Type*) where
  heap : List (α × Nat)
  readers : List (List α)

namespace Cursors

/-- Everything still to come. -/
def items (cursors : Cursors α) : List α :=
  cursors.heap.map Prod.fst ++ cursors.readers.flatten

/-- Move the next item of one reader into the queue, if there is one. -/
def refill (key : α → κ) (cursors : Cursors α) (reader : Nat) : Cursors α :=
  match cursors.readers[reader]? with
  | some (item :: rest) =>
      {
        heap := insertBy (heapRank key) (item, reader) cursors.heap
        readers := cursors.readers.set reader rest
      }
  | _ => cursors

/-- Every run with its first item queued. -/
def openRuns (key : α → κ) (runs : List (List α)) : Cursors α :=
  (List.range runs.length).foldl (refill key) { heap := [], readers := runs }

/-- The queue and the runs are sorted, a queued item precedes the rest of its run, and only
the readers in `waiting` have items but none queued.
-/
structure Ordered (key : α → κ) (waiting : Set Nat) (cursors : Cursors α) : Prop where
  heap : SortedBy (heapRank key) cursors.heap
  runs : ∀ run ∈ cursors.readers, SortedBy key run
  ahead : ∀ item ∈ cursors.heap, ∀ run, cursors.readers[item.2]? = some run →
    ∀ later ∈ run, key item.1 ≤ key later
  queued : ∀ reader run, cursors.readers[reader]? = some run → run ≠ [] →
    reader ∈ waiting ∨ ∃ item ∈ cursors.heap, item.2 = reader

theorem refill_items (key : α → κ) (cursors : Cursors α) (reader : Nat)
    : (cursors.refill key reader).items.Perm cursors.items := by
  unfold refill
  split
  next item rest found =>
      obtain ⟨before, after, split, replaced⟩ :=
        Collections.exists_split_of_getElem? found
      have queue := (insertBy_perm (heapRank key) (item, reader) cursors.heap).map Prod.fst
      simp only [items]
      refine (queue.append_right _).trans ?_
      rw [replaced, split]
      simp only [List.flatten_append, List.flatten_cons, List.map_cons, List.cons_append]
      have moved
          : (cursors.heap.map Prod.fst ++ before.flatten
              ++ item :: (rest ++ after.flatten)).Perm
            (item :: (cursors.heap.map Prod.fst ++ before.flatten
              ++ (rest ++ after.flatten))) :=
        List.perm_middle
      simpa only [List.append_assoc] using moved.symm
  next => exact .refl _

theorem refill_readers_length (key : α → κ) (cursors : Cursors α) (reader : Nat)
    : (cursors.refill key reader).readers.length = cursors.readers.length := by
  unfold refill
  split <;> simp

/-- Reading the first items neither loses items nor readers. -/
theorem foldl_refill (key : α → κ) (cursors : Cursors α) (readers : List Nat)
    : (readers.foldl (refill key) cursors).items.Perm cursors.items
      ∧ (readers.foldl (refill key) cursors).readers.length = cursors.readers.length := by
  induction readers generalizing cursors with
  | nil => exact ⟨.refl _, rfl⟩
  | cons reader rest ih =>
      obtain ⟨items, length⟩ := ih (cursors.refill key reader)
      exact ⟨items.trans (refill_items key cursors reader),
        length.trans (refill_readers_length key cursors reader)⟩

theorem openRuns_items (key : α → κ) (runs : List (List α))
    : (openRuns key runs).items.Perm runs.flatten :=
  (foldl_refill key _ _).1

theorem openRuns_readers_length (key : α → κ) (runs : List (List α))
    : (openRuns key runs).readers.length = runs.length :=
  (foldl_refill key _ _).2

/-- A refilled reader no longer waits. -/
theorem Ordered.refill {key : α → κ} {waiting : Set Nat} {cursors : Cursors α}
    (ordered : cursors.Ordered key waiting) (reader : Nat)
    : (cursors.refill key reader).Ordered key (waiting \ {reader}) := by
  unfold Cursors.refill
  split
  next item rest found =>
      have sorted : SortedBy key (item :: rest) :=
        ordered.runs _ (List.mem_of_getElem? found)
      have bound := (List.getElem?_eq_some_iff.mp found).1
      have member (other : α × Nat)
          : other ∈ insertBy (heapRank key) (item, reader) cursors.heap
            ↔ other = (item, reader) ∨ other ∈ cursors.heap :=
        (insertBy_perm _ _ _).mem_iff.trans List.mem_cons
      constructor
      · exact ordered.heap.insertBy _
      · intro run inside
        rcases List.mem_or_eq_of_mem_set inside with old | rfl
        · exact ordered.runs run old
        · exact List.Pairwise.of_cons sorted
      · intro other inside run lookup later inRun
        by_cases same : other.2 = reader
        · rw [same, List.getElem?_set_self bound] at lookup
          obtain rfl := Option.some.inj lookup
          rcases (member other).mp inside with rfl | old
          · exact List.rel_of_pairwise_cons sorted inRun
          · exact ordered.ahead other old _ (same ▸ found) later
              (List.mem_cons_of_mem _ inRun)
        · rw [List.getElem?_set_ne (Ne.symm same)] at lookup
          rcases (member other).mp inside with rfl | old
          · exact absurd rfl same
          · exact ordered.ahead other old run lookup later inRun
      · intro other run lookup nonempty
        by_cases same : reader = other
        · exact .inr ⟨(item, reader), (member _).mpr (.inl rfl), same⟩
        · rw [List.getElem?_set_ne same] at lookup
          rcases ordered.queued other run lookup nonempty with waits | ⟨head, inside, at_⟩
          · exact .inl ⟨waits, Ne.symm same⟩
          · exact .inr ⟨head, (member head).mpr (.inr inside), at_⟩
  next exhausted =>
      refine ⟨ordered.heap, ordered.runs, ordered.ahead, ?_⟩
      intro other run lookup nonempty
      rcases ordered.queued other run lookup nonempty with waits | head
      · refine .inl ⟨waits, ?_⟩
        rintro rfl
        cases run with
        | nil => exact nonempty rfl
        | cons item rest => exact exhausted item rest lookup
      · exact .inr head

/-- A reader whose queued item is taken waits. -/
theorem Ordered.pop {key : α → κ} {waiting : Set Nat} {item : α × Nat}
    {heap : List (α × Nat)} {readers : List (List α)}
    (ordered : Ordered key waiting { heap := item :: heap, readers })
    : Ordered key (insert item.2 waiting) { heap, readers } := by
  refine ⟨List.Pairwise.of_cons ordered.heap, ordered.runs, ?_, ?_⟩
  · intro other inside
    exact ordered.ahead other (List.mem_cons_of_mem _ inside)
  · intro reader run lookup nonempty
    rcases ordered.queued reader run lookup nonempty with waits | ⟨head, inside, at_⟩
    · exact .inl (.inr waits)
    · rcases List.mem_cons.mp inside with rfl | older
      · exact .inl (.inl at_.symm)
      · exact .inr ⟨head, older, at_⟩

/-- With no reader waiting, the first queued item is least. -/
theorem Ordered.le_items {key : α → κ} {item : α × Nat} {heap : List (α × Nat)}
    {readers : List (List α)} (ordered : Ordered key ∅ { heap := item :: heap, readers })
    : ∀ other ∈ items { heap := item :: heap, readers }, key item.1 ≤ key other := by
  have first : ∀ other ∈ item :: heap, key item.1 ≤ key other.1 := by
    intro other inside
    rcases List.mem_cons.mp inside with rfl | later
    · exact le_rfl
    · exact key_le_of_heapRank_le (List.rel_of_pairwise_cons ordered.heap later)
  intro other inside
  rcases List.mem_append.mp inside with queued | unread
  · obtain ⟨head, inHeap, rfl⟩ := List.mem_map.mp queued
    exact first head inHeap
  · obtain ⟨run, inReaders, inRun⟩ := List.mem_flatten.mp unread
    obtain ⟨reader, lookup⟩ := List.mem_iff_getElem?.mp inReaders
    rcases ordered.queued reader run lookup (List.ne_nil_of_mem inRun) with none | some
    · exact absurd none (Set.notMem_empty reader)
    · obtain ⟨head, inHeap, rfl⟩ := some
      exact (first head inHeap).trans (ordered.ahead head inHeap run lookup other inRun)

/-- With no reader waiting, an empty queue means that nothing is left. -/
theorem Ordered.items_eq_nil {key : α → κ} {readers : List (List α)}
    (ordered : Ordered key ∅ { heap := [], readers })
    : items { heap := [], readers } = [] := by
  simp only [items, List.map_nil, List.nil_append, List.flatten_eq_nil_iff]
  intro run inside
  by_contra nonempty
  obtain ⟨reader, lookup⟩ := List.mem_iff_getElem?.mp inside
  rcases ordered.queued reader run lookup nonempty with none | ⟨_, inHeap, _⟩
  · exact Set.notMem_empty reader none
  · exact List.not_mem_nil inHeap

/-- Taking the first item and refilling its reader leaves no reader waiting. -/
theorem Ordered.advance {key : α → κ} {item : α × Nat} {heap : List (α × Nat)}
    {readers : List (List α)} (ordered : Ordered key ∅ { heap := item :: heap, readers })
    : Ordered key ∅ (Cursors.refill key { heap, readers } item.2) := by
  have next := ordered.pop.refill item.2
  rwa [insert_empty_eq, Set.sdiff_self] at next

/-- The items in the order in which the queue delivers them, each reader being refilled
after its item is taken.
-/
def drain (key : α → κ) (cursors : Cursors α) : List α :=
  match cursors with
  | { heap := [], readers := _ } => []
  | { heap := item :: heap, readers } =>
      item.1 :: drain key (refill key { heap, readers } item.2)
termination_by cursors.items.length
decreasing_by
  rw [(refill_items key _ _).length_eq]
  simp [items]

theorem Ordered.drain_perm {key : α → κ} {cursors : Cursors α}
    (ordered : cursors.Ordered key ∅)
    : (cursors.drain key).Perm cursors.items := by
  fun_induction drain key cursors with
  | case1 readers => rw [ordered.items_eq_nil]
  | case2 item heap readers ih =>
      have rest := (ih ordered.advance).trans (refill_items key _ _)
      exact rest.cons item.1

theorem Ordered.drain_sorted {key : α → κ} {cursors : Cursors α}
    (ordered : cursors.Ordered key ∅)
    : SortedBy key (cursors.drain key) := by
  fun_induction drain key cursors with
  | case1 readers => exact .nil
  | case2 item heap readers ih =>
      apply List.Pairwise.cons
      · intro later inside
        have left := (ordered.advance.drain_perm.trans (refill_items key _ _)).mem_iff.mp inside
        exact ordered.le_items later (List.mem_cons_of_mem _ left)
      · exact ih ordered.advance

/-- Opening sorted runs leaves no reader waiting. -/
theorem openRuns_ordered {key : α → κ} {runs : List (List α)}
    (sorted : ∀ run ∈ runs, SortedBy key run)
    : (openRuns key runs).Ordered key ∅ := by
  have opened (count : Nat)
      : ((List.range count).foldl (refill key) { heap := [], readers := runs }).Ordered key
          { reader | count ≤ reader } := by
    induction count with
    | zero =>
        refine ⟨.nil, sorted, ?_, ?_⟩
        · intro item inside
          exact absurd inside List.not_mem_nil
        · intro reader run _ _
          exact .inl (Nat.zero_le reader)
    | succ count ih =>
        have fewer : { reader | count + 1 ≤ reader } = { reader | count ≤ reader } \ {count} := by
          ext reader
          simp only [Set.mem_ofPred_eq, Set.mem_sdiff, Set.mem_singleton_iff]
          omega
        rw [List.range_succ, List.foldl_append, fewer]
        exact ih.refill count
  have all : (openRuns key runs).Ordered key { reader | runs.length ≤ reader } :=
    opened runs.length
  refine ⟨all.heap, all.runs, all.ahead, ?_⟩
  intro reader run lookup nonempty
  rcases all.queued reader run lookup nonempty with beyond | head
  · have bound := (List.getElem?_eq_some_iff.mp lookup).1
    rw [openRuns_readers_length] at bound
    exact absurd bound (not_lt.mpr beyond)
  · exact .inr head

end Cursors

/-- The k-way merge of runs. -/
def mergeRuns (key : α → κ) (runs : List (List α)) : List α :=
  (Cursors.openRuns key runs).drain key

theorem mergeRuns_sorted {key : α → κ} {runs : List (List α)}
    (sorted : ∀ run ∈ runs, SortedBy key run)
    : SortedBy key (mergeRuns key runs) :=
  (Cursors.openRuns_ordered sorted).drain_sorted

theorem mergeRuns_perm {key : α → κ} {runs : List (List α)}
    (sorted : ∀ run ∈ runs, SortedBy key run)
    : (mergeRuns key runs).Perm runs.flatten :=
  (Cursors.openRuns_ordered sorted).drain_perm.trans (Cursors.openRuns_items key runs)

end CodebaseGraph.Sorting

/-! What a stable sort forgets: the order between elements of different keys, and nothing else.
-/

namespace CodebaseGraph.Sorting

variable {α β κ : Type*} [LinearOrder κ]

/-- A stable sort leaves the elements of one key in their order. -/
theorem filter_sortBy (key : α → κ) (value : κ) (list : List α)
    : (sortBy key list).filter (key · = value) = list.filter (key · = value) := by
  have tied : (list.filter (key · = value)).Pairwise (fun a b => key a ≤ key b) := by
    rw [List.pairwise_iff_forall_sublist]
    intro a b pair
    have first : key a = value := by simpa using (List.mem_filter.mp (pair.subset (by simp))).2
    have second : key b = value := by simpa using (List.mem_filter.mp (pair.subset (by simp))).2
    rw [first, second]
  have inside := (List.sublist_insertionSort tied List.filter_sublist).filter (key · = value)
  rw [List.filter_filter] at inside
  simp only [Bool.and_self] at inside
  refine (inside.eq_of_length ?_).symm
  exact ((sortBy_perm key list).filter _).length_eq.symm

/-- Two sorted lists that agree on the elements of each key are equal. -/
theorem SortedBy.eq_of_filter {key : α → κ} {first second : List α}
    (sorted : SortedBy key first) (sorted' : SortedBy key second)
    (same : ∀ value, first.filter (key · = value) = second.filter (key · = value))
    : first = second := by
  induction first generalizing second with
  | nil =>
      cases second with
      | nil => rfl
      | cons item rest => simpa using same (key item)
  | cons item rest ih =>
      cases second with
      | nil => simpa using same (key item)
      | cons other tail =>
          obtain ⟨least, sortedRest⟩ := List.pairwise_cons.mp sorted
          obtain ⟨least', sortedTail⟩ := List.pairwise_cons.mp sorted'
          have inSecond : item ∈ other :: tail := by
            have member : item ∈ (item :: rest).filter (key · = key item) := by simp
            rw [same] at member
            exact (List.mem_filter.mp member).1
          have inFirst : other ∈ item :: rest := by
            have member : other ∈ (other :: tail).filter (key · = key other) := by simp
            rw [← same] at member
            exact (List.mem_filter.mp member).1
          have keys : key item = key other := by
            apply le_antisymm
            · rcases List.mem_cons.mp inFirst with rfl | later
              · exact le_refl _
              · exact least other later
            · rcases List.mem_cons.mp inSecond with rfl | later
              · exact le_refl _
              · exact least' item later
          have heads := same (key item)
          simp only [keys, decide_true, List.filter_cons_of_pos, List.cons.injEq] at heads
          obtain ⟨rfl, -⟩ := heads
          congr 1
          refine ih sortedRest sortedTail (fun value => ?_)
          have whole := same value
          simp only [List.filter_cons] at whole
          split at whole
          · exact (List.cons.inj whole).2
          · exact whole

/-- Two lists have the same stable sort exactly when they agree on the elements of each key. -/
theorem sortBy_eq_iff {key : α → κ} {first second : List α}
    : sortBy key first = sortBy key second
      ↔ ∀ value, first.filter (key · = value) = second.filter (key · = value) := by
  constructor
  · intro same value
    rw [← filter_sortBy, same, filter_sortBy]
  · intro same
    refine (sortBy_sorted key first).eq_of_filter (sortBy_sorted key second) (fun value => ?_)
    rw [filter_sortBy, filter_sortBy, same]

/-- A change of the elements that keeps their keys commutes with the sort. -/
theorem map_sortBy {key : α → κ} {key' : β → κ} {change : α → β}
    (kept : ∀ item, key' (change item) = key item) (list : List α)
    : (sortBy key list).map change = sortBy key' (list.map change) :=
  List.map_insertionSort _ _ _ _ (fun a _ b _ => by rw [kept, kept])

/-- Sorting by the elements themselves forgets everything but their multiplicities. -/
theorem sortBy_id_eq_iff {first second : List κ}
    : sortBy id first = sortBy id second ↔ first.Perm second := by
  constructor
  · intro same
    exact (sortBy_perm id first).symm.trans (same ▸ sortBy_perm id second)
  · intro same
    refine (sortBy_sorted id first).eq_of_perm (sortBy_sorted id second) ?_ ?_
    · exact (sortBy_perm id first).trans (same.trans (sortBy_perm id second).symm)
    · exact fun a _ b _ equal => equal

/-- Lists that agree on the elements of each key, up to a change that keeps the keys. -/
def AgreeByKey (key : α → κ) (change : α → β) (first second : List α) : Prop :=
  ∀ value,
    (first.filter (key · = value)).map change = (second.filter (key · = value)).map change

theorem AgreeByKey.symm {key : α → κ} {change : α → β} {first second : List α}
    (agree : AgreeByKey key change first second)
    : AgreeByKey key change second first :=
  fun value => (agree value).symm

/-- The elements of one list are found in the other, with the same key. -/
theorem AgreeByKey.exists_mem {key : α → κ} {change : α → β} {first second : List α} {item : α}
    (agree : AgreeByKey key change first second) (member : item ∈ first)
    : ∃ other ∈ second, key other = key item ∧ change other = change item := by
  have here : change item ∈ (first.filter (key · = key item)).map change :=
    List.mem_map_of_mem (List.mem_filter.mpr ⟨member, by simp⟩)
  rw [agree] at here
  obtain ⟨other, inside, same⟩ := List.mem_map.mp here
  obtain ⟨there, tied⟩ := List.mem_filter.mp inside
  exact ⟨other, there, by simpa using tied, same⟩

/-- Stable sorts that agree after a change of the elements say that the lists agree by key. -/
theorem agreeByKey_iff (key : α → κ) (change : α → α)
    (kept : ∀ item, key (change item) = key item) {first second : List α}
    : (sortBy key first).map change = (sortBy key second).map change
      ↔ AgreeByKey key change first second := by
  have inside (list : List α) (value : κ)
      : (list.map change).filter (key · = value)
        = (list.filter (key · = value)).map change := by
    rw [List.filter_map]
    congr 1
    refine List.filter_congr (fun item _ => ?_)
    simp [kept]
  rw [map_sortBy kept, map_sortBy kept, sortBy_eq_iff]
  simp only [inside, AgreeByKey]

/-- Where the selected elements share one key, lists that agree by key select the same. -/
theorem AgreeByKey.filter_eq {key : α → κ} {change : α → β} {first second : List α}
    (agree : AgreeByKey key change first second) (test : α → Bool)
    (tested : ∀ a b, change a = change b → test a = test b)
    (tied : ∀ a ∈ first, ∀ b ∈ first, test a = true → test b = true → key a = key b)
    : (first.filter test).map change = (second.filter test).map change := by
  have select (list : List α) (value : κ)
      (only : ∀ item ∈ list, test item = true → key item = value)
      : list.filter test = (list.filter (key · = value)).filter test := by
    rw [List.filter_filter]
    refine List.filter_congr (fun item member => ?_)
    cases chosen : test item with
    | false => simp
    | true => simp [only item member chosen]
  have carried (value : κ)
      : ((first.filter (key · = value)).filter test).map change
        = ((second.filter (key · = value)).filter test).map change := by
    have whole := agree value
    generalize first.filter (key · = value) = left at whole ⊢
    generalize second.filter (key · = value) = right at whole ⊢
    induction left generalizing right with
    | nil =>
        cases right with
        | nil => rfl
        | cons item rest => simp at whole
    | cons item rest ih =>
        cases right with
        | nil => simp at whole
        | cons other tail =>
            simp only [List.map_cons, List.cons.injEq] at whole
            have answers := tested item other whole.1
            cases chosen : test other with
            | false => simp [answers, chosen, ih tail whole.2]
            | true => simp [answers, chosen, whole.1, ih tail whole.2]
  cases chosen : first.filter test with
  | nil =>
      have none : second.filter test = [] := by
        rw [List.filter_eq_nil_iff] at chosen ⊢
        intro item member selected
        obtain ⟨other, there, -, same⟩ := agree.symm.exists_mem member
        exact chosen other there ((tested other item same).trans selected)
      rw [none]
  | cons item rest =>
      have member : item ∈ first.filter test := by simp [chosen]
      obtain ⟨here, selected⟩ := List.mem_filter.mp member
      rw [← chosen, select first (key item), select second (key item), carried]
      · intro other there also
        obtain ⟨origin, inFirst, keys, same⟩ := agree.symm.exists_mem there
        rw [← keys]
        exact tied origin inFirst item here ((tested origin other same).trans also) selected
      · exact fun other there also => tied other there item here also selected

/-- Splitting a list by a test of the keys is not seen by the stable sort. -/
theorem sortBy_split (key : α → κ) (test : κ → Bool) (list : List α)
    : sortBy key (list.filter (fun item => test (key item))
        ++ list.filter (fun item => !test (key item)))
      = sortBy key list := by
  rw [sortBy_eq_iff]
  intro value
  rw [List.filter_append, List.filter_filter, List.filter_filter]
  cases selected : test value with
  | true =>
      have first (item : α)
          : (decide (key item = value) && test (key item)) = decide (key item = value) := by
        by_cases same : key item = value <;> simp [same, selected]
      have second (item : α)
          : (decide (key item = value) && !test (key item)) = false := by
        by_cases same : key item = value <;> simp [same, selected]
      simp [first, second]
  | false =>
      have first (item : α) : (decide (key item = value) && test (key item)) = false := by
        by_cases same : key item = value <;> simp [same, selected]
      have second (item : α)
          : (decide (key item = value) && !test (key item)) = decide (key item = value) := by
        by_cases same : key item = value <;> simp [same, selected]
      simp [first, second]

end CodebaseGraph.Sorting
