import Mathlib.Data.Finset.Card
import Mathlib.Data.List.Destutter
import Mathlib.Tactic.Common

/-! Runs of neighbours with equal keys, each cut to its first item.
What is left of a list repeats no key exactly if no key returns behind another one; how far a
prefix of it goes is counted by the distinct keys before an item.
-/

namespace CodebaseGraph.Collections

variable {α κ : Type} [DecidableEq κ] (key : α → κ)

/-- The first item of each run of equal keys. -/
def runHeads (items : List α) : List α := items.destutter (fun left right => key left ≠ key right)

/-- How many keys the items have. -/
def distinctKeys (items : List α) : Nat := (items.map key).toFinset.card

/-- The key of the item stood before it, with another key in between. -/
def Returns (before : List α) (item : α) : Prop :=
  ∃ first other, [first, other].Sublist before ∧ key first = key item ∧ key other ≠ key item

section Heads

variable {key}

theorem destutter'_concat (head last : α) (items : List α)
    : (items ++ [last]).destutter' (fun left right => key left ≠ key right) head
      = if (items.map key).getLastD (key head) = key last then
          items.destutter' (fun left right => key left ≠ key right) head
        else
          items.destutter' (fun left right => key left ≠ key right) head ++ [last] := by
  induction items generalizing head with
  | nil => by_cases same : key head = key last <;> simp [same]
  | cons next rest ih =>
      by_cases same : key head = key next
      · have folded (more : List α)
            : (next :: more).destutter' (fun left right => key left ≠ key right) head
              = more.destutter' (fun left right => key left ≠ key right) head :=
          List.destutter'_cons_neg _ (not_not.mpr same)
        rw [List.cons_append, folded, folded, ih head, List.map_cons, List.getLastD_cons, same]
      · have opened (more : List α)
            : (next :: more).destutter' (fun left right => key left ≠ key right) head
              = head :: more.destutter' (fun left right => key left ≠ key right) next :=
          List.destutter'_cons_pos _ same
        rw [List.cons_append, opened, opened, ih next, List.map_cons, List.getLastD_cons]
        split <;> simp

/-- The last item opens a run or belongs to the run before it. -/
theorem runHeads_concat (items : List α) (last : α)
    : runHeads key (items ++ [last])
      = if (items.map key).getLast? = some (key last) then runHeads key items
        else runHeads key items ++ [last] := by
  cases items with
  | nil => simp [runHeads]
  | cons head rest =>
      have shown
          : (rest ++ [last]).destutter' (fun left right => key left ≠ key right) head = _ :=
        destutter'_concat head last rest
      rw [List.getLastD_eq_getLast?] at shown
      rw [runHeads, runHeads, List.cons_append, List.destutter_cons', List.destutter_cons', shown,
        List.map_cons, List.getLast?_cons]
      simp only [Option.some.injEq]

theorem mem_keys_runHeads {items : List α} {found : κ}
    : found ∈ (runHeads key items).map key ↔ found ∈ items.map key := by
  induction items using List.reverseRecOn with
  | nil => simp [runHeads]
  | append_singleton items last ih =>
      rw [runHeads_concat]
      split
      case isTrue same =>
          rw [ih, List.map_append, List.mem_append, List.map_singleton, List.mem_singleton]
          have held := List.mem_of_getLast? same
          exact ⟨.inl, fun either => either.elim id (fun last => last ▸ held)⟩
      case isFalse => rw [List.map_append, List.map_append, List.mem_append, List.mem_append, ih]

theorem runHeads_isPrefix (items more : List α)
    : runHeads key items <+: runHeads key (items ++ more) := by
  induction more using List.reverseRecOn with
  | nil => simp
  | append_singleton more last ih =>
      rw [← List.append_assoc, runHeads_concat]
      split
      · exact ih
      · exact ih.trans (List.prefix_append _ _)

/-- Where a head stands among the items, the heads before it are those of the items before it. -/
theorem runHeads_split {items earlier later : List α} {head : α}
    (split : runHeads key items = earlier ++ head :: later)
    : ∃ before after,
        items = before ++ head :: after
        ∧ runHeads key before = earlier
        ∧ (before.map key).getLast? ≠ some (key head) := by
  induction items using List.reverseRecOn generalizing later with
  | nil => simp [runHeads] at split
  | append_singleton items last ih =>
      rw [runHeads_concat] at split
      split at split
      case isTrue =>
          obtain ⟨before, after, rfl, kept⟩ := ih split
          exact ⟨before, after ++ [last], by simp, kept⟩
      case isFalse fresh =>
          rcases List.eq_nil_or_concat later with rfl | ⟨others, final, rfl⟩
          · obtain ⟨rfl, same⟩ := List.append_inj' split rfl
            obtain rfl := List.singleton_inj.mp same
            exact ⟨items, [], rfl, rfl, fresh⟩
          · rw [List.concat_eq_append, ← List.cons_append, ← List.append_assoc] at split
            obtain ⟨begun, -⟩ := List.append_inj' split rfl
            obtain ⟨before, after, rfl, kept⟩ := ih begun
            exact ⟨before, after ++ [last], by simp, kept⟩

end Heads

-----------------------------------------------------------------------------------------
-- Returning keys
-----------------------------------------------------------------------------------------

section Returning

variable {key} {items before after : List α} {item : α} {room : Nat}

omit [DecidableEq κ] in
/-- An item repeats its predecessor, or it returns only if it opens a run of a known key. -/
theorem returns_of_known (known : key item ∈ before.map key)
    (opens : (before.map key).getLast? ≠ some (key item))
    : Returns key before item := by
  rcases List.eq_nil_or_concat before with rfl | ⟨front, last, rfl⟩
  · simp at known
  · rw [List.concat_eq_append] at known opens ⊢
    have different : key last ≠ key item := by simpa using opens
    rw [List.map_append, List.mem_append, List.map_singleton, List.mem_singleton] at known
    obtain ⟨first, inside, same⟩ := List.mem_map.mp (known.resolve_right different.symm)
    exact ⟨first, last, (List.singleton_sublist.mpr inside).append (List.Sublist.refl [last]), same,
      different⟩

omit [DecidableEq κ] in
theorem Returns.known (returned : Returns key before item) : key item ∈ before.map key := by
  obtain ⟨first, other, inOrder, same, -⟩ := returned
  exact same ▸ List.mem_map_of_mem (inOrder.subset (List.mem_cons_self ..))

omit [DecidableEq κ] in
/-- Past its predecessor of the same key, an item has returned as that one has. -/
theorem Returns.predecessor {last : α} (returned : Returns key (before ++ [last]) item)
    (same : key last = key item)
    : Returns key before last := by
  obtain ⟨first, other, inOrder, held, different⟩ := returned
  refine ⟨first, other, ?_, held.trans same.symm, same ▸ different⟩
  obtain ⟨left, right, split, inside, final⟩ := List.sublist_append_iff.mp inOrder
  rcases List.sublist_singleton.mp final with rfl | rfl
  · rw [List.append_nil] at split
    exact split ▸ inside
  · obtain ⟨-, tail⟩ := List.append_inj' (show [first] ++ [other] = left ++ [last] from split) rfl
    exact absurd (List.singleton_inj.mp tail ▸ same) different

theorem distinctKeys_mono {other : List α} (subset : items.map key ⊆ other.map key)
    : distinctKeys key items ≤ distinctKeys key other := by
  refine Finset.card_le_card (fun found member => ?_)
  exact List.mem_toFinset.mpr (subset (List.mem_toFinset.mp member))

theorem distinctKeys_runHeads : distinctKeys key (runHeads key items) = distinctKeys key items :=
  congrArg Finset.card (List.toFinset.ext (fun _ => mem_keys_runHeads))

theorem distinctKeys_le_length : distinctKeys key items ≤ items.length := by
  have bounded := List.toFinset_card_le (items.map key)
  rwa [List.length_map] at bounded

theorem distinctKeys_append_le (items other : List α)
    : distinctKeys key (items ++ other) ≤ distinctKeys key items + distinctKeys key other := by
  rw [distinctKeys, List.map_append, List.toFinset_append]
  exact Finset.card_union_le _ _

theorem distinctKeys_eq_length (distinct : (items.map key).Nodup)
    : distinctKeys key items = items.length := by
  rw [distinctKeys, List.toFinset_card_of_nodup distinct, List.length_map]

omit [DecidableEq κ] in
theorem nodup_of_splits
    (fresh
      : ∀ earlier item later, items = earlier ++ item :: later → key item ∉ earlier.map key)
    : (items.map key).Nodup := by
  induction items using List.reverseRecOn with
  | nil => exact List.nodup_nil
  | append_singleton items last ih =>
      rw [List.map_append, List.nodup_append]
      refine ⟨ih (fun earlier item later split => fresh earlier item (later ++ [last]) ?_),
        List.nodup_singleton _, fun found member other single same => ?_⟩
      · rw [split, List.append_assoc, List.cons_append]
      · rw [List.map_singleton, List.mem_singleton] at single
        exact fresh items last [] rfl (single ▸ same ▸ member)

/-- While the first heads repeat no key, an item behind fewer distinct keys has its heads
among them.
-/
theorem runHeads_isPrefix_take (distinct : (((runHeads key items).take room).map key).Nodup)
    (begins : before <+: items) (early : distinctKeys key before < room)
    : runHeads key before <+: (runHeads key items).take room
      ∧ (runHeads key before).length < room := by
  obtain ⟨rest, rfl⟩ := begins
  have heads : runHeads key before <+: runHeads key (before ++ rest) := runHeads_isPrefix before rest
  have short : (runHeads key before).length < room := by
    by_contra long
    have long := not_lt.mp long
    have same
        : (runHeads key (before ++ rest)).take room = (runHeads key before).take room := by
      obtain ⟨more, whole⟩ := heads
      rw [← whole, List.take_append_of_le_length long]
    rw [same] at distinct
    have counted := distinctKeys_eq_length distinct
    rw [List.length_take, min_eq_left long] at counted
    have bounded : room ≤ distinctKeys key (runHeads key before) :=
      counted ▸ distinctKeys_mono (List.map_subset key (List.take_subset _ _))
    rw [distinctKeys_runHeads] at bounded
    exact absurd early (not_lt.mpr bounded)
  exact ⟨List.prefix_take_iff.mpr ⟨heads, short.le⟩, short⟩

/-- An item that opens a run behind fewer distinct keys is itself one of the first heads. -/
theorem runHeads_concat_isPrefix_take
    (distinct : (((runHeads key items).take room).map key).Nodup)
    (split : items = before ++ item :: after) (early : distinctKeys key before < room)
    (opens : (before.map key).getLast? ≠ some (key item))
    : runHeads key before ++ [item] <+: (runHeads key items).take room := by
  have begins : before ++ [item] <+: items := ⟨after, by rw [split]; simp⟩
  obtain ⟨-, short⟩ :=
    runHeads_isPrefix_take distinct ((List.prefix_append _ _).trans begins) early
  obtain ⟨rest, rfl⟩ := begins
  have heads : runHeads key (before ++ [item]) <+: runHeads key (before ++ [item] ++ rest) :=
    runHeads_isPrefix (before ++ [item]) rest
  rw [runHeads_concat, if_neg opens] at heads
  refine List.prefix_take_iff.mpr ⟨heads, ?_⟩
  rw [List.length_append, List.length_singleton]
  exact short

/-- Every key behind fewer distinct keys is among the first heads. -/
theorem mem_take_runHeads (distinct : (((runHeads key items).take room).map key).Nodup)
    (split : items = before ++ item :: after) (early : distinctKeys key before < room)
    : key item ∈ ((runHeads key items).take room).map key := by
  by_cases opens : (before.map key).getLast? = some (key item)
  · have known := mem_keys_runHeads.mpr (List.mem_of_getLast? opens)
    have heads := (runHeads_isPrefix_take distinct ⟨item :: after, split.symm⟩ early).1
    exact (List.map_subset key heads.subset) known
  · have heads := runHeads_concat_isPrefix_take distinct split early opens
    exact List.mem_map_of_mem (heads.subset (by simp))

/-- One of the first heads, with the items and the heads before it. -/
theorem take_runHeads_split {earlier later : List α}
    (split : (runHeads key items).take room = earlier ++ item :: later)
    : ∃ before after,
        items = before ++ item :: after
        ∧ runHeads key before = earlier
        ∧ (before.map key).getLast? ≠ some (key item)
        ∧ distinctKeys key before < room := by
  have whole : runHeads key items = earlier ++ item :: (later ++ (runHeads key items).drop room) := by
    rw [← List.cons_append, ← List.append_assoc, ← split, List.take_append_drop]
  obtain ⟨before, after, parts, rfl, opens⟩ := runHeads_split whole
  refine ⟨before, after, parts, rfl, opens, ?_⟩
  have bounded : ((runHeads key items).take room).length ≤ room := List.length_take_le _ _
  rw [split, List.length_append, List.length_cons] at bounded
  calc distinctKeys key before
      = distinctKeys key (runHeads key before) := distinctKeys_runHeads.symm
    _ ≤ (runHeads key before).length := distinctKeys_le_length
    _ < room := by omega

/-- The first heads repeat no key exactly if no key returns behind fewer distinct keys. -/
theorem nodup_take_runHeads_iff
    : (((runHeads key items).take room).map key).Nodup
      ↔ ∀ before item after,
          items = before ++ item :: after
          → Returns key before item
          → room ≤ distinctKeys key before := by
  constructor
  · intro distinct before
    induction before using List.reverseRecOn with
    | nil => exact fun item after _ returned => absurd returned.known (by simp)
    | append_singleton front last ih =>
        intro item after split returned
        by_contra early
        have early := not_le.mp early
        by_cases same : key last = key item
        · have before : distinctKeys key front ≤ distinctKeys key (front ++ [last]) :=
            distinctKeys_mono (List.map_subset key (List.subset_append_left _ _))
          have late := ih last (item :: after) (by rw [split]; simp) (returned.predecessor same)
          omega
        · have heads := runHeads_concat_isPrefix_take distinct split early (by simpa using same)
          have distinct := (heads.sublist.map key).nodup distinct
          rw [List.map_append, List.nodup_append] at distinct
          exact distinct.2.2 _ (mem_keys_runHeads.mpr returned.known) _ (by simp) rfl
  · intro late
    refine nodup_of_splits (fun earlier head later split known => ?_)
    obtain ⟨before, after, parts, rfl, opens, early⟩ := take_runHeads_split split
    have returned := returns_of_known (mem_keys_runHeads.mp known) opens
    exact absurd (late before head after parts returned) (not_le.mpr early)

/-- Without a repeated key, each of the first heads is the first item of its key. -/
theorem first_of_take_runHeads (distinct : (((runHeads key items).take room).map key).Nodup)
    (member : item ∈ (runHeads key items).take room)
    : ∃ before after,
        items = before ++ item :: after
        ∧ key item ∉ before.map key
        ∧ distinctKeys key before < room := by
  obtain ⟨earlier, later, split⟩ := List.append_of_mem member
  obtain ⟨before, after, parts, rfl, -, early⟩ := take_runHeads_split split
  refine ⟨before, after, parts, fun known => ?_, early⟩
  rw [split, List.map_append, List.nodup_append] at distinct
  exact distinct.2.2 _ (mem_keys_runHeads.mpr known) _ (by simp) rfl

/-- If fewer heads are taken than there is room for, none is left out. -/
theorem length_take_runHeads (distinct : (((runHeads key items).take room).map key).Nodup)
    (less : ((runHeads key items).take room).length < room)
    : (runHeads key items).take room = runHeads key items
      ∧ distinctKeys key items = (runHeads key items).length := by
  rw [List.length_take] at less
  have whole : (runHeads key items).take room = runHeads key items :=
    List.take_of_length_le (by omega)
  rw [whole] at distinct
  exact ⟨whole, distinctKeys_runHeads.symm.trans (distinctKeys_eq_length distinct)⟩

/-- Room that is left after the first heads, counted in heads or in keys. -/
theorem sub_length_runHeads (distinct : (((runHeads key items).take room).map key).Nodup)
    : room - (runHeads key items).length = room - distinctKeys key items := by
  by_cases less : ((runHeads key items).take room).length < room
  · rw [(length_take_runHeads distinct less).2]
  · rw [List.length_take] at less
    have heads : room ≤ (runHeads key items).length := by omega
    have counted := distinctKeys_eq_length distinct
    rw [List.length_take, min_eq_left heads] at counted
    have bounded : room ≤ distinctKeys key (runHeads key items) :=
      counted ▸ distinctKeys_mono (List.map_subset key (List.take_subset _ _))
    rw [distinctKeys_runHeads] at bounded
    omega

end Returning

end CodebaseGraph.Collections

/-! Runs of equal keys in a ranked list. Whether a key returns is told by the ranks alone, so it
can be asked of the items before they are sorted.
-/

namespace CodebaseGraph.Collections

variable {α κ : Type} [DecidableEq κ] (key : α → κ) (rank : α → α → Ordering)

/-- The key of the item ranks before it, and another key in between. -/
def ReturnsAmong (items : List α) (item : α) : Prop :=
  ∃ first ∈ items, ∃ other ∈ items,
    key first = key item
    ∧ key other ≠ key item
    ∧ rank first other = .lt
    ∧ rank other item = .lt

/-- How many keys rank before the item. -/
def keysBefore (items : List α) (item : α) : Nat :=
  distinctKeys key (items.filter (fun other => rank other item = .lt))

/-- The items in the order of their ranks; equal ranks keep their order. -/
def sortByRank (items : List α) : List α :=
  items.mergeSort (fun left right => (rank left right).isLE)

section Ranked

variable {key rank} [Std.TransCmp rank] {items : List α} {item : α} {room : Nat}

omit [Std.TransCmp rank] in
theorem mem_sortByRank : item ∈ sortByRank rank items ↔ item ∈ items := List.mem_mergeSort

theorem sortByRank_pairwise
    : (sortByRank rank items).Pairwise (fun left right => (rank left right).isLE) := by
  refine List.pairwise_mergeSort (fun _ _ _ => Std.TransCmp.isLE_trans) (fun left right => ?_) items
  have turned : (rank left right).isGE = (rank right left).isLE := Std.OrientedCmp.isGE_eq_isLE
  cases ranked : rank left right <;> simp_all

theorem rank_self (item : α) : rank item item = .eq := Std.ReflCmp.compare_self

theorem not_below_self (below : rank item item = .lt) : False := by
  rw [show rank item item = .eq from rank_self item] at below
  cases below

omit [Std.TransCmp rank] in
theorem distinctKeys_sortByRank
    : distinctKeys key (sortByRank rank items) = distinctKeys key items := by
  refine congrArg Finset.card (List.toFinset.ext (fun found => ?_))
  simp only [List.mem_map, mem_sortByRank]

/-- Where a sorted list reaches the rank of one of its items. -/
theorem pairwise_split {list : List α}
    (sorted : list.Pairwise (fun left right => (rank left right).isLE)) (inside : item ∈ list)
    : ∃ before reached after,
        list = before ++ reached :: after
        ∧ list.filter (fun other => rank other item = .lt) = before
        ∧ rank reached item = .eq := by
  induction list with
  | nil => exact absurd inside List.not_mem_nil
  | cons head rest ih =>
      obtain ⟨least, sorted⟩ := List.pairwise_cons.mp sorted
      by_cases lower : rank head item = .lt
      · have later : item ∈ rest := by
          refine (List.mem_cons.mp inside).resolve_left (fun same => ?_)
          exact not_below_self (same ▸ lower : rank head head = .lt)
        obtain ⟨before, reached, after, rfl, below, tied⟩ := ih sorted later
        exact ⟨head :: before, reached, after, rfl, by rw [List.filter_cons_of_pos (by simpa), below],
          tied⟩
      · have tied : rank head item = .eq := by
          rcases List.mem_cons.mp inside with rfl | later
          · exact rank_self _
          · have bounded := least item later
            cases ranked : rank head item <;> simp_all
        refine ⟨[], head, rest, rfl, List.filter_eq_nil_iff.mpr (fun other member below => ?_), tied⟩
        have below : rank other item = .lt := by simpa using below
        rcases List.mem_cons.mp member with rfl | later
        · exact lower below
        · exact lower (Std.TransCmp.lt_of_isLE_of_lt (least other later) below)

theorem rank_le_of_split {before after : List α}
    (split : sortByRank rank items = before ++ item :: after) {other : α}
    : (other ∈ before → (rank other item).isLE) ∧ (other ∈ after → (rank item other).isLE) := by
  have sorted
      : (sortByRank rank items).Pairwise (fun left right => (rank left right).isLE) :=
    sortByRank_pairwise
  rw [split, List.pairwise_append] at sorted
  obtain ⟨-, later, across⟩ := sorted
  exact ⟨fun member => across other member item (List.mem_cons_self ..),
    fun member => (List.pairwise_cons.mp later).1 other member⟩

omit [DecidableEq κ] [Std.TransCmp rank] in
/-- Items of different keys never tie. -/
theorem lt_of_isLE (tied : ∀ left right, rank left right = .eq → key left = key right)
    {left right : α} (ordered : (rank left right).isLE) (different : key left ≠ key right)
    : rank left right = .lt := by
  cases ranked : rank left right with
  | lt => rfl
  | eq => exact absurd (tied left right ranked) different
  | gt => simp [ranked] at ordered

/-- The items before one in the sorted list have all the keys that rank before it. -/
theorem keysBefore_le {before after : List α}
    (split : sortByRank rank items = before ++ item :: after)
    : keysBefore key rank items item ≤ distinctKeys key before := by
  refine distinctKeys_mono (List.map_subset key (fun other member => ?_))
  obtain ⟨inside, below⟩ := List.mem_filter.mp member
  have below : rank other item = .lt := by simpa using below
  have listed : other ∈ before ++ item :: after := split ▸ mem_sortByRank.mpr inside
  rcases List.mem_append.mp listed with earlier | late
  · exact earlier
  · exfalso
    rcases List.mem_cons.mp late with same | later
    · exact not_below_self (same ▸ below : rank item item = .lt)
    · exact Std.OrientedCmp.not_lt_of_isLE ((rank_le_of_split split).2 later) below

/-- The rank of an item is reached behind just the keys that rank before it. -/
theorem sortByRank_reaches (tied : ∀ left right, rank left right = .eq → key left = key right)
    (member : item ∈ items)
    : ∃ before reached after,
        sortByRank rank items = before ++ reached :: after
        ∧ key reached = key item
        ∧ distinctKeys key before = keysBefore key rank items item
        ∧ (sortByRank rank items).filter (fun other => rank other item = .lt) = before := by
  obtain ⟨before, reached, after, split, below, equal⟩ :=
    pairwise_split sortByRank_pairwise (mem_sortByRank.mpr member : item ∈ sortByRank rank items)
  refine ⟨before, reached, after, split, tied _ _ equal, ?_, below⟩
  refine le_antisymm ?_ ?_
  · refine distinctKeys_mono (List.map_subset key (fun other inside => ?_))
    rw [← below] at inside
    obtain ⟨listed, lower⟩ := List.mem_filter.mp inside
    exact List.mem_filter.mpr ⟨mem_sortByRank.mp listed, lower⟩
  · refine distinctKeys_mono (List.map_subset key (fun other inside => ?_))
    obtain ⟨listed, lower⟩ := List.mem_filter.mp inside
    rw [← below]
    exact List.mem_filter.mpr ⟨mem_sortByRank.mpr listed, lower⟩

omit [DecidableEq κ] in
theorem Returns.among (tied : ∀ left right, rank left right = .eq → key left = key right)
    {before after : List α} (split : sortByRank rank items = before ++ item :: after)
    (returned : Returns key before item)
    : ReturnsAmong key rank items item := by
  obtain ⟨first, other, inOrder, same, different⟩ := returned
  have listed {found : α} (inside : found ∈ [first, other]) : found ∈ items := by
    refine mem_sortByRank.mp (?_ : found ∈ sortByRank rank items)
    rw [split]
    exact List.mem_append_left _ (inOrder.subset inside)
  have sorted
      : (sortByRank rank items).Pairwise (fun left right => (rank left right).isLE) :=
    sortByRank_pairwise
  rw [split, List.pairwise_append] at sorted
  have ordered : (rank first other).isLE := by
    have pair := sorted.1.sublist inOrder
    exact (List.pairwise_cons.mp pair).1 other (by simp)
  have below := (rank_le_of_split split).1 (inOrder.subset (show other ∈ [first, other] by simp))
  exact ⟨first, listed (by simp), other, listed (by simp), same, different,
    lt_of_isLE tied ordered (fun equal => different (equal.symm.trans same)),
    lt_of_isLE tied below different⟩

/-- Two items of a sorted list stand in the order of their ranks. -/
theorem pair_sublist {list : List α}
    (sorted : list.Pairwise (fun left right => (rank left right).isLE)) {first other : α}
    (member : first ∈ list) (member' : other ∈ list) (below : rank first other = .lt)
    : [first, other].Sublist list := by
  induction list with
  | nil => exact absurd member List.not_mem_nil
  | cons head rest ih =>
      obtain ⟨least, sorted⟩ := List.pairwise_cons.mp sorted
      rcases List.mem_cons.mp member' with rfl | later
      · exfalso
        rcases List.mem_cons.mp member with same | behind
        · exact not_below_self (same ▸ below : rank other other = .lt)
        · exact Std.OrientedCmp.not_lt_of_isLE (least first behind) below
      · rcases List.mem_cons.mp member with rfl | behind
        · exact (List.singleton_sublist.mpr later).cons_cons _
        · exact (ih sorted behind later).cons _

omit [DecidableEq κ] in
theorem ReturnsAmong.returns {before : List α} {reached : α} (same : key reached = key item)
    (below : (sortByRank rank items).filter (fun other => rank other item = .lt) = before)
    (returned : ReturnsAmong key rank items item)
    : Returns key before reached := by
  obtain ⟨first, member, other, member', held, different, less, lower⟩ := returned
  have inside {found : α} (listed : found ∈ items) (below' : rank found item = .lt)
      : found ∈ before := by
    rw [← below]
    exact List.mem_filter.mpr ⟨mem_sortByRank.mpr listed, by simpa using below'⟩
  refine ⟨first, other, ?_, held.trans same.symm, same ▸ different⟩
  have sorted : before.Pairwise (fun left right => (rank left right).isLE) :=
    below ▸ sortByRank_pairwise.sublist List.filter_sublist
  exact pair_sublist sorted (inside member (Std.TransCmp.lt_trans less lower)) (inside member' lower)
    less

-- The first heads of a ranked list

/-- The first heads of the sorted items repeat no key exactly if each key that returns does so
behind as many keys as there is room for.
-/
theorem nodup_take_sorted_iff (tied : ∀ left right, rank left right = .eq → key left = key right)
    : (((runHeads key (sortByRank rank items)).take room).map key).Nodup
      ↔ ∀ item ∈ items, ReturnsAmong key rank items item → room ≤ keysBefore key rank items item := by
  rw [nodup_take_runHeads_iff]
  constructor
  · intro late item member returned
    obtain ⟨before, reached, after, split, same, counted, below⟩ := sortByRank_reaches tied member
    rw [← counted]
    exact late before reached after split (returned.returns same below)
  · intro late before item after split returned
    have member : item ∈ items :=
      mem_sortByRank.mp (split ▸ by simp : item ∈ sortByRank rank items)
    exact (late item member (returned.among tied split)).trans (keysBefore_le split)

/-- Keys outside the first heads are the keys behind too many others. -/
theorem forall_take_sorted_iff (tied : ∀ left right, rank left right = .eq → key left = key right)
    (distinct : (((runHeads key (sortByRank rank items)).take room).map key).Nodup)
    (taken : κ → Prop)
    : (∀ found ∈ ((runHeads key (sortByRank rank items)).take room).map key, ¬taken found)
      ↔ ∀ item ∈ items, taken (key item) → room ≤ keysBefore key rank items item := by
  constructor
  · intro free item member used
    obtain ⟨before, reached, after, split, same, counted, -⟩ := sortByRank_reaches tied member
    by_contra early
    rw [← counted, not_le] at early
    have listed := mem_take_runHeads distinct split early
    exact free _ listed (same ▸ used)
  · intro late found listed used
    obtain ⟨head, member, rfl⟩ := List.mem_map.mp listed
    obtain ⟨before, after, split, -, early⟩ := first_of_take_runHeads distinct member
    have inside : head ∈ items :=
      mem_sortByRank.mp (split ▸ by simp : head ∈ sortByRank rank items)
    have bounded := (late head inside used).trans (keysBefore_le split)
    omega

/-- Without a repeated key, each of the first heads has the best rank of its key. -/
theorem best_of_take_sorted
    (distinct : (((runHeads key (sortByRank rank items)).take room).map key).Nodup)
    (member : item ∈ (runHeads key (sortByRank rank items)).take room)
    : item ∈ items ∧ ∀ other ∈ items, key other = key item → (rank item other).isLE := by
  obtain ⟨before, after, split, first, -⟩ := first_of_take_runHeads distinct member
  refine ⟨mem_sortByRank.mp (split ▸ by simp : item ∈ sortByRank rank items),
    fun other inside same => ?_⟩
  have listed : other ∈ before ++ item :: after := split ▸ mem_sortByRank.mpr inside
  rcases List.mem_append.mp listed with earlier | late
  · exact absurd (same ▸ List.mem_map_of_mem earlier) first
  · rcases List.mem_cons.mp late with rfl | later
    · simp [rank_self]
    · exact (rank_le_of_split split).2 later

end Ranked

end CodebaseGraph.Collections
