import Mathlib.Data.Finset.Card
import Mathlib.Data.List.Dedup
import CodebaseGraph.Sorting.Cursors

/-! Collapsing neighbours with equal keys.
On a list sorted by key the streaming collapse yields one group for each key, in key order,
folded in the order of the list.
-/

namespace CodebaseGraph.Sorting

variable {κ β : Type*} [LinearOrder κ]

/-- The groups a pass over the records closes, the open one at the end included. -/
def closeGroups (merge : β → β → β) : Option (κ × β) → List (κ × β) → List (κ × β)
  | group, [] => group.toList
  | none, record :: rest => closeGroups merge (some record) rest
  | some group, record :: rest =>
      if group.1 = record.1 then
        closeGroups merge (some (group.1, merge group.2 record.2)) rest
      else group :: closeGroups merge (some record) rest

/-- The values under one key, in order. -/
def valuesOf (key : κ) (records : List (κ × β)) : List β :=
  (records.filter (fun record => record.1 = key)).map Prod.snd

/-- A nonempty list folded from the left. -/
def foldGroup (merge : β → β → β) : List β → Option β
  | [] => none
  | head :: tail => some (tail.foldl merge head)

/-- The keys that occur, in increasing order and once each. -/
def sortedKeys (records : List (κ × β)) : List κ :=
  sortBy id (records.map Prod.fst).dedup

/-- One group for each key, in key order. -/
def mergedGroups (merge : β → β → β) (records : List (κ × β)) : List (κ × β) :=
  (sortedKeys records).filterMap
    (fun key => (foldGroup merge (valuesOf key records)).map (fun value => (key, value)))

/-- The groups have increasing keys and are what the records fold to. -/
structure IsGrouping (merge : β → β → β) (records groups : List (κ × β)) : Prop where
  increasing : groups.Pairwise (fun first second => first.1 < second.1)
  mem_iff : ∀ key value,
    (key, value) ∈ groups ↔ foldGroup merge (valuesOf key records) = some value

theorem IsGrouping.unique {merge : β → β → β} {records first second : List (κ × β)}
    (left : IsGrouping merge records first) (right : IsGrouping merge records second)
    : first = second := by
  have antisymm : ∀ a b : κ × β, a ∈ first → b ∈ second → a.1 < b.1 → b.1 < a.1 → a = b :=
    fun a b _ _ lt gt => absurd gt (not_lt_of_gt lt)
  have nodup {groups : List (κ × β)} (sorted : groups.Pairwise (fun a b => a.1 < b.1))
      : groups.Nodup :=
    sorted.imp (fun lt same => absurd (congrArg Prod.fst same) lt.ne)
  apply List.Perm.eq_of_pairwise antisymm left.increasing right.increasing
  apply (List.perm_ext_iff_of_nodup (nodup left.increasing) (nodup right.increasing)).mpr
  intro group
  exact (left.mem_iff group.1 group.2).trans (right.mem_iff group.1 group.2).symm

/-- Only the values under each key matter. -/
theorem IsGrouping.congr {merge : β → β → β} {records others groups : List (κ × β)}
    (grouping : IsGrouping merge records groups)
    (same : ∀ key, valuesOf key records = valuesOf key others)
    : IsGrouping merge others groups := by
  refine ⟨grouping.increasing, ?_⟩
  intro key value
  rw [grouping.mem_iff, same]

theorem valuesOf_cons_self (key : κ) (value : β) (records : List (κ × β))
    : valuesOf key ((key, value) :: records) = value :: valuesOf key records := by
  simp [valuesOf]

theorem valuesOf_cons_ne {key other : κ} (ne : other ≠ key) (value : β)
    (records : List (κ × β))
    : valuesOf key ((other, value) :: records) = valuesOf key records := by
  simp [valuesOf, ne]

theorem valuesOf_eq_nil_iff {key : κ} {records : List (κ × β)}
    : valuesOf key records = [] ↔ ∀ record ∈ records, record.1 ≠ key := by
  simp [valuesOf, List.filter_eq_nil_iff]

theorem foldGroup_eq_none_iff {merge : β → β → β} {values : List β}
    : foldGroup merge values = none ↔ values = [] := by
  cases values <;> simp [foldGroup]

theorem mem_sortedKeys {records : List (κ × β)} {key : κ}
    : key ∈ sortedKeys records ↔ ∃ record ∈ records, record.1 = key := by
  rw [sortedKeys, (sortBy_perm id _).mem_iff, List.mem_dedup, List.mem_map]

theorem sortedKeys_pairwise (records : List (κ × β))
    : (sortedKeys records).Pairwise (fun first second => first < second) := by
  have sorted : (sortedKeys records).Pairwise (fun first second => first ≤ second) :=
    sortBy_sorted id _
  have nodup : (sortedKeys records).Nodup :=
    (sortBy_perm id _).nodup_iff.mpr (List.nodup_dedup _)
  exact (sorted.and nodup).imp (fun both => lt_of_le_of_ne both.1 both.2)

/-- Looking a key up among the groups folds its records. -/
theorem IsGrouping.find? {merge : β → β → β} {records groups : List (κ × β)}
    (grouping : IsGrouping merge records groups) (key : κ)
    : (groups.find? (fun group => group.1 = key)).map Prod.snd
      = foldGroup merge (valuesOf key records) := by
  cases found : groups.find? (fun group => group.1 = key) with
  | some group =>
      have atKey : group.1 = key := by simpa using List.find?_some found
      have inside := (grouping.mem_iff group.1 group.2).mp (List.mem_of_find?_eq_some found)
      rw [← atKey, inside]
      rfl
  | none =>
      cases folded : foldGroup merge (valuesOf key records) with
      | none => rfl
      | some value =>
          have inside := (grouping.mem_iff key value).mpr folded
          have absent := List.find?_eq_none.mp found _ inside
          simp at absent

/-- The reference groups are the grouping. -/
theorem mergedGroups_isGrouping (merge : β → β → β) (records : List (κ × β))
    : IsGrouping merge records (mergedGroups merge records) := by
  constructor
  · apply List.Pairwise.filterMap _ _ (sortedKeys_pairwise records)
    intro first second lt group inFirst group' inSecond
    obtain ⟨_, _, rfl⟩ := Option.map_eq_some_iff.mp inFirst
    obtain ⟨_, _, rfl⟩ := Option.map_eq_some_iff.mp inSecond
    exact lt
  · intro key value
    simp only [mergedGroups, List.mem_filterMap, Option.map_eq_some_iff, Prod.mk.injEq]
    constructor
    · intro ⟨other, _, folded, eq, sameKey, sameValue⟩
      rw [← sameKey, ← sameValue]
      exact eq
    · intro folded
      refine ⟨key, ?_, value, folded, rfl, rfl⟩
      rw [mem_sortedKeys]
      by_contra absent
      have empty : valuesOf key records = [] :=
        valuesOf_eq_nil_iff.mpr (fun record inside same => absent ⟨record, inside, same⟩)
      rw [empty] at folded
      contradiction

/-- There is one group for each key that occurs. -/
theorem mergedGroups_map_fst (merge : β → β → β) (records : List (κ × β))
    : (mergedGroups merge records).map Prod.fst = sortedKeys records := by
  rw [mergedGroups, List.map_filterMap]
  refine (List.filterMap_congr ?_).trans List.filterMap_some
  intro key inside
  obtain ⟨record, inRecords, atKey⟩ := mem_sortedKeys.mp inside
  cases folded : foldGroup merge (valuesOf key records) with
  | none =>
      have absent := valuesOf_eq_nil_iff.mp (foldGroup_eq_none_iff.mp folded)
      exact absurd atKey (absent record inRecords)
  | some value => simp

theorem mergedGroups_length (merge : β → β → β) (records : List (κ × β))
    : (mergedGroups merge records).length = (records.map Prod.fst).toFinset.card := by
  rw [← List.length_map (f := Prod.fst), mergedGroups_map_fst, sortedKeys,
    (sortBy_perm id _).length_eq]
  rfl

/-- A group absorbs a record of its own key. -/
theorem IsGrouping.absorb {merge : β → β → β} {key : κ} {value item : β}
    {records groups : List (κ × β)}
    (grouping : IsGrouping merge ((key, merge value item) :: records) groups)
    : IsGrouping merge ((key, value) :: (key, item) :: records) groups := by
  refine ⟨grouping.increasing, ?_⟩
  intro other folded
  rw [grouping.mem_iff]
  by_cases same : key = other
  · subst same
    rw [valuesOf_cons_self, valuesOf_cons_self, valuesOf_cons_self]
    rfl
  · rw [valuesOf_cons_ne same, valuesOf_cons_ne same, valuesOf_cons_ne same]

/-- A record in front whose key is below all others is a group of its own. -/
theorem IsGrouping.cons {merge : β → β → β} {key : κ} {value : β}
    {records groups : List (κ × β)} (grouping : IsGrouping merge records groups)
    (below : ∀ record ∈ records, key < record.1)
    : IsGrouping merge ((key, value) :: records) ((key, value) :: groups) := by
  have alone : valuesOf key records = [] :=
    valuesOf_eq_nil_iff.mpr (fun record inside => (below record inside).ne')
  have above : ∀ group ∈ groups, key < group.1 := by
    intro group inside
    by_contra notBelow
    have absent : valuesOf group.1 records = [] := by
      apply valuesOf_eq_nil_iff.mpr
      intro record inRecords same
      exact notBelow (same ▸ below record inRecords)
    have folded := (grouping.mem_iff group.1 group.2).mp inside
    rw [absent] at folded
    contradiction
  refine ⟨List.Pairwise.cons above grouping.increasing, ?_⟩
  intro other folded
  by_cases same : key = other
  · subst same
    rw [valuesOf_cons_self, alone, List.mem_cons]
    constructor
    · intro inside
      rcases inside with eq | later
      · rw [(Prod.mk.inj eq).2]
        rfl
      · exact absurd (above _ later) (lt_irrefl key)
    · intro eq
      obtain rfl : value = folded := Option.some.inj eq
      exact .inl rfl
  · rw [valuesOf_cons_ne same, List.mem_cons, grouping.mem_iff]
    constructor
    · intro inside
      rcases inside with eq | later
      · exact absurd (Prod.mk.inj eq).1.symm same
      · exact later
    · exact .inr

/-- The streaming collapse with an open group, by induction on the sorted records. -/
theorem closeGroups_some_isGrouping (merge : β → β → β) (group : κ × β)
    (records : List (κ × β)) (sorted : SortedBy Prod.fst (group :: records))
    : IsGrouping merge (group :: records) (closeGroups merge (some group) records) := by
  induction records generalizing group with
  | nil =>
      have none : IsGrouping merge [] ([] : List (κ × β)) :=
        ⟨.nil, by simp [valuesOf, foldGroup]⟩
      exact none.cons (by simp)
  | cons record rest ih =>
      obtain ⟨key, value⟩ := group
      obtain ⟨next, item⟩ := record
      obtain ⟨least, restSorted⟩ := List.pairwise_cons.mp sorted
      rw [closeGroups]
      by_cases same : key = next
      · subst same
        rw [if_pos rfl]
        apply IsGrouping.absorb
        apply ih
        apply List.Pairwise.cons _ (List.Pairwise.of_cons restSorted)
        intro later inside
        exact least later (List.mem_cons_of_mem _ inside)
      · rw [if_neg same]
        apply (ih (next, item) restSorted).cons
        have before : key < next := lt_of_le_of_ne (least _ List.mem_cons_self) same
        intro later inside
        rcases List.mem_cons.mp inside with rfl | further
        · exact before
        · exact before.trans_le (List.rel_of_pairwise_cons restSorted further)

/-- Streaming through sorted records yields the reference groups of any records with the
same values under each key.
-/
theorem closeGroups_eq_mergedGroups (merge : β → β → β) {sorted records : List (κ × β)}
    (ordered : SortedBy Prod.fst sorted)
    (same : ∀ key, valuesOf key sorted = valuesOf key records)
    : closeGroups merge none sorted = mergedGroups merge records := by
  have grouping : IsGrouping merge sorted (closeGroups merge none sorted) := by
    cases sorted with
    | nil => exact ⟨.nil, by simp [closeGroups, valuesOf, foldGroup]⟩
    | cons record rest => exact closeGroups_some_isGrouping merge record rest ordered
  exact (grouping.congr same).unique (mergedGroups_isGrouping merge records)

/-- A place in a state that holds an open group, and where its closed groups are written. -/
structure GroupSlot (σ κ β : Type*) where
  group : σ → Option (κ × β)
  set : σ → Option (κ × β) → σ
  write : σ → κ × β → σ
  group_set : ∀ state group', group (set state group') = group'
  set_group : ∀ state, set state (group state) = state
  set_set : ∀ state first second, set (set state first) second = set state second
  set_write : ∀ state closed group',
    set (write state closed) group' = write (set state group') closed

namespace GroupSlot

variable {σ κ β : Type*} (slot : GroupSlot σ κ β)

/-- Write the open group, if there is one. -/
def flush (state : σ) : σ :=
  match slot.group state with
  | none => state
  | some group => slot.write (slot.set state none) group

/-- Merge a record into the open group of its key, or flush and open a group for it. -/
def absorb [LinearOrder κ] (merge : β → β → β) (state : σ) (record : κ × β) : σ :=
  match (slot.group state).filter (fun group => group.1 = record.1) with
  | some group => slot.set state (some (group.1, merge group.2 record.2))
  | none => slot.set (slot.flush state) (some record)

theorem absorb_same [LinearOrder κ] {merge : β → β → β} {state : σ} {group record : κ × β}
    (opened : slot.group state = some group) (same : group.1 = record.1)
    : slot.absorb merge state record
      = slot.set state (some (group.1, merge group.2 record.2)) := by
  simp only [absorb, opened, Option.filter_some, same, decide_true, if_true]

theorem absorb_other [LinearOrder κ] {merge : β → β → β} {state : σ} {record : κ × β}
    (other : ∀ group, slot.group state = some group → group.1 ≠ record.1)
    : slot.absorb merge state record = slot.set (slot.flush state) (some record) := by
  cases opened : slot.group state with
  | none => simp only [absorb, opened, Option.filter_none]
  | some group =>
      simp only [absorb, opened, Option.filter_some, other group opened, decide_false,
        Bool.false_eq_true, if_false]

/-- A pass followed by a flush writes the closed groups and leaves the slot empty, by
induction on the records.
-/
theorem flush_foldl_absorb [LinearOrder κ] (merge : β → β → β) (records : List (κ × β))
    (state : σ)
    : slot.flush (records.foldl (slot.absorb merge) state)
      = (closeGroups merge (slot.group state) records).foldl slot.write
          (slot.set state none) := by
  induction records generalizing state with
  | nil =>
      cases opened : slot.group state with
      | none =>
          have unchanged := slot.set_group state
          rw [opened] at unchanged
          simp [flush, opened, closeGroups, unchanged]
      | some group => simp [flush, opened, closeGroups]
  | cons record rest ih =>
      rw [List.foldl_cons, ih]
      cases opened : slot.group state with
      | none =>
          rw [slot.absorb_other (by simp [opened]), slot.group_set, slot.set_set]
          simp [flush, opened, closeGroups]
      | some group =>
          by_cases same : group.1 = record.1
          · rw [slot.absorb_same opened same, slot.group_set, slot.set_set, closeGroups,
              if_pos same]
          · have other : ∀ current, slot.group state = some current → current.1 ≠ record.1 := by
              intro current found
              rw [opened] at found
              exact Option.some.inj found ▸ same
            rw [slot.absorb_other other, slot.group_set, slot.set_set, closeGroups, if_neg same,
              flush, opened, slot.set_write, slot.set_set, List.foldl_cons]

/-- A change of the state that does not concern the slot. -/
structure Commutes (change : σ → σ) : Prop where
  group : ∀ state, slot.group (change state) = slot.group state
  set : ∀ state group, change (slot.set state group) = slot.set (change state) group
  write : ∀ state closed, change (slot.write state closed) = slot.write (change state) closed

variable {slot}

theorem Commutes.flush {change : σ → σ} (commutes : slot.Commutes change) (state : σ)
    : change (slot.flush state) = slot.flush (change state) := by
  cases opened : slot.group state with
  | none => simp only [GroupSlot.flush, commutes.group, opened]
  | some group => simp only [GroupSlot.flush, commutes.group, opened, commutes.write, commutes.set]

theorem Commutes.absorb [LinearOrder κ] {change : σ → σ} (commutes : slot.Commutes change)
    (merge : β → β → β) (state : σ) (record : κ × β)
    : change (slot.absorb merge state record) = slot.absorb merge (change state) record := by
  cases found : (slot.group state).filter (fun group => group.1 = record.1) with
  | none => simp only [GroupSlot.absorb, commutes.group, found, commutes.set, commutes.flush]
  | some group => simp only [GroupSlot.absorb, commutes.group, found, commutes.set]

end GroupSlot

end CodebaseGraph.Sorting
