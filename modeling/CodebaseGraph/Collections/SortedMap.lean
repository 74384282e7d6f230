import Mathlib.Data.List.Nodup
import Mathlib.Data.List.Pairwise
import Mathlib.Order.Defs.LinearOrder
import Mathlib.Order.Lattice

/-! Maps whose values carry their own key: rows under pairwise distinct keys, in the order in
which they were inserted, and maps sorted by their keys.
-/

namespace CodebaseGraph.Collections

universe u v

variable {α : Type u} {κ : Type v}

structure Keyed (α : Type u) {κ : Type v} (key : α → κ) where
  rows : List α
  distinct : (rows.map key).Nodup

namespace Keyed

variable [DecidableEq κ] {key : α → κ}

def empty : Keyed α key := ⟨[], List.nodup_nil⟩

def get? (map : Keyed α key) (value : κ) : Option α :=
  map.rows.find? (fun row => key row = value)

theorem get?_eq_some_iff {map : Keyed α key} {value : κ} {row : α}
    : map.get? value = some row ↔ row ∈ map.rows ∧ key row = value := by
  constructor
  · intro found
    exact ⟨List.mem_of_find?_eq_some found, by simpa using List.find?_some found⟩
  · intro ⟨inside, keyed⟩
    cases found : map.get? value with
    | none =>
        have missed := List.find?_eq_none.mp found row inside
        simp [keyed] at missed
    | some other =>
        have inside' := List.mem_of_find?_eq_some found
        have keyed' : key other = value := by simpa using List.find?_some found
        exact congrArg some
          (List.inj_on_of_nodup_map map.distinct inside' inside (keyed'.trans keyed.symm))

theorem get?_eq_none_iff {map : Keyed α key} {value : κ}
    : map.get? value = none ↔ value ∉ map.rows.map key := by
  simp only [get?, List.find?_eq_none, decide_eq_true_eq, List.mem_map, not_exists, not_and]

/-- The entry is taken when present and made from the row otherwise. -/
def orInsert (map : Keyed α key) (row : α) : Keyed α key :=
  if absent : map.get? (key row) = none then
    {
      rows := map.rows ++ [row]
      distinct := by
        rw [List.map_append, List.map_singleton, List.nodup_append]
        refine ⟨map.distinct, List.nodup_singleton _, ?_⟩
        intro first inside second single
        rw [List.mem_singleton] at single
        subst single
        intro same
        subst same
        exact get?_eq_none_iff.mp absent inside
    }
  else map

theorem orInsert_of_some {map : Keyed α key} {row stored : α}
    (found : map.get? (key row) = some stored)
    : map.orInsert row = map := by
  rw [orInsert, dif_neg (by simp [found])]

theorem rows_orInsert_of_none {map : Keyed α key} {row : α}
    (absent : map.get? (key row) = none)
    : (map.orInsert row).rows = map.rows ++ [row] := by
  rw [orInsert, dif_pos absent]

theorem mem_orInsert {map : Keyed α key} {row other : α}
    (inside : other ∈ (map.orInsert row).rows)
    : other ∈ map.rows ∨ other = row := by
  rw [orInsert] at inside
  split at inside
  · simpa using inside
  · exact Or.inl inside

theorem subset_orInsert (map : Keyed α key) (row : α)
    : map.rows ⊆ (map.orInsert row).rows := by
  intro other inside
  rw [orInsert]
  split
  · exact List.mem_append_left _ inside
  · exact inside

theorem get?_orInsert_of_some {map : Keyed α key} {value : κ} {found : α} (row : α)
    (stored : map.get? value = some found)
    : (map.orInsert row).get? value = some found := by
  obtain ⟨inside, keyed⟩ := get?_eq_some_iff.mp stored
  exact get?_eq_some_iff.mpr ⟨subset_orInsert map row inside, keyed⟩

/-- Under its key stands the row itself or the one that was there before. -/
theorem get?_orInsert_self (map : Keyed α key) (row : α)
    : ∃ stored,
        (map.orInsert row).get? (key row) = some stored
        ∧ (stored = row ∨ map.get? (key row) = some stored) := by
  cases before : map.get? (key row) with
  | some stored => exact ⟨stored, get?_orInsert_of_some row before, Or.inr rfl⟩
  | none =>
      refine ⟨row, get?_eq_some_iff.mpr ⟨?_, rfl⟩, Or.inl rfl⟩
      rw [orInsert, dif_pos before]
      simp

/-- Changes the row of one key, if it is there. -/
def modify (map : Keyed α key) (value : κ) (change : α → α)
    (kept : ∀ row, key (change row) = key row)
    : Keyed α key where
  rows := map.rows.map (fun row => if key row = value then change row else row)
  distinct := by
    have same
        : key ∘ (fun row => if key row = value then change row else row) = key := by
      funext row
      simp only [Function.comp_apply]
      split
      · exact kept row
      · rfl
    rw [List.map_map, same]
    exact map.distinct

theorem rows_modify (map : Keyed α key) (value : κ) (change : α → α)
    (kept : ∀ row, key (change row) = key row)
    : (map.modify value change kept).rows
      = map.rows.map (fun row => if key row = value then change row else row) :=
  rfl

theorem mem_modify {map : Keyed α key} {value : κ} {change : α → α}
    (kept : ∀ row, key (change row) = key row) {row : α}
    (inside : row ∈ (map.modify value change kept).rows)
    : ∃ before ∈ map.rows, row = before ∨ row = change before := by
  obtain ⟨before, found, changed⟩ := List.mem_map.mp inside
  refine ⟨before, found, ?_⟩
  split at changed
  · exact Or.inr changed.symm
  · exact Or.inl changed.symm

end Keyed

/-- Inserts into a map kept in the order of its keys; a value already there is replaced. -/
def insertSorted {β : Type v} [LinearOrder α] (key : α) (value : β)
    : List (α × β) → List (α × β)
  | [] => [(key, value)]
  | (other, stored) :: rest =>
      if key < other then (key, value) :: (other, stored) :: rest
      else if key = other then (key, value) :: rest
      else (other, stored) :: insertSorted key value rest

end CodebaseGraph.Collections

/-! Maps and sets kept in the order of their keys, and vectors that are sorted and then freed of
neighbouring duplicates.
-/

namespace CodebaseGraph.Collections

universe u v w

variable {κ : Type u} {β : Type v} {γ : Type w} [LinearOrder κ]

theorem mem_insertSorted {key : κ} {value : β} {entries : List (κ × β)} {entry : κ × β}
    (inside : entry ∈ insertSorted key value entries)
    : entry = (key, value) ∨ entry ∈ entries := by
  induction entries with
  | nil => exact Or.inl (List.mem_singleton.mp inside)
  | cons first rest ih =>
      obtain ⟨other, stored⟩ := first
      simp only [insertSorted] at inside
      split at inside
      · exact List.mem_cons.mp inside
      · split at inside
        · exact (List.mem_cons.mp inside).imp_right (List.mem_cons_of_mem _)
        · rcases List.mem_cons.mp inside with same | later
          · exact Or.inr (same ▸ List.mem_cons_self ..)
          · exact (ih later).imp_right (List.mem_cons_of_mem _)

theorem insertSorted_increasing {key : κ} {value : β} {entries : List (κ × β)}
    (increasing : entries.Pairwise (fun first second => first.1 < second.1))
    : (insertSorted key value entries).Pairwise (fun first second => first.1 < second.1) := by
  induction entries with
  | nil => exact List.pairwise_singleton _ _
  | cons first rest ih =>
      obtain ⟨other, stored⟩ := first
      obtain ⟨least, tail⟩ := List.pairwise_cons.mp increasing
      simp only [insertSorted]
      split
      · next before =>
          refine List.pairwise_cons.mpr ⟨?_, increasing⟩
          intro entry inside
          rcases List.mem_cons.mp inside with rfl | later
          · exact before
          · exact lt_trans before (least entry later)
      · next notBefore =>
          split
          · next same =>
              subst same
              exact List.pairwise_cons.mpr ⟨least, tail⟩
          · next other' =>
              refine List.pairwise_cons.mpr ⟨?_, ih tail⟩
              intro entry inside
              rcases mem_insertSorted inside with rfl | old
              · exact lt_of_le_of_ne (not_lt.mp notBefore) (Ne.symm other')
              · exact least entry old

/-- A map sorted by its keys. -/
structure SortedMap (κ : Type u) (β : Type v) [LinearOrder κ] where
  entries : List (κ × β)
  increasing : entries.Pairwise (fun first second => first.1 < second.1)

/-- A set in the order of its elements. -/
abbrev SortedSet (κ : Type u) [LinearOrder κ] := SortedMap κ Unit

namespace SortedMap

instance [DecidableEq β] : DecidableEq (SortedMap κ β) :=
  fun first second =>
    match decEq first.entries second.entries with
    | isTrue same => isTrue (by cases first; cases second; simpa using same)
    | isFalse different => isFalse (fun same => different (congrArg entries same))

def empty : SortedMap κ β := ⟨[], List.Pairwise.nil⟩

instance : Inhabited (SortedMap κ β) := ⟨empty⟩

def get? (map : SortedMap κ β) (key : κ) : Option β :=
  (map.entries.find? (fun entry => entry.1 = key)).map Prod.snd

def contains (map : SortedMap κ β) (key : κ) : Bool := (map.get? key).isSome

def keys (map : SortedMap κ β) : List κ := map.entries.map Prod.fst

def insert (map : SortedMap κ β) (key : κ) (value : β) : SortedMap κ β where
  entries := insertSorted key value map.entries
  increasing := insertSorted_increasing map.increasing

/-- The entry of the key, made from a default when it is missing, is changed. -/
def update (map : SortedMap κ β) (key : κ) (default : β) (change : β → β) : SortedMap κ β :=
  map.insert key (change ((map.get? key).getD default))

/-- Changes the value of one key, if it is there. -/
def modify (map : SortedMap κ β) (key : κ) (change : β → β) : SortedMap κ β :=
  match map.get? key with
  | some value => map.insert key (change value)
  | none => map

def remove (map : SortedMap κ β) (key : κ) : SortedMap κ β where
  entries := map.entries.filter (fun entry => entry.1 ≠ key)
  increasing := map.increasing.filter _

def mapValues (map : SortedMap κ β) (change : κ → β → γ) : SortedMap κ γ where
  entries := map.entries.map (fun entry => (entry.1, change entry.1 entry.2))
  increasing := List.pairwise_map.mpr map.increasing

/-- The entries are put in one after another. -/
def insertAll (map : SortedMap κ β) (entries : List (κ × β)) : SortedMap κ β :=
  entries.foldl (fun map entry => map.insert entry.1 entry.2) map

theorem keys_increasing (map : SortedMap κ β) : map.keys.Pairwise (· < ·) :=
  List.pairwise_map.mpr map.increasing

theorem keys_nodup (map : SortedMap κ β) : map.keys.Nodup :=
  map.keys_increasing.imp ne_of_lt

theorem get?_eq_some_iff {map : SortedMap κ β} {key : κ} {value : β}
    : map.get? key = some value ↔ (key, value) ∈ map.entries := by
  constructor
  · intro found
    obtain ⟨entry, first, rfl⟩ := Option.map_eq_some_iff.mp found
    have keyed : entry.1 = key := by simpa using List.find?_some first
    exact keyed ▸ List.mem_of_find?_eq_some first
  · intro inside
    cases found : map.entries.find? (fun entry => entry.1 = key) with
    | none => simpa using List.find?_eq_none.mp found _ inside
    | some entry =>
        have keyed : entry.1 = key := by simpa using List.find?_some found
        have same : entry = (key, value) :=
          List.inj_on_of_nodup_map map.keys_nodup (List.mem_of_find?_eq_some found) inside keyed
        simp [get?, found, same]

theorem mem_keys_iff {map : SortedMap κ β} {key : κ}
    : key ∈ map.keys ↔ ∃ value, map.get? key = some value := by
  simp only [get?_eq_some_iff, keys, List.mem_map, Prod.exists, exists_and_right, exists_eq_right]

theorem contains_iff {map : SortedMap κ β} {key : κ}
    : map.contains key = true ↔ key ∈ map.keys := by
  rw [contains, mem_keys_iff, Option.isSome_iff_exists]

@[simp]
theorem get?_empty (key : κ) : (empty : SortedMap κ β).get? key = none := rfl

@[simp]
theorem keys_empty : (empty : SortedMap κ β).keys = [] := rfl

theorem find?_insertSorted (key : κ) (value : β) (entries : List (κ × β)) (other : κ)
    : (insertSorted key value entries).find? (fun entry => entry.1 = other)
      = if other = key then some (key, value)
        else entries.find? (fun entry => entry.1 = other) := by
  induction entries with
  | nil => by_cases same : other = key <;> simp [insertSorted, same, eq_comm]
  | cons first rest ih =>
      obtain ⟨found, stored⟩ := first
      by_cases same : other = key
      · subst same
        simp only [insertSorted]
        split
        · simp
        · next notBefore =>
            split
            · simp
            · next different => simp [Ne.symm different, ih]
      · simp only [insertSorted, if_neg same] at ih ⊢
        split
        · simp [Ne.symm same]
        · split
          · next equal =>
              subst equal
              simp [Ne.symm same]
          · simp [List.find?_cons, ih]

theorem get?_insert (map : SortedMap κ β) (key : κ) (value : β) (other : κ)
    : (map.insert key value).get? other = if other = key then some value else map.get? other := by
  simp only [get?, insert, find?_insertSorted]
  split <;> simp

@[simp]
theorem get?_insert_self (map : SortedMap κ β) (key : κ) (value : β)
    : (map.insert key value).get? key = some value := by
  simp [get?_insert]

theorem get?_insert_of_ne (map : SortedMap κ β) {key other : κ} (value : β) (different : other ≠ key)
    : (map.insert key value).get? other = map.get? other := by
  simp [get?_insert, different]

theorem mem_keys_insert {map : SortedMap κ β} {key other : κ} {value : β}
    : other ∈ (map.insert key value).keys ↔ other = key ∨ other ∈ map.keys := by
  simp only [mem_keys_iff, get?_insert]
  by_cases same : other = key <;> simp [same]

theorem get?_update (map : SortedMap κ β) (key : κ) (default : β) (change : β → β) (other : κ)
    : (map.update key default change).get? other
      = if other = key then some (change ((map.get? key).getD default)) else map.get? other :=
  get?_insert ..

theorem mem_keys_update {map : SortedMap κ β} {key other : κ} {default : β} {change : β → β}
    : other ∈ (map.update key default change).keys ↔ other = key ∨ other ∈ map.keys :=
  mem_keys_insert

theorem get?_modify (map : SortedMap κ β) (key : κ) (change : β → β) (other : κ)
    : (map.modify key change).get? other
      = if other = key then (map.get? key).map change else map.get? other := by
  rw [modify]
  cases found : map.get? key with
  | some value => simp [get?_insert]
  | none =>
      by_cases same : other = key
      · simp [same, found]
      · simp [same]

theorem get?_remove (map : SortedMap κ β) (key other : κ)
    : (map.remove key).get? other = if other = key then none else map.get? other := by
  by_cases same : other = key
  · subst same
    simp [get?, remove, List.find?_filter]
  · simp only [get?, remove, List.find?_filter, if_neg same]
    congr 2
    funext entry
    by_cases keyed : entry.1 = other <;> simp [keyed, same]

theorem get?_mapValues (map : SortedMap κ β) (change : κ → β → γ) (key : κ)
    : (map.mapValues change).get? key = (map.get? key).map (change key) := by
  simp only [get?, mapValues, List.find?_map, Option.map_map]
  cases found : map.entries.find? ((fun entry => decide (entry.1 = key)) ∘
      fun entry => (entry.1, change entry.1 entry.2)) with
  | none =>
      have found' : map.entries.find? (fun entry => decide (entry.1 = key)) = none := found
      simp [found']
  | some entry =>
      have found' : map.entries.find? (fun entry => decide (entry.1 = key)) = some entry := found
      have keyed : entry.1 = key := by simpa using List.find?_some found'
      simp [found', keyed]

end SortedMap

-- Sorted vectors without duplicates

/-- Drops every element that equals its successor. -/
def dedup [DecidableEq β] : List β → List β
  | [] => []
  | [last] => [last]
  | first :: second :: rest =>
      if first = second then dedup (second :: rest) else first :: dedup (second :: rest)

theorem mem_dedup [DecidableEq β] {list : List β} {item : β} : item ∈ dedup list ↔ item ∈ list := by
  fun_induction dedup list with
  | case1 => rfl
  | case2 last => rfl
  | case3 first rest ih => simp [ih]
  | case4 first second rest different ih => simp only [List.mem_cons, ih]

/-- In a sorted list equal elements are neighbours, so none is left twice. -/
theorem dedup_increasing {list : List κ} (sorted : list.Pairwise (· ≤ ·))
    : (dedup list).Pairwise (· < ·) := by
  fun_induction dedup list with
  | case1 => exact List.Pairwise.nil
  | case2 last => exact List.pairwise_singleton _ _
  | case3 first rest ih => exact ih (List.pairwise_cons.mp sorted).2
  | case4 first second rest different ih =>
      obtain ⟨least, tail⟩ := List.pairwise_cons.mp sorted
      refine List.pairwise_cons.mpr ⟨?_, ih tail⟩
      intro item inside
      have below : first < second := lt_of_le_of_ne (least second (by simp)) different
      rcases List.mem_cons.mp (mem_dedup.mp inside) with rfl | later
      · exact below
      · exact lt_of_lt_of_le below ((List.pairwise_cons.mp tail).1 item later)

end CodebaseGraph.Collections
