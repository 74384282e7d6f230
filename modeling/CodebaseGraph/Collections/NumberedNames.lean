import Mathlib.Data.List.Nodup
import Mathlib.Order.Nat

/-! Names that are told apart by a number: the first occurrence of a name keeps it, each later one is
renamed with the number of the occurrence.
-/

namespace CodebaseGraph.Collections

variable {α : Type} [DecidableEq α]

/-- The names in order, each with the number of its occurrence; other names were given before. -/
def countedNames : List α → List α → List (α × Nat)
  | _, [] => []
  | given, name :: rest => (name, given.count name + 1) :: countedNames (given ++ [name]) rest

theorem mem_countedNames {given names : List α} {occurrence : α × Nat}
    : occurrence ∈ countedNames given names
      ↔ given.count occurrence.1 < occurrence.2
        ∧ occurrence.2 ≤ given.count occurrence.1 + names.count occurrence.1 := by
  obtain ⟨name, number⟩ := occurrence
  induction names generalizing given with
  | nil => simp [countedNames]
  | cons first rest ih =>
      rw [countedNames, List.mem_cons, ih, Prod.mk.injEq, List.count_append, List.count_singleton,
        List.count_cons]
      by_cases same : first = name
      · subst same
        simp only [BEq.rfl, if_true, true_and]
        omega
      · have differs : (first == name) = false := beq_eq_false_iff_ne.mpr same
        simp [differs, Ne.symm same]

theorem nodup_countedNames (given names : List α) : (countedNames given names).Nodup := by
  induction names generalizing given with
  | nil => exact List.nodup_nil
  | cons first rest ih =>
      refine List.nodup_cons.mpr ⟨?_, ih _⟩
      rw [mem_countedNames]
      simp

theorem map_fst_countedNames (given names : List α)
    : (countedNames given names).map Prod.fst = names := by
  induction names generalizing given with
  | nil => rfl
  | cons first rest ih => rw [countedNames, List.map_cons, ih]

/-- Names are counted from left to right. -/
theorem countedNames_append (given before after : List α)
    : countedNames given (before ++ after)
      = countedNames given before ++ countedNames (given ++ before) after := by
  induction before generalizing given with
  | nil => simp [countedNames]
  | cons first rest ih => simp [countedNames, ih]

/-- How an occurrence is named. -/
def numbered (number : α → Nat → α) (occurrence : α × Nat) : α :=
  if occurrence.2 = 1 then occurrence.1 else number occurrence.1 occurrence.2

/-- Numbering tells names apart exactly if no given name is what another one is renamed to. -/
theorem nodup_numbered_iff {number : α → Nat → α}
    (injective
      : ∀ first second m n, 2 ≤ m → 2 ≤ n → number first m = number second n →
          first = second ∧ m = n)
    (kept : α → Prop) [DecidablePred kept] (names : List α)
    : (((countedNames [] names).filter (fun occurrence => kept occurrence.1)).map
        (numbered number)).Nodup
      ↔ ∀ name ∈ names, kept name →
          ∀ n, 2 ≤ n → n ≤ names.count name → number name n ∈ names → ¬ kept (number name n) := by
  have inside (occurrence : α × Nat)
      : occurrence ∈ (countedNames [] names).filter (fun occurrence => kept occurrence.1)
        ↔ 1 ≤ occurrence.2 ∧ occurrence.2 ≤ names.count occurrence.1 ∧ kept occurrence.1 := by
    rw [List.mem_filter, mem_countedNames, decide_eq_true_iff, List.count_nil, Nat.zero_add, and_assoc]
    exact Iff.rfl
  rw [List.nodup_map_iff_inj_on ((nodup_countedNames [] names).filter _)]
  constructor
  · intro apart name _ isKept n many few renamed keptToo
    have once : 1 ≤ names.count (number name n) := List.count_pos_iff.mpr renamed
    have same :=
      apart (name, n) ((inside _).mpr ⟨Nat.le_of_succ_le many, few, isKept⟩)
        (number name n, 1) ((inside _).mpr ⟨Nat.le_refl 1, once, keptToo⟩)
        (by simp [numbered, (show n ≠ 1 by omega)])
    have number := (Prod.mk.inj same).2
    omega
  · intro clear first firstIn second secondIn same
    obtain ⟨positive, few, isKept⟩ := (inside first).mp firstIn
    obtain ⟨positive', few', isKept'⟩ := (inside second).mp secondIn
    have given {occurrence : α × Nat} (positive : 1 ≤ occurrence.2)
        (few : occurrence.2 ≤ names.count occurrence.1)
        : occurrence.1 ∈ names :=
      List.count_pos_iff.mp (by omega)
    unfold numbered at same
    -- Both occurrences are first ones, one of them is, or both are renamed.
    split_ifs at same with one one' one'
    · exact Prod.ext same (one.trans one'.symm)
    · have taken := given positive few
      rw [same] at taken isKept
      exact absurd isKept
        (clear second.1 (given positive' few') isKept' second.2 (by omega) few' taken)
    · have taken := given positive' few'
      rw [← same] at taken isKept'
      exact absurd isKept'
        (clear first.1 (given positive few) isKept first.2 (by omega) few taken)
    · obtain ⟨names, numbers⟩ := injective _ _ _ _ (by omega) (by omega) same
      exact Prod.ext names numbers

end CodebaseGraph.Collections
