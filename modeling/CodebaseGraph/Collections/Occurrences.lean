import Mathlib.Data.List.DropRight
import Mathlib.Data.List.Infix

/-! Where a list occurs in another one, and how often. -/

namespace CodebaseGraph.Collections

variable {α : Type} [DecidableEq α]

/-- The place of the first occurrence. -/
def indexOfPart (part : List α) : List α → Option Nat
  | [] => if part.isEmpty then some 0 else none
  | item :: rest =>
      if part.isPrefixOf (item :: rest) then some 0 else (indexOfPart part rest).map (· + 1)

variable {part text before after : List α}

-- The first occurrence

omit [DecidableEq α] in
/-- A list does not occur in what is shorter than it. -/
theorem not_infix_of_length_lt (shorter : text.length < part.length) : ¬part <:+: text :=
  fun inside => absurd inside.length_le (by omega)

/-- What a search has found. -/
theorem indexOfPart_eq_some {index : Nat} (found : indexOfPart part text = some index)
    (filled : part ≠ [])
    : ∃ before after, text = before ++ part ++ after ∧ before.length = index
        ∧ ¬part <:+: before ++ part.dropLast := by
  have short : ¬part <:+: part.dropLast := by
    refine not_infix_of_length_lt ?_
    have := List.length_pos_of_ne_nil filled
    rw [List.length_dropLast]
    omega
  induction text generalizing index with
  | nil =>
      obtain ⟨item, rest, rfl⟩ := List.exists_cons_of_ne_nil filled
      cases found
  | cons item rest ih =>
      rw [indexOfPart] at found
      split at found
      case isTrue starts =>
          obtain ⟨after, whole⟩ := List.isPrefixOf_iff_prefix.mp starts
          exact ⟨[], after, whole.symm, Option.some.inj found, short⟩
      case isFalse other =>
          obtain ⟨place, later, rfl⟩ := Option.map_eq_some_iff.mp found
          obtain ⟨before, after, rfl, rfl, first⟩ := ih later
          refine ⟨item :: before, after, by simp, by simp, ?_⟩
          rw [List.cons_append, List.infix_cons_iff]
          rintro (starts | inside)
          · refine other (List.isPrefixOf_iff_prefix.mpr (starts.trans ?_))
            obtain ⟨last, whole⟩ := List.dropLast_prefix part
            refine ⟨last ++ after, ?_⟩
            rw [List.cons_append, List.append_assoc before, ← List.append_assoc part.dropLast, whole,
              List.append_assoc]
          · exact first inside

/-- A place that a search has found, of any list. -/
theorem indexOfPart_splits {index : Nat} (found : indexOfPart part text = some index)
    : ∃ before after, text = before ++ part ++ after ∧ before.length = index := by
  by_cases filled : part = []
  · subst filled
    have start : indexOfPart [] text = some 0 := by cases text <;> rfl
    exact ⟨[], text, rfl, Option.some.inj (start.symm.trans found)⟩
  · obtain ⟨before, after, whole, size, -⟩ := indexOfPart_eq_some found filled
    exact ⟨before, after, whole, size⟩

end CodebaseGraph.Collections
