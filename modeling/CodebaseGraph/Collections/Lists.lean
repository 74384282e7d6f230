import Mathlib.Data.List.Perm.Basic
import Mathlib.Algebra.BigOperators.Group.List.Basic
import Mathlib.Algebra.Ring.Nat

/-! Facts about replacing one element of a list, for states that keep one entry per thread, and
about finding a selection of first components among pairs.
-/

namespace CodebaseGraph.Collections

variable {α β : Type*}

/-- A found element splits its list, and replacing it replaces the middle of that split. -/
theorem exists_split_of_getElem? {list : List α} {index : Nat} {found : α}
    (lookup : list[index]? = some found)
    : ∃ before after,
        list = before ++ found :: after
        ∧ ∀ other, list.set index other = before ++ other :: after := by
  obtain ⟨bound, rfl⟩ := List.getElem?_eq_some_iff.mp lookup
  refine ⟨list.take index, list.drop (index + 1), ?_, ?_⟩
  · rw [List.cons_getElem_drop_succ, List.take_append_drop]
  · intro other
    rw [List.set_eq_take_append_cons_drop, if_pos bound]

/-- Replacing an element moves exactly its own image in a filtered image of the list. -/
theorem filterMap_set_perm {f : α → Option β} {list : List α} {index : Nat}
    {found : α} (other : α) (lookup : list[index]? = some found)
    : ((f found).toList ++ (list.set index other).filterMap f).Perm
        ((f other).toList ++ list.filterMap f) := by
  obtain ⟨before, after, rfl, replaced⟩ := exists_split_of_getElem? lookup
  rw [replaced]
  have single (item : α) : List.filterMap f [item] = (f item).toList := by
    cases image : f item <;> simp [image]
  have split (item : α)
      : List.filterMap f (before ++ item :: after)
        = before.filterMap f ++ ((f item).toList ++ after.filterMap f) := by
    rw [← List.singleton_append, List.filterMap_append, List.filterMap_append, single]
  rw [split, split]
  have swap (first second : List β)
      : (first ++ (before.filterMap f ++ (second ++ after.filterMap f))).Perm
          (before.filterMap f ++ (first ++ (second ++ after.filterMap f))) := by
    simpa only [List.append_assoc] using List.perm_append_comm.append_right _
  refine (swap _ _).trans (List.Perm.trans ?_ (swap _ _).symm)
  exact List.Perm.append_left _
    (by simpa only [List.append_assoc] using List.perm_append_comm.append_right _)

/-- Replacing an element exchanges its weight in the list's total weight. -/
theorem sum_map_set (weight : α → Nat) {list : List α} {index : Nat} {found : α}
    (other : α) (lookup : list[index]? = some found)
    : ((list.set index other).map weight).sum + weight found
      = (list.map weight).sum + weight other := by
  obtain ⟨before, after, rfl, replaced⟩ := exists_split_of_getElem? lookup
  rw [replaced]
  simp only [List.map_append, List.map_cons, List.sum_append, List.sum_cons]
  omega

/-- Two neighbours among the first components are neighbours as pairs. -/
theorem exists_infix_of_map_fst {pairs : List (α × β)} {first second : α}
    (inside : [first, second] <:+: pairs.map Prod.fst)
    : ∃ x y, [(first, x), (second, y)] <:+: pairs := by
  obtain ⟨chosen, found, mapped⟩ := List.infix_map_iff.mp inside
  match chosen, mapped with
  | [one, two], mapped =>
      simp only [List.map_cons, List.map_nil, List.cons.injEq, and_true] at mapped
      obtain ⟨rfl, rfl⟩ := mapped
      exact ⟨one.2, two.2, found⟩

/-- An ordered selection of first components is one of pairs. -/
theorem exists_sublist_of_map_fst {pairs : List (α × β)} {chosen : List α}
    (inside : chosen.Sublist (pairs.map Prod.fst))
    : ∃ selected : List (α × β), selected.map Prod.fst = chosen ∧ selected.Sublist pairs := by
  obtain ⟨selected, inside, mapped⟩ := List.sublist_map_iff.mp inside
  exact ⟨selected, mapped.symm, inside⟩

/-- A partial function that answers on all elements maps the list. -/
theorem mapM_eq_some_of_forall {f : α → Option β} {holds : β → Prop} {list : List α}
    (answers : ∀ item ∈ list, ∃ image, f item = some image ∧ holds image)
    : ∃ images, list.mapM f = some images ∧ ∀ image ∈ images, holds image := by
  induction list with
  | nil => exact ⟨[], rfl, by simp⟩
  | cons item rest ih =>
      obtain ⟨image, found, good⟩ := answers item (by simp)
      obtain ⟨images, mapped, goods⟩ := ih (fun other inside => answers other (by simp [inside]))
      refine ⟨image :: images, ?_, ?_⟩
      · simp [List.mapM_cons, found, mapped]
      · simpa using ⟨good, goods⟩

/-- An element of an updated list is the new one or was there before. -/
theorem getElem?_set_cases {list : List α} {index other : Nat} {value changed : α}
    (there : (list.set index changed)[other]? = some value)
    : (other = index ∧ value = changed) ∨ (other ≠ index ∧ list[other]? = some value) := by
  rw [List.getElem?_set] at there
  split at there
  · next same =>
      split at there
      · exact Or.inl ⟨same.symm, (Option.some.inj there).symm⟩
      · cases there
  · next different => exact Or.inr ⟨Ne.symm different, there⟩

/-- An element of an extended list was there before or is the new one at the end. -/
theorem getElem?_concat_cases {list : List α} {other : Nat} {value added : α}
    (there : (list ++ [added])[other]? = some value)
    : list[other]? = some value ∨ (other = list.length ∧ value = added) := by
  rw [List.getElem?_append] at there
  split at there
  · exact Or.inl there
  · next late =>
      right
      rw [List.getElem?_singleton] at there
      split at there
      · next zero => exact ⟨by omega, (Option.some.inj there).symm⟩
      · cases there

end CodebaseGraph.Collections
