import Mathlib.Data.Finset.Sort
import Mathlib.Data.List.Rotate

/-! Visits that go up through a set which may change from one visit to the next, and start over
when nothing is left above the last one.
-/

namespace CodebaseGraph.Collections

section

variable {α : Type*} [LinearOrder α]

/-- Above the last visit, if there was one. -/
def Above (last : Option α) (x : α) : Prop := ∀ y ∈ last, y < x

/-- The least item above the last visit, or the least of all if none is above. -/
structure IsNext (items : Finset α) (last : Option α) (x : α) : Prop where
  present : x ∈ items
  least : ∀ y ∈ items, Above last y → Above last x ∧ x ≤ y
  wrapped : ¬ Above last x → ∀ y ∈ items, x ≤ y

/-- Visits to the items of one set after another. -/
inductive Visits : Option α → List (Finset α) → List α → Prop where
  | nil (last : Option α) : Visits last [] []
  | cons {last : Option α} {items : Finset α} {rest : List (Finset α)} {x : α} {visits : List α}
      (next : IsNext items last x) (others : Visits (some x) rest visits)
      : Visits last (items :: rest) (x :: visits)

variable {last : Option α} {items : Finset α} {x y : α}

@[simp]
theorem above_none (x : α) : Above none x := by
  intro y found
  cases found

@[simp]
theorem above_some (x y : α) : Above (some y) x ↔ y < x := by
  simp [Above]

theorem IsNext.unique (first : IsNext items last x) (second : IsNext items last y) : x = y := by
  apply le_antisymm
  · by_cases above : Above last y
    · exact (first.least y second.present above).2
    · have notAbove : ¬ Above last x := fun found =>
        above (second.least x first.present found).1
      exact first.wrapped notAbove y second.present
  · by_cases above : Above last x
    · exact (second.least x first.present above).2
    · have notAbove : ¬ Above last y := fun found =>
        above (first.least y second.present found).1
      exact second.wrapped notAbove x first.present

/-- After an item that nothing is above, visits begin anew. -/
theorem IsNext.of_top {top : α} (above : ∀ y ∈ items, y ≤ top) (next : IsNext items none x)
    : IsNext items (some top) x where
  present := next.present
  least y inside beyond := absurd ((above_some y top).mp beyond) (not_lt.mpr (above y inside))
  wrapped _ y inside := (next.least y inside (above_none y)).2

namespace Visits

variable {sets : List (Finset α)} {visits : List α}

theorem length_eq (found : Visits last sets visits) : visits.length = sets.length := by
  induction found with
  | nil => rfl
  | cons _ _ ih => rw [List.length_cons, List.length_cons, ih]

/-- Visits to one part of the sets and then to the others. -/
theorem append_inv {first second : List (Finset α)}
    (found : Visits last (first ++ second) visits)
    : ∃ last' before after,
        visits = before ++ after ∧ Visits last first before ∧ Visits last' second after := by
  induction first generalizing last visits with
  | nil => exact ⟨last, [], visits, rfl, .nil last, found⟩
  | cons items rest ih =>
      cases found with
      | cons next others =>
          obtain ⟨last', before, after, rfl, visited, further⟩ := ih others
          exact ⟨last', _ :: before, after, rfl, .cons next visited, further⟩

-- Bounds

/-- Whether an item may still be visited before another one is. -/
def Before (last : Option α) (x y : α) : Prop :=
  (Above last x ∧ Above last y ∧ y ≤ x) ∨ (¬ Above last x ∧ (Above last y ∨ y ≤ x))

/-- An item that is visited in place of another one is not visited again before it. -/
theorem before_step (present : x ∈ items) (next : IsNext items last y) (other : y ≠ x)
    : Before last x y ∧ ∀ z, Before (some y) x z → Before last x z ∧ z ≠ y := by
  by_cases above : Above last x
  · obtain ⟨beyond, least⟩ := next.least x present above
    have less : y < x := lt_of_le_of_ne least other
    refine ⟨.inl ⟨above, beyond, least⟩, ?_⟩
    intro z before
    rcases before with ⟨_, later, up⟩ | ⟨passed, _⟩
    · have after : y < z := (above_some z y).mp later
      have kept : Above last z := fun w found => lt_trans (beyond w found) after
      exact ⟨.inl ⟨above, kept, up⟩, ne_of_gt after⟩
    · exact absurd ((above_some x y).mpr less) passed
  · by_cases beyond : Above last y
    · have more : ¬ y < x := fun less => above (fun w found => lt_trans (beyond w found) less)
      have less : x < y := lt_of_le_of_ne (not_lt.mp more) (Ne.symm other)
      refine ⟨.inr ⟨above, .inl beyond⟩, ?_⟩
      intro z before
      rcases before with ⟨ahead, _⟩ | ⟨_, later | up⟩
      · exact absurd ((above_some x y).mp ahead) more
      · have after : y < z := (above_some z y).mp later
        exact ⟨.inr ⟨above, .inl (fun w found => lt_trans (beyond w found) after)⟩, ne_of_gt after⟩
      · exact ⟨.inr ⟨above, .inr up⟩, ne_of_lt (lt_of_le_of_lt up less)⟩
    · -- nothing is above the last visit, so this one is the least
      have least : y ≤ x := next.wrapped beyond x present
      have less : y < x := lt_of_le_of_ne least other
      refine ⟨.inr ⟨above, .inr least⟩, ?_⟩
      intro z before
      rcases before with ⟨_, later, up⟩ | ⟨passed, _⟩
      · exact ⟨.inr ⟨above, .inr up⟩, ne_of_gt ((above_some z y).mp later)⟩
      · exact absurd ((above_some x y).mpr less) passed

/-- An item that stays is visited when there were as many visits as there are items in all, since
no other item is visited twice before it.
-/
theorem mem_of_card_le {all ahead : Finset α} (found : Visits last sets visits)
    (within : ∀ items ∈ sets, items ⊆ all) (stays : ∀ items ∈ sets, x ∈ items)
    (counted : ∀ z ∈ all, Before last x z → z ∈ ahead) (self : x ∈ ahead)
    (enough : ahead.card ≤ sets.length)
    : x ∈ visits := by
  induction found generalizing ahead with
  | nil =>
      rw [List.length_nil, Nat.le_zero, Finset.card_eq_zero] at enough
      rw [enough] at self
      exact absurd self (Finset.notMem_empty x)
  | cons next others ih =>
      rename_i last' items rest y visits'
      by_cases same : y = x
      · exact same ▸ List.mem_cons_self
      · obtain ⟨withinItems, withinRest⟩ := List.forall_mem_cons.mp within
        obtain ⟨present, staysRest⟩ := List.forall_mem_cons.mp stays
        obtain ⟨before, fewer⟩ := before_step present next same
        have member : y ∈ ahead := counted y (withinItems next.present) before
        have further : ∀ z ∈ all, Before (some y) x z → z ∈ ahead.erase y := by
          intro z inside later
          obtain ⟨kept, notSame⟩ := fewer z later
          exact Finset.mem_erase.mpr ⟨notSame, counted z inside kept⟩
        have left : x ∈ ahead.erase y := Finset.mem_erase.mpr ⟨Ne.symm same, self⟩
        have enoughLeft : (ahead.erase y).card ≤ rest.length := by
          rw [Finset.card_erase_of_mem member]
          rw [List.length_cons] at enough
          omega
        exact List.mem_cons_of_mem _ (ih withinRest staysRest further left enoughLeft)

/-- An item that stays is visited within as many visits as there are items in all of the sets. -/
theorem mem_of_stays {all : Finset α} (found : Visits last sets visits)
    (within : ∀ items ∈ sets, items ⊆ all) (stays : ∀ items ∈ sets, x ∈ items) (inside : x ∈ all)
    (enough : all.card ≤ sets.length) : x ∈ visits :=
  mem_of_card_le found within stays (fun _ inside _ => inside) inside enough

/-- Over several times as many visits, it is visited as many times. -/
theorem count_of_stays {all : Finset α} (times : Nat) (found : Visits last sets visits)
    (within : ∀ items ∈ sets, items ⊆ all) (stays : ∀ items ∈ sets, x ∈ items) (inside : x ∈ all)
    (enough : all.card * times ≤ sets.length)
    : times ≤ visits.count x := by
  induction times generalizing last sets visits with
  | zero => exact Nat.zero_le _
  | succ times ih =>
      rw [Nat.mul_succ] at enough
      have cut : sets = sets.take all.card ++ sets.drop all.card := (List.take_append_drop _ _).symm
      rw [cut] at found
      obtain ⟨last', before, after, rfl, first, second⟩ := append_inv found
      have member : x ∈ before := by
        apply mem_of_stays first (fun items found => within items (List.mem_of_mem_take found))
          (fun items found => stays items (List.mem_of_mem_take found)) inside
        rw [List.length_take]
        omega
      have others : times ≤ after.count x := by
        apply ih second (fun items found => within items (List.mem_of_mem_drop found))
          (fun items found => stays items (List.mem_of_mem_drop found))
        rw [List.length_drop]
        omega
      have once : 1 ≤ before.count x := List.one_le_count_iff.mpr member
      rw [List.count_append]
      omega

-----------------------------------------------------------------------------------------
-- Order
-----------------------------------------------------------------------------------------

/-- In a set that does not change, visits go around its items in order. -/
theorem isNext_rotated {before after : List α} (sorted : (before ++ x :: after).Pairwise (· < ·))
    (listed : ∀ z, z ∈ items ↔ z ∈ before ++ x :: after) (next : IsNext items (some x) y)
    : (after ++ before ++ [x]).head? = some y := by
  obtain ⟨-, sortedAfter, crossing⟩ := List.pairwise_append.mp sorted
  cases after with
  | cons z after =>
      have present : z ∈ items := (listed z).mpr (by simp)
      have beyond : x < z := (List.pairwise_cons.mp sortedAfter).1 z List.mem_cons_self
      obtain ⟨later, least⟩ := next.least z present ((above_some z x).mpr beyond)
      have found : y ∈ before ++ x :: z :: after := (listed y).mp next.present
      have same : y = z := by
        apply le_antisymm least
        rcases List.mem_append.mp found with early | late
        · have less := crossing y early x List.mem_cons_self
          exact absurd ((above_some y x).mp later) (lt_asymm less)
        · rcases List.mem_cons.mp late with same | late
          · exact absurd ((above_some y x).mp later) (by rw [same]; exact lt_irrefl x)
          · rcases List.mem_cons.mp late with same | further
            · exact le_of_eq same.symm
            · have up := (List.pairwise_cons.mp (List.pairwise_cons.mp sortedAfter).2).1 y further
              exact le_of_lt up
      rw [same]
      rfl
  | nil =>
      have found : y ∈ before ++ [x] := (listed y).mp next.present
      have atMost : y ≤ x := by
        rcases List.mem_append.mp found with early | same
        · exact le_of_lt (crossing y early x List.mem_cons_self)
        · exact le_of_eq (List.mem_singleton.mp same)
      have least := next.wrapped (fun later => absurd ((above_some y x).mp later) (not_lt.mpr atMost))
      cases before with
      | nil => simpa using (List.mem_singleton.mp found).symm
      | cons z before =>
          have up : y ≤ z := least z ((listed z).mpr (by simp))
          rcases List.mem_cons.mp found with same | later
          · rw [same]
            rfl
          · have less : z < y := (List.pairwise_cons.mp sorted).1 y later
            exact absurd up (not_le.mpr less)

/-- Where visits begin decides all of them, by induction on the items that are left. -/
theorem eq_of_starts {sorted ahead passed : List α} (ascending : sorted.Pairwise (· < ·))
    (listed : ∀ z, z ∈ items ↔ z ∈ sorted)
    (rotated : ∃ before after, sorted = before ++ after ∧ ahead ++ passed = after ++ before)
    (starts : ∀ y, IsNext items last y → (ahead ++ passed).head? = some y)
    (found : Visits last (List.replicate ahead.length items) visits)
    : visits = ahead := by
  induction ahead generalizing last passed visits with
  | nil =>
      cases found
      rfl
  | cons x rest ih =>
      rw [List.length_cons, List.replicate_succ] at found
      cases found with
      | @cons _ _ _ y visits next others =>
          have same : x = y := Option.some.inj (starts y next)
          have split : ∃ before after,
              sorted = before ++ x :: after ∧ rest ++ passed = after ++ before := by
            obtain ⟨before, after, whole, order⟩ := rotated
            cases after with
            | nil => exact ⟨[], rest ++ passed, by rw [whole, List.append_nil, List.nil_append,
                ← List.nil_append before, ← order]; rfl, (List.append_nil _).symm⟩
            | cons z after =>
                obtain ⟨first, others⟩ := List.cons.inj order
                exact ⟨before, after, by rw [whole, first], others⟩
          obtain ⟨before, after, whole, order⟩ := split
          have around : ∃ before' after',
              sorted = before' ++ after' ∧ rest ++ (passed ++ [x]) = after' ++ before' := by
            refine ⟨before ++ [x], after, by rw [whole]; simp, ?_⟩
            rw [← List.append_assoc, order, List.append_assoc]
          have follows : ∀ z, IsNext items (some y) z →
              (rest ++ (passed ++ [x])).head? = some z := by
            intro z following
            rw [← List.append_assoc, order]
            rw [whole] at ascending listed
            exact isNext_rotated ascending listed (same ▸ following)
          have tail : visits = rest := ih around follows others
          rw [same, tail]

/-- As many visits to one set as it has items are its items in order, with one wrap-around. -/
theorem isRotated {sorted : List α} (ascending : sorted.Pairwise (· < ·))
    (listed : ∀ z, z ∈ items ↔ z ∈ sorted)
    (found : Visits last (List.replicate sorted.length items) visits)
    : visits.IsRotated sorted := by
  by_cases empty : sorted = []
  · subst empty
    cases found
    exact .refl []
  · obtain ⟨y, next⟩ : ∃ y, IsNext items last y := by
      cases sorted with
      | nil => exact absurd rfl empty
      | cons z rest =>
          rw [List.length_cons, List.replicate_succ] at found
          cases found with
          | cons next _ => exact ⟨_, next⟩
    obtain ⟨before, after, whole⟩ := List.append_of_mem ((listed y).mp next.present)
    have same : visits = y :: after ++ before := by
      have around : ∃ before' after',
          sorted = before' ++ after' ∧ y :: after ++ before ++ [] = after' ++ before' :=
        ⟨before, y :: after, whole, List.append_nil _⟩
      have starts : ∀ z, IsNext items last z → (y :: after ++ before ++ []).head? = some z := by
        intro z other
        rw [next.unique other]
        rfl
      have length : (y :: after ++ before).length = sorted.length := by
        rw [whole, List.length_append, List.length_append, Nat.add_comm]
      apply eq_of_starts ascending listed around starts
      rw [length]
      exact found
    rw [same, whole]
    exact List.isRotated_append

/-- Each time around, every item of one set is visited once. -/
theorem count_of_fixed (times : Nat) (present : x ∈ items)
    (found : Visits last (List.replicate (items.card * times) items) visits)
    : visits.count x = times := by
  induction times generalizing last visits with
  | zero =>
      cases found
      rfl
  | succ times ih =>
      rw [Nat.mul_succ, Nat.add_comm, List.replicate_add] at found
      obtain ⟨last', before, after, rfl, first, second⟩ := append_inv found
      have length : (items.sort (· ≤ ·)).length = items.card := Finset.length_sort _
      have around : before.IsRotated (items.sort (· ≤ ·)) := by
        apply isRotated (items.sortedLT_sort.pairwise) (fun z => (Finset.mem_sort _).symm)
        rw [length]
        exact first
      have once : before.count x = 1 := by
        rw [around.perm.count_eq]
        exact List.count_eq_one_of_mem (Finset.sort_nodup _ _) ((Finset.mem_sort _).mpr present)
      rw [List.count_append, once, ih second, Nat.add_comm]

end Visits

end

end CodebaseGraph.Collections
