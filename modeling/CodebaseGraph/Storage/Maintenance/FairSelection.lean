import CodebaseGraph.Collections.CyclicVisits
import CodebaseGraph.Storage.Maintenance.Cursor

/-! The selection of work for a cursor (`src/storage/maintenance.rs`): two least addresses for each
category, one above the cursor and one for the time when none is left above it.
-/

namespace CodebaseGraph.Storage.Maintenance

open CodebaseGraph.Collections

abbrev Candidate : Type := WorkCategory × CursorAddress

structure FairSelection where
  nextCategory : Fin categories
  after : Fin categories → Option CursorAddress
  later : Fin categories → Option CursorAddress
  wrap : Fin categories → Option CursorAddress

def MaintenanceCursor.selection (cursor : MaintenanceCursor) : FairSelection where
  nextCategory := cursor.nextCategory
  after := cursor.after
  later _ := none
  wrap _ := none

/-- Advances over a category and an address, whether anything was done about them or not. -/
def MaintenanceCursor.inspected (cursor : MaintenanceCursor) (category : WorkCategory)
    (address : CursorAddress) : MaintenanceCursor :=
  { cursor with
    after := Function.update cursor.after category.index (some address)
    nextCategory := category.index + 1 }

/-- The lesser of an address and the one that was found before. -/
def lesser (existing : Option CursorAddress) (address : CursorAddress) : Option CursorAddress :=
  if existing.all (address < ·) then some address else existing

namespace FairSelection

def observe (selection : FairSelection) (category : WorkCategory) (address : CursorAddress)
    : FairSelection :=
  let index := category.index
  if (selection.after index).all (· < address) then
    { selection with
      later := Function.update selection.later index (lesser (selection.later index) address) }
  else
    { selection with
      wrap := Function.update selection.wrap index (lesser (selection.wrap index) address) }

def candidateAt (selection : FairSelection) (index : Fin categories) : Option Candidate :=
  ((selection.later index).or (selection.wrap index)).map
    (fun address => (WorkCategory.fromIndex index, address))

def selected (selection : FairSelection) : Option Candidate :=
  (List.finRange categories).findSome? (fun delta =>
    selection.candidateAt (selection.nextCategory + delta))

def observeAll (selection : FairSelection) (candidates : List Candidate) : FairSelection :=
  candidates.foldl (fun selection candidate => selection.observe candidate.1 candidate.2) selection

end FairSelection

/-- The categories that are not empty. -/
def categoriesOf (candidates : Finset Candidate) : Finset WorkCategory := candidates.image Prod.fst

def addressesOf (candidates : Finset Candidate) (category : WorkCategory) : Finset CursorAddress :=
  (candidates.filter (fun candidate => candidate.1 = category)).image Prod.snd

@[simp]
theorem mem_categoriesOf {candidates : Finset Candidate} {category : WorkCategory}
    : category ∈ categoriesOf candidates ↔ ∃ address, (category, address) ∈ candidates := by
  simp [categoriesOf]

@[simp]
theorem mem_addressesOf {candidates : Finset Candidate} {category : WorkCategory}
    {address : CursorAddress}
    : address ∈ addressesOf candidates category ↔ (category, address) ∈ candidates := by
  simp [addressesOf]

-----------------------------------------------------------------------------------------
-- Least addresses
-----------------------------------------------------------------------------------------

/-- The least of all addresses with a property, if there is one. -/
def Least (p : CursorAddress → Prop) : Option CursorAddress → Prop
  | none => ∀ address, ¬ p address
  | some found => p found ∧ ∀ address, p address → found ≤ address

theorem Least.congr {p q : CursorAddress → Prop} {found : Option CursorAddress}
    (least : Least p found) (same : ∀ address, q address ↔ p address) : Least q found := by
  have equal : q = p := funext (fun address => propext (same address))
  exact equal ▸ least

theorem Least.lesser {p : CursorAddress → Prop} {found : Option CursorAddress}
    (least : Least p found) (address : CursorAddress)
    : Least (fun other => p other ∨ other = address) (lesser found address) := by
  cases found with
  | none =>
      refine ⟨.inr rfl, ?_⟩
      intro other inside
      rcases inside with inside | same
      · exact absurd inside (least other)
      · exact le_of_eq same.symm
  | some existing =>
      obtain ⟨inside, below⟩ := least
      by_cases less : address < existing
      · have kept : Maintenance.lesser (some existing) address = some address := by
          simp [Maintenance.lesser, less]
        rw [kept]
        refine ⟨.inr rfl, ?_⟩
        intro other inside
        rcases inside with inside | same
        · exact le_of_lt (lt_of_lt_of_le less (below other inside))
        · exact le_of_eq same.symm
      · have kept : Maintenance.lesser (some existing) address = some existing := by
          simp [Maintenance.lesser, less]
        rw [kept]
        refine ⟨.inl inside, ?_⟩
        intro other inside
        rcases inside with inside | same
        · exact below other inside
        · exact same ▸ not_lt.mp less

/-- What a selection knows after some candidates were observed. -/
structure FairSelection.Observed (cursor : MaintenanceCursor) (seen : List Candidate)
    (selection : FairSelection) : Prop where
  nextCategory : selection.nextCategory = cursor.nextCategory
  after : selection.after = cursor.after
  later
    : ∀ category : WorkCategory,
      Least (fun address => (category, address) ∈ seen ∧ Above (cursor.after category.index) address)
        (selection.later category.index)
  wrap
    : ∀ category : WorkCategory,
      Least
        (fun address => (category, address) ∈ seen ∧ ¬ Above (cursor.after category.index) address)
        (selection.wrap category.index)

namespace FairSelection

theorem all_iff_above (last : Option CursorAddress) (address : CursorAddress)
    : last.all (· < address) = true ↔ Above last address := by
  cases last with
  | none => simp
  | some after => simp

theorem observed_selection (cursor : MaintenanceCursor) : Observed cursor [] cursor.selection where
  nextCategory := rfl
  after := rfl
  later _ _ found := List.not_mem_nil found.1
  wrap _ _ found := List.not_mem_nil found.1

section

variable {cursor : MaintenanceCursor} {seen : List Candidate} {selection : FairSelection}

/-- Observing a candidate again changes nothing; a new one may be the least of its kind. -/
theorem Observed.observe (observed : Observed cursor seen selection) (category : WorkCategory)
    (address : CursorAddress)
    : Observed cursor (seen ++ [(category, address)]) (selection.observe category address) := by
  -- candidates of the kind that is not touched
  have kept : ∀ (q : WorkCategory → CursorAddress → Prop) (found : Fin categories → Option CursorAddress),
      ¬ q category address →
      (∀ other, Least (fun a => (other, a) ∈ seen ∧ q other a) (found other.index)) →
      ∀ other, Least (fun a => (other, a) ∈ seen ++ [(category, address)] ∧ q other a)
        (found other.index) := by
    intro q found absent least other
    apply (least other).congr
    intro a
    rw [List.mem_append, List.mem_singleton, Prod.mk.injEq]
    constructor
    · rintro ⟨inside | ⟨rfl, rfl⟩, holds⟩
      · exact ⟨inside, holds⟩
      · exact absurd holds absent
    · rintro ⟨inside, holds⟩
      exact ⟨.inl inside, holds⟩
  have updated : ∀ (q : WorkCategory → CursorAddress → Prop)
      (found : Fin categories → Option CursorAddress),
      q category address →
      (∀ other, Least (fun a => (other, a) ∈ seen ∧ q other a) (found other.index)) →
      ∀ other, Least (fun a => (other, a) ∈ seen ++ [(category, address)] ∧ q other a)
        (Function.update found category.index (lesser (found category.index) address) other.index)
      := by
    intro q found holds least other
    by_cases same : other = category
    · subst same
      rw [Function.update_self]
      apply ((least other).lesser address).congr
      intro a
      rw [List.mem_append, List.mem_singleton, Prod.mk.injEq, and_iff_right rfl]
      constructor
      · rintro ⟨inside | rfl, kind⟩
        · exact .inl ⟨inside, kind⟩
        · exact .inr rfl
      · rintro (⟨inside, kind⟩ | rfl)
        · exact ⟨.inl inside, kind⟩
        · exact ⟨.inr rfl, holds⟩
    · have place : other.index ≠ category.index := fun equal =>
        same (WorkCategory.index_injective equal)
      rw [Function.update_of_ne place]
      apply (least other).congr
      intro a
      simp [same]
  unfold FairSelection.observe
  dsimp only
  rw [observed.after]
  split
  case isTrue above =>
    have up := (all_iff_above _ _).mp above
    exact {
      nextCategory := observed.nextCategory
      after := rfl
      later := updated (fun other a => Above (cursor.after other.index) a) _ up observed.later
      wrap := kept (fun other a => ¬ Above (cursor.after other.index) a) _ (not_not.mpr up)
        observed.wrap
    }
  case isFalse notAbove =>
    have down : ¬ Above (cursor.after category.index) address := fun up =>
      notAbove ((all_iff_above _ _).mpr up)
    exact {
      nextCategory := observed.nextCategory
      after := rfl
      later := kept (fun other a => Above (cursor.after other.index) a) _ down observed.later
      wrap := updated (fun other a => ¬ Above (cursor.after other.index) a) _ down observed.wrap
    }

theorem Observed.observeAll (observed : Observed cursor seen selection)
    (candidates : List Candidate)
    : Observed cursor (seen ++ candidates) (selection.observeAll candidates) := by
  induction candidates generalizing seen selection with
  | nil =>
      rw [List.append_nil]
      exact observed
  | cons candidate rest ih =>
      have further := ih (observed.observe candidate.1 candidate.2)
      rw [List.append_assoc] at further
      exact further

/-- A category has a candidate exactly if one was observed in it, and then the one that is next. -/
theorem Observed.candidateAt_some (observed : Observed cursor seen selection)
    {category : WorkCategory} {candidate : Candidate}
    (found : selection.candidateAt category.index = some candidate)
    : candidate.1 = category
      ∧ IsNext (addressesOf seen.toFinset category) (cursor.after category.index) candidate.2 := by
  obtain ⟨address, least, rfl⟩ := Option.map_eq_some_iff.mp found
  refine ⟨WorkCategory.fromIndex_index category, ?_⟩
  have present : ∀ {other}, other ∈ addressesOf seen.toFinset category ↔ (category, other) ∈ seen := by
    intro other
    rw [mem_addressesOf, List.mem_toFinset]
  have later := observed.later category
  have wrap := observed.wrap category
  rcases Option.or_eq_some_iff.mp least with first | ⟨none, second⟩
  · rw [first] at later
    obtain ⟨⟨inside, above⟩, below⟩ := later
    exact {
      present := present.mpr inside
      least := fun other found up => ⟨above, below other ⟨present.mp found, up⟩⟩
      wrapped := fun down => absurd above down
    }
  · rw [none] at later
    rw [second] at wrap
    obtain ⟨⟨inside, _⟩, below⟩ := wrap
    exact {
      present := present.mpr inside
      least := fun other found up => absurd ⟨present.mp found, up⟩ (later other)
      wrapped := fun _ other found =>
        below other ⟨present.mp found, fun up => later other ⟨present.mp found, up⟩⟩
    }

theorem Observed.candidateAt_none (observed : Observed cursor seen selection)
    {category : WorkCategory} (nothing : selection.candidateAt category.index = none)
    : category ∉ categoriesOf seen.toFinset := by
  intro present
  obtain ⟨address, found⟩ := mem_categoriesOf.mp present
  have inside := List.mem_toFinset.mp found
  obtain ⟨noLater, noWrap⟩ := Option.or_eq_none_iff.mp (Option.map_eq_none_iff.mp nothing)
  have later := observed.later category
  have wrap := observed.wrap category
  rw [noLater] at later
  rw [noWrap] at wrap
  by_cases above : Above (cursor.after category.index) address
  · exact later address ⟨inside, above⟩
  · exact wrap address ⟨inside, above⟩

end

end FairSelection

-- Categories

/-- The category before the next one, unless that is the first one. -/
def lastCategory (next : Fin categories) : Option WorkCategory :=
  if next = 0 then none else some (.fromIndex (next - 1))

theorem above_lastCategory (next : Fin categories) (category : WorkCategory)
    : Above (lastCategory next) category ↔ next ≤ category.index := by
  have table : ∀ next place : Fin categories, next ≠ 0 → (next - 1 < place ↔ next ≤ place) := by
    decide
  unfold lastCategory
  split
  case isTrue first =>
    subst first
    simp
  case isFalse later =>
    rw [above_some, WorkCategory.lt_iff, WorkCategory.index_fromIndex]
    exact table next category.index later

/-- After a category, the next one in a set is looked for from the place behind it. -/
theorem isNext_lastCategory {items : Finset WorkCategory} {previous category : WorkCategory}
    (next : IsNext items (lastCategory (previous.index + 1)) category)
    : IsNext items (some previous) category := by
  have table : ∀ place : Fin categories, place + 1 = 0 → ∀ other, other ≤ place := by decide
  have undo : ∀ place : Fin categories, place + 1 - 1 = place := by decide
  by_cases top : previous.index + 1 = 0
  · rw [lastCategory, if_pos top] at next
    exact next.of_top (fun other _ => table previous.index top other.index)
  · rw [lastCategory, if_neg top, undo, WorkCategory.fromIndex_index] at next
    exact next

namespace FairSelection

/-- Where the search of a category ends: the fewest steps from the next one. -/
theorem delta_least (next place other delta : Fin categories) (found : next + delta = place)
    (before : ∀ less, less < delta → next + less ≠ other)
    : (next ≤ other → next ≤ place ∧ place ≤ other) ∧ (¬ next ≤ place → place ≤ other) := by
  have gap : ¬ other - next < delta := fun less => before _ less (by
    rw [add_sub_cancel])
  have table : ∀ next other delta : Fin categories, ¬ other - next < delta →
      (next ≤ other → next ≤ next + delta ∧ next + delta ≤ other)
      ∧ (¬ next ≤ next + delta → next + delta ≤ other) := by
    decide
  rw [← found]
  exact table next other delta gap

section

variable {cursor : MaintenanceCursor} {seen : List Candidate} {selection : FairSelection}

/-- What is selected is next in its category, and its category is next of all that have a
candidate.
-/
theorem Observed.selected_some (observed : Observed cursor seen selection) {candidate : Candidate}
    (found : selection.selected = some candidate)
    : IsNext (categoriesOf seen.toFinset) (lastCategory cursor.nextCategory) candidate.1
      ∧ IsNext (addressesOf seen.toFinset candidate.1) (cursor.after candidate.1.index) candidate.2 := by
  obtain ⟨before, delta, rest, layout, at_, none⟩ := List.findSome?_eq_some_iff.mp found
  have sorted := List.pairwise_lt_finRange categories
  rw [layout] at sorted
  have absent : ∀ less, less < delta → ∀ category : WorkCategory,
      cursor.nextCategory + less = category.index → category ∉ categoriesOf seen.toFinset := by
    intro less smaller category place
    have inside : less ∈ before := by
      have present : less ∈ before ++ delta :: rest := layout ▸ List.mem_finRange less
      rcases List.mem_append.mp present with early | late
      · exact early
      · rcases List.mem_cons.mp late with same | later
        · exact absurd smaller (same ▸ lt_irrefl less)
        · have up := (List.pairwise_cons.mp (List.pairwise_append.mp sorted).2.1).1 less later
          exact absurd smaller (lt_asymm up)
    have nothing := none less inside
    rw [observed.nextCategory, place] at nothing
    exact observed.candidateAt_none nothing
  let category := WorkCategory.fromIndex (cursor.nextCategory + delta)
  have place : cursor.nextCategory + delta = category.index :=
    (WorkCategory.index_fromIndex _).symm
  rw [observed.nextCategory, place] at at_
  obtain ⟨same, next⟩ := observed.candidateAt_some at_
  have order : ∀ other ∈ categoriesOf seen.toFinset,
      (cursor.nextCategory ≤ other.index →
        cursor.nextCategory ≤ category.index ∧ category.index ≤ other.index)
      ∧ (¬ cursor.nextCategory ≤ category.index → category.index ≤ other.index) := by
    intro other present
    exact delta_least cursor.nextCategory category.index other.index delta place
      (fun less smaller equal => absent less smaller other equal present)
  rw [same]
  refine ⟨?_, next⟩
  exact {
    present := mem_categoriesOf.mpr ⟨candidate.2, mem_addressesOf.mp next.present⟩
    least := fun other present up => by
      obtain ⟨above, below⟩ := (order other present).1 ((above_lastCategory _ _).mp up)
      exact ⟨(above_lastCategory _ _).mpr above, below⟩
    wrapped := fun down other present =>
      (order other present).2 (fun above => down ((above_lastCategory _ _).mpr above))
  }

/-- Something is selected as soon as there is a candidate. -/
theorem Observed.selected_none (observed : Observed cursor seen selection)
    (found : selection.selected = none)
    : seen = [] := by
  cases seen with
  | nil => rfl
  | cons candidate rest =>
      have nothing := List.findSome?_eq_none_iff.mp found
        (candidate.1.index - cursor.nextCategory) (List.mem_finRange _)
      rw [observed.nextCategory, add_sub_cancel] at nothing
      have absent := observed.candidateAt_none nothing
      have present : candidate ∈ (candidate :: rest).toFinset :=
        List.mem_toFinset.mpr List.mem_cons_self
      exact absurd (mem_categoriesOf.mpr ⟨candidate.2, present⟩) absent

end

end FairSelection

end CodebaseGraph.Storage.Maintenance
