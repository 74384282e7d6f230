import CodebaseGraph.Storage.Maintenance.FairSelection

/-! Rounds of maintenance, each of which selects one candidate and advances the cursor, with
restarts between them: every candidate that stays has its turn.
-/

namespace CodebaseGraph.Storage.Maintenance

open CodebaseGraph.Collections

-- Rounds

/-- A round: how often the cursor is read back from its record before, and the candidates in the
order in which they are observed.
-/
structure Round where
  restarts : Nat
  observed : List Candidate

def Round.candidates (round : Round) : Finset Candidate := round.observed.toFinset

namespace MaintenanceCursor

section

variable (sha256 : List UInt8 → Block 32)

def restart (cursor : MaintenanceCursor) : Except CursorFailure MaintenanceCursor :=
  decode sha256 (cursor.encode sha256) cursor.installation

def restarted (cursor : MaintenanceCursor) : Nat → Except CursorFailure MaintenanceCursor
  | 0 => .ok cursor
  | count + 1 => do
      let cursor ← cursor.restart sha256
      cursor.restarted count

def round (cursor : MaintenanceCursor) (round : Round)
    : Except CursorFailure (Option Candidate × MaintenanceCursor) := do
  let cursor ← cursor.restarted sha256 round.restarts
  match (cursor.selection.observeAll round.observed).selected with
  | some candidate => return (some candidate, cursor.inspected candidate.1 candidate.2)
  | none => return (none, cursor)

/-- What the rounds select, and the cursor after them. -/
def rounds (cursor : MaintenanceCursor)
    : List Round → Except CursorFailure (List (Option Candidate) × MaintenanceCursor)
  | [] => .ok ([], cursor)
  | first :: others => do
      let (selected, cursor) ← cursor.round sha256 first
      let (visits, cursor) ← cursor.rounds others
      return (selected :: visits, cursor)

theorem restarted_eq (cursor : MaintenanceCursor) (count : Nat)
    : cursor.restarted sha256 count = .ok cursor := by
  induction count with
  | zero => rfl
  | succ count ih =>
      rw [restarted, restart, decode_encode]
      exact ih

/-- One round: without candidates nothing changes, else the next one is selected. -/
theorem round_cases (cursor : MaintenanceCursor) (round : Round)
    : (round.observed = [] ∧ cursor.round sha256 round = .ok (none, cursor))
      ∨ ∃ candidate,
          cursor.round sha256 round
            = .ok (some candidate, cursor.inspected candidate.1 candidate.2)
          ∧ IsNext (categoriesOf round.candidates) (lastCategory cursor.nextCategory) candidate.1
          ∧ IsNext (addressesOf round.candidates candidate.1) (cursor.after candidate.1.index)
              candidate.2 := by
  have observed := (FairSelection.observed_selection cursor).observeAll round.observed
  rw [List.nil_append] at observed
  have opened : cursor.round sha256 round
      = match (cursor.selection.observeAll round.observed).selected with
        | some candidate => .ok (some candidate, cursor.inspected candidate.1 candidate.2)
        | none => .ok (none, cursor) := by
    rw [MaintenanceCursor.round, restarted_eq]
    rfl
  unfold Round.candidates
  cases selected : (cursor.selection.observeAll round.observed).selected with
  | none =>
      rw [selected] at opened
      exact .inl ⟨observed.selected_none selected, opened⟩
  | some candidate =>
      rw [selected] at opened
      exact .inr ⟨candidate, opened, observed.selected_some selected⟩

end

end MaintenanceCursor

-- Visits

/-- The address sets of the rounds that visit a category. -/
def visitedSets (category : WorkCategory)
    : List Round → List Candidate → List (Finset CursorAddress)
  | round :: others, candidate :: visits =>
      if candidate.1 = category then
        addressesOf round.candidates category :: visitedSets category others visits
      else
        visitedSets category others visits
  | _, _ => []

def visitsOf (category : WorkCategory) (visits : List Candidate) : List CursorAddress :=
  (visits.filter (fun candidate => candidate.1 = category)).map Prod.snd

/-- Visits follow the order of the categories, and in each category that of its addresses. -/
structure InTurn (cursor : MaintenanceCursor) (rounds : List Round) (visits : List Candidate)
    : Prop where
  categories
    : Visits (lastCategory cursor.nextCategory)
        (rounds.map (fun round => categoriesOf round.candidates)) (visits.map Prod.fst)
  addresses
    : ∀ category : WorkCategory,
      Visits (cursor.after category.index) (visitedSets category rounds visits)
        (visitsOf category visits)

/-- After a category, visits follow from its place as from the one behind it. -/
theorem visits_lastCategory {previous : WorkCategory} {sets : List (Finset WorkCategory)}
    {visits : List WorkCategory} (found : Visits (lastCategory (previous.index + 1)) sets visits)
    : Visits (some previous) sets visits := by
  cases found with
  | nil => exact .nil _
  | cons next others => exact .cons (isNext_lastCategory next) others

theorem InTurn.cons {cursor : MaintenanceCursor} {round : Round} {others : List Round}
    {candidate : Candidate} {visits : List Candidate}
    (category
      : IsNext (categoriesOf round.candidates) (lastCategory cursor.nextCategory) candidate.1)
    (address
      : IsNext (addressesOf round.candidates candidate.1) (cursor.after candidate.1.index) candidate.2)
    (further : InTurn (cursor.inspected candidate.1 candidate.2) others visits)
    : InTurn cursor (round :: others) (candidate :: visits) where
  categories := .cons category (visits_lastCategory further.categories)
  addresses other := by
    have rest := further.addresses other
    by_cases same : candidate.1 = other
    · have after : (cursor.inspected candidate.1 candidate.2).after other.index
          = some candidate.2 := by
        rw [← same]
        exact Function.update_self ..
      rw [after] at rest
      rw [visitedSets, if_pos same, visitsOf,
        List.filter_cons_of_pos (by exact decide_eq_true same), List.map_cons, ← same]
      exact .cons address (same ▸ rest)
    · have place : other.index ≠ candidate.1.index := fun equal =>
        same (WorkCategory.index_injective equal).symm
      have after : (cursor.inspected candidate.1 candidate.2).after other.index
          = cursor.after other.index := Function.update_of_ne place ..
      rw [after] at rest
      rw [visitedSets, if_neg same, visitsOf, List.filter_cons_of_neg (by simpa using same)]
      exact rest

/-- Rounds never fail, and each one that observes a candidate visits one. -/
theorem MaintenanceCursor.rounds_inTurn (sha256 : List UInt8 → Block 32)
    (cursor : MaintenanceCursor) (rounds : List Round)
    (observe : ∀ round ∈ rounds, round.observed ≠ [])
    : ∃ visits cursor',
        cursor.rounds sha256 rounds = .ok (visits.map some, cursor')
        ∧ InTurn cursor rounds visits := by
  induction rounds generalizing cursor with
  | nil => exact ⟨[], cursor, rfl, .nil _, fun _ => .nil _⟩
  | cons round others ih =>
      obtain ⟨present, observeOthers⟩ := List.forall_mem_cons.mp observe
      rcases cursor.round_cases sha256 round with ⟨absent, _⟩ | ⟨candidate, ran, category, address⟩
      · exact absurd absent present
      · obtain ⟨visits, cursor', further, inTurn⟩ :=
          ih (cursor.inspected candidate.1 candidate.2) observeOthers
        refine ⟨candidate :: visits, cursor', ?_, inTurn.cons category address⟩
        rw [MaintenanceCursor.rounds, ran]
        simp only [bind, Except.bind, further]
        rfl

-----------------------------------------------------------------------------------------
-- Turns
-----------------------------------------------------------------------------------------

/-- Among candidates that stay the same, the categories have their turns in strict rotation, and in
each of them so do the addresses.
-/
structure TakesTurns (candidates : Finset Candidate) (visits : List Candidate) : Prop where
  rotation
    : visits.length = (categoriesOf candidates).card →
      (visits.map Prod.fst).IsRotated ((categoriesOf candidates).sort (· ≤ ·))
  addresses
    : ∀ category ∈ categoriesOf candidates,
      visits.length = (categoriesOf candidates).card * (addressesOf candidates category).card →
      (visitsOf category visits).IsRotated ((addressesOf candidates category).sort (· ≤ ·))

/-- All candidates of some rounds. -/
def seenIn (rounds : List Round) : Finset Candidate := (rounds.flatMap Round.observed).toFinset

theorem categoriesOf_mono {first second : Finset Candidate} (within : first ⊆ second)
    : categoriesOf first ⊆ categoriesOf second :=
  Finset.image_subset_image within

theorem addressesOf_mono {first second : Finset Candidate} (within : first ⊆ second)
    (category : WorkCategory)
    : addressesOf first category ⊆ addressesOf second category :=
  Finset.image_subset_image (Finset.filter_subset_filter _ within)

theorem candidates_subset_seenIn {rounds : List Round} {round : Round} (inside : round ∈ rounds)
    : round.candidates ⊆ seenIn rounds := by
  intro candidate found
  exact List.mem_toFinset.mpr
    (List.mem_flatMap.mpr ⟨round, inside, List.mem_toFinset.mp found⟩)

theorem visitsOf_length (category : WorkCategory) (visits : List Candidate)
    : (visitsOf category visits).length = (visits.map Prod.fst).count category := by
  rw [visitsOf, List.length_map, List.count_eq_countP, List.countP_map, List.countP_eq_length_filter]
  congr 1

theorem mem_visitsOf {category : WorkCategory} {visits : List Candidate} {address : CursorAddress}
    : address ∈ visitsOf category visits ↔ (category, address) ∈ visits := by
  simp [visitsOf]

theorem mem_visitedSets {category : WorkCategory} {rounds : List Round} {visits : List Candidate}
    {items : Finset CursorAddress} (found : items ∈ visitedSets category rounds visits)
    : ∃ round ∈ rounds, items = addressesOf round.candidates category := by
  induction rounds generalizing visits with
  | nil => simp [visitedSets] at found
  | cons round others ih =>
      cases visits with
      | nil => simp [visitedSets] at found
      | cons candidate visits =>
          rw [visitedSets] at found
          split at found
          · rcases List.mem_cons.mp found with same | further
            · exact ⟨round, List.mem_cons_self, same⟩
            · obtain ⟨other, inside, same⟩ := ih further
              exact ⟨other, List.mem_cons_of_mem _ inside, same⟩
          · obtain ⟨other, inside, same⟩ := ih found
            exact ⟨other, List.mem_cons_of_mem _ inside, same⟩

section

variable {cursor : MaintenanceCursor} {rounds : List Round} {visits : List Candidate}

theorem InTurn.length_eq (inTurn : InTurn cursor rounds visits) : visits.length = rounds.length := by
  simpa using inTurn.categories.length_eq

theorem InTurn.takesTurns (inTurn : InTurn cursor rounds visits) {candidates : Finset Candidate}
    (fixed : ∀ round ∈ rounds, round.candidates = candidates)
    : TakesTurns candidates visits := by
  have sets : rounds.map (fun round => categoriesOf round.candidates)
      = List.replicate visits.length (categoriesOf candidates) := by
    apply List.eq_replicate_iff.mpr
    refine ⟨by rw [List.length_map, inTurn.length_eq], ?_⟩
    intro items inside
    obtain ⟨round, present, rfl⟩ := List.mem_map.mp inside
    rw [fixed round present]
  have rotation := inTurn.categories
  rw [sets] at rotation
  constructor
  · intro whole
    apply Visits.isRotated (Finset.sortedLT_sort _).pairwise (fun _ => (Finset.mem_sort _).symm)
    rw [Finset.length_sort, ← whole]
    exact rotation
  · intro category present whole
    rw [whole] at rotation
    have times := Visits.count_of_fixed _ present rotation
    have length : (visitedSets category rounds visits).length
        = (addressesOf candidates category).card := by
      rw [← (inTurn.addresses category).length_eq, visitsOf_length, times]
    have same : visitedSets category rounds visits
        = List.replicate (addressesOf candidates category).card (addressesOf candidates category)
        := by
      apply List.eq_replicate_iff.mpr
      refine ⟨length, ?_⟩
      intro items inside
      obtain ⟨round, member, rfl⟩ := mem_visitedSets inside
      rw [fixed round member]
    have around := inTurn.addresses category
    rw [same] at around
    apply Visits.isRotated (Finset.sortedLT_sort _).pairwise (fun _ => (Finset.mem_sort _).symm)
    rw [Finset.length_sort]
    exact around

/-- A candidate that stays has its turn, whatever is added and removed besides. -/
theorem InTurn.visited (inTurn : InTurn cursor rounds visits) {candidate : Candidate}
    (begun : rounds ≠ []) (stays : ∀ round ∈ rounds, candidate ∈ round.observed)
    (enough
      : (categoriesOf (seenIn rounds)).card * (addressesOf (seenIn rounds) candidate.1).card
        ≤ rounds.length)
    : candidate ∈ visits := by
  have present : ∀ round ∈ rounds, candidate ∈ round.candidates :=
    fun round inside => List.mem_toFinset.mpr (stays round inside)
  have seen : candidate ∈ seenIn rounds := by
    obtain ⟨round, inside⟩ := List.exists_mem_of_ne_nil rounds begun
    exact candidates_subset_seenIn inside (present round inside)
  have times : (addressesOf (seenIn rounds) candidate.1).card
      ≤ (visits.map Prod.fst).count candidate.1 := by
    have within : ∀ items ∈ rounds.map (fun round => categoriesOf round.candidates),
        items ⊆ categoriesOf (seenIn rounds) := by
      intro items inside
      obtain ⟨round, member, rfl⟩ := List.mem_map.mp inside
      exact categoriesOf_mono (candidates_subset_seenIn member)
    have filled : ∀ items ∈ rounds.map (fun round => categoriesOf round.candidates),
        candidate.1 ∈ items := by
      intro items inside
      obtain ⟨round, member, rfl⟩ := List.mem_map.mp inside
      exact mem_categoriesOf.mpr ⟨candidate.2, present round member⟩
    apply Visits.count_of_stays _ inTurn.categories within filled
      (mem_categoriesOf.mpr ⟨candidate.2, seen⟩)
    rw [List.length_map]
    exact enough
  have within : ∀ items ∈ visitedSets candidate.1 rounds visits,
      items ⊆ addressesOf (seenIn rounds) candidate.1 := by
    intro items inside
    obtain ⟨round, member, rfl⟩ := mem_visitedSets inside
    exact addressesOf_mono (candidates_subset_seenIn member) _
  have filled : ∀ items ∈ visitedSets candidate.1 rounds visits, candidate.2 ∈ items := by
    intro items inside
    obtain ⟨round, member, rfl⟩ := mem_visitedSets inside
    exact mem_addressesOf.mpr (present round member)
  have own : candidate.2 ∈ visitsOf candidate.1 visits := by
    apply Visits.mem_of_stays (inTurn.addresses candidate.1) within filled
      (mem_addressesOf.mpr seen)
    rw [← (inTurn.addresses candidate.1).length_eq, visitsOf_length]
    exact times
  exact mem_visitsOf.mp own

end

-----------------------------------------------------------------------------------------
-- Windows
-----------------------------------------------------------------------------------------

namespace MaintenanceCursor

section

variable (sha256 : List UInt8 → Block 32)

theorem round_total (cursor : MaintenanceCursor) (round : Round)
    : ∃ selected cursor', cursor.round sha256 round = .ok (selected, cursor') := by
  rcases cursor.round_cases sha256 round with ⟨_, ran⟩ | ⟨candidate, ran, _⟩
  · exact ⟨none, cursor, ran⟩
  · exact ⟨some candidate, _, ran⟩

/-- Rounds never fail. -/
theorem rounds_total (cursor : MaintenanceCursor) (rounds : List Round)
    : ∃ visits cursor',
        cursor.rounds sha256 rounds = .ok (visits, cursor') ∧ visits.length = rounds.length := by
  induction rounds generalizing cursor with
  | nil => exact ⟨[], cursor, rfl, rfl⟩
  | cons round others ih =>
      obtain ⟨selected, between, first⟩ := cursor.round_total sha256 round
      obtain ⟨visits, cursor', further, length⟩ := ih between
      refine ⟨selected :: visits, cursor', ?_, by rw [List.length_cons, length, List.length_cons]⟩
      rw [MaintenanceCursor.rounds, first]
      simp only [bind, Except.bind, further]
      rfl

theorem rounds_append {cursor between after : MaintenanceCursor} {first second : List Round}
    {visits others : List (Option Candidate)}
    (ran : cursor.rounds sha256 first = .ok (visits, between))
    (further : between.rounds sha256 second = .ok (others, after))
    : cursor.rounds sha256 (first ++ second) = .ok (visits ++ others, after) := by
  induction first generalizing cursor visits with
  | nil =>
      obtain ⟨rfl, rfl⟩ : [] = visits ∧ cursor = between := by
        simpa [MaintenanceCursor.rounds] using ran
      exact further
  | cons round rest ih =>
      obtain ⟨selected, cursor', one⟩ := cursor.round_total sha256 round
      obtain ⟨visits', last, more, _⟩ := cursor'.rounds_total sha256 rest
      have whole : cursor.rounds sha256 (round :: rest) = .ok (selected :: visits', last) := by
        rw [MaintenanceCursor.rounds, one]
        simp only [bind, Except.bind, more]
        rfl
      obtain ⟨rfl, rfl⟩ : selected :: visits' = visits ∧ last = between := by
        simpa using whole.symm.trans ran
      have tail := ih more
      rw [List.cons_append, MaintenanceCursor.rounds, one]
      simp only [bind, Except.bind, tail]
      rfl

/-- Maintenance is fair, from every cursor and with any restarts. In a part of the rounds in which
the candidates stay the same, the categories and the addresses of each take turns; and whatever is
added and removed, a candidate that stays is visited within as many rounds as there are categories
in all, times the addresses in all of its own.
-/
theorem rounds_fair (cursor : MaintenanceCursor) (before window after : List Round)
    : ∃ earlier visits later cursor',
        cursor.rounds sha256 (before ++ window ++ after)
          = .ok (earlier ++ visits ++ later, cursor')
        ∧ earlier.length = before.length
        ∧ visits.length = window.length
        ∧ (∀ candidates : Finset Candidate,
            candidates.Nonempty → (∀ round ∈ window, round.candidates = candidates) →
            ∃ found, visits = found.map some ∧ TakesTurns candidates found)
        ∧ ∀ candidate : Candidate,
            window ≠ [] → (∀ round ∈ window, candidate ∈ round.observed) →
            (categoriesOf (seenIn window)).card * (addressesOf (seenIn window) candidate.1).card
              ≤ window.length →
            some candidate ∈ visits := by
  obtain ⟨earlier, start, ranBefore, earlierLength⟩ := cursor.rounds_total sha256 before
  obtain ⟨visits, stop, ran, length⟩ := start.rounds_total sha256 window
  obtain ⟨later, cursor', ranAfter, _⟩ := stop.rounds_total sha256 after
  have turns : (∀ round ∈ window, round.observed ≠ []) →
      ∃ found, visits = found.map some ∧ InTurn start window found := by
    intro observe
    obtain ⟨found, last, again, inTurn⟩ := start.rounds_inTurn sha256 window observe
    have same : visits = found.map some ∧ stop = last := by
      simpa using ran.symm.trans again
    exact ⟨found, same.1, inTurn⟩
  refine ⟨earlier, visits, later, cursor',
    rounds_append sha256 (rounds_append sha256 ranBefore ran) ranAfter, earlierLength, length, ?_, ?_⟩
  · intro candidates filled fixed
    have observe : ∀ round ∈ window, round.observed ≠ [] := by
      intro round inside empty
      obtain ⟨candidate, present⟩ := filled
      rw [← fixed round inside, Round.candidates, empty] at present
      exact absurd present (Finset.notMem_empty candidate)
    obtain ⟨found, same, inTurn⟩ := turns observe
    exact ⟨found, same, inTurn.takesTurns fixed⟩
  · intro candidate begun stays enough
    have observe : ∀ round ∈ window, round.observed ≠ [] := by
      intro round inside empty
      have present := stays round inside
      rw [empty] at present
      exact List.not_mem_nil present
    obtain ⟨found, same, inTurn⟩ := turns observe
    rw [same]
    exact List.mem_map_of_mem (inTurn.visited begun stays enough)

end

-- Additions

def addressOf (first : UInt8) : CursorAddress := ⟨first :: zeros 127, by simp⟩

/-- An address stays, and in each round another one is new below it. -/
def addedAddresses : List Round :=
  [ ⟨0, [(.generation, addressOf 9), (.generation, addressOf 1)]⟩,
    ⟨0, [(.generation, addressOf 9), (.generation, addressOf 2)]⟩ ]

/-- An address stays, and in each round another category has work. -/
def addedCategories : List Round :=
  [ ⟨0, [(.generation, addressOf 9), (.canonical, addressOf 1)]⟩,
    ⟨0, [(.generation, addressOf 9), (.phase, addressOf 1)]⟩ ]

/-- What is in place at any one time does not bound the rounds that an address waits for. -/
theorem rounds_overtaken
    : (∀ round ∈ addedAddresses,
        (.generation, addressOf 9) ∈ round.observed
        ∧ (categoriesOf round.candidates).card * (addressesOf round.candidates .generation).card
          = addedAddresses.length)
      ∧ ((new (Block.zero 32)).rounds (fun _ => Block.zero 32) addedAddresses).map Prod.fst
        = .ok [some (.generation, addressOf 1), some (.generation, addressOf 2)]
      ∧ (∀ round ∈ addedCategories,
          (.generation, addressOf 9) ∈ round.observed
          ∧ (categoriesOf round.candidates).card * (addressesOf round.candidates .generation).card
            = addedCategories.length)
      ∧ ((new (Block.zero 32)).rounds (fun _ => Block.zero 32) addedCategories).map Prod.fst
        = .ok [some (.canonical, addressOf 1), some (.phase, addressOf 1)]
      ∧ addressOf 9 ∉ [addressOf 1, addressOf 2] := by
  refine ⟨by decide +kernel, ?_, by decide +kernel, ?_, by decide +kernel⟩
  · rfl
  · rfl

end MaintenanceCursor

end CodebaseGraph.Storage.Maintenance
