import CodebaseGraph.Sorting.Cursors

/-! Reducing many sorted runs to few by merging them in groups, level after level.
Runs are kept in some stored form; a relation says which items a stored run holds.
-/

namespace CodebaseGraph.Sorting

variable {α κ ρ ε : Type*} [LinearOrder κ]

/-- The list cut into pieces of `size`, the last one possibly shorter. -/
def chunks (size : Nat) (positive : 0 < size) (list : List ρ) : List (List ρ) :=
  match list with
  | [] => []
  | head :: tail =>
      (head :: tail).take size :: chunks size positive ((head :: tail).drop size)
termination_by list.length
decreasing_by
  simp only [List.length_drop, List.length_cons]
  omega

theorem chunks_flatten (size : Nat) (positive : 0 < size) (list : List ρ)
    : (chunks size positive list).flatten = list := by
  fun_induction chunks size positive list with
  | case1 => rfl
  | case2 head tail ih => rw [List.flatten_cons, ih, List.take_append_drop]

theorem chunks_length (size : Nat) (positive : 0 < size) (list : List ρ)
    : size * (chunks size positive list).length < list.length + size := by
  fun_induction chunks size positive list with
  | case1 => simpa using positive
  | case2 head tail ih =>
      simp only [List.length_cons, List.length_drop] at ih ⊢
      rw [Nat.mul_add, Nat.mul_one]
      by_cases enough : size ≤ tail.length + 1
      · omega
      · have none : (chunks size positive ((head :: tail).drop size)).length = 0 := by
          have short : (head :: tail).drop size = [] := by
            apply List.drop_eq_nil_of_le
            simp only [List.length_cons]
            omega
          rw [short, chunks, List.length_nil]
        rw [none]
        omega

/-- How many runs one merge reads at most. -/
structure FanIn where
  size : Nat
  atLeastTwo : 2 ≤ size

theorem FanIn.positive (fanIn : FanIn) : 0 < fanIn.size :=
  Nat.lt_of_lt_of_le Nat.two_pos fanIn.atLeastTwo

/-- One group of a level: a run on its own is kept, several are merged. -/
def mergeGroup (merge : List ρ → Except ε ρ) : List ρ → Except ε ρ
  | [single] => .ok single
  | group => merge group

/-- One level: each group of at most `fanIn` neighbouring runs becomes one run. -/
def mergeLevel (fanIn : FanIn) (merge : List ρ → Except ε ρ) (runs : List ρ)
    : Except ε (List ρ) :=
  (chunks fanIn.size fanIn.positive runs).mapM (mergeGroup merge)

theorem length_of_mapM {β : Type*} {f : α → Except ε β} {list : List α} {images : List β}
    (mapped : list.mapM f = .ok images)
    : images.length = list.length := by
  induction list generalizing images with
  | nil =>
      rw [List.mapM_nil] at mapped
      obtain rfl := Except.ok.inj mapped
      rfl
  | cons head tail ih =>
      rw [List.mapM_cons] at mapped
      cases first : f head with
      | error problem => simp [first, bind, Except.bind] at mapped
      | ok image =>
          cases rest : tail.mapM f with
          | error problem => simp [first, rest, bind, Except.bind] at mapped
          | ok others =>
              simp only [first, rest, bind, Except.bind, pure, Except.pure,
                Except.ok.injEq] at mapped
              obtain rfl := mapped
              simp [ih rest]

theorem mergeLevel_length {fanIn : FanIn} {merge : List ρ → Except ε ρ}
    {runs merged : List ρ} (many : fanIn.size < runs.length)
    (level : mergeLevel fanIn merge runs = .ok merged)
    : merged.length < runs.length := by
  have length := length_of_mapM level
  have groups := chunks_length fanIn.size fanIn.positive runs
  have least : 2 * runs.length ≤ fanIn.size * runs.length :=
    Nat.mul_le_mul_right _ fanIn.atLeastTwo
  rw [← length] at groups
  by_contra not
  have more : fanIn.size * runs.length ≤ fanIn.size * merged.length :=
    Nat.mul_le_mul_left _ (not_lt.mp not)
  omega

/-- Levels are merged until one merge can read all the runs. -/
def reduceRuns (fanIn : FanIn) (merge : List ρ → Except ε ρ) (runs : List ρ)
    : Except ε (List ρ) :=
  if fanIn.size < runs.length then
    match _level : mergeLevel fanIn merge runs with
    | .error problem => .error problem
    | .ok merged => reduceRuns fanIn merge merged
  else .ok runs
termination_by runs.length
decreasing_by exact mergeLevel_length ‹_› ‹_›

/-- The stored runs hold sorted lists that have the given items between them. -/
def Holds (key : α → κ) (stores : ρ → List α → Prop) (runs : List ρ) (items : List α)
    : Prop :=
  ∃ contents : List (List α),
    List.Forall₂ stores runs contents
    ∧ (∀ run ∈ contents, SortedBy key run)
    ∧ contents.flatten.Perm items

/-- The merge stores the merge of what its inputs hold. -/
def Merges (key : α → κ) (stores : ρ → List α → Prop) (merge : List ρ → Except ε ρ)
    : Prop :=
  ∀ runs contents,
    List.Forall₂ stores runs contents
    → (∀ run ∈ contents, SortedBy key run)
    → ∃ merged, merge runs = .ok merged ∧ stores merged (mergeRuns key contents)

theorem holds_nil {key : α → κ} {stores : ρ → List α → Prop}
    : Holds key stores [] [] :=
  ⟨[], .nil, by simp, .refl _⟩

theorem Holds.cons {key : α → κ} {stores : ρ → List α → Prop} {run : ρ} {runs : List ρ}
    {content items : List α} (stored : stores run content) (sorted : SortedBy key content)
    (holds : Holds key stores runs items)
    : Holds key stores (run :: runs) (content ++ items) := by
  obtain ⟨contents, others, ordered, same⟩ := holds
  refine ⟨content :: contents, .cons stored others, ?_, same.append_left content⟩
  exact List.forall_mem_cons.mpr ⟨sorted, ordered⟩

theorem Holds.perm {key : α → κ} {stores : ρ → List α → Prop} {runs : List ρ}
    {items others : List α} (holds : Holds key stores runs items) (same : items.Perm others)
    : Holds key stores runs others := by
  obtain ⟨contents, stored, sorted, held⟩ := holds
  exact ⟨contents, stored, sorted, held.trans same⟩

/-- Runs in a row hold their items one part after the other. -/
theorem Holds.append {key : α → κ} {stores : ρ → List α → Prop} {first second : List ρ}
    {items others : List α} (left : Holds key stores first items)
    (right : Holds key stores second others)
    : Holds key stores (first ++ second) (items ++ others) := by
  obtain ⟨contents, stored, sorted, held⟩ := left
  obtain ⟨contents', stored', sorted', held'⟩ := right
  refine ⟨contents ++ contents', List.rel_append stored stored', ?_, ?_⟩
  · exact List.forall_mem_append.mpr ⟨sorted, sorted'⟩
  · rw [List.flatten_append]
    exact held.append held'

theorem Holds.split {key : α → κ} {stores : ρ → List α → Prop} {first second : List ρ}
    {items : List α} (holds : Holds key stores (first ++ second) items)
    : ∃ left right,
        Holds key stores first left
        ∧ Holds key stores second right
        ∧ (left ++ right).Perm items := by
  induction first generalizing items with
  | nil => exact ⟨[], items, holds_nil, holds, .refl _⟩
  | cons run runs ih =>
      obtain ⟨contents, stored, sorted, held⟩ := holds
      obtain ⟨content, others, kept, rest, rfl⟩ := List.forall₂_cons_left_iff.mp stored
      obtain ⟨ordered, orderedRest⟩ := List.forall_mem_cons.mp sorted
      obtain ⟨left, right, inFirst, inSecond, same⟩ := ih ⟨others, rest, orderedRest, .refl _⟩
      refine ⟨content ++ left, right, inFirst.cons kept ordered, inSecond, ?_⟩
      rw [List.append_assoc]
      exact (same.append_left content).trans held

/-- A merged group is one run that holds the group's items. -/
theorem mergeGroup_holds {key : α → κ} {stores : ρ → List α → Prop}
    {merge : List ρ → Except ε ρ} (merges : Merges key stores merge) {group : List ρ}
    {items : List α} (holds : Holds key stores group items)
    : ∃ merged content,
        mergeGroup merge group = .ok merged
        ∧ stores merged content
        ∧ SortedBy key content
        ∧ content.Perm items := by
  obtain ⟨contents, stored, sorted, same⟩ := holds
  have several (multiple : mergeGroup merge group = merge group)
      : ∃ merged content,
          mergeGroup merge group = .ok merged
          ∧ stores merged content
          ∧ SortedBy key content
          ∧ content.Perm items := by
    obtain ⟨merged, done, kept⟩ := merges group contents stored sorted
    exact ⟨merged, mergeRuns key contents, multiple.trans done, kept,
      mergeRuns_sorted sorted, (mergeRuns_perm sorted).trans same⟩
  match group with
  | [] => exact several rfl
  | [single] =>
      obtain ⟨content, _, kept, none, rfl⟩ := List.forall₂_cons_left_iff.mp stored
      obtain rfl := List.forall₂_nil_left_iff.mp none
      exact ⟨single, content, rfl, kept, sorted content (List.mem_singleton_self _),
        by simpa using same⟩
  | _ :: _ :: _ => exact several rfl

/-- A level leaves the items as they are. -/
theorem mergeLevel_holds {key : α → κ} {stores : ρ → List α → Prop}
    {merge : List ρ → Except ε ρ} (merges : Merges key stores merge) (fanIn : FanIn)
    {runs : List ρ} {items : List α} (holds : Holds key stores runs items)
    : ∃ merged, mergeLevel fanIn merge runs = .ok merged ∧ Holds key stores merged items := by
  have grouped (groups : List (List ρ)) (items : List α)
      (holds : Holds key stores groups.flatten items)
      : ∃ merged,
          groups.mapM (mergeGroup merge) = .ok merged ∧ Holds key stores merged items := by
    induction groups generalizing items with
    | nil => exact ⟨[], rfl, holds⟩
    | cons group groups ih =>
        obtain ⟨left, right, inGroup, inGroups, same⟩ := holds.split
        obtain ⟨run, content, done, kept, sorted, held⟩ := mergeGroup_holds merges inGroup
        obtain ⟨rest, others, heldRest⟩ := ih right inGroups
        refine ⟨run :: rest, ?_, ?_⟩
        · rw [List.mapM_cons, done, others]
          rfl
        · exact (heldRest.cons kept sorted).perm ((held.append_right right).trans same)
  apply grouped
  rwa [chunks_flatten]

/-- Few enough runs are left in the end, and they hold the same items. -/
theorem reduceRuns_holds {key : α → κ} {stores : ρ → List α → Prop}
    {merge : List ρ → Except ε ρ} (merges : Merges key stores merge) (fanIn : FanIn)
    {runs : List ρ} {items : List α} (holds : Holds key stores runs items)
    : ∃ merged,
        reduceRuns fanIn merge runs = .ok merged
        ∧ merged.length ≤ fanIn.size
        ∧ Holds key stores merged items := by
  fun_induction reduceRuns fanIn merge runs with
  | case1 runs many problem failed =>
      obtain ⟨merged, done, _⟩ := mergeLevel_holds merges fanIn holds
      rw [failed] at done
      contradiction
  | case2 runs many merged level ih =>
      obtain ⟨merged', done, held⟩ := mergeLevel_holds merges fanIn holds
      obtain rfl := Except.ok.inj (level.symm.trans done)
      exact ih held
  | case3 runs few => exact ⟨runs, rfl, not_lt.mp few, holds⟩

end CodebaseGraph.Sorting
