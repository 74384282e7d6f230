import Mathlib.Data.List.Basic

/-! Actions on a state about which ever more facts hold: they keep an invariant and every fact
known so far, and fail only where failing is excused. What is known stands in a list, as the
context of a typing judgement.
-/

namespace CodebaseGraph.Transition

variable {State Fact Problem α β ι : Type}

/-- Runs an action only if a condition holds. -/
def onlyIf (condition : Bool) (action : StateT State (Except Problem) PUnit)
    : StateT State (Except Problem) PUnit :=
  if condition then action else pure ⟨⟩

/-- Runs an action on a value, if there is one. -/
def ifSome (value : Option α) (action : α → StateT State (Except Problem) PUnit)
    : StateT State (Except Problem) PUnit :=
  match value with
  | some found => action found
  | none => pure ⟨⟩

/-- Which facts hold of a state, what is kept throughout, and from where an action may fail. -/
structure Discipline (State Fact : Type) where
  holds : State → Fact → Prop
  sound : State → Prop
  excused : State → Prop

namespace Discipline

variable (discipline : Discipline State Fact)

/-- The later state has all the facts of the earlier one, and no new excuse. -/
def Grows (first second : State) : Prop :=
  (∀ fact, discipline.holds first fact → discipline.holds second fact)
  ∧ (discipline.excused second → discipline.excused first)

/-- From any sound state of which the known facts hold, the action fails with an excuse or ends
in a sound state grown from it, with a result as described and the facts that belong to it.
-/
def Yields (known : List Fact) (action : StateT State (Except Problem) α) (about : α → Prop)
    (facts : α → List Fact)
    : Prop :=
  ∀ state,
    discipline.sound state →
    (∀ fact ∈ known, discipline.holds state fact) →
    match action.run state with
    | .error _ => discipline.excused state
    | .ok (result, next) =>
        discipline.Grows state next
        ∧ discipline.sound next
        ∧ about result
        ∧ ∀ fact ∈ facts result, discipline.holds next fact

/-- An action of whose result nothing need be known. -/
abbrev Runs (known : List Fact) (action : StateT State (Except Problem) α) : Prop :=
  discipline.Yields known action (fun _ => True) (fun _ => [])

variable {discipline} {known : List Fact} {about : α → Prop} {facts : α → List Fact}

theorem Grows.refl (state : State) : discipline.Grows state state :=
  ⟨fun _ held => held, fun excused => excused⟩

theorem Grows.trans {first second third : State} (early : discipline.Grows first second)
    (late : discipline.Grows second third)
    : discipline.Grows first third :=
  ⟨fun fact held => late.1 fact (early.1 fact held), fun excused => early.2 (late.2 excused)⟩

theorem Yields.pure {result : α} (described : about result) (inside : facts result ⊆ known)
    : discipline.Yields known (pure result : StateT State (Except Problem) α) about facts :=
  fun state sound held =>
    ⟨Grows.refl state, sound, described, fun fact member => held fact (inside member)⟩

/-- The second action may use what the first one made known. -/
theorem Yields.bind {first : StateT State (Except Problem) α}
    {second : α → StateT State (Except Problem) β} {about' : β → Prop} {facts' : β → List Fact}
    (begun : discipline.Yields known first about facts)
    (continued : ∀ result, about result →
      discipline.Yields (facts result ++ known) (second result) about' facts')
    : discipline.Yields known (first >>= second) about' facts' := by
  intro state sound held
  have unfolded
      : (first >>= second).run state
        = (first.run state).bind (fun pair => (second pair.1).run pair.2) := rfl
  have start := begun state sound held
  rw [unfolded]
  cases ran : first.run state with
  | error problem =>
      rw [ran] at start
      exact start
  | ok pair =>
      obtain ⟨result, next⟩ := pair
      rw [ran] at start
      obtain ⟨grown, soundNext, described, learnt⟩ := start
      have rest := continued result described next soundNext (by
        intro fact member
        rcases List.mem_append.mp member with fresh | old
        · exact learnt fact fresh
        · exact grown.1 fact (held fact old))
      simp only [Except.bind]
      cases done : (second result).run next with
      | error problem =>
          rw [done] at rest
          exact grown.2 rest
      | ok pair =>
          rw [done] at rest
          exact ⟨grown.trans rest.1, rest.2⟩

/-- Reading the state makes known the facts that can be read off it. -/
theorem Yields.inspect {rest : State → StateT State (Except Problem) α}
    {visible : State → List Fact}
    (seen : ∀ state, discipline.sound state →
      ∀ fact ∈ visible state, discipline.holds state fact)
    (continued : ∀ state, discipline.sound state →
      discipline.Yields (visible state ++ known) (rest state) about facts)
    : discipline.Yields known (get >>= rest) about facts := by
  intro state sound held
  apply continued state sound state sound
  intro fact member
  rcases List.mem_append.mp member with read | old
  · exact seen state sound fact read
  · exact held fact old

theorem Yields.read {rest : State → StateT State (Except Problem) α}
    (continued : ∀ state, discipline.Yields known (rest state) about facts)
    : discipline.Yields known (get >>= rest) about facts :=
  fun state sound held => continued state state sound held

theorem Yields.weaken {action : StateT State (Except Problem) α} {known' : List Fact}
    {about' : α → Prop} {facts' : α → List Fact}
    (met : discipline.Yields known action about facts) (inside : known ⊆ known')
    (described : ∀ result, about result → about' result)
    (fewer : ∀ result, about result → facts' result ⊆ facts result)
    : discipline.Yields known' action about' facts' := by
  intro state sound held
  have start := met state sound (fun fact member => held fact (inside member))
  cases ran : action.run state with
  | error problem =>
      rw [ran] at start
      exact start
  | ok pair =>
      rw [ran] at start
      obtain ⟨grown, soundNext, said, learnt⟩ := start
      exact ⟨grown, soundNext, described _ said, fun fact member =>
        learnt fact (fewer _ said member)⟩

/-- What follows in the end from all that is known then is known as well. -/
theorem Yields.conclude {action : StateT State (Except Problem) α} (fact : α → Fact)
    (met : discipline.Yields known action about facts)
    (follows : ∀ result state,
      about result →
      discipline.sound state →
      (∀ other ∈ facts result ++ known, discipline.holds state other) →
      discipline.holds state (fact result))
    : discipline.Yields known action about (fun result => fact result :: facts result) := by
  intro state sound held
  have start := met state sound held
  cases ran : action.run state with
  | error problem =>
      rw [ran] at start
      exact start
  | ok pair =>
      obtain ⟨result, next⟩ := pair
      rw [ran] at start
      obtain ⟨grown, soundNext, described, learnt⟩ := start
      refine ⟨grown, soundNext, described, fun other member => ?_⟩
      rcases List.mem_cons.mp member with rfl | old
      · apply follows result next described soundNext
        intro other member
        rcases List.mem_append.mp member with fresh | old
        · exact learnt other fresh
        · exact grown.1 other (held other old)
      · exact learnt other old

/-- What is described of the result may be forgotten, its facts kept. -/
theorem Yields.forget {action : StateT State (Except Problem) α}
    (met : discipline.Yields known action about facts)
    : discipline.Yields known action (fun _ => True) facts :=
  met.weaken (List.Subset.refl _) (fun _ _ => trivial) (fun _ _ => List.Subset.refl _)

/-- All that is known of the result may be forgotten. -/
theorem Yields.runs {action : StateT State (Except Problem) α}
    (met : discipline.Yields known action about facts)
    : discipline.Runs known action :=
  met.weaken (List.Subset.refl _) (fun _ _ => trivial) (fun _ _ => List.nil_subset _)

/-- What was known before an action is known after it. -/
theorem Yields.keep (kept : List Fact) {action : StateT State (Except Problem) α}
    (met : discipline.Yields known action about facts) (inside : kept ⊆ known)
    : discipline.Yields known action about (fun result => kept ++ facts result) := by
  intro state sound held
  have start := met state sound held
  cases ran : action.run state with
  | error problem =>
      rw [ran] at start
      exact start
  | ok pair =>
      obtain ⟨result, next⟩ := pair
      rw [ran] at start
      obtain ⟨grown, soundNext, described, learnt⟩ := start
      refine ⟨grown, soundNext, described, fun fact member => ?_⟩
      rcases List.mem_append.mp member with old | fresh
      · exact grown.1 fact (held fact (inside old))
      · exact learnt fact fresh

theorem Yields.onlyIf {condition : Bool} {action : StateT State (Except Problem) PUnit}
    (met : condition = true → discipline.Runs known action)
    : discipline.Runs known (onlyIf condition action) := by
  cases condition with
  | true => exact met rfl
  | false => exact Yields.pure trivial (List.nil_subset _)

theorem Yields.ifSome {value : Option α} {action : α → StateT State (Except Problem) PUnit}
    (met : ∀ found, value = some found → discipline.Runs known (action found))
    : discipline.Runs known (ifSome value action) := by
  cases value with
  | some found => exact met found rfl
  | none => exact Yields.pure trivial (List.nil_subset _)

/-- A loop whose turns all run on what is known before it. -/
theorem Yields.forM {items : List ι} {body : ι → StateT State (Except Problem) PUnit}
    (turn : ∀ item ∈ items, discipline.Runs known (body item))
    : discipline.Runs known (items.forM body) := by
  induction items with
  | nil => exact Yields.pure trivial (List.nil_subset _)
  | cons item rest ih =>
      apply Yields.bind (turn item (by simp))
      intro _ _
      exact ih (fun other inside => turn other (by simp [inside]))

end Discipline

end CodebaseGraph.Transition
