import Mathlib.Data.List.Basic

/-! Runs of a labelled transition system whose steps emit events.
A step consumes one choice of the environment and, when that choice is enabled, emits one
event and moves to the next state; a run records the emitted events in order.
-/

namespace CodebaseGraph.Transition

variable {State Action Event : Type*}

/-- A partial step function: which event and which state one choice leads to. -/
abbrev StepFn (State Action Event : Type*) :=
  State → Action → Option (Event × State)

/-- `Run step start trace last`: some sequence of enabled choices leads from `start` to
`last` and emits exactly `trace`.
-/
inductive Run (step : StepFn State Action Event) (start : State)
    : List Event → State → Prop where
  | nil : Run step start [] start
  | snoc {trace mid last event} (run : Run step start trace mid) (action : Action)
    (next : step mid action = some (event, last))
    : Run step start (trace ++ [event]) last

/-- A property of histories and states that one step preserves holds of every run. -/
theorem Run.history_induction {step : StepFn State Action Event} {start : State}
    {motive : List Event → State → Prop} (initial : motive [] start)
    (preserved
      : ∀ {trace mid action event last},
          Run step start trace mid
          → motive trace mid
          → step mid action = some (event, last)
          → motive (trace ++ [event]) last)
    {trace last} (run : Run step start trace last)
    : motive trace last := by
  induction run with
  | nil => exact initial
  | snoc run action next ih => exact preserved run ih next

/-- An invariant of single steps holds in every state a run reaches. -/
theorem Run.invariant {step : StepFn State Action Event} {start : State}
    {motive : State → Prop} (initial : motive start)
    (preserved
      : ∀ {mid action event last},
          motive mid → step mid action = some (event, last) → motive last)
    {trace last} (run : Run step start trace last)
    : motive last :=
  run.history_induction (motive := fun _ state => motive state) initial
    (fun _ holds next => preserved holds next)

/-- Runs compose. -/
theorem Run.append {step : StepFn State Action Event} {start mid last : State}
    {first second} (left : Run step start first mid) (right : Run step mid second last)
    : Run step start (first ++ second) last := by
  induction right with
  | nil => simpa using left
  | snoc _ action next ih => simpa only [List.append_assoc] using ih.snoc action next

/-- Every prefix of a run's history is itself the history of a run that the rest of the
run continues.
-/
theorem Run.split {step : StepFn State Action Event} {start last : State} {first second}
    (run : Run step start (first ++ second) last)
    : ∃ mid, Run step start first mid ∧ Run step mid second last := by
  generalize whole : first ++ second = trace at run
  induction run generalizing second with
  | nil =>
      obtain ⟨rfl, rfl⟩ := List.append_eq_nil_iff.mp whole
      exact ⟨start, .nil, .nil⟩
  | @snoc trace mid last event run action next ih =>
      rcases List.eq_nil_or_concat second with rfl | ⟨init, tail, rfl⟩
      · rw [List.append_nil] at whole
        exact ⟨last, whole ▸ run.snoc action next, .nil⟩
      · rw [List.concat_eq_append, ← List.append_assoc] at whole
        obtain ⟨rfl, same⟩ := List.append_inj' whole rfl
        obtain ⟨middle, left, right⟩ := ih rfl
        refine ⟨middle, left, ?_⟩
        rw [List.concat_eq_append, (List.singleton_inj.mp same)]
        exact right.snoc action next

/-- A run without events has not moved. -/
theorem Run.of_nil {step : StepFn State Action Event} {start last : State}
    (run : Run step start [] last)
    : last = start := by
  generalize whole : [] = trace at run
  cases run with
  | nil => rfl
  | snoc _ _ _ => simp at whole

/-- A one-event run is one enabled step. -/
theorem Run.of_singleton {step : StepFn State Action Event} {start last : State} {event}
    (run : Run step start [event] last)
    : ∃ action, step start action = some (event, last) := by
  generalize whole : [event] = trace at run
  cases run with
  | nil => simp at whole
  | @snoc trace mid last event run action next =>
      rw [← List.nil_append [_]] at whole
      obtain ⟨empty, same⟩ := List.append_inj' whole rfl
      subst empty
      exact ⟨action, by rw [List.singleton_inj.mp same, ← run.of_nil]; exact next⟩

/-- The step that emitted an event of the history, with the runs before and after it. -/
theorem Run.split_at {step : StepFn State Action Event} {start last : State}
    {before event after} (run : Run step start (before ++ event :: after) last)
    : ∃ mid action next,
        Run step start before mid
        ∧ step mid action = some (event, next)
        ∧ Run step next after last := by
  obtain ⟨mid, left, right⟩ := Run.split run
  rw [← List.singleton_append] at right
  obtain ⟨next, single, rest⟩ := Run.split right
  obtain ⟨action, enabled⟩ := single.of_singleton
  exact ⟨mid, action, next, left, enabled, rest⟩

/-- The steps that meet a condition on the state before them and on the choice. -/
def restrict (step : StepFn State Action Event) (guard : State → Action → Prop)
    [∀ state action, Decidable (guard state action)]
    : StepFn State Action Event :=
  fun state action => if guard state action then step state action else none

theorem restrict_eq_some {step : StepFn State Action Event} {guard : State → Action → Prop}
    [∀ state action, Decidable (guard state action)] {state : State} {action : Action}
    {outcome : Event × State}
    : restrict step guard state action = some outcome
      ↔ guard state action ∧ step state action = some outcome := by
  unfold restrict
  split
  · next allowed => simp [allowed]
  · next refused => simp [refused]

/-- The events and the final state of a fixed schedule, when all its choices are enabled. -/
def execute (step : StepFn State Action Event)
    : State → List Action → Option (List Event × State)
  | state, [] => some ([], state)
  | state, action :: rest =>
      match step state action with
      | none => none
      | some (event, next) =>
          (execute step next rest).map (fun result => (event :: result.1, result.2))

/-- A fixed schedule that executes is a run. -/
theorem Run.of_execute {step : StepFn State Action Event} {start last : State}
    (schedule : List Action) {trace}
    (executed : execute step start schedule = some (trace, last))
    : Run step start trace last := by
  induction schedule generalizing start trace with
  | nil =>
      simp only [execute, Option.some.injEq, Prod.mk.injEq] at executed
      obtain ⟨rfl, rfl⟩ := executed
      exact .nil
  | cons action rest ih =>
      cases taken : step start action with
      | none => simp [execute, taken] at executed
      | some outcome =>
          obtain ⟨event, next⟩ := outcome
          simp only [execute, taken, Option.map_eq_some_iff, Prod.mk.injEq] at executed
          obtain ⟨⟨events, _⟩, continued, rfl, rfl⟩ := executed
          exact (Run.nil.snoc action taken).append (ih continued)

/-- A fixed schedule whose last state passes a check is a run to such a state. -/
theorem Run.exists_of_execute {step : StepFn State Action Event} {start : State}
    (schedule : List Action) (check : State → Bool)
    (passed : (execute step start schedule).map (fun result => check result.2) = some true)
    : ∃ trace last, Run step start trace last ∧ check last = true := by
  obtain ⟨⟨trace, last⟩, executed, checked⟩ := Option.map_eq_some_iff.mp passed
  exact ⟨trace, last, .of_execute schedule executed, checked⟩

end CodebaseGraph.Transition
