import Mathlib.Data.List.Basic
import Mathlib.Data.List.Forall2

/-! Computations that may fail: what the success of a sequence says of its parts. -/

namespace CodebaseGraph.Transition

theorem bind_eq_ok {ε α β : Type} {first : Except ε α} {second : α → Except ε β} {result : β}
    : (first >>= second) = .ok result
      ↔ ∃ middle, first = .ok middle ∧ second middle = .ok result := by
  cases first with
  | error problem => simp [bind, Except.bind]
  | ok middle => simp [bind, Except.bind]

theorem error_bind {ε α β : Type} (problem : ε) (next : α → Except ε β)
    : (Except.error problem >>= next) = .error problem := rfl

theorem unless_eq_ok {ε α : Type} {condition : Prop} [Decidable condition] {problem : ε}
    {rest : Except ε α} {result : α}
    : (if condition then .error problem else rest) = .ok result
      ↔ ¬condition ∧ rest = .ok result := by
  split <;> simp_all

theorem forM_eq_ok {ε α : Type} {check : α → Except ε PUnit} {items : List α}
    : items.forM check = .ok () ↔ ∀ item ∈ items, check item = .ok () := by
  simp only [List.forM_eq_forM]
  induction items with
  | nil => simp [pure, Except.pure]
  | cons item rest ih =>
      rw [List.forM_cons, bind_eq_ok, List.forall_mem_cons, ← ih]
      exact ⟨fun ⟨(), checked, others⟩ => ⟨checked, others⟩,
        fun ⟨checked, others⟩ => ⟨(), checked, others⟩⟩

/-- A traversal succeeds with the results of its items. -/
theorem mapM_eq_ok {ε α β : Type} {each : α → Except ε β} {items : List α} {results : List β}
    : items.mapM each = .ok results
      ↔ List.Forall₂ (fun item result => each item = .ok result) items results := by
  induction items generalizing results with
  | nil => cases results <;> simp [pure, Except.pure]
  | cons item rest ih =>
      rw [List.mapM_cons, bind_eq_ok, List.forall₂_cons_left_iff]
      constructor
      · rintro ⟨first, here, others⟩
        obtain ⟨later, there, whole⟩ := bind_eq_ok.mp others
        exact ⟨first, later, here, ih.mp there, (Except.ok.inj whole).symm⟩
      · rintro ⟨first, later, here, there, rfl⟩
        exact ⟨first, here, bind_eq_ok.mpr ⟨later, ih.mpr there, rfl⟩⟩

-----------------------------------------------------------------------------------------
-- Success and results
-----------------------------------------------------------------------------------------

/-- The computation does not fail. -/
def Completes {ε α : Type} (action : Except ε α) : Prop := ∃ result, action = .ok result

/-- What the computation returns, if it does, meets a condition. -/
def Yields {ε α : Type} (action : Except ε α) (post : α → Prop) : Prop :=
  ∀ result, action = .ok result → post result

section Success

variable {ε α β : Type} {first : Except ε α} {second : α → Except ε β}

theorem Completes.ok (result : α) : Completes (.ok result : Except ε α) := ⟨result, rfl⟩

theorem Completes.bind (begun : Completes first)
    (ended : ∀ middle, first = .ok middle → Completes (second middle))
    : Completes (first >>= second) := by
  obtain ⟨middle, returned⟩ := begun
  obtain ⟨result, finished⟩ := ended middle returned
  exact ⟨result, bind_eq_ok.mpr ⟨middle, returned, finished⟩⟩

/-- A sequence that completes has completed its first part and then the rest. -/
theorem completes_bind
    : Completes (first >>= second) ↔ ∃ middle, first = .ok middle ∧ Completes (second middle) := by
  constructor
  · rintro ⟨result, returned⟩
    obtain ⟨middle, begun, ended⟩ := bind_eq_ok.mp returned
    exact ⟨middle, begun, result, ended⟩
  · rintro ⟨middle, begun, ended⟩
    exact Completes.bind ⟨middle, begun⟩ (fun other same =>
      Except.ok.inj (begun.symm.trans same) ▸ ended)

theorem completes_mapM {each : α → Except ε β} {items : List α}
    : Completes (items.mapM each) ↔ ∀ item ∈ items, Completes (each item) := by
  induction items with
  | nil => exact ⟨fun _ _ absent => absurd absent List.not_mem_nil, fun _ => ⟨[], rfl⟩⟩
  | cons item rest ih =>
      rw [List.mapM_cons, List.forall_mem_cons, ← ih]
      constructor
      · intro completed
        obtain ⟨head, here, others⟩ := completes_bind.mp completed
        obtain ⟨tail, there, -⟩ := completes_bind.mp others
        exact ⟨⟨head, here⟩, ⟨tail, there⟩⟩
      · rintro ⟨here, there⟩
        exact here.bind (fun head _ => there.bind (fun tail _ => .ok (head :: tail)))

theorem Yields.ok {post : α → Prop} {result : α} (holds : post result)
    : Yields (.ok result : Except ε α) post := by
  intro other same
  exact Except.ok.inj same ▸ holds

theorem Yields.bind {post : β → Prop}
    (ended : ∀ middle, first = .ok middle → Yields (second middle) post)
    : Yields (first >>= second) post := by
  intro result returned
  obtain ⟨middle, begun, finished⟩ := bind_eq_ok.mp returned
  exact ended middle begun result finished

end Success

/-- What is checked of the state after a computation holds of it. -/
theorem exists_of_checked {ε State : Type} {answer : Except ε (PUnit × State)}
    {holds : State → Prop} [DecidablePred holds]
    (checked : (answer.toOption.any fun pair => decide (holds pair.2)) = true)
    : ∃ last, answer = .ok (⟨⟩, last) ∧ holds last := by
  cases answer with
  | error problem => cases checked
  | ok pair => exact ⟨pair.2, rfl, of_decide_eq_true checked⟩

end CodebaseGraph.Transition

/-! Rules for actions that may fail and leave a state in either case. A claim about an action says
what holds of its result and the state after success, and what holds of the state after a failure.
-/

namespace CodebaseGraph.Transition

variable {State Part Rest Problem α β : Type}

/-- An action that keeps its state when it fails. -/
abbrev Settling (State Problem α : Type) := ExceptT Problem (StateM State) α

namespace Settling

/-- The answer of an action and the state after it. -/
def settle (action : Settling State Problem α) (state : State) : Except Problem α × State :=
  action.run.run state

/-- The action that gives an answer and a state. -/
def of (run : State → Except Problem α × State) : Settling State Problem α :=
  ExceptT.mk (fun state => run state)

/-- An action after whose failure the state is put in order. -/
def cleaning (action : Settling State Problem α) (cleanup : State → State)
    : Settling State Problem α :=
  of (fun state =>
    match action.settle state with
    | (.ok result, next) => (.ok result, next)
    | (.error problem, next) => (.error problem, cleanup next))

/-- An action with a part of its own, which is given up at the end in either case. -/
def withPart (part : Part) (drop : Part × Rest → Rest) (action : Settling (Part × Rest) Problem α)
    : Settling (State × Rest) Problem α :=
  of (fun state =>
    match action.settle (part, state.2) with
    | (answer, next) => (answer, (state.1, drop next)))

end Settling

open Settling

/-- From a state, the action ends as described. -/
def Settles (action : Settling State Problem α) (state : State) (done : α → State → Prop)
    (failed : State → Prop)
    : Prop :=
  match action.settle state with
  | (.ok result, next) => done result next
  | (.error _, next) => failed next

namespace Settles

variable {state : State} {done done' : α → State → Prop} {failed failed' : State → Prop}

theorem pure {result : α} (holds : done result state)
    : Settles (pure result : Settling State Problem α) state done failed :=
  holds

theorem throw {problem : Problem} (holds : failed state)
    : Settles (throw problem : Settling State Problem α) state done failed :=
  holds

/-- The second action goes on where the first has succeeded. -/
theorem bind {first : Settling State Problem α} {second : α → Settling State Problem β}
    {done : β → State → Prop}
    (begun
      : Settles first state (fun middle next => Settles (second middle) next done failed) failed)
    : Settles (first >>= second) state done failed := by
  have unfolded
      : (first >>= second).settle state
        = match first.settle state with
          | (.ok middle, next) => (second middle).settle next
          | (.error problem, next) => (.error problem, next) := by
    simp only [settle, Bind.bind, ExceptT.bind, ExceptT.run, ExceptT.mk, StateT.run, StateT.bind]
    rcases first state with ⟨answer | middle, next⟩ <;> rfl
  rw [Settles, unfolded]
  rw [Settles] at begun
  rcases ran : first.settle state with ⟨answer | middle, next⟩
  · rw [ran] at begun
    exact begun
  · rw [ran] at begun
    exact begun

/-- More is known before than is asked for after. -/
theorem mono {action : Settling State Problem α} (ends : Settles action state done failed)
    (after : ∀ result next, done result next → done' result next)
    (broken : ∀ next, failed next → failed' next)
    : Settles action state done' failed' := by
  rw [Settles] at ends ⊢
  rcases ran : action.settle state with ⟨answer | result, next⟩
  · rw [ran] at ends
    exact broken next ends
  · rw [ran] at ends
    exact after result next ends

theorem cleaning {action : Settling State Problem α} {cleanup : State → State}
    (ends : Settles action state done (fun next => failed (cleanup next)))
    : Settles (action.cleaning cleanup) state done failed := by
  rw [Settles] at ends
  have unfolded
      : (action.cleaning cleanup).settle state
        = match action.settle state with
          | (.ok result, next) => (.ok result, next)
          | (.error problem, next) => (.error problem, cleanup next) := rfl
  rw [Settles, unfolded]
  rcases ran : action.settle state with ⟨answer | result, next⟩
  · rw [ran] at ends
    exact ends
  · rw [ran] at ends
    exact ends

theorem withPart {part : Part} {drop : Part × Rest → Rest} {own : State} {rest : Rest}
    {action : Settling (Part × Rest) Problem α} {done : α → State × Rest → Prop}
    {failed : State × Rest → Prop}
    (ends
      : Settles action (part, rest) (fun result next => done result (own, drop next))
          (fun next => failed (own, drop next)))
    : Settles (Settling.withPart part drop action) (own, rest) done failed := by
  rw [Settles] at ends
  have unfolded
      : (Settling.withPart part drop action : Settling (State × Rest) Problem α).settle (own, rest)
        = match action.settle (part, rest) with
          | (answer, next) => (answer, (own, drop next)) := rfl
  rw [Settles, unfolded]
  rcases ran : action.settle (part, rest) with ⟨answer | result, next⟩
  · rw [ran] at ends
    exact ends
  · rw [ran] at ends
    exact ends

/-- A loop over items keeps what each turn keeps. -/
theorem forM {ι : Type} {turn : ι → Settling State Problem PUnit} {items : List ι}
    (kept : State → Prop) (start : kept state)
    (turns : ∀ item ∈ items, ∀ before, kept before →
      Settles (turn item) before (fun _ next => kept next) kept)
    : Settles (items.forM turn) state (fun _ next => kept next) kept := by
  simp only [List.forM_eq_forM]
  induction items generalizing state with
  | nil => exact start
  | cons item rest ih =>
      rw [List.forM_cons]
      apply bind
      refine (turns item List.mem_cons_self state start).mono ?_ (fun _ broken => broken)
      intro _ next held
      exact ih held (fun other inside => turns other (List.mem_cons_of_mem _ inside))

theorem mapM {ι : Type} {turn : ι → Settling State Problem α} {items : List ι}
    (kept : State → Prop) (start : kept state)
    (turns : ∀ item ∈ items, ∀ before, kept before →
      Settles (turn item) before (fun _ next => kept next) kept)
    : Settles (items.mapM turn) state (fun _ next => kept next) kept := by
  induction items generalizing state with
  | nil => exact start
  | cons item rest ih =>
      rw [List.mapM_cons]
      apply bind
      refine (turns item List.mem_cons_self state start).mono ?_ (fun _ broken => broken)
      intro _ next held
      apply bind
      refine (ih held (fun other inside => turns other (List.mem_cons_of_mem _ inside))).mono ?_
        (fun _ broken => broken)
      intro _ last stillHeld
      exact stillHeld

/-- What holds after success and after failure holds of the state that is left. -/
theorem ends {action : Settling State Problem α} {kept : State → Prop} {next : State}
    {answer : Except Problem α} (settles : Settles action state (fun _ => kept) kept)
    (ran : action.settle state = (answer, next))
    : kept next := by
  rw [Settles, ran] at settles
  cases answer with
  | error problem => exact settles
  | ok result => exact settles

theorem of_ok {action : Settling State Problem α} {next : State} {result : α}
    (settles : Settles action state done failed) (ran : action.settle state = (.ok result, next))
    : done result next := by
  rw [Settles, ran] at settles
  exact settles

theorem of_error {action : Settling State Problem α} {next : State} {problem : Problem}
    (settles : Settles action state done failed)
    (ran : action.settle state = (.error problem, next))
    : failed next := by
  rw [Settles, ran] at settles
  exact settles

end Settles

end CodebaseGraph.Transition
