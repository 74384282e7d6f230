import Mathlib.Data.List.Basic

/-! Programs that submit statements to a service, one after another, and stop at the first one it
refuses. What a program submits is told apart from what else it does by a view of its state: the
statements submitted so far.
-/

namespace CodebaseGraph.Transition

variable {Statement Problem State Failure α β : Type}

/-- A service may refuse a statement, depending on those before it. -/
structure Service (Statement Problem : Type) where
  refusal : List Statement → Statement → Option Problem

namespace Service

variable (service : Service Statement Problem)

/-- Of a list of statements, those up to the first that is refused and with it. -/
def attempted : List Statement → List Statement → List Statement
  | _, [] => []
  | history, statement :: rest =>
      match service.refusal history statement with
      | some _ => [statement]
      | none => statement :: attempted (history ++ [statement]) rest

def accepts : List Statement → List Statement → Bool
  | _, [] => true
  | history, statement :: rest =>
      (service.refusal history statement).isNone && accepts (history ++ [statement]) rest

variable {service}

theorem attempted_of_accepts {history statements : List Statement}
    (accepted : service.accepts history statements)
    : service.attempted history statements = statements := by
  induction statements generalizing history with
  | nil => rfl
  | cons statement rest ih =>
      rw [accepts, Bool.and_eq_true, Option.isNone_iff_eq_none] at accepted
      rw [attempted, accepted.1]
      exact congrArg (statement :: ·) (ih accepted.2)

theorem accepts_append (history first second : List Statement)
    : service.accepts history (first ++ second)
      = (service.accepts history first && service.accepts (history ++ first) second) := by
  induction first generalizing history with
  | nil => simp [accepts]
  | cons statement rest ih => simp [accepts, ih, Bool.and_assoc]

theorem attempted_append_of_accepts {history first : List Statement} (second : List Statement)
    (accepted : service.accepts history first)
    : service.attempted history (first ++ second)
      = first ++ service.attempted (history ++ first) second := by
  induction first generalizing history with
  | nil => simp
  | cons statement rest ih =>
      rw [accepts, Bool.and_eq_true, Option.isNone_iff_eq_none] at accepted
      rw [List.cons_append, attempted, accepted.1]
      simp [ih accepted.2]

theorem attempted_append_of_refuses {history first : List Statement} (second : List Statement)
    (refused : service.accepts history first = false)
    : service.attempted history (first ++ second) = service.attempted history first := by
  induction first generalizing history with
  | nil => cases refused
  | cons statement rest ih =>
      rw [List.cons_append, attempted, attempted]
      cases answer : service.refusal history statement with
      | some problem => rfl
      | none =>
          rw [accepts, answer] at refused
          simp only [Option.isNone_none, Bool.true_and] at refused
          exact congrArg (statement :: ·) (ih refused)

theorem eq_nil_of_attempted {history statements : List Statement}
    (nothing : service.attempted history statements = []) : statements = [] := by
  cases statements with
  | nil => rfl
  | cons statement rest =>
      rw [attempted] at nothing
      split at nothing <;> cases nothing

end Service

-- Programs

/-- A computation that keeps its state when it fails. -/
abbrev Submitting (State Failure α : Type) := ExceptT Failure (StateM State) α

/-- The result of a computation and the state after it. -/
def Submitting.ran (action : Submitting State Failure α) (state : State)
    : Except Failure α × State :=
  action.run.run state

theorem Submitting.ran_bind (first : Submitting State Failure α)
    (second : α → Submitting State Failure β) (state : State)
    : (first >>= second).ran state
      = match first.ran state with
        | (.ok middle, next) => (second middle).ran next
        | (.error problem, next) => (.error problem, next) := by
  have unfolded : (first >>= second).ran state
      = (ExceptT.bindCont second (first.ran state).1).run (first.ran state).2 := rfl
  rw [unfolded]
  cases first.ran state with
  | mk result next => cases result <;> rfl

section

variable (service : Service Statement Problem) (history : State → List Statement)

/-- From any state after the known statements, the action submits these, up to the first that
is refused, and returns exactly if none is; its result is as described.
-/
def Submits (known : List Statement) (action : Submitting State Failure α)
    (statements : List Statement) (about : α → Prop) : Prop :=
  ∀ state,
    known ⊆ history state →
    history (action.ran state).2
        = history state ++ service.attempted (history state) statements
      ∧ match (action.ran state).1 with
        | .ok result => service.accepts (history state) statements = true ∧ about result
        | .error _ => service.accepts (history state) statements = false

variable {service history} {known : List Statement} {about : α → Prop} {about' : β → Prop}

theorem Submits.pure {result : α} (described : about result)
    : Submits service history known (pure result : Submitting State Failure α) [] about :=
  fun state _ => ⟨(List.append_nil _).symm, rfl, described⟩

/-- What the first action has submitted is known to the second. -/
theorem Submits.bind {first : Submitting State Failure α} {second : α → Submitting State Failure β}
    {early late : List Statement} (begun : Submits service history known first early about)
    (continued : ∀ result, about result →
      Submits service history (known ++ early) (second result) late about')
    : Submits service history known (first >>= second) (early ++ late) about' := by
  intro state inside
  have start := begun state inside
  rw [Submitting.ran_bind]
  cases ran : first.ran state with
  | mk result next =>
      rw [ran] at start
      cases result with
      | error problem =>
          have refused : service.accepts (history state) early = false := start.2
          simp only [Service.attempted_append_of_refuses late refused, Service.accepts_append,
            refused, Bool.false_and]
          exact ⟨start.1, trivial⟩
      | ok middle =>
          obtain ⟨grown, accepted, described⟩ := start
          rw [Service.attempted_of_accepts accepted] at grown
          have later : history next = history state ++ early := grown
          have rest := continued middle described next (by
            rw [later]
            exact List.append_subset.mpr
              ⟨List.subset_append_of_subset_left _ inside, List.subset_append_right _ _⟩)
          rw [later] at rest
          simp only [Service.attempted_append_of_accepts late accepted, Service.accepts_append,
            accepted, Bool.true_and, ← List.append_assoc]
          exact rest

theorem Submits.weaken {action : Submitting State Failure α} {statements : List Statement}
    {known' : List Statement} (met : Submits service history known' action statements about)
    (inside : known' ⊆ known) : Submits service history known action statements about :=
  fun state found => met state (List.Subset.trans inside found)

/-- A loop submits what its turns do. -/
theorem Submits.forM {ι : Type} {items : List ι} {body : ι → Submitting State Failure PUnit}
    {statements : ι → List Statement}
    (turn : ∀ item ∈ items,
      Submits service history known (body item) (statements item) (fun _ => True))
    : Submits service history known (items.forM body) (items.flatMap statements)
        (fun _ => True) := by
  induction items with
  | nil => exact Submits.pure trivial
  | cons item rest ih =>
      rw [List.flatMap_cons]
      apply Submits.bind (turn item List.mem_cons_self)
      intro _ _
      have others := ih (fun other found => turn other (List.mem_cons_of_mem item found))
      exact others.weaken (List.subset_append_left _ _)

end

end CodebaseGraph.Transition
