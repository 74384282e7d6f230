import CodebaseGraph.Maintenance.Scheduler

/-! Everything one step of the maintenance driver can do, with its guards. -/

namespace CodebaseGraph.Maintenance

open CodebaseGraph.Transition

variable {Facts : Type*}

/-- The attempt the worker is running. -/
def WorkerStage.attempt? : WorkerStage Facts → Option Attempt
  | .begun attempt | .preparing attempt _ | .unprepared attempt _ | .admitting attempt _ _
  | .gating attempt _ _ | .granting attempt _ | .mutating attempt | .releasing attempt _ _
  | .finishing attempt _ | .settling attempt _ | .completing attempt _ _ => some attempt
  | _ => none

/-- The demand the running attempt observed before `prepare`, while its gate is ahead. -/
def WorkerStage.prepared? : WorkerStage Facts → Option (Option (Nat × Option Facts))
  | .preparing _ prepared | .admitting _ prepared _ | .gating _ prepared _ => some prepared
  | _ => none

/-- The token between the gate and the callback. -/
def WorkerStage.token? : WorkerStage Facts → Option (LegacyQuiescenceConfirmation Facts)
  | .granting _ token => token
  | _ => none

/-- A stage change that neither begins an attempt nor obtains a demand or a token. -/
structure StageAdvance (stage next : WorkerStage Facts) : Prop where
  attempt : next.attempt? = none ∨ next.attempt? = stage.attempt?
  prepared : next.prepared? = none ∨ next.prepared? = stage.prepared?
  token : next.token? = none

/-- The target of a request that the mailbox accepts. -/
structure Control.Accepts (control : Control Facts) (confirmation : Option TargetBinding)
    : Prop where
  live : control.snapshot.liveness ≠ .failed
  open_ : control.stopping = false
  bound : ∀ binding, confirmation = some binding → binding = control.binding

inductive MaintenanceMove [DecidableEq Facts] (state : MaintenanceState Facts)
    : MaintenanceEvent Facts → MaintenanceState Facts → Prop where
  | requested {trigger confirmation source}
    (accepts : state.control.Accepts confirmation)
    : MaintenanceMove state
        (.requested trigger confirmation.isSome source state.control.binding
          state.control.generation none)
        { state with control := state.control.enqueue trigger confirmation source }
  | awaited {trigger confirmation source}
    (accepts : state.control.Accepts confirmation)
    : MaintenanceMove state
        (.requested trigger confirmation.isSome source state.control.binding
          state.control.generation (some state.waiters.length))
        {
          state with
          control := state.control.enqueue trigger confirmation source,
          waiters :=
            state.waiters
              ++ [some
                    ⟨
                      state.control.binding,
                      state.control.generation,
                      saturatingAdd state.control.scheduler.sequence 1
                    ⟩]
        }
  | refused : MaintenanceMove state .refused state
  | returned {index waiter} (found : state.waiters[index]? = some (some waiter))
    (answered : state.control.answers waiter = true)
    : MaintenanceMove state (.returned index state.control.snapshot)
        { state with waiters := state.waiters.set index none }
  | captured (idle : state.control.snapshot.running = false)
    : MaintenanceMove state .captured
        {
          state with
          control :=
            {
              state.control with
              capturingSource := true,
              confirmation := false,
              confirmationSource := none
            }
        }
  | released
    : MaintenanceMove state .released
        { state with control := { state.control with capturingSource := false } }
  | rebindKept {effect} (kept : effect = .refused ∨ effect = .unchanged)
    : MaintenanceMove state (.rebound effect) state
  | rebindExhausted
    : MaintenanceMove state (.rebound .exhausted)
        {
          state with
          control :=
            {
              state.control with
              stopping := true,
              snapshot := { state.control.snapshot with liveness := .failed }
            }
        }
  | rebindReplaced {binding} (other : binding ≠ state.control.binding)
    : MaintenanceMove state (.rebound .replaced)
        {
          state with
          control :=
            {
              state.control.replace binding (state.control.generation + 1) with
              snapshot :=
                {
                  (state.control.replace binding (state.control.generation + 1)).snapshot with
                  pending := true
                }
            }
        }
  | stopRequested
    : MaintenanceMove state .stopRequested
        { state with control := state.control.requestStop }
  | leftLoop (waiting : state.stage = .waiting)
    : MaintenanceMove state .internal
        {
          state with
          stage := .disposing,
          control :=
            {
              state.control with
              snapshot := { state.control.snapshot with running := false }
            }
        }
  | begun {now} (waiting : state.stage = .waiting) (live : state.control.stopping = false)
    (due : state.control.scheduler.nextDue ≤ now)
    : MaintenanceMove state
        (.begun
          ⟨
            state.control.binding,
            state.control.generation,
            state.control.scheduler.pending,
            state.control.scheduler.sequence
          ⟩)
        {
          state with
          stage :=
            .begun
              ⟨
                state.control.binding,
                state.control.generation,
                state.control.scheduler.pending,
                state.control.scheduler.sequence
              ⟩,
          control :=
            {
              state.control with
              scheduler :=
                {
                  state.control.scheduler with
                  pending := 0,
                  nextDue := durationAdd now state.control.scheduler.interval
                },
              snapshot := { state.control.snapshot with running := true }
            }
        }
  | observed {attempt} (stage : state.stage = .begun attempt)
    : MaintenanceMove state (.observed (state.control.legacyMetadata attempt))
        {
          state with
          stage := .preparing attempt (state.control.legacyMetadata attempt)
        }
  | advanced {stage} (advance : StageAdvance state.stage stage)
    : MaintenanceMove state .internal { state with stage := stage }
  | passed {stage} (advance : StageAdvance state.stage stage)
    : MaintenanceMove state .passed { state with stage := stage }
  | claimed {attempt prepared}
    (stage : state.stage = .gating attempt prepared true)
    (live : state.control.stopping = false)
    (generation : state.control.generation = attempt.generation)
    (binding : state.control.binding = attempt.binding)
    (confirmation : state.control.confirmation = true)
    (current : prepared = some (attempt.generation, state.control.confirmationSource))
    : MaintenanceMove state
        (.claimed ⟨attempt.binding, attempt.generation, state.control.confirmationSource⟩)
        {
          state with
          control :=
            {
              state.control with
              confirmation := false,
              claimedSource := state.control.confirmationSource,
              confirmationSource := none
            },
          stage :=
            .granting attempt
              (some ⟨attempt.binding, attempt.generation, state.control.confirmationSource⟩)
        }
  | mutated {attempt token} (stage : state.stage = .granting attempt token)
    : MaintenanceMove state (.mutated token) { state with stage := .mutating attempt }
  | unclaimed {stage} (advance : StageAdvance state.stage stage)
    : MaintenanceMove state .internal
        { state with control := { state.control with claimedSource := none }, stage := stage }
  | completed {attempt outcome panicked} (now : Nat) (desired : Option TargetBinding)
    (parked : Bool) (stage : state.stage = .completing attempt outcome panicked)
    : MaintenanceMove state
        (.completed attempt outcome
          (state.control.complete attempt outcome now desired parked).1)
        {
          state with
          control := (state.control.complete attempt outcome now desired parked).2,
          stage := if panicked then .failing .panicked else .waiting
        }
  | workerFailed (error : DriverError) (stage : state.stage = .failing error)
    : MaintenanceMove state .workerFailed
        { state with control := state.control.failWorker error, stage := .disposing }
  | exited (panicking : Bool) (stage : state.stage = .disposing)
    : MaintenanceMove state .exited
        { state with control := state.control.workerExit panicking, stage := .ended }

/-- The boolean test of an accepted confirmation, read as a proposition. -/
theorem Control.unbound_eq_false {control : Control Facts}
    {confirmation : Option TargetBinding} (bound : control.unbound confirmation = false)
    : ∀ binding, confirmation = some binding → binding = control.binding := by
  rintro binding rfl
  simpa [Control.unbound] using bound

/-- The worker's handoff replaces the target, fails on an exhausted generation counter, or
does nothing.
-/
theorem handoff_cases (control : Control Facts) (attempt : Attempt)
    (desired : Option TargetBinding) (completedAt : Nat)
    : control.handoff attempt desired completedAt = (.unchanged, control)
      ∨ (∃ binding,
          control.handoff attempt desired completedAt
          = (.replaced,
              {
                control.replace binding (control.generation + 1) with
                scheduler :=
                  { control.scheduler.request .startup with nextDue := completedAt }
              }))
      ∨ control.handoff attempt desired completedAt
        = (.exhausted,
            {
              control with
              stopping := true,
              snapshot := { control.snapshot with failure := some .preparation }
            }) := by
  cases desired with
  | none => exact .inl rfl
  | some binding =>
      by_cases current : control.generation = attempt.generation ∧ binding ≠ control.binding
      · by_cases room : control.generation + 1 ≤ u64Max
        · refine .inr (.inl ⟨binding, ?_⟩)
          simp only [Control.handoff, if_pos current, checkedAdd, if_pos room]
          rfl
        · refine .inr (.inr ?_)
          simp only [Control.handoff, if_pos current, checkedAdd, if_neg room]
      · refine .inl ?_
        simp only [Control.handoff, if_neg current]

variable [DecidableEq Facts]

theorem handleStep_move {state next : MaintenanceState Facts}
    {action : MaintenanceAction Facts} {event : MaintenanceEvent Facts}
    (step : handleStep state action = some (event, next))
    : MaintenanceMove state event next := by
  cases action with
  | request trigger confirmation source =>
      simp only [handleStep, Control.requestWithSource] at step
      by_cases failed : state.control.snapshot.liveness = .failed
      · simp only [failed, if_true, Option.some.injEq, Prod.mk.injEq] at step
        obtain ⟨rfl, rfl⟩ := step
        exact .refused
      cases stopping : state.control.stopping with
      | true =>
          simp only [failed, stopping, if_true, if_false, Option.some.injEq,
            Prod.mk.injEq] at step
          obtain ⟨rfl, rfl⟩ := step
          exact .refused
      | false =>
          cases unbound : state.control.unbound confirmation with
          | true =>
              simp only [failed, stopping, unbound, if_true, if_false, Bool.false_eq_true,
                Option.some.injEq, Prod.mk.injEq] at step
              obtain ⟨rfl, rfl⟩ := step
              exact .refused
          | false =>
              simp only [failed, stopping, unbound, if_false, Bool.false_eq_true,
                Option.some.injEq, Prod.mk.injEq] at step
              obtain ⟨rfl, rfl⟩ := step
              exact .requested ⟨failed, stopping, Control.unbound_eq_false unbound⟩
  | requestAndWait trigger confirmation source =>
      simp only [handleStep, Control.requestAndWait] at step
      by_cases rejected
          : (state.control.stopping || state.control.snapshot.liveness = .failed
              || state.control.unbound confirmation) = true
      · simp only [rejected, if_true, Option.some.injEq, Prod.mk.injEq] at step
        obtain ⟨rfl, rfl⟩ := step
        exact .refused
      · rw [if_neg rejected] at step
        obtain ⟨rfl, rfl⟩ := step
        simp only [Bool.or_eq_true, decide_eq_true_eq, not_or,
          Bool.not_eq_true] at rejected
        exact .awaited ⟨rejected.1.2, rejected.1.1, Control.unbound_eq_false rejected.2⟩
  | resume index =>
      simp only [handleStep] at step
      split at step
      · next waiter found =>
          split at step
          · next answered =>
              simp only [Option.some.injEq, Prod.mk.injEq] at step
              obtain ⟨rfl, rfl⟩ := step
              exact .returned found answered
          · simp at step
      · simp at step
  | beginSourceCapture =>
      simp only [handleStep, Control.beginSourceCapture] at step
      by_cases rejected
          : (state.control.stopping || state.control.snapshot.liveness = .failed
              || state.control.snapshot.running || state.control.sourcePayloadsParked
              || state.control.claimedSource.isSome || state.control.capturingSource) = true
      · simp only [rejected, if_true, Option.some.injEq, Prod.mk.injEq] at step
        obtain ⟨rfl, rfl⟩ := step
        exact .refused
      · rw [if_neg rejected] at step
        obtain ⟨rfl, rfl⟩ := step
        simp only [Bool.or_eq_true, not_or, Bool.not_eq_true] at rejected
        exact .captured rejected.1.1.1.2
  | dropSourceCapture =>
      simp only [handleStep] at step
      split at step
      · simp only [Option.some.injEq, Prod.mk.injEq] at step
        obtain ⟨rfl, rfl⟩ := step
        exact .released
      · simp at step
  | rebind binding =>
      simp only [handleStep, Control.rebind, Option.some.injEq, Prod.mk.injEq] at step
      obtain ⟨rfl, rfl⟩ := step
      by_cases failed : state.control.snapshot.liveness = .failed
      · simp only [failed, if_true]
        exact .rebindKept (.inl rfl)
      cases stopping : state.control.stopping with
      | true =>
          simp only [failed, if_true, if_false]
          exact .rebindKept (.inl rfl)
      | false =>
          by_cases same : binding = state.control.binding
          · simp only [failed, same, if_true, if_false, Bool.false_eq_true]
            exact .rebindKept (.inr rfl)
          · simp only [failed, same, if_false, Bool.false_eq_true, checkedAdd]
            split
            · exact .rebindExhausted
            · next generation room =>
                split at room
                · obtain rfl := Option.some.inj room
                  exact .rebindReplaced same
                · simp at room
  | requestStop =>
      simp only [handleStep, Option.some.injEq, Prod.mk.injEq] at step
      obtain ⟨rfl, rfl⟩ := step
      exact .stopRequested
  | _ => simp [handleStep] at step

/-- The gate hands out a token only for the demand its attempt prepared for. -/
theorem gate_cases {control next : Control Facts} {attempt : Attempt}
    {prepared : Option (Nat × Option Facts)} {requiresConfirmation : Bool}
    {outcome : Option (Option (LegacyQuiescenceConfirmation Facts))}
    (gate : control.gate attempt prepared requiresConfirmation = (outcome, next))
    : (next = control ∧ (outcome = none ∨ outcome = some none))
      ∨ (requiresConfirmation = true
          ∧ control.stopping = false
          ∧ control.generation = attempt.generation
          ∧ control.binding = attempt.binding
          ∧ control.confirmation = true
          ∧ prepared = some (attempt.generation, control.confirmationSource)
          ∧ outcome
            = some (some ⟨attempt.binding, attempt.generation, control.confirmationSource⟩)
          ∧ next
            = {
                control with
                confirmation := false,
                claimedSource := control.confirmationSource,
                confirmationSource := none
              }) := by
  cases confirmation : control.confirmation with
  | false =>
      simp only [Control.gate, confirmation, Bool.false_eq_true, if_false, ite_self] at gate
      split at gate
      · obtain ⟨rfl, rfl⟩ := Prod.mk.inj gate
        exact .inl ⟨rfl, .inl rfl⟩
      · obtain ⟨rfl, rfl⟩ := Prod.mk.inj gate
        exact .inl ⟨rfl, .inr rfl⟩
  | true =>
      simp only [Control.gate, confirmation, if_true] at gate
      split at gate
      · obtain ⟨rfl, rfl⟩ := Prod.mk.inj gate
        exact .inl ⟨rfl, .inl rfl⟩
      next allowed =>
        split at gate
        · next wanted =>
            obtain ⟨rfl, rfl⟩ := Prod.mk.inj gate
            obtain ⟨required, -⟩ := Bool.and_eq_true_iff.mp wanted
            simp only [required, Bool.or_eq_true, bne_iff_ne, ne_eq, Bool.true_and, not_or,
              Bool.not_eq_true, not_not] at allowed
            obtain ⟨⟨⟨live, generation⟩, binding⟩, current⟩ := allowed
            exact .inr ⟨required, live, generation, binding, rfl, current.symm, rfl, rfl⟩
        · obtain ⟨rfl, rfl⟩ := Prod.mk.inj gate
          exact .inl ⟨rfl, .inr rfl⟩

theorem pollStep_move {state next : MaintenanceState Facts} {now : Nat}
    {event : MaintenanceEvent Facts} (waiting : state.stage = .waiting)
    (step : pollStep state now = some (event, next))
    : MaintenanceMove state event next := by
  simp only [pollStep] at step
  split at step
  · simp only [Option.some.injEq, Prod.mk.injEq] at step
    obtain ⟨rfl, rfl⟩ := step
    exact .leftLoop waiting
  next live =>
    split at step
    · simp at step
    · simp only [MaintenanceScheduler.begin] at step
      by_cases early : now < state.control.scheduler.nextDue
      · simp [early] at step
      · simp only [early, if_false, Option.some.injEq, Prod.mk.injEq] at step
        obtain ⟨rfl, rfl⟩ := step
        exact .begun waiting (by simpa using live) (Nat.le_of_not_lt early)

theorem workerStep_move {state next : MaintenanceState Facts}
    {action : MaintenanceAction Facts} {event : MaintenanceEvent Facts}
    (step : workerStep state action = some (event, next))
    : MaintenanceMove state event next := by
  cases action with
  | create result =>
      cases stage : state.stage with
      | creating =>
          cases result with
          | error error =>
              simp only [workerStep, stage, Option.some.injEq, Prod.mk.injEq] at step
              obtain ⟨rfl, rfl⟩ := step
              exact .advanced ⟨.inl rfl, .inl rfl, rfl⟩
          | ok =>
              simp only [workerStep, stage, Option.some.injEq, Prod.mk.injEq] at step
              obtain ⟨rfl, rfl⟩ := step
              exact .advanced ⟨.inl rfl, .inl rfl, rfl⟩
      | _ => cases result <;> simp [workerStep, stage] at step
  | poll now =>
      cases stage : state.stage with
      | waiting =>
          simp only [workerStep, stage] at step
          exact pollStep_move stage step
      | _ => simp [workerStep, stage] at step
  | observe =>
      cases stage : state.stage with
      | begun attempt =>
          simp only [workerStep, stage, Option.some.injEq, Prod.mk.injEq] at step
          obtain ⟨rfl, rfl⟩ := step
          exact .observed stage
      | _ => simp [workerStep, stage] at step
  | prepare result =>
      cases stage : state.stage with
      | preparing attempt prepared =>
          rcases result with error | none | required
          · simp only [workerStep, stage, Option.some.injEq, Prod.mk.injEq] at step
            obtain ⟨rfl, rfl⟩ := step
            exact .advanced (by rw [stage]; exact ⟨.inr rfl, .inl rfl, rfl⟩)
          · simp only [workerStep, stage, Option.some.injEq, Prod.mk.injEq] at step
            obtain ⟨rfl, rfl⟩ := step
            exact .advanced (by rw [stage]; exact ⟨.inr rfl, .inl rfl, rfl⟩)
          · simp only [workerStep, stage, Option.some.injEq, Prod.mk.injEq] at step
            obtain ⟨rfl, rfl⟩ := step
            exact .advanced (by rw [stage]; exact ⟨.inr rfl, .inr rfl, rfl⟩)
      | _ => rcases result with _ | _ | _ <;> simp [workerStep, stage] at step
  | resolve =>
      cases stage : state.stage with
      | unprepared attempt outcome =>
          simp only [workerStep, stage, Option.some.injEq, Prod.mk.injEq] at step
          obtain ⟨rfl, rfl⟩ := step
          exact .advanced (by rw [stage]; exact ⟨.inr rfl, .inl rfl, rfl⟩)
      | _ => simp [workerStep, stage] at step
  | admission permit =>
      cases stage : state.stage with
      | admitting attempt prepared required =>
          cases permit with
          | true =>
              simp only [workerStep, stage, if_true, Option.some.injEq, Prod.mk.injEq] at step
              obtain ⟨rfl, rfl⟩ := step
              exact .advanced (by rw [stage]; exact ⟨.inr rfl, .inr rfl, rfl⟩)
          | false =>
              simp only [workerStep, stage, if_false, Bool.false_eq_true, Option.some.injEq,
                Prod.mk.injEq] at step
              obtain ⟨rfl, rfl⟩ := step
              exact .advanced (by rw [stage]; exact ⟨.inr rfl, .inl rfl, rfl⟩)
      | _ => simp [workerStep, stage] at step
  | gate =>
      cases stage : state.stage with
      | gating attempt prepared required =>
          simp only [workerStep, stage] at step
          generalize taken : state.control.gate attempt prepared required = result at step
          obtain ⟨outcome, control⟩ := result
          rcases gate_cases taken with ⟨rfl, rfl | rfl⟩ | claim
          · simp only [Option.some.injEq, Prod.mk.injEq] at step
            obtain ⟨rfl, rfl⟩ := step
            exact .passed (by rw [stage]; exact ⟨.inr rfl, .inl rfl, rfl⟩)
          · simp only [Option.some.injEq, Prod.mk.injEq] at step
            obtain ⟨rfl, rfl⟩ := step
            exact .passed (by rw [stage]; exact ⟨.inr rfl, .inl rfl, rfl⟩)
          · obtain ⟨rfl, live, generation, binding, confirmation, current, rfl, rfl⟩ := claim
            simp only [Option.some.injEq, Prod.mk.injEq] at step
            obtain ⟨rfl, rfl⟩ := step
            exact .claimed stage live generation binding confirmation current
      | _ => simp [workerStep, stage] at step
  | grant valid =>
      cases stage : state.stage with
      | granting attempt token =>
          cases valid with
          | true =>
              simp only [workerStep, stage, if_true, Option.some.injEq, Prod.mk.injEq] at step
              obtain ⟨rfl, rfl⟩ := step
              exact .mutated stage
          | false =>
              simp only [workerStep, stage, if_false, Bool.false_eq_true, Option.some.injEq,
                Prod.mk.injEq] at step
              obtain ⟨rfl, rfl⟩ := step
              exact .advanced (by rw [stage]; exact ⟨.inr rfl, .inl rfl, rfl⟩)
      | _ => simp [workerStep, stage] at step
  | mutate result =>
      cases stage : state.stage with
      | mutating attempt =>
          simp only [workerStep, stage, Option.some.injEq, Prod.mk.injEq] at step
          obtain ⟨rfl, rfl⟩ := step
          exact .advanced (by rw [stage]; exact ⟨.inr rfl, .inl rfl, rfl⟩)
      | _ => simp [workerStep, stage] at step
  | release =>
      cases stage : state.stage with
      | releasing attempt outcome panicked =>
          simp only [workerStep, stage, Option.some.injEq, Prod.mk.injEq] at step
          obtain ⟨rfl, rfl⟩ := step
          refine .unclaimed ?_
          rw [stage]
          cases panicked with
          | true => exact ⟨.inr rfl, .inl rfl, rfl⟩
          | false => exact ⟨.inr rfl, .inl rfl, rfl⟩
      | _ => simp [workerStep, stage] at step
  | finish result =>
      cases stage : state.stage with
      | finishing attempt outcome =>
          simp only [workerStep, stage, Option.some.injEq, Prod.mk.injEq] at step
          obtain ⟨rfl, rfl⟩ := step
          refine .advanced ?_
          rw [stage]
          split
          · exact ⟨.inr rfl, .inl rfl, rfl⟩
          · exact ⟨.inr rfl, .inl rfl, rfl⟩
      | _ => simp [workerStep, stage] at step
  | settle result =>
      cases stage : state.stage with
      | settling attempt outcome =>
          simp only [workerStep, stage, Option.some.injEq, Prod.mk.injEq] at step
          obtain ⟨rfl, rfl⟩ := step
          exact .advanced (by rw [stage]; exact ⟨.inr rfl, .inl rfl, rfl⟩)
      | _ => simp [workerStep, stage] at step
  | complete now desired parked =>
      cases stage : state.stage with
      | completing attempt outcome panicked =>
          simp only [workerStep, stage, Option.some.injEq, Prod.mk.injEq] at step
          obtain ⟨rfl, rfl⟩ := step
          exact .completed now desired parked stage
      | _ => simp [workerStep, stage] at step
  | unwind =>
      simp only [workerStep] at step
      split at step
      · simp only [Option.some.injEq, Prod.mk.injEq] at step
        obtain ⟨rfl, rfl⟩ := step
        exact .advanced ⟨.inl rfl, .inl rfl, rfl⟩
      · simp at step
  | fail =>
      cases stage : state.stage with
      | failing error =>
          simp only [workerStep, stage, Option.some.injEq, Prod.mk.injEq] at step
          obtain ⟨rfl, rfl⟩ := step
          exact .workerFailed error stage
      | _ => simp [workerStep, stage] at step
  | exit panicking =>
      cases stage : state.stage with
      | disposing =>
          simp only [workerStep, stage, Option.some.injEq, Prod.mk.injEq] at step
          obtain ⟨rfl, rfl⟩ := step
          exact .exited panicking stage
      | _ => simp [workerStep, stage] at step
  | _ => simp [workerStep] at step

/-- One step of the maintenance driver is one of its moves. -/
theorem maintenanceStep_move {state next : MaintenanceState Facts}
    {action : MaintenanceAction Facts} {event : MaintenanceEvent Facts}
    (step : maintenanceStep state action = some (event, next))
    : MaintenanceMove state event next := by
  simp only [maintenanceStep] at step
  split at step
  · exact handleStep_move step
  · exact workerStep_move step

end CodebaseGraph.Maintenance
