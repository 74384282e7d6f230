import CodebaseGraph.Maintenance.History

/-! The cooldown between the attempts of the maintenance driver. The steps are those of the
untimed model; what the clock shows is read along.
-/

namespace CodebaseGraph.Maintenance

open CodebaseGraph.Transition

variable {Facts : Type*}

-- Steps with a clock

/-- What `origin.elapsed()` shows in the step, when it asks for it. -/
def MaintenanceAction.reading? : MaintenanceAction Facts → Option Nat
  | .poll now | .complete now _ _ => some now
  | _ => none

structure ClockedState (Facts : Type*) where
  state : MaintenanceState Facts
  now : Nat := 0

/-- A clock that never goes back and never shows the longest duration of all. -/
def ClockedState.allows (clocked : ClockedState Facts) (reading : Nat) : Bool :=
  clocked.now ≤ reading && reading < durationMax

variable [DecidableEq Facts]

/-- A step under a monotonic clock; its event comes with the last reading. -/
def clockedStep
    : StepFn (ClockedState Facts) (MaintenanceAction Facts) (MaintenanceEvent Facts × Nat) :=
  fun clocked action =>
    let now := action.reading?.getD clocked.now
    if action.reading?.all clocked.allows then
      match maintenanceStep clocked.state action with
      | some (event, next) => some ((event, now), { state := next, now })
      | none => none
    else none

/-- The driver before its worker has done anything. -/
def ClockedState.start (binding : TargetBinding) (interval : Nat) (initialConfirmation : Bool)
    (initialSource : Option Facts)
    : ClockedState Facts where
  state := MaintenanceState.start binding interval initialConfirmation initialSource

theorem clockedStep_eq_some {clocked last : ClockedState Facts}
    {action : MaintenanceAction Facts} {stamped : MaintenanceEvent Facts × Nat}
    (step : clockedStep clocked action = some (stamped, last))
    : maintenanceStep clocked.state action = some (stamped.1, last.state)
      ∧ stamped.2 = last.now
      ∧ clocked.now ≤ last.now
      ∧ ∀ reading, action.reading? = some reading → last.now = reading ∧ reading < durationMax := by
  unfold clockedStep at step
  split at step
  · next allowed =>
      split at step
      · next event next taken =>
          obtain ⟨rfl, rfl⟩ := Prod.mk.inj (Option.some.inj step)
          refine ⟨taken, rfl, ?_, ?_⟩
          · cases read : action.reading? with
            | none => simp
            | some reading =>
                rw [read] at allowed
                simp only [Option.all_some, ClockedState.allows, Bool.and_eq_true,
                  decide_eq_true_eq] at allowed
                exact allowed.1
          · intro reading read
            rw [read] at allowed
            simp only [Option.all_some, ClockedState.allows, Bool.and_eq_true,
              decide_eq_true_eq] at allowed
            exact ⟨by simp [read], allowed.2⟩
      · cases step
  · cases step

/-- A duration after a reading that the clock can still show. -/
theorem add_le_of_durationAdd_le {time interval now : Nat} (shown : now < durationMax)
    (due : durationAdd time interval ≤ now)
    : time + interval ≤ now := by
  unfold durationAdd at due
  omega

-----------------------------------------------------------------------------------------
-- What a step does to the cooldown
-----------------------------------------------------------------------------------------

/-- Whether the worker will begin no attempt any more. -/
def WorkerStage.ending : WorkerStage Facts → Bool
  | .failing _ | .disposing | .ended => true
  | _ => false

/-- A running attempt goes on, is completed, or ends the worker. -/
theorem workerStep_running {state next : MaintenanceState Facts}
    {action : MaintenanceAction Facts} {event : MaintenanceEvent Facts} {attempt : Attempt}
    (step : workerStep state action = some (event, next))
    (running : state.stage.attempt? = some attempt)
    : (∃ outcome completion, event = .completed attempt outcome completion)
      ∨ next.stage.attempt? = some attempt
      ∨ next.stage.ending = true := by
  fun_cases workerStep state action
  all_goals
    first
    | (simp_all [workerStep, WorkerStage.attempt?]; done)
    | (simp_all only [workerStep, WorkerStage.attempt?, Option.some.injEq, Prod.mk.injEq]
       obtain ⟨rfl, rfl⟩ := step
       simp_all [WorkerStage.ending])
  all_goals split_ifs <;> simp

/-- A worker that ends does not begin. -/
theorem workerStep_ending {state next : MaintenanceState Facts}
    {action : MaintenanceAction Facts} {event : MaintenanceEvent Facts}
    (step : workerStep state action = some (event, next)) (ending : state.stage.ending = true)
    : event.isBegun = false ∧ next.stage.ending = true := by
  fun_cases workerStep state action
  all_goals
    first
    | (simp_all [workerStep, WorkerStage.ending]; done)
    | (simp_all only [workerStep, WorkerStage.ending, Option.some.injEq, Prod.mk.injEq]
       obtain ⟨rfl, rfl⟩ := step
       exact ⟨rfl, rfl⟩)

omit [DecidableEq Facts] in
/-- The calls of the handle do not touch the worker, and neither begin nor complete. -/
theorem handleStep_stage {state next : MaintenanceState Facts}
    {action : MaintenanceAction Facts} {event : MaintenanceEvent Facts}
    (step : handleStep state action = some (event, next))
    : next.stage = state.stage
      ∧ event.isBegun = false
      ∧ ∀ attempt outcome completion, event ≠ .completed attempt outcome completion := by
  fun_cases handleStep state action
  all_goals
    simp_all only [handleStep, Option.some.injEq, Prod.mk.injEq, reduceCtorEq, if_true, if_false]
  all_goals
    obtain ⟨rfl, rfl⟩ := step
    exact ⟨by first | rfl | trivial, rfl, by simp⟩

/-- What a step besides a begin and a completion keeps of the clock. -/
structure ClockKept (control next : Control Facts) : Prop where
  nextDue : next.scheduler.nextDue = control.scheduler.nextDue
  generation : control.generation ≤ next.generation

theorem MaintenanceMove.clockKept {state next : MaintenanceState Facts}
    {event : MaintenanceEvent Facts} (move : MaintenanceMove state event next)
    (begun : event.isBegun = false)
    (completed : ∀ attempt outcome completion, event ≠ .completed attempt outcome completion)
    : ClockKept state.control next.control := by
  cases move with
  | begun => simp [MaintenanceEvent.isBegun] at begun
  | completed => exact absurd rfl (completed _ _ _)
  | rebindReplaced other => exact ⟨rfl, Nat.le_succ _⟩
  | _ => exact ⟨rfl, Nat.le_refl _⟩

theorem MaintenanceMove.interval {state next : MaintenanceState Facts}
    {event : MaintenanceEvent Facts} (move : MaintenanceMove state event next)
    : next.control.scheduler.interval = state.control.scheduler.interval := by
  cases move with
  | @completed attempt outcome panicked now desired parked stage =>
      simp only [Control.complete]
      rcases handoff_cases (state.control.publish attempt outcome now parked) attempt desired now
        with same | ⟨binding, same⟩ | same
      · rw [same]
        rfl
      · rw [same]
        rfl
      · rw [same]
        rfl
  | _ => rfl

omit [DecidableEq Facts] in
/-- The end of an attempt starts the cooldown, unless it hands over to a new generation. -/
theorem Control.complete_clock (control : Control Facts) (attempt : Attempt)
    (outcome : AttemptOutcome) (now : Nat) (desired : Option TargetBinding) (parked : Bool)
    : control.generation ≤ (control.complete attempt outcome now desired parked).2.generation
      ∧ ((control.complete attempt outcome now desired parked).1.handoff = .replaced
            ∧ control.generation
              < (control.complete attempt outcome now desired parked).2.generation
          ∨ (control.complete attempt outcome now desired parked).2.scheduler.nextDue
            = durationAdd now control.scheduler.interval) := by
  simp only [Control.complete]
  rcases handoff_cases (control.publish attempt outcome now parked) attempt desired now
    with same | ⟨binding, same⟩ | same
  · rw [same]
    exact ⟨Nat.le_refl _, Or.inr rfl⟩
  · rw [same]
    exact ⟨Nat.le_succ _, Or.inl ⟨rfl, Nat.lt_succ_self _⟩⟩
  · rw [same]
    exact ⟨Nat.le_refl _, Or.inr rfl⟩

/-- A begin reads the clock, in no attempt and when the cooldown is over. -/
theorem maintenanceStep_begun {state next : MaintenanceState Facts}
    {action : MaintenanceAction Facts} {attempt : Attempt}
    (step : maintenanceStep state action = some (.begun attempt, next))
    : ∃ now,
        action = .poll now
        ∧ state.stage = .waiting
        ∧ state.control.scheduler.nextDue ≤ now
        ∧ attempt.generation = state.control.generation
        ∧ next.stage = .begun attempt
        ∧ next.control.generation = state.control.generation := by
  simp only [maintenanceStep] at step
  split at step
  · exact absurd (handleStep_stage step).2.1 (by simp [MaintenanceEvent.isBegun])
  · fun_cases workerStep state action
    case case3 now stage worker =>
      simp only [workerStep, stage, pollStep, MaintenanceScheduler.begin] at step
      split at step
      · simp at step
      · split at step
        · simp at step
        · split at step
          · simp at step
          · next due =>
              split at due
              · cases due
              · next reached =>
                  obtain ⟨begins, rfl⟩ := Prod.mk.inj (Option.some.inj step)
                  obtain ⟨-, rfl⟩ := Prod.mk.inj (Option.some.inj due)
                  obtain rfl := MaintenanceEvent.begun.inj begins
                  exact ⟨now, rfl, stage, Nat.le_of_not_lt reached, rfl, rfl, rfl⟩
    all_goals simp_all [workerStep]

theorem maintenanceStep_completed {state next : MaintenanceState Facts}
    {action : MaintenanceAction Facts} {attempt : Attempt} {outcome : AttemptOutcome}
    {completion : Completion}
    (step : maintenanceStep state action = some (.completed attempt outcome completion, next))
    : ∃ now desired parked panicked,
        action = .complete now desired parked
        ∧ state.stage = .completing attempt outcome panicked
        ∧ (completion, next.control) = state.control.complete attempt outcome now desired parked
        ∧ next.stage.attempt? = none := by
  simp only [maintenanceStep] at step
  split at step
  · exact absurd rfl ((handleStep_stage step).2.2 attempt outcome completion)
  · fun_cases workerStep state action
    case case3 now stage worker =>
      simp only [workerStep, stage, pollStep] at step
      split_ifs at step
      · simp at step
      · split at step <;> simp at step
    case case20 now desired parked attempt' outcome' panicked stage completion' control' done worker =>
      simp only [workerStep, stage, done, Option.some.injEq, Prod.mk.injEq,
        MaintenanceEvent.completed.injEq] at step
      obtain ⟨⟨rfl, rfl, rfl⟩, rfl⟩ := step
      refine ⟨now, desired, parked, panicked, rfl, stage, done.symm, ?_⟩
      cases panicked <;> rfl
    all_goals simp_all [workerStep]

-----------------------------------------------------------------------------------------
-- Between two begins
-----------------------------------------------------------------------------------------

/-- Where the driver stands after it has begun an attempt and no other one since: the attempt is
running, the worker is ending, or the attempt is completed and its cooldown has been set.
-/
def Cooling (interval : Nat) (first : Attempt) (time : Nat)
    (mid : List (MaintenanceEvent Facts × Nat)) (state : MaintenanceState Facts)
    : Prop :=
  first.generation ≤ state.control.generation
  ∧ (state.stage.attempt? = some first
    ∨ state.stage.ending = true
    ∨ (state.stage.attempt? = none
      ∧ ∃ outcome completion completed,
          (.completed first outcome completion, completed) ∈ mid
          ∧ time ≤ completed
          ∧ (completion.handoff = .replaced ∧ first.generation < state.control.generation
            ∨ durationAdd completed interval ≤ state.control.scheduler.nextDue)))

/-- How the clock and the due time reflect the history. -/
structure Paced (interval : Nat) (trace : List (MaintenanceEvent Facts × Nat))
    (clocked : ClockedState Facts)
    : Prop where
  kept : clocked.state.control.scheduler.interval = interval
  shown : ∀ stamped ∈ trace, stamped.2 ≤ clocked.now
  cooling
    : ∀ before first time mid,
        trace = before ++ (.begun first, time) :: mid
        → (∀ stamped ∈ mid, stamped.1.isBegun = false)
        → Cooling interval first time mid clocked.state

/-- The attempt that was begun last is completed. -/
theorem Cooling.completed {interval time : Nat} {first attempt : Attempt}
    {mid : List (MaintenanceEvent Facts × Nat)} {clocked last : ClockedState Facts}
    {action : MaintenanceAction Facts} {outcome : AttemptOutcome} {completion : Completion}
    {completed : Nat} (cooling : Cooling interval first time mid clocked.state)
    (kept : clocked.state.control.scheduler.interval = interval) (shown : time ≤ clocked.now)
    (step
      : clockedStep clocked action
        = some ((.completed attempt outcome completion, completed), last))
    : Cooling interval first time (mid ++ [(.completed attempt outcome completion, completed)])
        last.state := by
  obtain ⟨taken, stamp, later, read⟩ := clockedStep_eq_some step
  obtain ⟨now, desired, parked, panicked, rfl, stage, control, ended⟩ :=
    maintenanceStep_completed taken
  obtain ⟨earlier, running | ending | ⟨idle, -⟩⟩ := cooling
  · obtain rfl : attempt = first := by simpa [stage, WorkerStage.attempt?] using running
    obtain ⟨generation, due⟩ :=
      Control.complete_clock clocked.state.control attempt outcome now desired parked
    rw [← control] at generation due
    have reading : completed = now := stamp.trans (read now rfl).1
    refine ⟨earlier.trans generation, Or.inr (Or.inr ⟨ended, outcome, completion, completed, ?_,
      ?_, ?_⟩)⟩
    · exact List.mem_append_right _ (List.mem_singleton.mpr rfl)
    · exact shown.trans (later.trans stamp.symm.le)
    · rcases due with ⟨replaced, newer⟩ | due
      · exact Or.inl ⟨replaced, Nat.lt_of_le_of_lt earlier newer⟩
      · exact Or.inr (by rw [due, kept, reading])
  · simp [stage, WorkerStage.ending] at ending
  · simp [stage, WorkerStage.attempt?] at idle

/-- A step that begins nothing, after the begin of an attempt. -/
theorem Cooling.step {interval time : Nat} {first : Attempt}
    {mid : List (MaintenanceEvent Facts × Nat)} {clocked last : ClockedState Facts}
    {action : MaintenanceAction Facts} {stamped : MaintenanceEvent Facts × Nat}
    (cooling : Cooling interval first time mid clocked.state)
    (kept : clocked.state.control.scheduler.interval = interval) (shown : time ≤ clocked.now)
    (step : clockedStep clocked action = some (stamped, last))
    (quiet : stamped.1.isBegun = false)
    : Cooling interval first time (mid ++ [stamped]) last.state := by
  obtain ⟨event, stamp⟩ := stamped
  by_cases ends : ∃ attempt outcome completion, event = .completed attempt outcome completion
  · obtain ⟨attempt, outcome, completion, rfl⟩ := ends
    exact cooling.completed kept shown step
  · have other (attempt : Attempt) (outcome : AttemptOutcome) (completion : Completion)
        : event ≠ .completed attempt outcome completion :=
      fun same => ends ⟨attempt, outcome, completion, same⟩
    have taken := (clockedStep_eq_some step).1
    have move := maintenanceStep_move taken
    have clock := move.clockKept quiet other
    simp only [maintenanceStep] at taken
    refine ⟨cooling.1.trans clock.generation, ?_⟩
    rcases cooling.2 with running | ending | ⟨idle, outcome, completion, completed, listed, after,
      due⟩
    · split at taken
      · exact Or.inl ((handleStep_stage taken).1 ▸ running)
      · rcases workerStep_running taken running with ⟨outcome, completion, same⟩ | goes | stops
        · exact absurd same (other _ _ _)
        · exact Or.inl goes
        · exact Or.inr (Or.inl stops)
    · split at taken
      · exact Or.inr (Or.inl ((handleStep_stage taken).1 ▸ ending))
      · exact Or.inr (Or.inl (workerStep_ending taken ending).2)
    · refine Or.inr (Or.inr ⟨?_, outcome, completion, completed, List.mem_append_left _ listed,
        after, ?_⟩)
      · cases running : last.state.stage.attempt? with
        | none => rfl
        | some attempt =>
            rcases move.attempt? running with ⟨-, was⟩ | ⟨rfl, -⟩
            · rw [idle] at was
              cases was
            · cases quiet
      · rcases due with ⟨replaced, newer⟩ | due
        · exact Or.inl ⟨replaced, Nat.lt_of_lt_of_le newer clock.generation⟩
        · exact Or.inr (clock.nextDue ▸ due)

theorem Paced.step {interval : Nat} {trace : List (MaintenanceEvent Facts × Nat)}
    {clocked last : ClockedState Facts} {action : MaintenanceAction Facts}
    {stamped : MaintenanceEvent Facts × Nat} (paced : Paced interval trace clocked)
    (step : clockedStep clocked action = some (stamped, last))
    : Paced interval (trace ++ [stamped]) last := by
  obtain ⟨taken, stamp, later, -⟩ := clockedStep_eq_some step
  refine ⟨(maintenanceStep_move taken).interval.trans paced.kept, ?_, ?_⟩
  · intro other listed
    rcases List.mem_append.mp listed with old | new
    · exact (paced.shown other old).trans later
    · rw [List.mem_singleton.mp new]
      exact stamp.le
  · intro before first time mid whole quiet
    rcases List.eq_nil_or_concat mid with rfl | ⟨init, tail, rfl⟩
    · obtain ⟨-, same⟩ := List.append_inj' whole rfl
      obtain rfl := List.singleton_inj.mp same
      obtain ⟨now, -, -, -, generation, stage, same⟩ := maintenanceStep_begun taken
      rw [← same] at generation
      exact ⟨generation.le, Or.inl (by rw [stage]; rfl)⟩
    · rw [List.concat_eq_append] at whole quiet ⊢
      rw [← List.cons_append, ← List.append_assoc] at whole
      obtain ⟨rfl, same⟩ := List.append_inj' whole rfl
      obtain rfl := List.singleton_inj.mp same
      have before_quiet : ∀ other ∈ init, other.1.isBegun = false :=
        fun other listed => quiet other (List.mem_append_left _ listed)
      exact (paced.cooling before first time init rfl before_quiet).step paced.kept
        (paced.shown _ (List.mem_append_right _ (List.mem_cons_self ..))) step
        (quiet stamped (List.mem_append_right _ (List.mem_singleton.mpr rfl)))

theorem paced_of_run {binding : TargetBinding} {interval : Nat} {initialConfirmation : Bool}
    {initialSource : Option Facts} {trace : List (MaintenanceEvent Facts × Nat)}
    {clocked : ClockedState Facts}
    (run
      : Run clockedStep
          (ClockedState.start binding interval initialConfirmation initialSource) trace clocked)
    : Paced interval trace clocked := by
  refine run.history_induction ⟨rfl, ?_, ?_⟩ (fun _ paced step => paced.step step)
  · intro stamped listed
    cases listed
  · intro before first time mid whole
    cases before <;> cases whole

/-- Without its readings a run is one of the untimed driver. -/
theorem untimed_of_run {start last : ClockedState Facts}
    {trace : List (MaintenanceEvent Facts × Nat)} (run : Run clockedStep start trace last)
    : Run maintenanceStep start.state (trace.map Prod.fst) last.state := by
  induction run with
  | nil => exact .nil
  | snoc run action next ih =>
      rw [List.map_append]
      exact ih.snoc action (clockedStep_eq_some next).1

/-- A begin after another one, and the completion between them. -/
theorem Paced.begun {interval time : Nat} {trace mid : List (MaintenanceEvent Facts × Nat)}
    {before : List (MaintenanceEvent Facts × Nat)} {first second : Attempt} {again : Nat}
    {clocked last : ClockedState Facts} {action : MaintenanceAction Facts}
    (paced : Paced interval trace clocked)
    (step : clockedStep clocked action = some ((.begun second, again), last))
    (whole : trace = before ++ (.begun first, time) :: mid)
    (quiet : ∀ stamped ∈ mid, stamped.1.isBegun = false)
    : ∃ outcome completion completed,
        (.completed first outcome completion, completed) ∈ mid
        ∧ (first.generation = second.generation ∨ completion.handoff ≠ .replaced
          → completed + interval ≤ again ∧ time + interval ≤ again) := by
  obtain ⟨taken, stamp, -, read⟩ := clockedStep_eq_some step
  obtain ⟨now, rfl, waiting, reached, generation, -, -⟩ := maintenanceStep_begun taken
  obtain ⟨shown, below⟩ := read now rfl
  have reading : again = now := stamp.trans shown
  rcases (paced.cooling before first time mid whole quiet).2 with
    running | ending | ⟨-, outcome, completion, completed, listed, after, due⟩
  · simp [waiting, WorkerStage.attempt?] at running
  · simp [waiting, WorkerStage.ending] at ending
  · refine ⟨outcome, completion, completed, listed, fun bound => ?_⟩
    have cooled : durationAdd completed interval ≤ now := by
      rcases due with ⟨replaced, newer⟩ | due
      · rcases bound with same | kept
        · rw [same, generation] at newer
          exact absurd newer (Nat.lt_irrefl _)
        · exact absurd replaced kept
      · exact due.trans reached
    have pause := add_le_of_durationAdd_le below cooled
    omega

/-- The calls of the handle leave the due time alone. Between two begins the first attempt is
completed, and when its completion did not hand over to another binding, the second begin comes
the interval after it, and after the first begin. What is requested between two begins, or before
the first one, is in the trigger set of the next. Witness: `attempts_paced_twice`.
-/
theorem attempts_paced {binding : TargetBinding} {interval : Nat} {initialConfirmation : Bool}
    {initialSource : Option Facts} {trace : List (MaintenanceEvent Facts × Nat)}
    {clocked : ClockedState Facts}
    (run
      : Run clockedStep
          (ClockedState.start binding interval initialConfirmation initialSource) trace clocked)
    : (∀ action stamped next,
          action.byHandle = true
          → clockedStep clocked action = some (stamped, next)
          → next.state.control.scheduler.nextDue = clocked.state.control.scheduler.nextDue)
      ∧ (∀ before mid after first time second again,
          trace = before ++ (.begun first, time) :: (mid ++ (.begun second, again) :: after)
          → (∀ stamped ∈ mid, stamped.1.isBegun = false)
          → ∃ outcome completion completed,
              (.completed first outcome completion, completed) ∈ mid
              ∧ (first.generation = second.generation ∨ completion.handoff ≠ .replaced
                → completed + interval ≤ again ∧ time + interval ≤ again))
      ∧ (∀ before mid after event time second again trigger,
          trace = before ++ (event, time) :: (mid ++ (.begun second, again) :: after)
          → (∀ stamped ∈ mid, stamped.1.isBegun = false)
          → event.isBegun = false
          → event.records trigger = true
          → second.triggers.testBit trigger.index = true) := by
  refine ⟨?_, ?_, ?_⟩
  · intro action stamped next handle step
    have taken := (clockedStep_eq_some step).1
    have move := maintenanceStep_move taken
    simp only [maintenanceStep, handle, if_true] at taken
    obtain ⟨-, quiet, other⟩ := handleStep_stage taken
    exact (move.clockKept quiet other).nextDue
  · rintro before mid after first time second again rfl quiet
    rw [← List.cons_append, ← List.append_assoc] at run
    obtain ⟨reached, action, next, earlier, step, -⟩ := run.split_at
    exact (paced_of_run earlier).begun step rfl quiet
  · rintro before mid after event time second again trigger rfl quiet silent recorded
    obtain ⟨start, action, next, -, step, later⟩ := run.split_at
    obtain ⟨reached, action', last, between, begins, -⟩ := later.split_at
    have pending : next.state.control.scheduler.pending.testBit trigger.index = true := by
      rw [(maintenanceStep_move (clockedStep_eq_some step).1).recordStep.pending silent, recorded,
        Bool.or_true]
    have calm : ∀ other ∈ mid.map Prod.fst, other.isBegun = false := by
      intro other listed
      obtain ⟨stamped, inside, rfl⟩ := List.mem_map.mp listed
      exact quiet stamped inside
    rw [(maintenanceStep_move (clockedStep_eq_some begins).1).begun_triggers.1,
      pending_of_run (untimed_of_run between) calm, pending, Bool.true_or]

/-- A startup attempt from 0 to 5, a request in its cooldown, and the next attempt. -/
def pacedAttempts : List (MaintenanceAction Nat) :=
  [.create (.ok ()), .poll 0, .observe, .prepare (.ok none), .resolve, .complete 5 none false,
    .request .health none none, .poll 15]

/-- Witness: under an interval of 10 the second begin reads 15. -/
theorem attempts_paced_twice
    : ∃ before mid first second clocked,
        Run clockedStep (ClockedState.start ⟨Vector.replicate 32 1⟩ 10 false (none : Option Nat))
          (before ++ (.begun first, 0) :: (mid ++ [(.begun second, 15)])) clocked
        ∧ (∃ outcome completion completed,
            (.completed first outcome completion, completed) ∈ mid
            ∧ (first.generation = second.generation ∨ completion.handoff ≠ .replaced
              → completed + 10 ≤ 15 ∧ 0 + 10 ≤ 15)) := by
  have run
      : Run clockedStep (ClockedState.start ⟨Vector.replicate 32 1⟩ 10 false (none : Option Nat))
          ([_] ++ (.begun _, 0) :: ([_, _, _, _, _] ++ [(.begun _, 15)])) _ :=
    .of_execute pacedAttempts rfl
  refine ⟨_, _, _, _, _, run, (attempts_paced run).2.1 _ _ [] _ _ _ _ rfl ?_⟩
  simp [MaintenanceEvent.isBegun]

end CodebaseGraph.Maintenance
