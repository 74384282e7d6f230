import CodebaseGraph.Maintenance.History

/-! `request_and_wait_with_source` is never answered by stale work, and no trigger is lost.
A waiting caller compares sequence numbers only; that they order requests and begins is what
the history invariant provides.
-/

namespace CodebaseGraph.Maintenance

open CodebaseGraph.Transition

variable {Facts : Type*} [DecidableEq Facts]

/-- Whether the worker is still going to begin attempts. -/
def WorkerStage.serving : WorkerStage Facts → Bool
  | .releasing _ _ panicked | .completing _ _ panicked => !panicked
  | .failing _ | .disposing | .ended => false
  | _ => true

/-- How many steps the worker needs at most to reach the head of its loop. -/
def WorkerStage.distance : WorkerStage Facts → Nat
  | .ended | .disposing | .failing _ | .waiting => 0
  | .creating | .completing .. => 1
  | .unprepared .. | .settling .. => 2
  | .finishing .. => 3
  | .releasing .. => 4
  | .mutating _ | .granting .. | .admitting .. => 5
  | .gating .. | .preparing .. => 6
  | .begun _ => 7

/-- Whether the event is one of the worker thread. -/
def MaintenanceEvent.byWorker : MaintenanceEvent Facts → Bool
  | .begun _ | .observed _ | .claimed _ | .passed | .mutated _ | .completed .. | .workerFailed
  | .exited | .internal => true
  | _ => false

/-- A worker that is free to go on and has not been stopped. -/
structure Serving (state : MaintenanceState Facts) : Prop where
  serving : state.stage.serving = true
  live : state.control.stopping = false
  free : state.control.capturingSource = false

/-- From the head of its loop a serving worker can begin an attempt. -/
theorem Serving.begins {state : MaintenanceState Facts} (holds : Serving state)
    (waiting : state.stage = .waiting)
    : ∃ attempt next,
        maintenanceStep state (.poll state.control.scheduler.nextDue)
        = some (.begun attempt, next) := by
  simp [maintenanceStep, MaintenanceAction.byHandle, workerStep, waiting, pollStep,
    holds.live, holds.free, MaintenanceScheduler.begin]

/-- A step of a serving worker that brings it closer to the head of its loop. -/
def Approach (state : MaintenanceState Facts) (action : MaintenanceAction Facts) : Prop :=
  ∃ event next,
    maintenanceStep state action = some (event, next)
    ∧ event.isBegun = false
    ∧ event.byWorker = true
    ∧ Serving next
    ∧ next.stage.distance < state.stage.distance

theorem Serving.approach_gate {state : MaintenanceState Facts} (holds : Serving state)
    {attempt : Attempt} {prepared : Option (Nat × Option Facts)} {required : Bool}
    (stage : state.stage = .gating attempt prepared required)
    : Approach state .gate := by
  generalize taken : state.control.gate attempt prepared required = result
  obtain ⟨outcome, control⟩ := result
  rcases gate_cases taken with ⟨rfl, rfl | rfl⟩ | claim
  · refine ⟨.passed, { state with stage := .releasing attempt .deferred false }, ?_, rfl, rfl,
      ⟨rfl, holds.live, holds.free⟩, ?_⟩
    · simp [maintenanceStep, MaintenanceAction.byHandle, workerStep, stage, taken]
    · simp [stage, WorkerStage.distance]
  · refine ⟨.passed, { state with stage := .granting attempt none }, ?_, rfl, rfl,
      ⟨rfl, holds.live, holds.free⟩, ?_⟩
    · simp [maintenanceStep, MaintenanceAction.byHandle, workerStep, stage, taken]
    · simp [stage, WorkerStage.distance]
  · obtain ⟨rfl, live, generation, binding, confirmation, current, rfl, rfl⟩ := claim
    let token : LegacyQuiescenceConfirmation Facts :=
      ⟨attempt.binding, attempt.generation, state.control.confirmationSource⟩
    refine ⟨.claimed token,
      {
        state with
        control :=
          {
            state.control with
            confirmation := false,
            claimedSource := state.control.confirmationSource,
            confirmationSource := none
          },
        stage := .granting attempt (some token)
      },
      ?_, rfl, rfl, ⟨rfl, live, holds.free⟩, ?_⟩
    · simp [maintenanceStep, MaintenanceAction.byHandle, workerStep, stage, taken, token]
    · simp [stage, WorkerStage.distance]

/-- In every other stage it can come one step closer. -/
theorem Serving.approaches {state : MaintenanceState Facts} (holds : Serving state)
    (away : state.stage ≠ .waiting)
    : ∃ action, Approach state action := by
  have serving := holds.serving
  have moved (action : MaintenanceAction Facts) (event : MaintenanceEvent Facts)
      (stage : WorkerStage Facts)
      (step : maintenanceStep state action = some (event, { state with stage := stage }))
      (quiet : event.isBegun = false) (own : event.byWorker = true)
      (serves : stage.serving = true) (closer : stage.distance < state.stage.distance)
      : ∃ action, Approach state action :=
    ⟨action, event, _, step, quiet, own, ⟨serves, holds.live, holds.free⟩, closer⟩
  cases stage : state.stage with
  | waiting => exact absurd stage away
  | creating =>
      exact moved (.create (.ok ())) .internal .waiting
        (by simp [maintenanceStep, MaintenanceAction.byHandle, workerStep, stage]) rfl rfl rfl
        (by simp [stage, WorkerStage.distance])
  | begun attempt =>
      exact moved .observe (.observed (state.control.legacyMetadata attempt))
        (.preparing attempt (state.control.legacyMetadata attempt))
        (by simp [maintenanceStep, MaintenanceAction.byHandle, workerStep, stage]) rfl rfl rfl
        (by simp [stage, WorkerStage.distance])
  | preparing attempt prepared =>
      exact moved (.prepare (.ok none)) .internal (.unprepared attempt .complete)
        (by simp [maintenanceStep, MaintenanceAction.byHandle, workerStep, stage]) rfl rfl rfl
        (by simp [stage, WorkerStage.distance])
  | unprepared attempt outcome =>
      exact moved .resolve .internal
        (.completing attempt
          (if state.control.isCancelled attempt then .cancelled else outcome) false)
        (by simp [maintenanceStep, MaintenanceAction.byHandle, workerStep, stage]) rfl rfl rfl
        (by simp [stage, WorkerStage.distance])
  | admitting attempt prepared required =>
      exact moved (.admission false) .internal (.releasing attempt .deferred false)
        (by simp [maintenanceStep, MaintenanceAction.byHandle, workerStep, stage]) rfl rfl rfl
        (by simp [stage, WorkerStage.distance])
  | gating attempt prepared required => exact ⟨_, holds.approach_gate stage⟩
  | granting attempt token =>
      exact moved (.grant false) .internal (.releasing attempt .deferred false)
        (by simp [maintenanceStep, MaintenanceAction.byHandle, workerStep, stage]) rfl rfl rfl
        (by simp [stage, WorkerStage.distance])
  | mutating attempt =>
      exact moved (.mutate (.returned .complete)) .internal (.releasing attempt .complete false)
        (by simp [maintenanceStep, MaintenanceAction.byHandle, workerStep, stage,
          CallbackResult.outcome])
        rfl rfl rfl (by simp [stage, WorkerStage.distance])
  | releasing attempt outcome panicked =>
      rw [stage] at serving
      obtain rfl : panicked = false := by simpa [WorkerStage.serving] using serving
      refine ⟨.release, .internal,
        {
          state with
          control := { state.control with claimedSource := none },
          stage := .finishing attempt outcome
        },
        ?_, rfl, rfl, ⟨rfl, holds.live, holds.free⟩, ?_⟩
      · simp [maintenanceStep, MaintenanceAction.byHandle, workerStep, stage]
      · simp [stage, WorkerStage.distance]
  | finishing attempt outcome =>
      exact moved (.finish (.returned .complete)) .internal (.settling attempt .complete)
        (by simp [maintenanceStep, MaintenanceAction.byHandle, workerStep, stage,
          CallbackResult.outcome])
        rfl rfl rfl (by simp [stage, WorkerStage.distance])
  | settling attempt outcome =>
      exact moved (.settle (.returned .complete)) .internal
        (.completing attempt .complete false)
        (by simp [maintenanceStep, MaintenanceAction.byHandle, workerStep, stage,
          CallbackResult.outcome])
        rfl rfl rfl (by simp [stage, WorkerStage.distance])
  | completing attempt outcome panicked =>
      rw [stage] at serving
      obtain rfl : panicked = false := by simpa [WorkerStage.serving] using serving
      refine ⟨.complete 0 none false,
        .completed attempt outcome (state.control.complete attempt outcome 0 none false).1,
        {
          state with
          control := (state.control.complete attempt outcome 0 none false).2,
          stage := .waiting
        },
        ?_, rfl, rfl, ⟨rfl, holds.live, holds.free⟩, ?_⟩
      · simp [maintenanceStep, MaintenanceAction.byHandle, workerStep, stage]
      · simp [stage, WorkerStage.distance]
  | failing error => simp [stage, WorkerStage.serving] at serving
  | disposing => simp [stage, WorkerStage.serving] at serving
  | ended => simp [stage, WorkerStage.serving] at serving

/-- A serving worker left alone reaches its next begin. -/
theorem Serving.reaches_begin {state : MaintenanceState Facts} (holds : Serving state)
    : ∃ suffix attempt last,
        Run maintenanceStep state (suffix ++ [.begun attempt]) last
        ∧ ∀ event ∈ suffix, event.isBegun = false ∧ event.byWorker = true := by
  generalize rank : state.stage.distance = distance
  induction distance using Nat.strong_induction_on generalizing state with
  | _ distance ih =>
      by_cases waiting : state.stage = .waiting
      · obtain ⟨attempt, next, step⟩ := holds.begins waiting
        exact ⟨[], attempt, next, Run.nil.snoc _ step, by simp⟩
      · obtain ⟨action, event, next, step, quiet, own, serving, closer⟩ :=
          holds.approaches waiting
        obtain ⟨suffix, attempt, last, run, calm⟩ :=
          ih next.stage.distance (rank ▸ closer) serving rfl
        refine ⟨event :: suffix, attempt, last, (Run.nil.snoc action step).append run, ?_⟩
        intro other member
        rcases List.mem_cons.mp member with rfl | later
        · exact ⟨quiet, own⟩
        · exact calm other later

/-- The history holds the caller's request, and the snapshot shows a replaced target, a worker
that ended, or an attempt on the caller's target that was begun after that request.
-/
def AnsweredIn (trace : List (MaintenanceEvent Facts)) (index : Nat)
    (snapshot : DriverSnapshot)
    : Prop :=
  ∃ (earlier later : List (MaintenanceEvent Facts)) (trigger : Trigger) (confirmed : Bool)
      (source : Option Facts) (target : TargetBinding) (generation : Nat),
    trace
      = earlier ++ .requested trigger confirmed source target generation (some index) :: later
    ∧ (snapshot.binding ≠ target
        ∨ snapshot.generation ≠ generation
        ∨ snapshot.liveness = .stopped
        ∨ snapshot.liveness = .failed
        ∨ ∃ (idle between rest : List (MaintenanceEvent Facts)) (attempt : Attempt)
              (outcome : AttemptOutcome) (completion : Completion),
            later
              = idle
                ++ .begun attempt
                  :: (between ++ .completed attempt outcome completion :: rest)
            ∧ snapshot.lastAttempt = some (attempt.record outcome)
            ∧ attempt.binding = target
            ∧ attempt.generation = generation)

theorem HistoryInvariant.returned {trace : List (MaintenanceEvent Facts)}
    {state next : MaintenanceState Facts} {index : Nat} {snapshot : DriverSnapshot}
    (holds : HistoryInvariant trace state)
    (move : MaintenanceMove state (.returned index snapshot) next)
    (bounded : requestCount trace < u64Max)
    : AnsweredIn trace index snapshot := by
  cases move with
  | @returned _ waiter found answered =>
      obtain ⟨earlier, trigger, confirmed, source, later, split, recorded⟩ :=
        holds.waiters index waiter found
      refine ⟨earlier, later, trigger, confirmed, source, waiter.binding, waiter.generation,
        split, ?_⟩
      rw [holds.target.1, holds.target.2]
      rcases answers_cases answered with
        replaced | replaced | stopped | failed | ⟨record, last, target, generation, reached⟩
      · exact .inl replaced
      · exact .inr (.inl replaced)
      · exact .inr (.inr (.inl stopped))
      · exact .inr (.inr (.inr (.inl failed)))
      · obtain ⟨before, attempt, between, outcome, completion, rest, same, -, rfl, sequence⟩ :=
          holds.record record last
        have total : requestCount earlier + 1 ≤ requestCount trace := by
          rw [split]
          simp [requestCount, MaintenanceEvent.requests]
        have fewer : requestCount before ≤ requestCount trace := by
          rw [same]
          simp [requestCount]
        have more : requestCount earlier < requestCount before := by
          simp only [Attempt.record, recorded, sequence] at reached
          omega
        obtain ⟨idle, rfl⟩ := begun_after_requested (split.symm.trans same) rfl more
        exact .inr (.inr (.inr (.inr
          ⟨idle, between, rest, attempt, outcome, completion, rfl, last, target, generation⟩)))

/-- A caller of `request_and_wait_with_source` is not answered by stale work: with fewer than
`2^64 - 1` recorded requests, it returns only when its target was replaced, the worker ended,
or an attempt on its target was begun after its request and completed since. A recorded
trigger belongs to the trigger set of the next begin, which it waits for in the pending set,
and a begin's trigger set holds nothing but what was recorded since the begin before it; a
worker that was not stopped can always go on to that begin. Witness:
`requestAndWait_fresh_afterRunningAttempt`.
-/
theorem requestAndWait_fresh {binding : TargetBinding} {interval : Nat}
    {initialConfirmation : Bool} {initialSource : Option Facts}
    {trace : List (MaintenanceEvent Facts)} {state : MaintenanceState Facts}
    (run
      : Run maintenanceStep
          (MaintenanceState.start binding interval initialConfirmation initialSource) trace
          state)
    (bounded : requestCount trace < u64Max)
    : (∀ (before after : List (MaintenanceEvent Facts)) (index : Nat)
            (snapshot : DriverSnapshot),
          trace = before ++ .returned index snapshot :: after
          → AnsweredIn before index snapshot)
      ∧ (∀ (before after : List (MaintenanceEvent Facts)) (trigger : Trigger)
            (confirmed : Bool) (source : Option Facts) (target : TargetBinding)
            (generation : Nat) (waiter : Option Nat),
          trace
            = before
              ++ .requested trigger confirmed source target generation waiter :: after
          → (∀ (mid rest : List (MaintenanceEvent Facts)) (attempt : Attempt),
                after = mid ++ .begun attempt :: rest
                → (∀ event ∈ mid, event.isBegun = false)
                → attempt.triggers.testBit trigger.index = true)
            ∧ ((∀ event ∈ after, event.isBegun = false)
                → state.control.scheduler.pending.testBit trigger.index = true))
      ∧ (∀ (before mid after : List (MaintenanceEvent Facts)) (first second : Attempt),
          trace = before ++ .begun first :: (mid ++ .begun second :: after)
          → (∀ event ∈ mid, event.isBegun = false)
          → ∀ trigger : Trigger,
              second.triggers.testBit trigger.index = true
              ↔ ∃ event ∈ mid, event.records trigger = true)
      ∧ (Serving state
          → ∃ (suffix : List (MaintenanceEvent Facts)) (attempt : Attempt)
                (last : MaintenanceState Facts),
              Run maintenanceStep state (suffix ++ [.begun attempt]) last
              ∧ ∀ event ∈ suffix, event.isBegun = false ∧ event.byWorker = true) := by
  refine ⟨?_, ?_, ?_, Serving.reaches_begin⟩
  · rintro before after index snapshot rfl
    obtain ⟨mid, action, next, earlier, step, -⟩ := run.split_at
    refine (historyInvariant_of_run earlier).returned (maintenanceStep_move step) ?_
    simp only [requestCount, List.countP_append] at bounded ⊢
    omega
  · rintro before after trigger confirmed source target generation waiter rfl
    obtain ⟨mid, action, next, earlier, step, later⟩ := run.split_at
    have pending : next.control.scheduler.pending.testBit trigger.index = true := by
      rw [(maintenanceStep_move step).recordStep.pending rfl]
      simp [MaintenanceEvent.records]
    refine ⟨?_, ?_⟩
    · rintro middle rest attempt rfl quiet
      obtain ⟨reached, action, after, between, begins, -⟩ := later.split_at
      rw [(maintenanceStep_move begins).begun_triggers.1,
        pending_of_run between quiet, pending, Bool.true_or]
    · intro quiet
      rw [pending_of_run later quiet, pending, Bool.true_or]
  · rintro before mid after first second rfl quiet trigger
    obtain ⟨start, action, next, -, step, later⟩ := run.split_at
    obtain ⟨reached, action, last, between, begins, -⟩ := later.split_at
    rw [(maintenanceStep_move begins).begun_triggers.1, pending_of_run between quiet,
      (maintenanceStep_move step).begun_triggers.2]
    simp

/-- A request that arrives while the startup attempt runs, and the attempt that answers it. -/
def lateRequest : List (MaintenanceAction Nat) :=
  [.create (.ok ()), .poll 0, .observe, .requestAndWait .health none none,
    .prepare (.ok none), .resolve, .complete 5 none false, .poll 15, .observe,
    .prepare (.ok none), .resolve, .complete 20 none false, .resume 0]

/-- The startup attempt completes after the request and does not answer it; the next one does.
-/
theorem requestAndWait_fresh_afterRunningAttempt
    : ∃ (before : List (MaintenanceEvent Nat)) (snapshot : DriverSnapshot)
          (state : MaintenanceState Nat),
        Run maintenanceStep (MaintenanceState.start ⟨Vector.replicate 32 1⟩ 10 false none)
          (before ++ [.returned 0 snapshot]) state
        ∧ (before.filter MaintenanceEvent.isBegun).length = 2
        ∧ snapshot.lastAttempt
          = some ⟨⟨Vector.replicate 32 1⟩, 0, 1, Trigger.health.bits, .complete⟩
        ∧ AnsweredIn before 0 snapshot := by
  have run : Run maintenanceStep
      (MaintenanceState.start ⟨Vector.replicate 32 1⟩ 10 false (none : Option Nat))
      ([_, _, _, _, _, _, _, _, _, _, _, _] ++ [.returned 0 _]) _ :=
    .of_execute lateRequest rfl
  exact ⟨_, _, _, run, rfl, rfl,
    (requestAndWait_fresh run (by decide)).1 _ [] 0 _ rfl⟩

end CodebaseGraph.Maintenance
