import CodebaseGraph.Maintenance.Moves
import Mathlib.Tactic

/-! What a history of the maintenance driver says about requests and attempts.
The scheduler's pending triggers and its sequence number are functions of the history, so a
completed attempt that answers a waiting caller was begun after the caller's request, and
every recorded trigger goes to the next begin and to no other.
-/

namespace CodebaseGraph.Maintenance

open CodebaseGraph.Transition

variable {Facts : Type*}

def MaintenanceEvent.isBegun : MaintenanceEvent Facts → Bool
  | .begun _ => true
  | _ => false

/-- Whether the step called `MaintenanceScheduler::request`. -/
def MaintenanceEvent.requests : MaintenanceEvent Facts → Bool
  | .requested .. => true
  | .rebound effect => effect = .replaced
  | .completed _ _ completion => completion.handoff = .replaced
  | _ => false

/-- The number of recorded requests. -/
def requestCount (trace : List (MaintenanceEvent Facts)) : Nat :=
  trace.countP MaintenanceEvent.requests

/-- Whether the step added a trigger to the pending set. -/
def MaintenanceEvent.records (trigger : Trigger) : MaintenanceEvent Facts → Bool
  | .requested recorded _ _ _ _ _ => recorded = trigger
  | .rebound effect => effect = .replaced && trigger = .startup
  | .completed _ outcome completion =>
      (trigger = .continuation && (outcome != .complete || completion.confirmation))
      || (trigger = .startup && completion.handoff = .replaced)
  | _ => false

theorem Trigger.testBit_bits (trigger other : Trigger)
    : trigger.bits.testBit other.index = decide (trigger = other) := by
  cases trigger <;> cases other <;> rfl

/-- What a step does to the scheduler besides its clock. -/
structure RecordStep (scheduler next : MaintenanceScheduler) (event : MaintenanceEvent Facts)
    : Prop where
  sequence
    : next.sequence
      = if event.requests then saturatingAdd scheduler.sequence 1 else scheduler.sequence
  pending
    : event.isBegun = false
      → ∀ trigger : Trigger,
          next.pending.testBit trigger.index
          = (scheduler.pending.testBit trigger.index || event.records trigger)

/-- A step that leaves the scheduler alone and records nothing. -/
theorem RecordStep.refl {scheduler : MaintenanceScheduler} {event : MaintenanceEvent Facts}
    (silent : event.requests = false) (quiet : ∀ trigger, event.records trigger = false)
    : RecordStep scheduler scheduler event :=
  ⟨by simp [silent], fun _ trigger => by simp [quiet]⟩

theorem testBit_request (scheduler : MaintenanceScheduler) (trigger other : Trigger)
    : (scheduler.request trigger).pending.testBit other.index
      = (scheduler.pending.testBit other.index || decide (trigger = other)) := by
  simp only [MaintenanceScheduler.request, Nat.testBit_or, Trigger.testBit_bits]

theorem testBit_complete (scheduler : MaintenanceScheduler) (now : Nat)
    (outcome : AttemptOutcome) (other : Trigger)
    : (scheduler.complete now outcome).pending.testBit other.index
      = (scheduler.pending.testBit other.index
          || (outcome != .complete && decide (other = .continuation))) := by
  by_cases complete : outcome = .complete
  · simp [MaintenanceScheduler.complete, complete]
  · have unfinished : (outcome != .complete) = true := bne_iff_ne.mpr complete
    simp [MaintenanceScheduler.complete, complete, unfinished, Trigger.testBit_bits, eq_comm]

theorem testBit_continueDemand (control : Control Facts) (other : Trigger)
    : control.continueDemand.scheduler.pending.testBit other.index
      = (control.scheduler.pending.testBit other.index
          || (control.confirmation && decide (other = .continuation))) := by
  cases confirmation : control.confirmation with
  | false => simp [Control.continueDemand, confirmation]
  | true => simp [Control.continueDemand, confirmation, Trigger.testBit_bits, eq_comm]

/-- The end of an attempt adds a continuation, and a startup request on a handoff. -/
theorem recordStep_complete (control : Control Facts) (attempt : Attempt)
    (outcome : AttemptOutcome) (now : Nat) (desired : Option TargetBinding) (parked : Bool)
    : RecordStep control.scheduler
        (control.complete attempt outcome now desired parked).2.scheduler
        (.completed attempt outcome (control.complete attempt outcome now desired parked).1
          : MaintenanceEvent Facts) := by
  simp only [Control.complete]
  rcases handoff_cases (control.publish attempt outcome now parked) attempt desired now
    with same | ⟨binding, same⟩ | same
  · rw [same]
    refine ⟨rfl, fun _ trigger => ?_⟩
    simp only [testBit_continueDemand, Control.publish, testBit_complete,
      MaintenanceEvent.records]
    cases trigger <;> simp [Control.continueDemand, Bool.or_assoc]
  · rw [same]
    refine ⟨rfl, fun _ trigger => ?_⟩
    have started := testBit_request (control.scheduler.complete now outcome) .startup trigger
    simp only [testBit_complete] at started
    simp only [testBit_continueDemand, MaintenanceEvent.records]
    refine (congrArg (· || _) started).trans ?_
    cases trigger <;> simp [Control.replace, Control.continueDemand]
  · rw [same]
    refine ⟨rfl, fun _ trigger => ?_⟩
    simp only [testBit_continueDemand, Control.publish, testBit_complete,
      MaintenanceEvent.records]
    cases trigger <;> simp [Control.continueDemand, Bool.or_assoc]

variable [DecidableEq Facts]

theorem MaintenanceMove.recordStep {state next : MaintenanceState Facts}
    {event : MaintenanceEvent Facts} (move : MaintenanceMove state event next)
    : RecordStep state.control.scheduler next.control.scheduler event := by
  cases move with
  | requested accepts =>
      exact ⟨rfl, fun _ trigger => testBit_request ..⟩
  | awaited accepts =>
      exact ⟨rfl, fun _ trigger => testBit_request ..⟩
  | rebindKept kept =>
      rcases kept with rfl | rfl
      · exact .refl rfl (fun _ => rfl)
      · exact .refl rfl (fun _ => rfl)
  | rebindReplaced other =>
      refine ⟨rfl, fun _ trigger => (testBit_request ..).trans ?_⟩
      cases trigger <;> rfl
  | begun waiting live due => exact ⟨rfl, fun silent => by simp [MaintenanceEvent.isBegun] at silent⟩
  | completed now desired parked stage => exact recordStep_complete ..
  | _ => exact .refl rfl (fun _ => rfl)

/-- The attempt was begun in this history, no later attempt was, and its sequence number
counts the requests before it.
-/
def BegunIn (trace : List (MaintenanceEvent Facts)) (attempt : Attempt) : Prop :=
  ∃ before after,
    trace = before ++ .begun attempt :: after
    ∧ (∀ event ∈ after, event.isBegun = false)
    ∧ attempt.sequence = min (requestCount before) u64Max

/-- The record is that of an attempt which was begun and completed in this history. -/
def FinishedIn (trace : List (MaintenanceEvent Facts)) (record : AttemptRecord) : Prop :=
  ∃ before attempt between outcome completion after,
    trace
      = before ++ .begun attempt :: (between ++ .completed attempt outcome completion :: after)
    ∧ (∀ event ∈ between, event.isBegun = false)
    ∧ record = attempt.record outcome
    ∧ attempt.sequence = min (requestCount before) u64Max

/-- The waiter's request stands in this history. -/
def RecordedIn (trace : List (MaintenanceEvent Facts)) (index : Nat) (waiter : Waiter)
    : Prop :=
  ∃ before trigger confirmed source after,
    trace
      = before
        ++ .requested trigger confirmed source waiter.binding waiter.generation (some index)
          :: after
    ∧ waiter.sequence = min (requestCount before + 1) u64Max

/-- How the state reflects the history. -/
structure HistoryInvariant (trace : List (MaintenanceEvent Facts))
    (state : MaintenanceState Facts)
    : Prop where
  target
    : state.control.snapshot.binding = state.control.binding
      ∧ state.control.snapshot.generation = state.control.generation
  sequence : state.control.scheduler.sequence = min (requestCount trace) u64Max
  attempt : ∀ attempt, state.stage.attempt? = some attempt → BegunIn trace attempt
  record : ∀ record, state.control.snapshot.lastAttempt = some record → FinishedIn trace record
  waiters
    : ∀ index waiter,
        state.waiters[index]? = some (some waiter) → RecordedIn trace index waiter

omit [DecidableEq Facts] in
theorem BegunIn.append {trace : List (MaintenanceEvent Facts)} {attempt : Attempt}
    {event : MaintenanceEvent Facts} (begun : BegunIn trace attempt)
    (quiet : event.isBegun = false)
    : BegunIn (trace ++ [event]) attempt := by
  obtain ⟨before, after, rfl, none, sequence⟩ := begun
  refine ⟨before, after ++ [event], by simp, ?_, sequence⟩
  intro other member
  rcases List.mem_append.mp member with old | new
  · exact none other old
  · rw [List.mem_singleton.mp new]
    exact quiet

omit [DecidableEq Facts] in
theorem FinishedIn.append {trace : List (MaintenanceEvent Facts)} {record : AttemptRecord}
    (finished : FinishedIn trace record) (event : MaintenanceEvent Facts)
    : FinishedIn (trace ++ [event]) record := by
  obtain ⟨before, attempt, between, outcome, completion, after, rfl, none, same, sequence⟩ :=
    finished
  exact ⟨before, attempt, between, outcome, completion, after ++ [event], by simp, none, same,
    sequence⟩

omit [DecidableEq Facts] in
theorem RecordedIn.append {trace : List (MaintenanceEvent Facts)} {index : Nat}
    {waiter : Waiter} (recorded : RecordedIn trace index waiter)
    (event : MaintenanceEvent Facts)
    : RecordedIn (trace ++ [event]) index waiter := by
  obtain ⟨before, trigger, confirmed, source, after, rfl, sequence⟩ := recorded
  exact ⟨before, trigger, confirmed, source, after ++ [event], by simp, sequence⟩

/-- The snapshot always names the mailbox's own target. -/
theorem MaintenanceMove.target {state next : MaintenanceState Facts}
    {event : MaintenanceEvent Facts} (move : MaintenanceMove state event next)
    (target
      : state.control.snapshot.binding = state.control.binding
        ∧ state.control.snapshot.generation = state.control.generation)
    : next.control.snapshot.binding = next.control.binding
      ∧ next.control.snapshot.generation = next.control.generation := by
  cases move with
  | rebindReplaced other => exact ⟨rfl, rfl⟩
  | @completed attempt outcome panicked now desired parked stage =>
      simp only [Control.complete]
      rcases handoff_cases (state.control.publish attempt outcome now parked) attempt desired now
        with same | ⟨binding, same⟩ | same
      · rw [same]
        exact target
      · rw [same]
        exact ⟨rfl, rfl⟩
      · rw [same]
        exact target
  | _ => exact target

/-- The attempt of the next stage is the running one or the one just begun. -/
theorem MaintenanceMove.attempt? {state next : MaintenanceState Facts}
    {event : MaintenanceEvent Facts} (move : MaintenanceMove state event next)
    {attempt : Attempt} (running : next.stage.attempt? = some attempt)
    : (event.isBegun = false ∧ state.stage.attempt? = some attempt)
      ∨ (event = .begun attempt
          ∧ attempt.sequence = state.control.scheduler.sequence) := by
  cases move with
  | begun waiting live due =>
      obtain rfl := Option.some.inj running
      exact .inr ⟨rfl, rfl⟩
  | observed stage =>
      rw [stage]
      exact .inl ⟨rfl, running⟩
  | advanced advance =>
      rcases advance.attempt with none | same
      · simp [none] at running
      · exact .inl ⟨rfl, same ▸ running⟩
  | passed advance =>
      rcases advance.attempt with none | same
      · simp [none] at running
      · exact .inl ⟨rfl, same ▸ running⟩
  | unclaimed advance =>
      rcases advance.attempt with none | same
      · simp [none] at running
      · exact .inl ⟨rfl, same ▸ running⟩
  | claimed stage live generation binding confirmation current =>
      rw [stage]
      exact .inl ⟨rfl, running⟩
  | mutated stage =>
      rw [stage]
      exact .inl ⟨rfl, running⟩
  | @completed _ _ panicked now desired parked stage =>
      cases panicked <;> simp [WorkerStage.attempt?] at running
  | leftLoop waiting => simp [WorkerStage.attempt?] at running
  | workerFailed error stage => simp [WorkerStage.attempt?] at running
  | exited panicking stage => simp [WorkerStage.attempt?] at running
  | _ => exact .inl ⟨rfl, running⟩

/-- The last attempt is the old one or the one that just completed. -/
theorem MaintenanceMove.lastAttempt {state next : MaintenanceState Facts}
    {event : MaintenanceEvent Facts} (move : MaintenanceMove state event next)
    {record : AttemptRecord} (published : next.control.snapshot.lastAttempt = some record)
    : state.control.snapshot.lastAttempt = some record
      ∨ ∃ attempt outcome completion,
          event = .completed attempt outcome completion
          ∧ state.stage.attempt? = some attempt
          ∧ record = attempt.record outcome := by
  cases move with
  | @completed attempt outcome panicked now desired parked stage =>
      have kept
          : (state.control.complete attempt outcome now desired parked).2.snapshot.lastAttempt
            = (state.control.publish attempt outcome now parked).snapshot.lastAttempt := by
        simp only [Control.complete]
        rcases
          handoff_cases (state.control.publish attempt outcome now parked) attempt desired now
          with same | ⟨binding, same⟩ | same
        · rw [same]; rfl
        · rw [same]; rfl
        · rw [same]; rfl
      rw [kept] at published
      simp only [Control.publish] at published
      split at published
      · refine .inr ⟨attempt, outcome, _, rfl, by rw [stage]; rfl, ?_⟩
        exact (Option.some.inj published).symm
      · exact .inl published
  | _ => exact .inl published

/-- A waiting caller was waiting before, or has just recorded its request. -/
theorem MaintenanceMove.waiters {state next : MaintenanceState Facts}
    {event : MaintenanceEvent Facts} (move : MaintenanceMove state event next)
    {index : Nat} {waiter : Waiter} (waiting : next.waiters[index]? = some (some waiter))
    : state.waiters[index]? = some (some waiter)
      ∨ ((∃ trigger confirmed source,
            event
            = .requested trigger confirmed source waiter.binding waiter.generation
                (some index))
          ∧ waiter.sequence = saturatingAdd state.control.scheduler.sequence 1) := by
  cases move with
  | awaited accepts =>
      rcases Nat.lt_or_ge index state.waiters.length with old | new
      · rw [List.getElem?_append_left old] at waiting
        exact .inl waiting
      · rw [List.getElem?_append_right new, List.getElem?_singleton] at waiting
        split at waiting
        · next first =>
            obtain rfl : index = state.waiters.length := by omega
            obtain rfl := Option.some.inj (Option.some.inj waiting)
            exact .inr ⟨⟨_, _, _, rfl⟩, rfl⟩
        · simp at waiting
  | @returned other _ found answered =>
      rw [List.getElem?_set] at waiting
      split at waiting
      · simp at waiting
      · exact .inl waiting
  | _ => exact .inl waiting

/-- The system as it is started. -/
def MaintenanceState.start (binding : TargetBinding) (interval : Nat)
    (initialConfirmation : Bool) (initialSource : Option Facts)
    : MaintenanceState Facts where
  control := Control.start binding interval initialConfirmation initialSource

theorem HistoryInvariant.step {trace : List (MaintenanceEvent Facts)}
    {state next : MaintenanceState Facts} {event : MaintenanceEvent Facts}
    (holds : HistoryInvariant trace state) (move : MaintenanceMove state event next)
    : HistoryInvariant (trace ++ [event]) next where
  target := move.target holds.target
  sequence := by
    rw [move.recordStep.sequence, holds.sequence]
    simp only [requestCount, List.countP_append, List.countP_singleton, saturatingAdd]
    split <;> omega
  attempt := by
    intro attempt running
    rcases move.attempt? running with ⟨quiet, old⟩ | ⟨rfl, sequence⟩
    · exact (holds.attempt attempt old).append quiet
    · exact ⟨trace, [], rfl, by simp, sequence.trans holds.sequence⟩
  record := by
    intro record published
    rcases move.lastAttempt published with old | ⟨attempt, outcome, completion, rfl, running, same⟩
    · exact (holds.record record old).append event
    · obtain ⟨before, after, rfl, none, sequence⟩ := holds.attempt attempt running
      exact ⟨before, attempt, after, outcome, completion, [], by simp, none, same, sequence⟩
  waiters := by
    intro index waiter waiting
    rcases move.waiters waiting with old | ⟨⟨trigger, confirmed, source, rfl⟩, sequence⟩
    · exact (holds.waiters index waiter old).append event
    · refine ⟨trace, trigger, confirmed, source, [], rfl, ?_⟩
      rw [sequence, holds.sequence, saturatingAdd]
      omega

/-- The history invariant holds in every reachable state. -/
theorem historyInvariant_of_run {binding : TargetBinding} {interval : Nat}
    {initialConfirmation : Bool} {initialSource : Option Facts}
    {trace : List (MaintenanceEvent Facts)} {state : MaintenanceState Facts}
    (run
      : Run maintenanceStep
          (MaintenanceState.start binding interval initialConfirmation initialSource) trace
          state)
    : HistoryInvariant trace state := by
  refine run.history_induction (motive := HistoryInvariant) ?_ ?_
  · exact {
      target := ⟨rfl, rfl⟩
      sequence := rfl
      attempt := by intro attempt running; simp [MaintenanceState.start, WorkerStage.attempt?] at running
      record := by intro record published; simp [MaintenanceState.start, Control.start] at published
      waiters := by intro index waiter waiting; simp [MaintenanceState.start] at waiting
    }
  · intro trace mid action event last _ holds step
    exact holds.step (maintenanceStep_move step)

omit [DecidableEq Facts] in
/-- A history position with more requests before it comes later. -/
theorem begun_after_requested {before later earlier rest : List (MaintenanceEvent Facts)}
    {request : MaintenanceEvent Facts} {attempt : Attempt}
    (same : earlier ++ request :: later = before ++ .begun attempt :: rest)
    (other : request.isBegun = false) (more : requestCount earlier < requestCount before)
    : ∃ idle, later = idle ++ .begun attempt :: rest := by
  rcases List.append_eq_append_iff.mp same with ⟨gap, found, tail⟩ | ⟨gap, found, tail⟩
  · cases gap with
    | nil =>
        rw [List.nil_append] at tail
        obtain ⟨rfl, -⟩ := List.cons.inj tail
        simp [MaintenanceEvent.isBegun] at other
    | cons first gap =>
        obtain ⟨-, rfl⟩ := List.cons.inj tail
        exact ⟨gap, rfl⟩
  · rw [found] at more
    simp only [requestCount, List.countP_append] at more
    omega

omit [DecidableEq Facts] in
/-- What the condition of the wait loop says about the snapshot it returns. -/
theorem answers_cases {control : Control Facts} {waiter : Waiter}
    (answered : control.answers waiter = true)
    : control.binding ≠ waiter.binding
      ∨ control.generation ≠ waiter.generation
      ∨ control.snapshot.liveness = .stopped
      ∨ control.snapshot.liveness = .failed
      ∨ ∃ record,
          control.snapshot.lastAttempt = some record
          ∧ record.binding = waiter.binding
          ∧ record.generation = waiter.generation
          ∧ waiter.sequence ≤ record.requestSequence := by
  simp only [Control.answers, Bool.or_eq_true, bne_iff_ne, decide_eq_true_eq] at answered
  rcases answered with (((binding | generation) | stopped) | failed) | attempt
  · exact .inl binding
  · exact .inr (.inl generation)
  · exact .inr (.inr (.inl stopped))
  · exact .inr (.inr (.inr (.inl failed)))
  · cases last : control.snapshot.lastAttempt with
    | none => simp [last] at attempt
    | some record =>
        simp only [last, Bool.and_eq_true, decide_eq_true_eq] at attempt
        exact .inr (.inr (.inr (.inr ⟨record, rfl, attempt.1.1, attempt.1.2, attempt.2⟩)))

/-- Between two begins the pending set grows by exactly what is recorded. -/
theorem pending_of_run {start last : MaintenanceState Facts}
    {trace : List (MaintenanceEvent Facts)} (run : Run maintenanceStep start trace last)
    (none : ∀ event ∈ trace, event.isBegun = false) (trigger : Trigger)
    : last.control.scheduler.pending.testBit trigger.index
      = (start.control.scheduler.pending.testBit trigger.index
          || trace.any (MaintenanceEvent.records trigger)) := by
  induction run with
  | nil => simp
  | @snoc trace mid last event run action next ih =>
      have before := ih (fun other member => none other (List.mem_append_left _ member))
      have quiet := none event (by simp)
      rw [(maintenanceStep_move next).recordStep.pending quiet, before]
      simp [Bool.or_assoc]

/-- A begin takes the whole pending set. -/
theorem MaintenanceMove.begun_triggers {state next : MaintenanceState Facts}
    {attempt : Attempt} (move : MaintenanceMove state (.begun attempt) next)
    : attempt.triggers = state.control.scheduler.pending
      ∧ next.control.scheduler.pending = 0 := by
  cases move with
  | begun waiting live due => exact ⟨rfl, rfl⟩

end CodebaseGraph.Maintenance
