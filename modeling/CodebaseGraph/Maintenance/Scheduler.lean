import CodebaseGraph.Basic
import CodebaseGraph.Transition.Runs
import Mathlib.Algebra.Ring.Nat

/-! The maintenance driver (`src/storage/maintenance_scheduler.rs`): its mailbox, the handle
calls on it and the loop of `run_driver`.
Every critical section of the mailbox mutex is one step, so a run of the steps is any
interleaving of handle calls with the worker.
-/

namespace CodebaseGraph.Maintenance

open CodebaseGraph.Transition

/-- A validated target identity of 32 bytes. -/
structure TargetBinding where
  bytes : Vector UInt8 32
deriving DecidableEq

inductive DriverError where
  | resourceLimit
  | preparation
  | mutation
  | panicked
deriving DecidableEq, Repr

inductive AttemptOutcome where
  | complete
  | pending
  | deferred
  | cancelled
  | failed (error : DriverError)
deriving DecidableEq, Repr

structure AttemptRecord where
  binding : TargetBinding
  generation : Nat
  requestSequence : Nat
  triggers : Nat
  outcome : AttemptOutcome
deriving DecidableEq

inductive DriverLiveness where
  | running
  | stopping
  | stopped
  | failed
deriving DecidableEq, Repr

structure DriverSnapshot where
  binding : TargetBinding
  generation : Nat := 0
  requested : Bool := false
  pending : Bool := true
  running : Bool := false
  liveness : DriverLiveness := .running
  lastAttempt : Option AttemptRecord := none
  failure : Option DriverError := none
deriving DecidableEq

inductive RequestDisposition where
  | enqueued
  | unboundConfirmation
  | stopped
  | failed
deriving DecidableEq, Repr

inductive Trigger where
  | startup
  | completion
  | health
  | continuation
deriving DecidableEq, Repr

/-- The position of a trigger's bit in a trigger set. -/
def Trigger.index : Trigger → Nat
  | .startup => 0
  | .completion => 1
  | .health => 2
  | .continuation => 3

/-- `trigger as u8`. -/
def Trigger.bits (trigger : Trigger) : Nat := 2 ^ trigger.index

/-- The longest `Duration`, in nanoseconds. -/
def durationMax : Nat := u64Max * 1000000000 + 999999999

def durationAdd (left right : Nat) : Nat := min (left + right) durationMax

/-- The coalescing clock state; times are nanoseconds since the worker's origin. -/
structure MaintenanceScheduler where
  interval : Nat
  nextDue : Nat := 0
  pending : Nat := Trigger.startup.bits
  sequence : Nat := 0
deriving DecidableEq

def MaintenanceScheduler.request (scheduler : MaintenanceScheduler) (trigger : Trigger)
    : MaintenanceScheduler :=
  {
    scheduler with
    pending := scheduler.pending ||| trigger.bits,
    sequence := saturatingAdd scheduler.sequence 1
  }

def MaintenanceScheduler.begin (scheduler : MaintenanceScheduler) (now : Nat)
    : Option ((Nat × Nat) × MaintenanceScheduler) :=
  if now < scheduler.nextDue then
    none
  else
    some
      ((scheduler.pending, scheduler.sequence),
        { scheduler with pending := 0, nextDue := durationAdd now scheduler.interval })

def MaintenanceScheduler.complete (scheduler : MaintenanceScheduler) (now : Nat)
    (outcome : AttemptOutcome)
    : MaintenanceScheduler :=
  {
    scheduler with
    nextDue := durationAdd now scheduler.interval,
    pending :=
      if outcome = .complete then
        scheduler.pending
      else
        scheduler.pending ||| Trigger.continuation.bits
  }

/-- The mailbox. A prepared legacy source is represented by the facts it reports. -/
structure Control (Facts : Type*) where
  binding : TargetBinding
  generation : Nat := 0
  confirmation : Bool := false
  confirmationSource : Option Facts := none
  claimedSource : Option Facts := none
  capturingSource : Bool := false
  sourcePayloadsParked : Bool := false
  stopping : Bool := false
  scheduler : MaintenanceScheduler
  snapshot : DriverSnapshot
deriving DecidableEq

variable {Facts : Type*}

/-- The mailbox as `start_with_options` creates it. -/
def Control.start (binding : TargetBinding) (interval : Nat) (initialConfirmation : Bool)
    (initialSource : Option Facts)
    : Control Facts where
  binding := binding
  confirmation := initialConfirmation
  confirmationSource := initialSource
  scheduler := { interval := interval }
  snapshot := { binding := binding }

/-- What an accepted request changes. -/
def Control.enqueue (control : Control Facts) (trigger : Trigger)
    (confirmation : Option TargetBinding) (source : Option Facts)
    : Control Facts :=
  {
    control with
    confirmationSource := if confirmation.isSome then source else control.confirmationSource,
    confirmation := control.confirmation || confirmation.isSome,
    scheduler := control.scheduler.request trigger,
    snapshot := { control.snapshot with requested := true, pending := true }
  }

/-- A confirmation names another target than the mailbox's. -/
def Control.unbound (control : Control Facts) (confirmation : Option TargetBinding) : Bool :=
  match confirmation with
  | some binding => binding != control.binding
  | none => false

def Control.requestWithSource (control : Control Facts) (trigger : Trigger)
    (confirmation : Option TargetBinding) (source : Option Facts)
    : RequestDisposition × Control Facts :=
  if control.snapshot.liveness = .failed then
    (.failed, control)
  else if control.stopping then
    (.stopped, control)
  else if control.unbound confirmation then
    (.unboundConfirmation, control)
  else
    (.enqueued, control.enqueue trigger confirmation source)

/-- A caller inside the wait loop of `request_and_wait_with_source`. -/
structure Waiter where
  binding : TargetBinding
  generation : Nat
  sequence : Nat
deriving DecidableEq

/-- The part of `request_and_wait_with_source` before its loop; without a waiter it returns
the snapshot at once.
-/
def Control.requestAndWait (control : Control Facts) (trigger : Trigger)
    (confirmation : Option TargetBinding) (source : Option Facts)
    : Option Waiter × Control Facts :=
  if control.stopping || control.snapshot.liveness = .failed
      || control.unbound confirmation then
    (none, control)
  else
    let control := control.enqueue trigger confirmation source
    (some ⟨control.binding, control.generation, control.scheduler.sequence⟩, control)

/-- The condition under which the wait loop returns. -/
def Control.answers (control : Control Facts) (waiter : Waiter) : Bool :=
  control.binding != waiter.binding
  || control.generation != waiter.generation
  || control.snapshot.liveness = .stopped
  || control.snapshot.liveness = .failed
  || match control.snapshot.lastAttempt with
      | some attempt =>
          attempt.binding = waiter.binding
          && attempt.generation = waiter.generation
          && waiter.sequence ≤ attempt.requestSequence
      | none => false

def Control.beginSourceCapture (control : Control Facts) : Option (Control Facts) :=
  if control.stopping
      || control.snapshot.liveness = .failed
      || control.snapshot.running
      || control.sourcePayloadsParked
      || control.claimedSource.isSome
      || control.capturingSource then
    none
  else
    some
      {
        control with
        capturingSource := true,
        confirmation := false,
        confirmationSource := none
      }

/-- Replace the target under a new generation. -/
def Control.replace (control : Control Facts) (binding : TargetBinding) (generation : Nat)
    : Control Facts :=
  {
    control with
    binding := binding,
    generation := generation,
    confirmation := false,
    confirmationSource := none,
    scheduler := control.scheduler.request .startup,
    snapshot := { control.snapshot with binding := binding, generation := generation }
  }

/-- How a call of `rebind` ends. -/
inductive RebindEffect where
  | refused
  | unchanged
  | replaced
  | exhausted
deriving DecidableEq, Repr

def Control.rebind (control : Control Facts) (binding : TargetBinding)
    : RebindEffect × RequestDisposition × Control Facts :=
  if control.snapshot.liveness = .failed then
    (.refused, .failed, control)
  else if control.stopping then
    (.refused, .stopped, control)
  else if binding = control.binding then
    (.unchanged, .enqueued, control)
  else
    match checkedAdd control.generation 1 with
    | none =>
        (.exhausted, .failed,
          {
            control with
            stopping := true,
            snapshot := { control.snapshot with liveness := .failed }
          })
    | some generation =>
        let control := control.replace binding generation
        (.replaced, .enqueued,
          { control with snapshot := { control.snapshot with pending := true } })

def Control.requestStop (control : Control Facts) : Control Facts :=
  {
    control with
    stopping := true,
    confirmation := false,
    confirmationSource := none,
    snapshot :=
      {
        control.snapshot with
        liveness :=
          if control.snapshot.liveness = .running then
            .stopping
          else
            control.snapshot.liveness
      }
  }

def Control.failWorker (control : Control Facts) (error : DriverError) : Control Facts :=
  {
    control with
    stopping := true,
    confirmation := false,
    confirmationSource := none,
    claimedSource := none,
    snapshot :=
      {
        control.snapshot with
        running := false,
        pending := true,
        liveness := .stopping,
        failure := some error
      }
  }

/-- The drop of `WorkerExit`. -/
def Control.workerExit (control : Control Facts) (panicking : Bool) : Control Facts :=
  let failure := if panicking then some .panicked else control.snapshot.failure
  {
    control with
    stopping := true,
    confirmation := false,
    confirmationSource := none,
    claimedSource := none,
    snapshot :=
      {
        control.snapshot with
        running := false,
        failure := failure,
        pending := if panicking then true else control.snapshot.pending,
        liveness := if failure.isSome then .failed else .stopped
      }
  }

/-- What `scheduler.begin` hands to one attempt. -/
structure Attempt where
  binding : TargetBinding
  generation : Nat
  triggers : Nat
  sequence : Nat
deriving DecidableEq

/-- The evidence a completed attempt leaves in the snapshot. -/
def Attempt.record (attempt : Attempt) (outcome : AttemptOutcome) : AttemptRecord where
  binding := attempt.binding
  generation := attempt.generation
  requestSequence := attempt.sequence
  triggers := attempt.triggers
  outcome := outcome

/-- `is_cancelled` for a running attempt. -/
def Control.isCancelled (control : Control Facts) (attempt : Attempt) : Bool :=
  control.stopping || control.generation != attempt.generation

/-- `legacy_metadata`: the demand an attempt may prepare for. -/
def Control.legacyMetadata (control : Control Facts) (attempt : Attempt)
    : Option (Nat × Option Facts) :=
  if !control.stopping
      && control.generation = attempt.generation
      && control.binding = attempt.binding
      && control.confirmation then
    some (attempt.generation, control.confirmationSource)
  else
    none

/-- The one-use confirmation token. -/
structure LegacyQuiescenceConfirmation (Facts : Type*) where
  binding : TargetBinding
  generation : Nat
  source : Option Facts
deriving DecidableEq

/-- The critical section behind the permit: `none` defers the attempt, otherwise the attempt
goes on, with a token when it claimed the pending demand.
-/
def Control.gate [DecidableEq Facts] (control : Control Facts) (attempt : Attempt)
    (prepared : Option (Nat × Option Facts)) (requiresConfirmation : Bool)
    : Option (Option (LegacyQuiescenceConfirmation Facts)) × Control Facts :=
  let current :=
    if control.confirmation then
      some (attempt.generation, control.confirmationSource)
    else
      none
  if control.stopping
      || control.generation != attempt.generation
      || control.binding != attempt.binding
      || (requiresConfirmation && control.confirmation && current != prepared) then
    (none, control)
  else if requiresConfirmation && control.claimedSource.isNone then
    if control.confirmation then
      (some (some ⟨attempt.binding, attempt.generation, control.confirmationSource⟩),
        {
          control with
          confirmation := false,
          claimedSource := control.confirmationSource,
          confirmationSource := none
        })
    else
      (some none, control)
  else
    (some none, control)

/-- What the completing critical section did besides recording the attempt. -/
structure Completion where
  recorded : Bool
  handoff : RebindEffect
  confirmation : Bool
  pending : Bool
deriving DecidableEq, Repr

/-- The handoff to the binding the driver resolved, when no newer generation replaced it. -/
def Control.handoff (control : Control Facts) (attempt : Attempt)
    (desired : Option TargetBinding) (completedAt : Nat)
    : RebindEffect × Control Facts :=
  match desired with
  | none => (.unchanged, control)
  | some binding =>
      if control.generation = attempt.generation ∧ binding ≠ control.binding then
        match checkedAdd control.generation 1 with
        | some generation =>
            let control := control.replace binding generation
            (.replaced,
              { control with scheduler := { control.scheduler with nextDue := completedAt } })
        | none =>
            (.exhausted,
              {
                control with
                stopping := true,
                snapshot := { control.snapshot with failure := some .preparation }
              })
      else
        (.unchanged, control)

/-- Publish the end of an attempt, its record only when its generation was not replaced, and
start the cooldown.
-/
def Control.publish (control : Control Facts) (attempt : Attempt) (outcome : AttemptOutcome)
    (completedAt : Nat) (parked : Bool)
    : Control Facts :=
  {
    control with
    sourcePayloadsParked := parked,
    scheduler := control.scheduler.complete completedAt outcome,
    snapshot :=
      {
        control.snapshot with
        running := false,
        lastAttempt :=
          if control.generation = attempt.generation then
            some (attempt.record outcome)
          else
            control.snapshot.lastAttempt
      }
  }

/-- A demand that is still pending asks for a continuation. -/
def Control.continueDemand (control : Control Facts) : Control Facts :=
  let pending :=
    if control.confirmation then
      control.scheduler.pending ||| Trigger.continuation.bits
    else
      control.scheduler.pending
  {
    control with
    scheduler := { control.scheduler with pending := pending },
    snapshot := { control.snapshot with pending := pending != 0 }
  }

/-- The critical section at the end of an attempt. -/
def Control.complete (control : Control Facts) (attempt : Attempt) (outcome : AttemptOutcome)
    (completedAt : Nat) (desired : Option TargetBinding) (parked : Bool)
    : Completion × Control Facts :=
  let recorded : Bool := control.generation = attempt.generation
  let control := control.publish attempt outcome completedAt parked
  let (handoff, control) := control.handoff attempt desired completedAt
  let control := control.continueDemand
  (⟨recorded, handoff, control.confirmation, control.snapshot.pending⟩, control)

/-- Where the worker thread stands. -/
inductive WorkerStage (Facts : Type*) where
  | creating
  | waiting
  | begun (attempt : Attempt)
  | preparing (attempt : Attempt) (prepared : Option (Nat × Option Facts))
  | unprepared (attempt : Attempt) (outcome : AttemptOutcome)
  | admitting (attempt : Attempt) (prepared : Option (Nat × Option Facts))
    (requiresConfirmation : Bool)
  | gating (attempt : Attempt) (prepared : Option (Nat × Option Facts))
    (requiresConfirmation : Bool)
  | granting (attempt : Attempt) (token : Option (LegacyQuiescenceConfirmation Facts))
  | mutating (attempt : Attempt)
  | releasing (attempt : Attempt) (outcome : AttemptOutcome) (panicked : Bool)
  | finishing (attempt : Attempt) (outcome : AttemptOutcome)
  | settling (attempt : Attempt) (outcome : AttemptOutcome)
  | completing (attempt : Attempt) (outcome : AttemptOutcome) (panicked : Bool)
  | failing (error : DriverError)
  | disposing
  | ended

structure MaintenanceState (Facts : Type*) where
  control : Control Facts
  stage : WorkerStage Facts := .creating
  waiters : List (Option Waiter) := []

/-- What a driver callback under `catch_unwind` comes back with. -/
inductive CallbackResult where
  | returned (outcome : AttemptOutcome)
  | failed (error : DriverError)
  | panicked
deriving DecidableEq, Repr

def CallbackResult.outcome : CallbackResult → AttemptOutcome
  | .returned outcome => outcome
  | .failed error => .failed error
  | .panicked => .failed .panicked

/-- The choices of the environment: handle calls, what the driver's callbacks return, what
the clock shows, whether the permit and the grant are available, and where code outside
`catch_unwind` panics.
-/
inductive MaintenanceAction (Facts : Type*) where
  | request (trigger : Trigger) (confirmation : Option TargetBinding) (source : Option Facts)
  | requestAndWait (trigger : Trigger) (confirmation : Option TargetBinding)
    (source : Option Facts)
  | resume (waiter : Nat)
  | beginSourceCapture
  | dropSourceCapture
  | rebind (binding : TargetBinding)
  | requestStop
  | create (result : Except DriverError Unit)
  | poll (now : Nat)
  | observe
  | prepare (result : Except DriverError (Option Bool))
  | resolve
  | admission (permit : Bool)
  | gate
  | grant (valid : Bool)
  | mutate (result : CallbackResult)
  | release
  | finish (result : CallbackResult)
  | settle (result : CallbackResult)
  | complete (now : Nat) (desired : Option TargetBinding) (parked : Bool)
  | unwind
  | fail
  | exit (panicking : Bool)

/-- What a step shows. A request is reported when it was accepted, with the target it was
accepted for.
-/
inductive MaintenanceEvent (Facts : Type*) where
  | requested (trigger : Trigger) (confirmed : Bool) (source : Option Facts)
    (binding : TargetBinding) (generation : Nat) (waiter : Option Nat)
  | refused
  | returned (waiter : Nat) (snapshot : DriverSnapshot)
  | captured
  | released
  | rebound (effect : RebindEffect)
  | stopRequested
  | begun (attempt : Attempt)
  | observed (metadata : Option (Nat × Option Facts))
  | claimed (token : LegacyQuiescenceConfirmation Facts)
  | passed
  | mutated (token : Option (LegacyQuiescenceConfirmation Facts))
  | completed (attempt : Attempt) (outcome : AttemptOutcome) (completion : Completion)
  | workerFailed
  | exited
  | internal

variable [DecidableEq Facts]

/-- One handle call, or the return of a waiting one. -/
def handleStep (state : MaintenanceState Facts)
    : MaintenanceAction Facts → Option (MaintenanceEvent Facts × MaintenanceState Facts)
  | .request trigger confirmation source =>
      match state.control.requestWithSource trigger confirmation source with
      | (.enqueued, control) =>
          some
            (.requested trigger confirmation.isSome source control.binding control.generation
                none,
              { state with control := control })
      | (_, control) => some (.refused, { state with control := control })
  | .requestAndWait trigger confirmation source =>
      match state.control.requestAndWait trigger confirmation source with
      | (some waiter, control) =>
          some
            (.requested trigger confirmation.isSome source control.binding control.generation
                (some state.waiters.length),
              { state with control := control, waiters := state.waiters ++ [some waiter] })
      | (none, control) => some (.refused, { state with control := control })
  | .resume index =>
      match state.waiters[index]? with
      | some (some waiter) =>
          if state.control.answers waiter then
            some
              (.returned index state.control.snapshot,
                { state with waiters := state.waiters.set index none })
          else
            none
      | _ => none
  | .beginSourceCapture =>
      match state.control.beginSourceCapture with
      | some control => some (.captured, { state with control := control })
      | none => some (.refused, state)
  | .dropSourceCapture =>
      if state.control.capturingSource then
        some
          (.released, { state with control := { state.control with capturingSource := false } })
      else
        none
  | .rebind binding =>
      let (effect, _, control) := state.control.rebind binding
      some (.rebound effect, { state with control := control })
  | .requestStop => some (.stopRequested, { state with control := state.control.requestStop })
  | _ => none

/-- The head of the loop of `run_driver`: stop, wait, or begin an attempt. -/
def pollStep (state : MaintenanceState Facts) (now : Nat)
    : Option (MaintenanceEvent Facts × MaintenanceState Facts) :=
  let control := state.control
  if control.stopping then
    some
      (.internal,
        {
          state with
          stage := .disposing,
          control := { control with snapshot := { control.snapshot with running := false } }
        })
  else if control.capturingSource then
    none
  else
    match control.scheduler.begin now with
    | none => none
    | some ((triggers, sequence), scheduler) =>
        let attempt : Attempt := ⟨control.binding, control.generation, triggers, sequence⟩
        some
          (.begun attempt,
            {
              state with
              stage := .begun attempt,
              control :=
                {
                  control with
                  scheduler := scheduler,
                  snapshot := { control.snapshot with running := true }
                }
            })

/-- The stages in which code outside `catch_unwind` can panic. -/
def WorkerStage.canUnwind : WorkerStage Facts → Bool
  | .creating | .preparing .. | .admitting .. | .finishing .. | .settling .. | .completing ..
  | .disposing => true
  | _ => false

/-- One step of the worker thread. -/
def workerStep (state : MaintenanceState Facts) (action : MaintenanceAction Facts)
    : Option (MaintenanceEvent Facts × MaintenanceState Facts) :=
  match action, state.stage with
  | .create (.ok ()), .creating => some (.internal, { state with stage := .waiting })
  | .create (.error error), .creating =>
      some (.internal, { state with stage := .failing error })
  | .poll now, .waiting => pollStep state now
  | .observe, .begun attempt =>
      let metadata := state.control.legacyMetadata attempt
      some (.observed metadata, { state with stage := .preparing attempt metadata })
  | .prepare (.error error), .preparing attempt _ =>
      some (.internal, { state with stage := .unprepared attempt (.failed error) })
  | .prepare (.ok none), .preparing attempt _ =>
      some (.internal, { state with stage := .unprepared attempt .complete })
  | .prepare (.ok (some requiresConfirmation)), .preparing attempt prepared =>
      some
        (.internal, { state with stage := .admitting attempt prepared requiresConfirmation })
  | .resolve, .unprepared attempt outcome =>
      let outcome := if state.control.isCancelled attempt then .cancelled else outcome
      some (.internal, { state with stage := .completing attempt outcome false })
  | .admission permit, .admitting attempt prepared requiresConfirmation =>
      if permit then
        some
          (.internal, { state with stage := .gating attempt prepared requiresConfirmation })
      else
        some (.internal, { state with stage := .releasing attempt .deferred false })
  | .gate, .gating attempt prepared requiresConfirmation =>
      match state.control.gate attempt prepared requiresConfirmation with
      | (none, control) =>
          some
            (.passed,
              { state with control := control, stage := .releasing attempt .deferred false })
      | (some none, control) =>
          some (.passed, { state with control := control, stage := .granting attempt none })
      | (some (some token), control) =>
          some
            (.claimed token,
              { state with control := control, stage := .granting attempt (some token) })
  | .grant valid, .granting attempt token =>
      if valid then
        some (.mutated token, { state with stage := .mutating attempt })
      else
        some (.internal, { state with stage := .releasing attempt .deferred false })
  | .mutate result, .mutating attempt =>
      some
        (.internal,
          { state with stage := .releasing attempt result.outcome (result = .panicked) })
  | .release, .releasing attempt outcome panicked =>
      some
        (.internal,
          {
            state with
            control := { state.control with claimedSource := none },
            stage :=
              if panicked then
                .completing attempt outcome true
              else
                .finishing attempt outcome
          })
  | .finish result, .finishing attempt _ =>
      some
        (.internal,
          {
            state with
            stage :=
              if result = .panicked then
                .completing attempt result.outcome true
              else
                .settling attempt result.outcome
          })
  | .settle result, .settling attempt _ =>
      some
        (.internal,
          { state with stage := .completing attempt result.outcome (result = .panicked) })
  | .complete now desired parked, .completing attempt outcome panicked =>
      let (completion, control) := state.control.complete attempt outcome now desired parked
      some
        (.completed attempt outcome completion,
          {
            state with
            control := control,
            stage := if panicked then .failing .panicked else .waiting
          })
  | .unwind, stage =>
      if stage.canUnwind then
        some (.internal, { state with stage := .failing .panicked })
      else
        none
  | .fail, .failing error =>
      some
        (.workerFailed,
          { state with control := state.control.failWorker error, stage := .disposing })
  | .exit panicking, .disposing =>
      some (.exited, { state with control := state.control.workerExit panicking, stage := .ended })
  | _, _ => none

/-- Whether a choice is one of the handle's callers or of the worker thread. -/
def MaintenanceAction.byHandle : MaintenanceAction Facts → Bool
  | .request .. | .requestAndWait .. | .resume _ | .beginSourceCapture | .dropSourceCapture
  | .rebind _ | .requestStop => true
  | _ => false

/-- One critical section or callback of the running system. -/
def maintenanceStep
    : StepFn (MaintenanceState Facts) (MaintenanceAction Facts) (MaintenanceEvent Facts) :=
  fun state action =>
    if action.byHandle then handleStep state action else workerStep state action

end CodebaseGraph.Maintenance
