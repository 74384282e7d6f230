import CodebaseGraph.Transition.Runs

/-! The owner's single execution slot (`src/coordinator.rs`).
`ExecutionDispatcher` guards one slot that graph jobs and maintenance permits share. Every
method is one critical section of the dispatcher's mutex, so a method is one step here.
-/

namespace CodebaseGraph.Coordinator

open CodebaseGraph.Transition

variable {Job : Type*}

-- The dispatcher and its critical sections

structure ExecutionDispatchState (Job : Type*) where
  job : Option Job := none
  active : Bool := false
  stopping : Bool := false
deriving DecidableEq, Repr

/-- The guarded state and the atomic flag that `active()` reads without the lock. -/
structure ExecutionDispatcher (Job : Type*) where
  state : ExecutionDispatchState Job := {}
  activeSnapshot : Bool := false
deriving DecidableEq, Repr

/-- What `take` does with the lock held: hand over the queued job, report the stop, or go
back to waiting on the condition variable.
-/
inductive TakeResult (Job : Type*) where
  | job (taken : Job) (dispatcher : ExecutionDispatcher Job)
  | stopped
  | waiting
deriving DecidableEq, Repr

namespace ExecutionDispatcher

/-- The admission test shared by `try_acquire_maintenance` and `try_submit`. -/
def refuses (dispatcher : ExecutionDispatcher Job) : Bool :=
  dispatcher.state.stopping || dispatcher.state.active || dispatcher.state.job.isSome

/-- `some` carries the dispatcher after a permit was handed out. -/
def tryAcquireMaintenance (dispatcher : ExecutionDispatcher Job)
    : Option (ExecutionDispatcher Job) :=
  if dispatcher.refuses then
    none
  else
    some { state := { dispatcher.state with active := true }, activeSnapshot := true }

/-- A refused job is handed back to its connection handler. -/
def trySubmit (dispatcher : ExecutionDispatcher Job) (job : Job)
    : Except Job (ExecutionDispatcher Job) :=
  if dispatcher.refuses then
    .error job
  else
    .ok
      {
        state := { dispatcher.state with active := true, job := some job },
        activeSnapshot := true
      }

def take (dispatcher : ExecutionDispatcher Job) : TakeResult Job :=
  match dispatcher.state.job with
  | some job => .job job { dispatcher with state := { dispatcher.state with job := none } }
  | none => if dispatcher.state.stopping then .stopped else .waiting

def finishOne (dispatcher : ExecutionDispatcher Job) : ExecutionDispatcher Job :=
  { state := { dispatcher.state with active := false }, activeSnapshot := false }

def stopAdmission (dispatcher : ExecutionDispatcher Job) : ExecutionDispatcher Job :=
  { dispatcher with state := { dispatcher.state with stopping := true } }

def isActive (dispatcher : ExecutionDispatcher Job) : Bool :=
  dispatcher.activeSnapshot

end ExecutionDispatcher

-- One dispatcher, its worker thread and its clients

/-- Where the worker loop of `serve_owner_with_executor` stands. -/
inductive WorkerState (Job : Type*) where
  | taking
  | running (job : Job)
  | exited
deriving DecidableEq, Repr

/-- The dispatcher, the worker and the maintenance permits nobody has dropped yet. -/
structure SlotState (Job : Type*) where
  dispatcher : ExecutionDispatcher Job := {}
  worker : WorkerState Job := .taking
  permits : Nat := 0
deriving DecidableEq, Repr

/-- The calls that threads may interleave: connection handlers submit, the worker takes and
finishes, the maintenance driver acquires and drops its permit, and anybody stops admission.
-/
inductive SlotAction (Job : Type*) where
  | submit (job : Job)
  | take
  | finish
  | acquire
  | dropPermit
  | stop
deriving DecidableEq, Repr

inductive SlotEvent (Job : Type*) where
  | accepted (job : Job)
  | rejected (job : Job)
  | taken (job : Job)
  | workerWaits
  | workerExits
  | finished (job : Job)
  | acquired
  | denied
  | released
  | stopped
deriving DecidableEq, Repr

def slotStep : StepFn (SlotState Job) (SlotAction Job) (SlotEvent Job)
  | state, .submit job =>
      match state.dispatcher.trySubmit job with
      | .error job => some (.rejected job, state)
      | .ok dispatcher => some (.accepted job, { state with dispatcher })
  | state, .take =>
      match state.worker with
      | .taking =>
          match state.dispatcher.take with
          | .job job dispatcher =>
              some (.taken job, { state with dispatcher, worker := .running job })
          | .stopped => some (.workerExits, { state with worker := .exited })
          | .waiting => some (.workerWaits, state)
      | _ => none
  | state, .finish =>
      match state.worker with
      | .running job =>
          some
            (
              .finished job,
              { state with dispatcher := state.dispatcher.finishOne, worker := .taking }
            )
      | _ => none
  | state, .acquire =>
      match state.dispatcher.tryAcquireMaintenance with
      | none => some (.denied, state)
      | some dispatcher =>
          some (.acquired, { state with dispatcher, permits := state.permits + 1 })
  | state, .dropPermit =>
      if state.permits = 0 then
        none
      else
        some
          (
            .released,
            {
              state with
              dispatcher := state.dispatcher.finishOne,
              permits := state.permits - 1
            }
          )
  | state, .stop =>
      some (.stopped, { state with dispatcher := state.dispatcher.stopAdmission })

def SlotEvent.acceptedJob? : SlotEvent Job → Option Job
  | .accepted job => some job
  | _ => none

def SlotEvent.takenJob? : SlotEvent Job → Option Job
  | .taken job => some job
  | _ => none

/-- Jobs submitted successfully, in order. -/
def acceptedJobs (trace : List (SlotEvent Job)) : List Job :=
  trace.filterMap SlotEvent.acceptedJob?

/-- Jobs the worker took, in order. -/
def takenJobs (trace : List (SlotEvent Job)) : List Job :=
  trace.filterMap SlotEvent.takenJob?

/-- The event hands out the slot, to a job or to a maintenance permit. -/
def SlotEvent.admits : SlotEvent Job → Bool
  | .accepted _ | .acquired => true
  | _ => false

def WorkerState.runningJobs : WorkerState Job → Nat
  | .running _ => 1
  | _ => 0

/-- Queued jobs plus running jobs plus live maintenance permits. -/
def SlotState.occupancy (state : SlotState Job) : Nat :=
  state.dispatcher.state.job.toList.length + state.worker.runningJobs + state.permits

-- What one step can do

/-- Every effect a call can have on the slot, with the guard it was made under. -/
inductive SlotMove : SlotState Job → SlotEvent Job → SlotState Job → Prop where
  | rejected {state} (job : Job) (refused : state.dispatcher.refuses = true)
    : SlotMove state (.rejected job) state
  | accepted {state} (job : Job) (free : state.dispatcher.refuses = false)
    : SlotMove state (.accepted job)
        {
          state with
          dispatcher := {
            state := { state.dispatcher.state with active := true, job := some job },
            activeSnapshot := true
          }
        }
  | taken {state} (job : Job) (worker : state.worker = .taking)
    (queued : state.dispatcher.state.job = some job)
    : SlotMove state (.taken job)
        {
          state with
          dispatcher := {
            state.dispatcher with
            state := { state.dispatcher.state with job := none }
          },
          worker := .running job
        }
  | exits {state} (worker : state.worker = .taking)
    (empty : state.dispatcher.state.job = none)
    (stopping : state.dispatcher.state.stopping = true)
    : SlotMove state .workerExits { state with worker := .exited }
  | waits {state} : SlotMove state .workerWaits state
  | finished {state} (job : Job) (worker : state.worker = .running job)
    : SlotMove state (.finished job)
        { state with dispatcher := state.dispatcher.finishOne, worker := .taking }
  | denied {state} (refused : state.dispatcher.refuses = true)
    : SlotMove state .denied state
  | acquired {state} (free : state.dispatcher.refuses = false)
    : SlotMove state .acquired
        {
          state with
          dispatcher := {
            state := { state.dispatcher.state with active := true },
            activeSnapshot := true
          },
          permits := state.permits + 1
        }
  | released {state} (live : state.permits ≠ 0)
    : SlotMove state .released
        {
          state with
          dispatcher := state.dispatcher.finishOne,
          permits := state.permits - 1
        }
  | stopped {state}
    : SlotMove state .stopped
        { state with dispatcher := state.dispatcher.stopAdmission }

/-- A step is one of the listed moves, by cases on the call and its guard. -/
theorem slotStep_move {state last : SlotState Job} {action event}
    (next : slotStep state action = some (event, last))
    : SlotMove state event last := by
  cases action with
  | submit job =>
      cases refused : state.dispatcher.refuses <;>
        simp only [slotStep, ExecutionDispatcher.trySubmit, refused, Bool.false_eq_true,
          if_true, if_false, Option.some.injEq, Prod.mk.injEq] at next <;>
        obtain ⟨rfl, rfl⟩ := next
      · exact .accepted job refused
      · exact .rejected job refused
  | take =>
      cases worker : state.worker with
      | running job => simp [slotStep, worker] at next
      | exited => simp [slotStep, worker] at next
      | taking =>
          cases queued : state.dispatcher.state.job with
          | some job =>
              simp only [slotStep, worker, ExecutionDispatcher.take, queued,
                Option.some.injEq, Prod.mk.injEq] at next
              obtain ⟨rfl, rfl⟩ := next
              exact .taken job worker queued
          | none =>
              cases stopping : state.dispatcher.state.stopping <;>
                simp only [slotStep, worker, ExecutionDispatcher.take, queued, stopping,
                  Bool.false_eq_true, if_true, if_false, Option.some.injEq,
                  Prod.mk.injEq] at next <;>
                obtain ⟨rfl, rfl⟩ := next
              · exact .waits
              · exact .exits worker queued stopping
  | finish =>
      cases worker : state.worker with
      | taking => simp [slotStep, worker] at next
      | exited => simp [slotStep, worker] at next
      | running job =>
          simp only [slotStep, worker, Option.some.injEq, Prod.mk.injEq] at next
          obtain ⟨rfl, rfl⟩ := next
          exact .finished job worker
  | acquire =>
      cases refused : state.dispatcher.refuses <;>
        simp only [slotStep, ExecutionDispatcher.tryAcquireMaintenance, refused,
          Bool.false_eq_true, if_true, if_false, Option.some.injEq, Prod.mk.injEq] at next <;>
        obtain ⟨rfl, rfl⟩ := next
      · exact .acquired refused
      · exact .denied refused
  | dropPermit =>
      by_cases live : state.permits = 0
      · simp [slotStep, live] at next
      · simp only [slotStep, live, if_false, Option.some.injEq, Prod.mk.injEq] at next
        obtain ⟨rfl, rfl⟩ := next
        exact .released live
  | stop =>
      simp only [slotStep, Option.some.injEq, Prod.mk.injEq] at next
      obtain ⟨rfl, rfl⟩ := next
      exact .stopped

-----------------------------------------------------------------------------------------
-- The slot invariant
-----------------------------------------------------------------------------------------

/-- The slot has at most one owner, `active` says whether it has one, a queued job still has
a worker to take it, and the history accounts for every accepted job.
-/
structure SlotInvariant (trace : List (SlotEvent Job)) (state : SlotState Job) : Prop where
  single : state.occupancy ≤ 1
  owned : state.dispatcher.state.active = true ↔ state.occupancy = 1
  snapshot : state.dispatcher.activeSnapshot = state.dispatcher.state.active
  accounted : acceptedJobs trace = takenJobs trace ++ state.dispatcher.state.job.toList
  drained
    : state.worker = .exited
      → state.dispatcher.state.job = none ∧ state.dispatcher.state.stopping = true

theorem acceptedJobs_snoc (trace : List (SlotEvent Job)) (event : SlotEvent Job)
    : acceptedJobs (trace ++ [event])
      = acceptedJobs trace ++ event.acceptedJob?.toList := by
  cases found : event.acceptedJob? <;> simp [acceptedJobs, found]

theorem takenJobs_snoc (trace : List (SlotEvent Job)) (event : SlotEvent Job)
    : takenJobs (trace ++ [event]) = takenJobs trace ++ event.takenJob?.toList := by
  cases found : event.takenJob? <;> simp [takenJobs, found]

/-- An event that neither accepts nor takes a job leaves the account as it is. -/
theorem accounted_silent {trace : List (SlotEvent Job)} {event : SlotEvent Job}
    {queued : List Job} (accounted : acceptedJobs trace = takenJobs trace ++ queued)
    (accepts : event.acceptedJob? = none) (takes : event.takenJob? = none)
    : acceptedJobs (trace ++ [event]) = takenJobs (trace ++ [event]) ++ queued := by
  simpa only [acceptedJobs_snoc, takenJobs_snoc, accepts, takes, Option.toList_none,
    List.append_nil] using accounted

/-- An admission finds the slot without an owner and the dispatcher running. -/
theorem SlotInvariant.free {trace : List (SlotEvent Job)} {state : SlotState Job}
    (holds : SlotInvariant trace state) (admits : state.dispatcher.refuses = false)
    : state.occupancy = 0
      ∧ state.dispatcher.state.job = none
      ∧ state.dispatcher.state.stopping = false := by
  simp only [ExecutionDispatcher.refuses, Bool.or_eq_false_iff, Option.isSome_eq_false_iff,
    Option.isNone_iff_eq_none] at admits
  obtain ⟨⟨running, idle⟩, empty⟩ := admits
  have unowned : ¬ state.occupancy = 1 := fun one => by simp [holds.owned.mpr one] at idle
  have single := holds.single
  exact ⟨by omega, empty, running⟩

/-- Every move keeps the slot invariant: admissions find the slot free, a taken job moves
from the queue to the worker, and a release is made by the slot's only owner.
-/
theorem SlotInvariant.move {trace : List (SlotEvent Job)} {state last : SlotState Job}
    {event : SlotEvent Job} (holds : SlotInvariant trace state)
    (move : SlotMove state event last)
    : SlotInvariant (trace ++ [event]) last := by
  have single := holds.single
  have accounted := holds.accounted
  cases move with
  | rejected job refused =>
      exact { holds with accounted := accounted_silent accounted rfl rfl }
  | denied refused =>
      exact { holds with accounted := accounted_silent accounted rfl rfl }
  | waits =>
      exact { holds with accounted := accounted_silent accounted rfl rfl }
  | accepted job free =>
      obtain ⟨vacant, empty, running⟩ := holds.free free
      simp only [SlotState.occupancy, empty, Option.toList_none, List.length_nil] at vacant
      refine ⟨?_, ?_, rfl, ?_, ?_⟩
      · simp only [SlotState.occupancy, Option.toList_some, List.length_singleton]
        omega
      · simp only [SlotState.occupancy, Option.toList_some, List.length_singleton, true_iff]
        omega
      · rw [empty, Option.toList_none, List.append_nil] at accounted
        simp [acceptedJobs_snoc, takenJobs_snoc, accounted, SlotEvent.acceptedJob?,
          SlotEvent.takenJob?]
      · intro exited
        simp [(holds.drained exited).2] at running
  | taken job worker queued =>
      have moved : state.occupancy = 1 + state.permits := by
        simp [SlotState.occupancy, queued, worker, WorkerState.runningJobs]
      refine ⟨?_, ?_, holds.snapshot, ?_, by simp⟩
      · simpa [SlotState.occupancy, WorkerState.runningJobs, ← moved] using single
      · have owned := holds.owned
        rw [moved] at owned
        simpa [SlotState.occupancy, WorkerState.runningJobs] using owned
      · rw [queued, Option.toList_some] at accounted
        simp [acceptedJobs_snoc, takenJobs_snoc, accounted, SlotEvent.acceptedJob?,
          SlotEvent.takenJob?]
  | exits worker empty stopping =>
      refine ⟨?_, ?_, holds.snapshot, ?_, fun _ => ⟨empty, stopping⟩⟩
      · simpa [SlotState.occupancy, worker, WorkerState.runningJobs] using single
      · simpa [SlotState.occupancy, worker, WorkerState.runningJobs] using holds.owned
      · exact accounted_silent accounted rfl rfl
  | finished job worker =>
      simp only [SlotState.occupancy, worker, WorkerState.runningJobs] at single
      refine ⟨?_, ?_, rfl, ?_, by simp⟩
      · simp only [SlotState.occupancy, ExecutionDispatcher.finishOne,
          WorkerState.runningJobs]
        omega
      · simp only [SlotState.occupancy, ExecutionDispatcher.finishOne,
          WorkerState.runningJobs, Bool.false_eq_true, false_iff]
        omega
      · exact accounted_silent accounted rfl rfl
  | acquired free =>
      obtain ⟨vacant, empty, running⟩ := holds.free free
      simp only [SlotState.occupancy] at vacant
      refine ⟨?_, ?_, rfl, ?_, holds.drained⟩
      · simp only [SlotState.occupancy]
        omega
      · simp only [SlotState.occupancy, true_iff]
        omega
      · exact accounted_silent accounted rfl rfl
  | released live =>
      simp only [SlotState.occupancy] at single
      refine ⟨?_, ?_, rfl, ?_, holds.drained⟩
      · simp only [SlotState.occupancy, ExecutionDispatcher.finishOne]
        omega
      · simp only [SlotState.occupancy, ExecutionDispatcher.finishOne, Bool.false_eq_true,
          false_iff]
        omega
      · exact accounted_silent accounted rfl rfl
  | stopped =>
      refine ⟨single, holds.owned, holds.snapshot, ?_, ?_⟩
      · exact accounted_silent accounted rfl rfl
      · exact fun exited => ⟨(holds.drained exited).1, rfl⟩

theorem slotInvariant_of_run {trace : List (SlotEvent Job)} {state : SlotState Job}
    (run : Run slotStep {} trace state)
    : SlotInvariant trace state := by
  refine run.history_induction (motive := SlotInvariant) ?_
    (fun _ holds next => holds.move (slotStep_move next))
  exact ⟨Nat.zero_le 1, by simp [SlotState.occupancy, WorkerState.runningJobs], rfl, rfl,
    by simp⟩

-- Admission never reopens

/-- Once admission has stopped it stays stopped and no move hands out the slot. -/
theorem SlotMove.stopping {state last : SlotState Job} {event}
    (move : SlotMove state event last) (stopping : state.dispatcher.state.stopping = true)
    : last.dispatcher.state.stopping = true ∧ event.admits = false := by
  cases move with
  | accepted job free => simp [ExecutionDispatcher.refuses, stopping] at free
  | acquired free => simp [ExecutionDispatcher.refuses, stopping] at free
  | stopped => exact ⟨rfl, rfl⟩
  | _ => exact ⟨stopping, rfl⟩

/-- A run that starts with admission stopped hands out nothing. -/
theorem noAdmission_of_stopping {start last : SlotState Job} {trace}
    (stopping : start.dispatcher.state.stopping = true) (run : Run slotStep start trace last)
    : last.dispatcher.state.stopping = true ∧ ∀ event ∈ trace, event.admits = false := by
  induction run with
  | nil => exact ⟨stopping, by simp⟩
  | snoc _ _ next ih =>
      obtain ⟨still, silent⟩ := (slotStep_move next).stopping ih.1
      refine ⟨still, ?_⟩
      intro event member
      rcases List.mem_append.mp member with earlier | latest
      · exact ih.2 event earlier
      · exact (List.mem_singleton.mp latest) ▸ silent

-- Single execution slot

/-- A queued job excludes a running job and an exited worker: the worker is about to take it.
-/
theorem SlotInvariant.worker_taking {trace : List (SlotEvent Job)} {state : SlotState Job}
    {job : Job} (holds : SlotInvariant trace state)
    (queued : state.dispatcher.state.job = some job)
    : state.worker = .taking := by
  cases worker : state.worker with
  | taking => rfl
  | running other =>
      have single := holds.single
      simp only [SlotState.occupancy, queued, worker, WorkerState.runningJobs,
        Option.toList_some, List.length_singleton] at single
      omega
  | exited => simp [(holds.drained worker).1] at queued

/-- Over every interleaving the slot has at most one owner, `active` and its snapshot say
exactly whether it has one, accepted jobs are taken in order and exactly once, and stopping
admits nothing more. Witness: the slot invariant of the run; a queued job excludes a running
job and an exited worker, so the worker's next `take` hands it over.
-/
theorem executionSlot_exclusive {trace : List (SlotEvent Job)} {state : SlotState Job}
    (run : Run slotStep {} trace state)
    : state.occupancy ≤ 1
      ∧ (state.dispatcher.state.active = true ↔ state.occupancy = 1)
      ∧ (state.dispatcher.isActive = true ↔ state.occupancy = 1)
      ∧ acceptedJobs trace = takenJobs trace ++ state.dispatcher.state.job.toList
      ∧ (∀ job,
          state.dispatcher.state.job = some job
          → ∃ next,
              slotStep state .take = some (.taken job, next)
              ∧ next.dispatcher.state.job = none)
      ∧ (state.worker = .exited → acceptedJobs trace = takenJobs trace)
      ∧ (∀ before after,
          trace = before ++ SlotEvent.stopped :: after
          → ∀ event ∈ after, event.admits = false) := by
  have holds := slotInvariant_of_run run
  refine ⟨holds.single, holds.owned, ?_, holds.accounted, ?_, ?_, ?_⟩
  · simpa only [ExecutionDispatcher.isActive, holds.snapshot] using holds.owned
  · intro job queued
    simp [slotStep, holds.worker_taking queued, ExecutionDispatcher.take, queued]
  · intro exited
    simpa [(holds.drained exited).1] using holds.accounted
  · rintro before after rfl event member
    obtain ⟨mid, action, next, _, stop, later⟩ := run.split_at
    have stopping : next.dispatcher.state.stopping = true := by
      cases slotStep_move stop with
      | stopped => rfl
    exact (noAdmission_of_stopping stopping later).2 event member

/-- A job accepted before the stop is still taken, once. -/
theorem executionSlot_exclusive_afterStop
    : ∃ state : SlotState Nat,
        Run slotStep {} [.accepted 7, .stopped, .rejected 8, .taken 7, .finished 7] state
        ∧ state.occupancy ≤ 1
        ∧ acceptedJobs [.accepted 7, .stopped, .rejected 8, .taken 7, .finished 7] = [7]
        ∧ takenJobs [SlotEvent.accepted 7, .stopped, .rejected 8, .taken 7, .finished 7]
          = [7] := by
  have run : Run slotStep {}
      [SlotEvent.accepted 7, .stopped, .rejected 8, .taken 7, .finished 7] _ :=
    .of_execute [.submit 7, .stop, .submit 8, .take, .finish] rfl
  exact ⟨_, run, (executionSlot_exclusive run).1, by decide, by decide⟩

-----------------------------------------------------------------------------------------
-- The slot is given back
-----------------------------------------------------------------------------------------

/-- No job waits or runs, and the worker has left if it was asked to. -/
structure SlotState.Drained (state : SlotState Job) : Prop where
  empty : state.dispatcher.state.job = none
  idle : ∀ job, state.worker ≠ .running job
  gone : state.dispatcher.state.stopping = true → state.worker = .exited

/-- A worker that finds no job leaves or waits. -/
theorem take_drains {state : SlotState Job} (worker : state.worker = .taking)
    (empty : state.dispatcher.state.job = none)
    : ∃ event last,
        slotStep state .take = some (event, last)
        ∧ last.Drained
        ∧ last.permits = state.permits
        ∧ last.dispatcher = state.dispatcher := by
  cases stopping : state.dispatcher.state.stopping with
  | true =>
      refine ⟨.workerExits, { state with worker := .exited }, ?_, ⟨empty, by simp, fun _ => rfl⟩,
        rfl, rfl⟩
      simp [slotStep, worker, ExecutionDispatcher.take, empty, stopping]
  | false =>
      refine ⟨.workerWaits, state, ?_, ⟨empty, by simp [worker], by simp [stopping]⟩, rfl, rfl⟩
      simp [slotStep, worker, ExecutionDispatcher.take, empty, stopping]

/-- From a worker that runs a job, finishing it and taking again. -/
theorem finish_drains {state : SlotState Job} {job : Job} (worker : state.worker = .running job)
    (empty : state.dispatcher.state.job = none)
    : ∃ trace last,
        execute slotStep state [.finish, .take] = some (trace, last)
        ∧ last.Drained
        ∧ last.permits = state.permits := by
  obtain ⟨event, last, taken, drained, permits, -⟩ :=
    @take_drains Job { state with dispatcher := state.dispatcher.finishOne, worker := .taking }
      rfl empty
  refine ⟨[.finished job, event], last, ?_, drained, permits⟩
  have finished
      : slotStep state .finish
        = some (.finished job,
            { state with dispatcher := state.dispatcher.finishOne, worker := .taking }) := by
    simp [slotStep, worker]
  simp [execute, finished, taken]

/-- Whatever has happened, three steps of the worker finish every accepted job; then the slot is
free unless somebody keeps a permit.
-/
theorem executionSlot_drains {trace : List (SlotEvent Job)} {state : SlotState Job}
    (run : Run slotStep {} trace state)
    : ∃ schedule later last,
        schedule.length ≤ 3
        ∧ (∀ action ∈ schedule, action = .take ∨ action = .finish)
        ∧ execute slotStep state schedule = some (later, last)
        ∧ last.Drained
        ∧ acceptedJobs (trace ++ later) = takenJobs (trace ++ later)
        ∧ last.permits = state.permits
        ∧ (last.permits = 0 → last.dispatcher.isActive = false) := by
  have holds := slotInvariant_of_run run
  have drains
      : ∃ schedule later last,
          schedule.length ≤ 3
          ∧ (∀ action ∈ schedule, action = SlotAction.take ∨ action = .finish)
          ∧ execute slotStep state schedule = some (later, last)
          ∧ last.Drained
          ∧ last.permits = state.permits := by
    cases worker : state.worker with
    | exited =>
        obtain ⟨empty, -⟩ := holds.drained worker
        exact ⟨[], [], state, by simp, by simp, rfl, ⟨empty, by simp [worker], fun _ => worker⟩,
          rfl⟩
    | running job =>
        have empty : state.dispatcher.state.job = none := by
          cases queued : state.dispatcher.state.job with
          | none => rfl
          | some other => simp [holds.worker_taking queued] at worker
        obtain ⟨later, last, ran, drained, permits⟩ := finish_drains worker empty
        exact ⟨[.finish, .take], later, last, by simp, by simp, ran, drained, permits⟩
    | taking =>
        cases queued : state.dispatcher.state.job with
        | none =>
            obtain ⟨event, last, taken, drained, permits, -⟩ := take_drains worker queued
            exact ⟨[.take], [event], last, by simp, by simp, by simp [execute, taken], drained,
              permits⟩
        | some job =>
            have taken
                : slotStep state .take
                  = some (.taken job,
                      {
                        state with
                        dispatcher := {
                          state.dispatcher with
                          state := { state.dispatcher.state with job := none }
                        },
                        worker := .running job
                      }) := by
              simp [slotStep, worker, ExecutionDispatcher.take, queued]
            obtain ⟨later, last, ran, drained, permits⟩ :=
              @finish_drains Job
                {
                  state with
                  dispatcher := {
                    state.dispatcher with
                    state := { state.dispatcher.state with job := none }
                  },
                  worker := .running job
                }
                job rfl rfl
            refine ⟨[.take, .finish, .take], .taken job :: later, last, by simp, by simp, ?_, drained,
              permits⟩
            rw [execute, taken]
            simp only [ran, Option.map_some]
  obtain ⟨schedule, later, last, short, worker, ran, drained, permits⟩ := drains
  have holds' := slotInvariant_of_run (run.append (.of_execute schedule ran))
  refine ⟨schedule, later, last, short, worker, ran, drained, ?_, permits, ?_⟩
  · simpa [drained.empty] using holds'.accounted
  · intro free
    have unowned : last.occupancy = 0 := by
      have resting : last.worker.runningJobs = 0 := by
        cases at_ : last.worker with
        | running job => exact absurd at_ (drained.idle job)
        | _ => rfl
      simp [SlotState.occupancy, drained.empty, resting, free]
    rw [ExecutionDispatcher.isActive, holds'.snapshot, Bool.eq_false_iff, ne_eq, holds'.owned,
      unowned]
    decide

/-- A job that waits when admission is stopped. -/
theorem executionSlot_drains_stopped
    : ∃ schedule later last,
        schedule.length ≤ 3
        ∧ (∀ action ∈ schedule, action = .take ∨ action = .finish)
        ∧ execute slotStep
            { dispatcher := ⟨⟨some 7, true, true⟩, true⟩, worker := .taking, permits := 0 } schedule
          = some (later, last)
        ∧ last.Drained
        ∧ acceptedJobs ([SlotEvent.accepted 7, .stopped] ++ later)
          = takenJobs ([SlotEvent.accepted 7, .stopped] ++ later)
        ∧ last.permits = 0
        ∧ (last.permits = 0 → last.dispatcher.isActive = false) :=
  executionSlot_drains (.of_execute [.submit 7, .stop] rfl)

end CodebaseGraph.Coordinator
