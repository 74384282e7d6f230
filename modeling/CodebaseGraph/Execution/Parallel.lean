import CodebaseGraph.Basic
import CodebaseGraph.Transition.Runs

/-! `build_execution_plan` (`src/execution/parallel.rs`), both branches.
The parallel branch is a step relation over the main thread, the worker threads and the two
bounded channels; a schedule is any interleaving of their steps.
-/

namespace CodebaseGraph.Execution

open CodebaseGraph.Transition

structure ExecutionPlanStats where
  highWaterBytes : Nat := 0
deriving DecidableEq, Repr

/-- What one call of `build_execution_plan` is given. `build index` is the result of
`build_partition_for_path_with_workers` for the path at `index`; `consume` may answer
according to every call it has received before.
-/
structure BuildPlan (R : Type*) where
  pathCount : Nat
  transientPlanBytes : Nat
  accountedBytes : R → Nat
  build : Nat → Except NativeError R
  consume : List (Nat × R) → Nat → R → Except NativeError Unit

variable {R : Type*}

-- The sequential branch

/-- The sequential loop from `index` on, with the calls already made and the statistics so
far; the first component of the result lists all calls of `consume`.
-/
def buildSequentialFrom (plan : BuildPlan R)
    : Nat → Nat → List (Nat × R) → ExecutionPlanStats
      → List (Nat × R) × Except NativeError ExecutionPlanStats
  | 0, _, calls, stats => (calls, .ok stats)
  | remaining + 1, index, calls, stats =>
      match plan.build index with
      | .error error => (calls, .error error)
      | .ok result =>
          let stats : ExecutionPlanStats := {
            highWaterBytes :=
              max stats.highWaterBytes
                (saturatingAdd (plan.accountedBytes result) plan.transientPlanBytes)
          }
          match plan.consume calls index result with
          | .error error => (calls ++ [(index, result)], .error error)
          | .ok () =>
              buildSequentialFrom plan remaining (index + 1) (calls ++ [(index, result)]) stats

def buildSequential (plan : BuildPlan R)
    : List (Nat × R) × Except NativeError ExecutionPlanStats :=
  buildSequentialFrom plan plan.pathCount 0 [] {}

-----------------------------------------------------------------------------------------
-- The parallel branch
-----------------------------------------------------------------------------------------

/-- A worker thread: waiting for the job lock and a job, building a path, blocked in the
result channel, or ended.
-/
inductive BuildWorker (R : Type*) where
  | waiting
  | building (index : Nat)
  | delivering (index : Nat) (result : Except NativeError R)
  | exited
  | panicked

/-- How the whole call ends: a value, or an unwinding `thread::scope` that found an unjoined
panicked thread.
-/
inductive BuildReturn where
  | value (result : Except NativeError ExecutionPlanStats)
  | unwound

/-- The main thread: the initial dispatch loop, the outer `while` (its test and `recv`), the
inner `while`, the dispatch after a consumed item, and the end of the scope, which closes the
job channel and waits for the workers.
-/
inductive BuildPhase where
  | dispatching (index : Nat)
  | receiving
  | draining
  | refilling
  | closing (outcome : Except NativeError ExecutionPlanStats)
  | returned (outcome : BuildReturn)

structure BuildState (R : Type*) where
  phase : BuildPhase := .dispatching 0
  jobs : List Nat := []
  results : List (Nat × Except NativeError R) := []
  workers : List (BuildWorker R)
  resultSlots : List (Option (Except NativeError R))
  nextDispatch : Nat := 0
  nextConsume : Nat := 0
  calls : List (Nat × R) := []
  stats : ExecutionPlanStats := {}

def BuildState.initial (workerCount : Nat) : BuildState R where
  workers := List.replicate workerCount .waiting
  resultSlots := List.replicate workerCount none

inductive BuildAction where
  | main
  | receive (worker : Nat)
  | build (worker : Nat)
  | deliver (worker : Nat)
  | panic (worker : Nat)
deriving DecidableEq, Repr

def BuildWorker.ended : BuildWorker R → Bool
  | .exited | .panicked => true
  | _ => false

def BuildWorker.isPanicked : BuildWorker R → Bool
  | .panicked => true
  | _ => false

/-- `job_tx` is dropped when the scope's closure ends, on success and on every early return.
-/
def BuildPhase.jobsOpen : BuildPhase → Bool
  | .closing _ | .returned _ => false
  | _ => true

/-- Joining the workers: a panicked worker becomes an error when its handle is joined, and
unwinds the scope when an earlier return left its handle unjoined.
-/
def joinWorkers (workers : List (BuildWorker R))
    (outcome : Except NativeError ExecutionPlanStats)
    : BuildReturn :=
  match outcome, workers.countP BuildWorker.isPanicked with
  | outcome, 0 => .value outcome
  | .ok _, 1 => .value (.error (.invalidInput "parallel parser panicked"))
  | _, _ => .unwound

/-- Store one received result in its slot, or fail when the slot is occupied. -/
def storeResult (workerCount : Nat) (state : BuildState R) (index : Nat)
    (result : Except NativeError R)
    : BuildState R :=
  match state.resultSlots[index % workerCount]? with
  | some none =>
      {
        state with
        phase := .draining,
        resultSlots := state.resultSlots.set (index % workerCount) (some result)
      }
  | _ =>
      {
        state with
        phase := .closing (.error (.invalidInput "parallel parser result window overflowed"))
      }

/-- Take the head item out of its slot and hand it to `consume`. -/
def consumeHead (plan : BuildPlan R) (workerCount : Nat) (state : BuildState R)
    (result : Except NativeError R)
    : BuildState R :=
  let state := {
    state with
    resultSlots := state.resultSlots.set (state.nextConsume % workerCount) none
  }
  match result with
  | .error error => { state with phase := .closing (.error error) }
  | .ok result =>
      let consumed := {
        state with
        stats := {
          highWaterBytes :=
            max state.stats.highWaterBytes
              (saturatingAdd (saturatingMul (plan.accountedBytes result) workerCount)
                plan.transientPlanBytes)
        },
        calls := state.calls ++ [(state.nextConsume, result)]
      }
      match plan.consume state.calls state.nextConsume result with
      | .error error => { consumed with phase := .closing (.error error) }
      | .ok () => { consumed with phase := .refilling, nextConsume := state.nextConsume + 1 }

/-- The inner `while` goes on unless the last path was just consumed. -/
def afterRefill (plan : BuildPlan R) (state : BuildState R) : BuildState R :=
  { state with phase := if state.nextConsume = plan.pathCount then .receiving else .draining }

/-- The next operation of the main thread; `none` while it is blocked or has returned. -/
def mainStep (plan : BuildPlan R) (workerCount : Nat) (state : BuildState R)
    : Option (BuildState R) :=
  match state.phase with
  | .dispatching index =>
      if index < min workerCount plan.pathCount then
        if state.jobs.length < workerCount then
          some
            {
              state with
              phase := .dispatching (index + 1),
              jobs := state.jobs ++ [index],
              nextDispatch := index + 1
            }
        else
          none
      else
        some { state with phase := .receiving }
  | .receiving =>
      if state.nextConsume < plan.pathCount then
        match state.results with
        | (index, result) :: rest =>
            some (storeResult workerCount { state with results := rest } index result)
        | [] =>
            if state.workers.all BuildWorker.ended then
              some
                {
                  state with
                  phase :=
                    .closing (.error (.invalidInput "parallel parser result queue closed"))
                }
            else
              none
      else
        some { state with phase := .closing (.ok state.stats) }
  | .draining =>
      match state.resultSlots[state.nextConsume % workerCount]? with
      | some (some result) => some (consumeHead plan workerCount state result)
      | _ => some { state with phase := .receiving }
  | .refilling =>
      if state.nextDispatch < plan.pathCount then
        if state.jobs.length < workerCount then
          some
            (afterRefill plan
              {
                state with
                jobs := state.jobs ++ [state.nextDispatch],
                nextDispatch := state.nextDispatch + 1
              })
        else
          none
      else
        some (afterRefill plan state)
  | .closing outcome =>
      if state.workers.all BuildWorker.ended then
        some { state with phase := .returned (joinWorkers state.workers outcome) }
      else
        none
  | .returned _ => none

/-- One step of a worker thread; `none` while it is blocked or when the action is not its
next one.
-/
def workerStep (plan : BuildPlan R) (workerCount : Nat) (state : BuildState R)
    : BuildAction → Option (BuildState R)
  | .main => none
  | .receive worker =>
      match state.workers[worker]?, state.jobs with
      | some .waiting, index :: rest =>
          some
            {
              state with
              jobs := rest,
              workers := state.workers.set worker (.building index)
            }
      | some .waiting, [] =>
          if state.phase.jobsOpen then
            none
          else
            some { state with workers := state.workers.set worker .exited }
      | _, _ => none
  | .build worker =>
      match state.workers[worker]? with
      | some (.building index) =>
          some
            {
              state with
              workers := state.workers.set worker (.delivering index (plan.build index))
            }
      | _ => none
  | .deliver worker =>
      match state.workers[worker]? with
      | some (.delivering index result) =>
          if state.results.length < workerCount then
            some
              {
                state with
                results := state.results ++ [(index, result)],
                workers := state.workers.set worker .waiting
              }
          else
            none
      | _ => none
  | .panic worker =>
      match state.workers[worker]? with
      | some (.building _) =>
          some { state with workers := state.workers.set worker .panicked }
      | _ => none

/-- One scheduled step of the parallel branch. -/
def buildStep (plan : BuildPlan R) (workerCount : Nat)
    : StepFn (BuildState R) BuildAction BuildAction
  | state, .main => (mainStep plan workerCount state).map (fun next => (.main, next))
  | state, action => (workerStep plan workerCount state action).map (fun next => (action, next))

end CodebaseGraph.Execution
