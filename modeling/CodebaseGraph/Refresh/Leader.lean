import CodebaseGraph.Refresh.Batch
import CodebaseGraph.Transition.Runs
import Mathlib.Data.List.Infix

/-! The refresh leader as a transition system (`run_refresh_leader` in `src/api/refresh.rs`).
Its environment edits source files, the watcher thread passes events on through a channel of
capacity one, and the leader refreshes batches of changes with the native or the poll loop.
-/

namespace CodebaseGraph.Refresh

open CodebaseGraph.Transition

-- Snapshots of the watched files

structure WatchFileState where
  modifiedNanos : Nat
  len : Nat
deriving DecidableEq, Repr

abbrev WatchFileSnapshot := List (String × WatchFileState)

/-- The files after an edit of one of them; without a state the file is removed. -/
def editFile (files : WatchFileSnapshot) (path : String) (state : Option WatchFileState)
    : WatchFileSnapshot :=
  match state with
  | some state => (path, state) :: files.filter (fun file => file.1 ≠ path)
  | none => files.filter (fun file => file.1 ≠ path)

/-- What a walk over the files has read so far. -/
abbrev Readings := List (String × Option WatchFileState)

def visitFile (readings : Readings) (files : WatchFileSnapshot) (path : String) : Readings :=
  if (readings.lookup path).isSome then readings else (path, files.lookup path) :: readings

def readFile (readings : Readings) (files : WatchFileSnapshot) (path : String)
    : Option WatchFileState :=
  match readings.lookup path with
  | some reading => reading
  | none => files.lookup path

/-- `watch_file_snapshot`: the walk reads the files one after the other, so that edits may fall
between two readings; the files not read before its last step are read there.
-/
def watchFileSnapshot (readings : Readings) (files : WatchFileSnapshot) : WatchFileSnapshot :=
  ((readings.map Prod.fst ++ files.map Prod.fst).dedup).filterMap
    (fun path => (readFile readings files path).map (fun state => (path, state)))

def watchSnapshotDiff (previous current : WatchFileSnapshot) : List String :=
  (current.filter (fun file => previous.lookup file.1 ≠ some file.2)).map Prod.fst
  ++ (previous.filter (fun file => (current.lookup file.1).isNone)).map Prod.fst

def isConfigurationKey (path : String) : Bool :=
  path = ".codebaseGraph/config.json" || "@config:".toList.isPrefixOf path.toList

-- The status that the service reports

structure RefreshStatus where
  dirtyEpoch : Nat := 0
  reconciledEpoch : Nat := 0
  refreshingEpoch : Nat := 0
  pending : Bool := false
  refreshing : Bool := false
deriving DecidableEq, Repr

namespace RefreshStatus

variable (status : RefreshStatus)

def markPending : RefreshStatus := { status with pending := true }

def markDirty : RefreshStatus :=
  { status with dirtyEpoch := saturatingAdd status.dirtyEpoch 1, pending := true }

def acknowledgeReconciliationLocked (epoch : Nat) : RefreshStatus :=
  let acknowledged := min epoch status.dirtyEpoch
  let reconciledEpoch := max status.reconciledEpoch acknowledged
  {
    status with
    reconciledEpoch := reconciledEpoch,
    pending := !decide (status.dirtyEpoch ≤ reconciledEpoch)
  }

def markRetrying : RefreshStatus := { status with refreshing := false, pending := true }

def markRefreshing : RefreshStatus :=
  { status with refreshingEpoch := status.dirtyEpoch, refreshing := true, pending := true }

def markRefreshError : RefreshStatus := { status with refreshing := false, pending := true }

def markRefreshed : RefreshStatus :=
  { status with refreshing := false }.acknowledgeReconciliationLocked
    (min status.refreshingEpoch status.dirtyEpoch)

end RefreshStatus

-----------------------------------------------------------------------------------------
-- The state of the leader
-----------------------------------------------------------------------------------------

inductive GraphRefreshBackend where
  | poll
  | native
  | auto
deriving DecidableEq, Repr

inductive WatchLoop where
  | native
  | poll
deriving DecidableEq, Repr

def startupBatch : WatchChangeBatch := { fullRescan := true }

/-- What a refresh is for: the startup before one of the loops, or a batch of a loop. -/
inductive Duty where
  | startup (loop : WatchLoop)
  | serve (loop : WatchLoop) (batch : WatchChangeBatch)
deriving DecidableEq, Repr

def Duty.batch : Duty → WatchChangeBatch
  | .startup _ => startupBatch
  | .serve _ batch => batch

/-- How many edits there were, and how many changes were marked, when an attempt began. -/
structure Began where
  edits : Nat
  marked : Nat
deriving DecidableEq, Repr

/-- Where the leader stands. `received` holds the first message of a batch, `batched` a batch
that its loop has collected; `attempting` is the top of the retry loop and `materializing` a
refresh under way.
-/
inductive Position where
  | starting
  | probing (delivered : Bool)
  | startup (loop : WatchLoop)
  | attempting (duty : Duty) (attempts : Nat)
  | materializing (duty : Duty) (attempts : Nat) (began : Began)
  | nativeWaiting
  | received (message : WatchMessage)
  | collecting (batch : WatchChangeBatch)
  | batched (loop : WatchLoop) (batch : WatchChangeBatch)
  | baseline (readings : Readings)
  | polling (batch : Option WatchChangeBatch) (readings : Readings)
  | returned
deriving DecidableEq, Repr

def Duty.loop : Duty → WatchLoop
  | .startup loop | .serve loop _ => loop

/-- The native watcher is installed: from its start until the native loop is left or not
chosen.
-/
def Position.watches : Position → Bool
  | .probing _ | .nativeWaiting | .received _ | .collecting _ => true
  | .startup loop | .batched loop _ => loop = .native
  | .attempting duty _ | .materializing duty _ _ => duty.loop = .native
  | .starting | .baseline _ | .polling _ _ | .returned => false

/-- The watcher's callback between `mark_dirty` and the end of `try_send`. -/
inductive Callback where
  | sending (message : WatchMessage)
  | overflowing
deriving DecidableEq, Repr

/-- What a call of `mark_dirty` stands for: a watch event, or the batch about to be refreshed.
-/
inductive Change where
  | event (event : Event)
  | batch (batch : WatchChangeBatch)
deriving DecidableEq, Repr

structure SuccessfulRefresh where
  batch : WatchChangeBatch
  began : Began
deriving DecidableEq, Repr

/-- The files, the watcher, the leader's variables and the reported status; the poll loop's
snapshot is empty until it takes its baseline. `edits`, `marked` and `succeeded` are the history
of the run.
-/
structure LeaderState where
  files : WatchFileSnapshot
  undelivered : List WatchMessage := []
  callback : Option Callback := none
  channel : Option WatchMessage := none
  overflowed : Bool := false
  queued : List WatchMessage := []
  pendingFailed : Option WatchChangeBatch := none
  previousSnapshot : WatchFileSnapshot := []
  status : RefreshStatus := {}
  position : Position := .starting
  edits : List String := []
  marked : List (Nat × Change) := []
  succeeded : List SuccessfulRefresh := []
deriving DecidableEq, Repr

/-- The top of a loop. -/
def waiting (loop : WatchLoop) : Position :=
  match loop with
  | .native => .nativeWaiting
  | .poll => .polling none []

/-- The batch of a loop whose deadline passes without an event. -/
def timerBatch : WatchChangeBatch := { fullRescan := true, eventCount := 0 }

namespace LeaderState

def markDirty (state : LeaderState) (change : Change) : LeaderState :=
  {
    state with
    status := state.status.markDirty,
    marked := state.marked ++ [(state.status.markDirty.dirtyEpoch, change)]
  }

def dropWatcher (state : LeaderState) : LeaderState :=
  {
    state with
    undelivered := [],
    callback := none,
    channel := none,
    overflowed := false,
    queued := []
  }

def returns (state : LeaderState) : LeaderState :=
  { state.dropWatcher with position := .returned }

/-- `swap(false)` on the overflow flag, and its effect on the batch. -/
def swapOverflow (state : LeaderState) (batch : WatchChangeBatch)
    : LeaderState × WatchChangeBatch :=
  ({ state with overflowed := false }, if state.overflowed then batch.markOverflow else batch)

/-- The next message, of the probe's queue first. -/
def nextMessage (state : LeaderState) : Option (WatchMessage × LeaderState) :=
  match state.queued with
  | message :: rest => some (message, { state with queued := rest })
  | [] => state.channel.map (fun message => (message, { state with channel := none }))

/-- The native loop fails: with the `auto` backend the poll loop takes over. -/
def nativeFailed (backend : GraphRefreshBackend) (error : String) (state : LeaderState)
    : LeaderState :=
  if backend = .auto ∧ ¬ "configuration changed".toList <:+: error.toList then
    { state.dropWatcher with pendingFailed := none, position := .baseline [] }
  else state.returns

/-- What follows a refresh that `refresh_batch` reports as `ok`. -/
def finishRefresh (state : LeaderState) (duty : Duty) (ok : Bool) : LeaderState :=
  match duty, ok with
  | .startup .native, true => { state with position := .nativeWaiting }
  | .startup .poll, true => { state with position := .baseline [] }
  | .startup _, false => state.returns
  | .serve loop _, true => { state with position := waiting loop, pendingFailed := none }
  | .serve loop batch, false =>
      { state with position := waiting loop, pendingFailed := some batch }

end LeaderState

-- Steps of the environment and of the watcher thread

/-- One step; `directories` are the paths that are directories when a filter looks at them. -/
inductive RefreshAction where
  | edit (path : String) (file : Option WatchFileState) (event : Event)
  | report (message : WatchMessage)
  | callback (directories : List String)
  | trySend
  | storeOverflow
  | start (started : Bool)
  | probeReceive
  | probeTimeout
  | probeError
  | startupDirty
  | beginAttempt
  | attemptOk (stopping : Bool)
  | attemptFailed (retrying : Bool)
  | receive (deadlinePassed : Bool)
  | disconnect
  | openBatch (directories : List String) (deadlinePassed : Bool)
  | collectMore (directories : List String)
  | collectEnd
  | proceed (configurationChanged retryDue reconciliationDue : Bool)
  | visit (path : String)
  | finishWalk (deadlinePassed : Bool)
  | settle
  | walkError
  | stop
deriving DecidableEq, Repr

section Steps

variable (filter : WatchEventFilter) (backend : GraphRefreshBackend)

/-- An edit changes the state of a relevant file; a watcher has an event for it. -/
def editStep (state : LeaderState) (path : String) (file : Option WatchFileState)
    (event : Event)
    : Option LeaderState :=
  if state.files.lookup path ≠ file ∧ path ∈ filter.relevantPaths event then
    some {
      state with
      files := editFile state.files path file,
      edits := state.edits ++ [path],
      undelivered :=
        if state.position.watches then state.undelivered ++ [.event event] else state.undelivered
    }
  else none

def isProbeEvent (event : Event) : Bool :=
  event.paths.any filter.underProbe

def callbackRelevant (directories : List String) (event : Event) : Bool :=
  event.needRescan
  || isProbeEvent filter event
  || (watchEventRefreshes event
    && event.paths.any (fun path =>
      (filter.relevantPath path).isSome || filter.directoryChangePath directories path))

/-- The closure of `start_native_watcher`, up to its `try_send`. -/
def callbackStep (state : LeaderState) (directories : List String) : Option LeaderState :=
  match state.undelivered, state.callback with
  | .event event :: rest, none =>
      let state := { state with undelivered := rest }
      if callbackRelevant filter directories event then
        let state := { state with callback := some (.sending (.event event)) }
        some (if isProbeEvent filter event then state else state.markDirty (.event event))
      else some state
  | .error error :: rest, none =>
      some { state with undelivered := rest, callback := some (.sending (.error error)) }
  | _, _ => none

def trySendStep (state : LeaderState) : Option LeaderState :=
  match state.callback with
  | some (.sending message) =>
      match state.channel with
      | none => some { state with channel := some message, callback := none }
      | some _ => some { state with callback := some .overflowing }
  | _ => none

def storeOverflowStep (state : LeaderState) : Option LeaderState :=
  match state.callback with
  | some .overflowing => some { state with overflowed := true, callback := none }
  | _ => none

-----------------------------------------------------------------------------------------
-- Steps of the leader
-----------------------------------------------------------------------------------------

def startStep (state : LeaderState) (started : Bool) : Option LeaderState :=
  match state.position with
  | .starting =>
      match backend, started with
      | .poll, _ => some { state with position := .startup .poll }
      | .native, true | .auto, true => some { state with position := .probing false }
      | .auto, false => some { state with position := .startup .poll }
      | .native, false => some state.returns
  | _ => none

/-- The choice of the loop after the health probe. -/
def probeEnd (state : LeaderState) (delivered : Bool) : LeaderState :=
  if delivered = false ∧ backend = .auto then
    { state.dropWatcher with position := .startup .poll }
  else { state with position := .startup .native }

def probeReceiveStep (state : LeaderState) : Option LeaderState :=
  match state.position, state.channel with
  | .probing _, some (.event event) =>
      let own := !event.paths.isEmpty && event.paths.all filter.underProbe
      some {
        state with
        channel := none,
        queued := if own then state.queued else state.queued ++ [.event event],
        position := .probing true
      }
  | .probing delivered, some (.error error) =>
      some (probeEnd backend
        { state with channel := none, queued := state.queued ++ [.error error] } delivered)
  | _, _ => none

def probeTimeoutStep (state : LeaderState) : Option LeaderState :=
  match state.position with
  | .probing delivered => some (probeEnd backend state delivered)
  | _ => none

def probeErrorStep (state : LeaderState) : Option LeaderState :=
  match state.position with
  | .probing _ => some state.returns
  | _ => none

def startupDirtyStep (state : LeaderState) : Option LeaderState :=
  match state.position with
  | .startup loop =>
      some {
        state.markDirty (.batch startupBatch) with
        position := .attempting (.startup loop) 0
      }
  | _ => none

/-- The largest number of attempts that `refresh_batch` allows. -/
def maxAttempts : Nat := 4

def beginAttemptStep (state : LeaderState) : Option LeaderState :=
  match state.position with
  | .attempting duty attempts =>
      if duty.batch.hasChanges then
        some {
          state with
          status := state.status.markPending.markRefreshing,
          position :=
            .materializing duty (attempts + 1) ⟨state.edits.length, state.marked.length⟩
        }
      else some (state.finishRefresh duty true)
  | _ => none

def attemptOkStep (state : LeaderState) (stopping : Bool) : Option LeaderState :=
  match state.position with
  | .materializing duty _ began =>
      some (LeaderState.finishRefresh
        {
          state with
          status := state.status.markRefreshed,
          succeeded := state.succeeded ++ [⟨duty.batch, began⟩]
        } duty (!stopping))
  | _ => none

def attemptFailedStep (state : LeaderState) (retrying : Bool) : Option LeaderState :=
  match state.position with
  | .materializing duty attempts _ =>
      let state := { state with status := state.status.markRefreshError }
      if retrying && decide (attempts < maxAttempts) then
        some { state with position := .attempting duty attempts }
      else
        some (LeaderState.finishRefresh
          {
            state with
            status := if retrying then state.status.markRetrying else state.status
          } duty false)
  | _ => none

/-- The message that starts a batch; a deadline stands in for one. -/
def receiveStep (state : LeaderState) (deadlinePassed : Bool) : Option LeaderState :=
  match state.position, state.nextMessage with
  | .nativeWaiting, some (message, state) => some { state with position := .received message }
  | .nativeWaiting, none =>
      if deadlinePassed then
        some { state with position := .received (.event { kind := .other, paths := [] }) }
      else none
  | _, _ => none

def disconnectStep (state : LeaderState) : Option LeaderState :=
  match state.position, state.nextMessage with
  | .nativeWaiting, none | .collecting _, none =>
      some (state.nativeFailed backend "filesystem watcher stopped")
  | _, _ => none

/-- The first part of `collect_watch_batch`. -/
def openBatchStep (state : LeaderState) (directories : List String) (deadlinePassed : Bool)
    : Option LeaderState :=
  match state.position with
  | .received message =>
      match applyWatchMessage filter directories message {} with
      | .error error => some (state.nativeFailed backend error)
      | .ok batch =>
          let (state, batch) := state.swapOverflow batch
          if batch.hasChanges then some { state with position := .collecting batch }
          else if deadlinePassed then some { state with position := .batched .native timerBatch }
          else some { state with position := .nativeWaiting }
  | _ => none

def collectMoreStep (state : LeaderState) (directories : List String) : Option LeaderState :=
  match state.position, state.nextMessage with
  | .collecting batch, some (message, state) =>
      match applyWatchMessage filter directories message batch with
      | .error error => some (state.nativeFailed backend error)
      | .ok batch => some { state with position := .collecting batch }
  | _, _ => none

def collectEndStep (state : LeaderState) : Option LeaderState :=
  match state.position with
  | .collecting batch =>
      let (state, batch) := state.swapOverflow batch
      some { state with position := .batched .native batch }
  | _ => none

/-- The hook `before_refresh` of the two service loops. -/
def marksDirty (loop : WatchLoop) (batch : WatchChangeBatch) : Bool :=
  match loop with
  | .native => batch.eventCount = 0 && batch.hasChanges
  | .poll => batch.hasChanges

/-- The collected batch joined to the failed one. -/
def joinedBatch (pendingFailed : Option WatchChangeBatch) (collected : WatchChangeBatch)
    (configurationChanged : Bool)
    : WatchChangeBatch :=
  let collected :=
    if configurationChanged then { collected with configurationChanged := true }.markFullRescan
    else collected
  match pendingFailed with
  | some previous => previous.merge collected
  | none => collected

/-- The failed batch is taken, and the hook may mark the joined one. -/
def beforeRefresh (state : LeaderState) (loop : WatchLoop) (batch : WatchChangeBatch)
    : LeaderState :=
  let taken := { state with pendingFailed := none }
  if (decide (0 < batch.eventCount) || state.pendingFailed.isNone) && marksDirty loop batch then
    taken.markDirty (.batch batch)
  else taken

/-- A loop has collected a batch: it joins the failed one and is refreshed unless a retry is
still to wait for. `next_retry` is set exactly while there is a failed batch.
-/
def proceedStep (state : LeaderState)
    (configurationChanged retryDue reconciliationDue : Bool)
    : Option LeaderState :=
  match state.position with
  | .batched loop collected =>
      let batch := joinedBatch state.pendingFailed collected configurationChanged
      let hadPendingFailure := state.pendingFailed.isSome
      let state := beforeRefresh state loop batch
      if batch.configurationChanged then some state.returns
      else
        let retryDue := hadPendingFailure && retryDue
        let batch := if retryDue || reconciliationDue then batch.markFullRescan else batch
        if hadPendingFailure && !retryDue then
          some { state with pendingFailed := some batch, position := waiting loop }
        else some { state with position := .attempting (.serve loop batch) 0 }
  | _ => none

def visitStep (state : LeaderState) (path : String) : Option LeaderState :=
  match state.position with
  | .baseline readings =>
      some { state with position := .baseline (visitFile readings state.files path) }
  | .polling batch readings =>
      some { state with position := .polling batch (visitFile readings state.files path) }
  | _ => none

/-- The first batch of `collect_poll_batch_until`. -/
def openPollBatch (changedPaths : List String) : WatchChangeBatch :=
  let batch := WatchChangeBatch.extendPaths { eventCount := 1 } changedPaths
  if batch.paths.any isConfigurationKey then
    { batch with configurationChanged := true }.markFullRescan
  else batch

def extendPollBatch (batch : WatchChangeBatch) (changedPaths : List String)
    : WatchChangeBatch :=
  let extended := batch.extendPaths changedPaths
  let configured :=
    if changedPaths.any isConfigurationKey then
      { extended with configurationChanged := true }.markFullRescan
    else extended
  { configured with eventCount := configured.eventCount + 1 }

def finishWalkStep (state : LeaderState) (deadlinePassed : Bool) : Option LeaderState :=
  match state.position with
  | .baseline readings =>
      some {
        state with
        previousSnapshot := watchFileSnapshot readings state.files,
        position := .polling none []
      }
  | .polling batch readings =>
      let current := watchFileSnapshot readings state.files
      let changedPaths := watchSnapshotDiff state.previousSnapshot current
      let state := { state with previousSnapshot := current }
      match batch with
      | none =>
          if changedPaths = [] then
            if deadlinePassed then some { state with position := .batched .poll timerBatch }
            else some { state with position := .polling none [] }
          else some { state with position := .polling (some (openPollBatch changedPaths)) [] }
      | some batch =>
          if changedPaths = [] then some { state with position := .polling (some batch) [] }
          else
            some { state with position := .polling (some (extendPollBatch batch changedPaths)) [] }
  | _ => none

def settleStep (state : LeaderState) : Option LeaderState :=
  match state.position with
  | .polling (some batch) [] => some { state with position := .batched .poll batch }
  | _ => none

def walkErrorStep (state : LeaderState) : Option LeaderState :=
  match state.position with
  | .baseline _ | .polling _ _ => some state.returns
  | _ => none

/-- A requested stop is seen while a loop waits. -/
def stopStep (state : LeaderState) : Option LeaderState :=
  match state.position with
  | .nativeWaiting | .polling _ _ => some state.returns
  | _ => none

def refreshMove (state : LeaderState) : RefreshAction → Option LeaderState
  | .edit path file event => editStep filter state path file event
  | .report message =>
      if state.position.watches then
        some { state with undelivered := state.undelivered ++ [message] }
      else none
  | .callback directories => callbackStep filter state directories
  | .trySend => trySendStep state
  | .storeOverflow => storeOverflowStep state
  | .start started => startStep backend state started
  | .probeReceive => probeReceiveStep filter backend state
  | .probeTimeout => probeTimeoutStep backend state
  | .probeError => probeErrorStep state
  | .startupDirty => startupDirtyStep state
  | .beginAttempt => beginAttemptStep state
  | .attemptOk stopping => attemptOkStep state stopping
  | .attemptFailed retrying => attemptFailedStep state retrying
  | .receive deadlinePassed => receiveStep state deadlinePassed
  | .disconnect => disconnectStep backend state
  | .openBatch directories deadlinePassed =>
      openBatchStep filter backend state directories deadlinePassed
  | .collectMore directories => collectMoreStep filter backend state directories
  | .collectEnd => collectEndStep state
  | .proceed configurationChanged retryDue reconciliationDue =>
      proceedStep state configurationChanged retryDue reconciliationDue
  | .visit path => visitStep state path
  | .finishWalk deadlinePassed => finishWalkStep state deadlinePassed
  | .settle => settleStep state
  | .walkError => walkErrorStep state
  | .stop => stopStep state

/-- The system of leader, watcher and environment. -/
def refreshStep : StepFn LeaderState RefreshAction RefreshAction :=
  fun state action => (refreshMove filter backend state action).map (fun next => (action, next))

end Steps

/-- A filter to which every file matters and that keeps its probe apart. -/
def plainFilter : WatchEventFilter where
  relevantPath path := if path = ".codebaseGraph/watch-probe/probe" then none else some path
  isConfigurationPath _ := false
  descends _ := false
  hasExtension _ := true
  underProbe path := path = ".codebaseGraph/watch-probe/probe"

def modified (path : String) : Event :=
  { kind := .modify false, paths := [path] }

/-- The native loop comes up and refreshes everything once. -/
def startupSchedule : List RefreshAction :=
  [
    .start true,
    .report (.event (modified ".codebaseGraph/watch-probe/probe")),
    .callback [],
    .trySend,
    .probeReceive,
    .probeTimeout,
    .startupDirty,
    .beginAttempt,
    .attemptOk false
  ]

def editSchedule (path : String) (nanos : Nat) : List RefreshAction :=
  [.edit path (some ⟨nanos, 1⟩) (modified path), .callback [], .trySend]

end CodebaseGraph.Refresh
