import CodebaseGraph.Storage.RunWorkspace

/-! Publication and recovery of generations in the managed store (`src/storage/managed.rs`).
-/

namespace CodebaseGraph.Storage

open CodebaseGraph.Crash Program

/-- A failed publication and whether it may have left effects behind. -/
structure PublicationFailure where
  source : NativeError
  mayHaveEffects : Bool
deriving DecidableEq, Repr

def PublicationFailure.before (source : NativeError) : PublicationFailure :=
  ⟨source, false⟩

def PublicationFailure.ambiguous (source : NativeError) : PublicationFailure :=
  ⟨source, true⟩

inductive ReadyProbe where
  | absent
  | valid
  | invalid (error : NativeError)
deriving DecidableEq, Repr

inductive RunResolution where
  | committed (previous : Option String)
  | obsolete (published : GenerationPaths)
deriving DecidableEq, Repr

/-- Rust's debug form of an optional id. -/
def debugOption : Option String → String
  | some text => s!"Some({text.quote})"
  | none => "None"

section Publication

variable (host : Host)

def probeStore (paths : GenerationPaths) (store : Store) : ReadyProbe :=
  match store.root? paths with
  | none => .absent
  | some .other => .invalid (.invalidInput s!"invalid generation root {paths.root host}")
  | some (.directory files) =>
      match validateReadyGeneration host paths files with
      | .ok () => .valid
      | .error error => .invalid error

/-- `ManagedStore::probe_ready`; a failed read is invalid evidence, never an absent one. -/
def probeReady {Error : Type} (paths : GenerationPaths) : Disk Error ReadyProbe :=
  (observe id (fun store => (.ok (probeStore host paths store) : Except NativeError _))).recoverWith
    (fun fault => ret (.invalid fault))

def requireReady (paths : GenerationPaths) : Disk NativeError Unit := do
  match ← probeReady host paths with
  | .valid => ret ()
  | .invalid error => raise error
  | .absent =>
      raise (.invalidInput s!"required generation is absent: {paths.root host}")

/-- `validate_ready_generation` on the files of the store. -/
def validateReady (paths : GenerationPaths) : Disk NativeError Unit :=
  observe id (fun store => do validateReadyGeneration host paths (← store.files paths))

def readMetadata (paths : GenerationPaths) : Disk NativeError GenerationMetadata :=
  observe id (fun store => do readGenerationMetadata host paths (← store.files paths))

/-- `sync_dir` of a generation directory. -/
def syncDir (paths : GenerationPaths) : Disk NativeError Unit :=
  observe id (fun store =>
    match store.root? paths with
    | some (.directory _) => .ok ()
    | some .other => .error (.invalidInput s!"path {paths.root host} is not a directory")
    | none => .error notFound)

def syncParentDir (paths : GenerationPaths) : Disk NativeError Unit := do
  syncDir host paths
  uncertainStep

def completeRootSync : Disk NativeError Unit :=
  uncertainStep

def readActiveGeneration : Disk NativeError (Option ActiveGeneration) :=
  observe id (fun store =>
    match store.active with
    | .absent => .ok none
    | .symlink | .other =>
        .error (.invalidInput
          s!"active generation pointer is not a regular file: {host.storageRoot}/active.json")
    | .regular (.error unreadable) => .error unreadable
    | .regular (.ok active) =>
        if active.schemaVersion ≠ managedSchemaVersion then
          .error (.invalidInput
            s!"active generation pointer has schema_version {active.schemaVersion}, expected 2")
        else
          (validateGenerationId active.generationId).map (fun _ => some active))

/-- One rename moves the staged directory of a run to its published place. -/
def Store.promote (store : Store) (runId generationId : String) : Store :=
  { store.updateRun runId (fun run => { run with candidate := none }) with
    generations := Function.update store.generations generationId
      (store.root? (.staged runId generationId)) }

def promoteCandidateGenerationLocked (runId generationId : String) : Disk NativeError Unit := do
  validateReady host (.staged runId generationId)
  observe id (fun store =>
    if (store.generations generationId).isSome then
      .error (.invalidInput
        s!"generation destination already exists: {(GenerationPaths.published generationId).root host}")
    else
      .ok ())
  uncertainStep
  effect id (fun store => store.promote runId generationId)
  syncParentDir host (.published generationId)

/-- The metadata and then `READY` are rewritten in place, and the pointer is renamed last. -/
def activatePublishedGenerationLocked (generationId : String) (nowMs : Nat)
    : Disk NativeError ActiveGeneration := do
  let published := GenerationPaths.published generationId
  validateReady host published
  let metadata ← readMetadata host published
  effect id (fun store =>
    store.changeFiles published (fun files =>
      { files with metadata := .regular (.ok { metadata with publishedAtMs := nowMs }) }))
  -- `fs::write` empties the file before it writes
  effect id (fun store =>
    store.changeFiles published (fun files => { files with ready := .regular "" }))
  effect id (fun store =>
    store.changeFiles published (fun files => { files with ready := .regular s!"{nowMs}\n" }))
  syncDir host published
  let active : ActiveGeneration :=
    { schemaVersion := managedSchemaVersion
      generationId := generationId
      publishedAt := s!"unix:{nowMs}"
      activatedAtMs := nowMs }
  effect id (fun store => { store with active := .regular (.ok active) })
  completeRootSync
  ret active

/-- The candidate is already active: only the interrupted barriers are completed. -/
def confirmActivated (generationId : String) : Disk PublicationFailure Unit := do
  (requireReady host (.published generationId)).mapError .ambiguous
  (syncParentDir host (.published generationId)).mapError .ambiguous
  completeRootSync.mapError .ambiguous

/-- The base of the run is no longer active. -/
def resolveStale (journal : RunJournal) (candidateId : String)
    (active : Option ActiveGeneration) (recovery : Bool)
    : Disk PublicationFailure RunResolution :=
  if !recovery then
    raise (.before (.invalidInput
      s!"stale generation base; expected active {debugOption journal.baseGenerationId}, found {debugOption (active.map ActiveGeneration.generationId)}"))
  else
    match active with
    | some current => do
        let paths ← ofExcept ((layoutGeneration current.generationId).mapError .before)
        (requireReady host paths).mapError .before
        ret (.obsolete (.published candidateId))
    | none =>
        raise (.before (.invalidInput
          "cannot resolve stale publishing evidence without a valid active generation"))

/-- Bring the candidate to its published place unless it is there. -/
def placeCandidate (runId candidateId : String) : Disk PublicationFailure Unit := do
  match ← probeReady host (.published candidateId) with
  | .invalid error => raise (.before error)
  | .valid => ret ()
  | .absent => do
      (requireReady host (.staged runId candidateId)).mapError .before
      (promoteCandidateGenerationLocked host runId candidateId).mapError .ambiguous

def commitCandidate (runId candidateId : String) (nowMs : Nat)
    : Disk PublicationFailure ActiveGeneration := do
  placeCandidate host runId candidateId
  (syncParentDir host (.published candidateId)).mapError .ambiguous
  (activatePublishedGenerationLocked host candidateId nowMs).mapError .ambiguous

def validateBase : Option String → Except NativeError Unit
  | some base => validateGenerationId base
  | none => .ok ()

/-- The candidate of a journal whose ids may be used in paths. -/
def journalCandidate (journal : RunJournal) : Except PublicationFailure String :=
  match journal.candidateGenerationId with
  | none =>
      .error (.before (.invalidInput "publishing run is missing its candidate generation"))
  | some candidateId => do
      (validateGenerationId candidateId).mapError .before
      (validateBase journal.baseGenerationId).mapError .before
      .ok candidateId

/-- `ManagedStore::finish_run_transaction_locked`: the resolution of a publishing run, with
the pointer as it is afterwards.
-/
def finishRunTransactionLocked (journal : RunJournal) (runId : String)
    (active : Option ActiveGeneration) (recovery : Bool) (nowMs : Nat)
    : Disk PublicationFailure (RunResolution × Option ActiveGeneration) := do
  (ensureRegistryEmpty host).mapError .before
  let candidateId ← ofExcept (journalCandidate journal)
  let activeId := active.map ActiveGeneration.generationId
  if activeId = some candidateId then do
    confirmActivated host candidateId
    ret (.committed journal.baseGenerationId, active)
  else if activeId ≠ journal.baseGenerationId then do
    let resolution ← resolveStale host journal candidateId active recovery
    ret (resolution, active)
  else do
    let activated ← commitCandidate host runId candidateId nowMs
    ret (.committed journal.baseGenerationId, some activated)

end Publication

section WriteSession

variable (host : Host)

/-- The counts a graph summary reports. -/
structure GenerationStats where
  nodeCount : Nat
  edgeCount : Nat
deriving DecidableEq, Repr

def writeGenerationMetadataWithStats (paths : GenerationPaths)
    (baseGenerationId : Option String) (stats : GenerationStats) (nowMs : Nat)
    : Disk NativeError Unit := do
  let files ← observe id (fun store => do
    let files ← store.files paths
    validateCandidateGeneration host paths files
    .ok files)
  let sizes := generationSizes host files
  effect id (fun store =>
    store.changeFiles paths (fun files =>
      { files with
        metadata := .regular (.ok
          { schemaVersion := managedSchemaVersion
            generationId := paths.generationId
            createdAtMs := nowMs
            publishedAtMs := 0
            baseGenerationId := baseGenerationId
            logicalSizeBytes := sizes.1
            physicalSizeBytes := sizes.2
            nodeCount := stats.nodeCount
            edgeCount := stats.edgeCount }) }))
  syncDir host paths

/-- `create_new_file` on `READY`, which fails when the file exists. -/
def createReady (paths : GenerationPaths) : Disk NativeError Unit := do
  observe id (fun store => do
    let files ← store.files paths
    if files.ready.isPresent then .error (.io "File exists (os error 17)") else .ok ())
  effect id (fun store =>
    store.changeFiles paths (fun files => { files with ready := .regular "" }))
  effect id (fun store =>
    store.changeFiles paths (fun files => { files with ready := .regular "prepared\n" }))
  uncertainStep

def prepareCandidate (workspace : RunWorkspace) (candidateId : String)
    (stats : GenerationStats) (nowMs : Nat)
    : Disk NativeError Unit := do
  let paths := GenerationPaths.staged workspace.runId candidateId
  ensureRegistryEmpty host
  observe id (fun store => do validateCandidateGeneration host paths (← store.files paths))
  let journal ← readJournal workspace.runId
  writeGenerationMetadataWithStats host paths journal.baseGenerationId stats nowMs
  createReady paths
  syncDir host paths
  markCandidateReady workspace.runId

/-- A write session: its candidate, its workspace until it is taken, and whether its candidate
is marked ready.
-/
structure ManagedWriteSession where
  candidateId : String
  workspace : Option RunWorkspace
  ready : Bool := false
deriving DecidableEq, Repr

def markReadyWithStats (session : ManagedWriteSession) (stats : GenerationStats) (nowMs : Nat)
    : Disk NativeError Unit :=
  match session.workspace with
  | some workspace => prepareCandidate host workspace session.candidateId stats nowMs
  | none => raise (.invalidInput "managed write session already finished")

/-- `abort_workspace_after_error`: the error to report after the workspace was aborted. -/
def abortWorkspaceAfterError (workspace : RunWorkspace) (primary : NativeError)
    (order : List RunEntry)
    : Disk NativeError NativeError :=
  ((closeWorkspace host workspace (some primary.display) order).andThen
    (fun _ => ret primary)).recoverWith (fun cleanup =>
      ret (.invalidInput s!"{primary.display}; cleanup failed: {cleanup.display}"))

/-- Abort the workspace because of a failure and fail with the error that reports both. -/
def failAfterAbort {α : Type} (workspace : RunWorkspace) (failure : PublicationFailure)
    (order : List RunEntry)
    : Disk PublicationFailure α := do
  let error ← (abortWorkspaceAfterError host workspace failure.source order).mapError .before
  raise { failure with source := error }

def publishCandidateInnerTyped (workspace : RunWorkspace) (nowMs : Nat)
    : Disk PublicationFailure Unit := do
  (ensureRegistryEmpty host).mapError .before
  uncertainStep.mapError .before
  let active ← (readActiveGeneration host).mapError .before
  let journal ← (readJournal workspace.runId).mapError .before
  let _ ← finishRunTransactionLocked host journal workspace.runId active false nowMs
  ret ()

/-- A session whose candidate is not ready yet marks it first. -/
def ensureMarkedReady (session : ManagedWriteSession) (workspace : RunWorkspace)
    (stats : GenerationStats) (nowMs : Nat) (order : List RunEntry)
    : Disk PublicationFailure Unit :=
  if session.ready then
    ret ()
  else
    (markReadyWithStats host session stats nowMs).recoverWith (fun error =>
      failAfterAbort host workspace (.before error) order)

/-- The publication of a taken workspace. A failure that may have had effects keeps the run as
evidence for recovery; any other aborts it.
-/
def publishWorkspace (workspace : RunWorkspace) (candidateId : String) (nowMs : Nat)
    (order : List RunEntry)
    : Disk PublicationFailure String := do
  (markPhase workspace.runId .publishing none none).recoverWith (fun error =>
    failAfterAbort host workspace (.before error) order)
  (publishCandidateInnerTyped host workspace nowMs).recoverWith (fun failure =>
    if failure.mayHaveEffects then
      raise failure
    else
      failAfterAbort host workspace failure order)
  (markPhase workspace.runId .published (some candidateId) none).ignore
  (closeWorkspace host workspace none order).ignore
  ret candidateId

/-- `publish_with_stats_typed` with the failure it reports the error of. -/
def publishWithStats (session : ManagedWriteSession) (stats : GenerationStats) (nowMs : Nat)
    (order : List RunEntry)
    : Disk PublicationFailure String :=
  match session.workspace with
  | some workspace => do
      ensureMarkedReady host session workspace stats nowMs order
      publishWorkspace host workspace session.candidateId nowMs order
  | none =>
      -- an unready session without a workspace fails in `mark_ready_with_stats` already
      let reason :=
        if session.ready then "managed write session has already been finished"
        else "managed write session already finished"
      raise (.before (.invalidInput reason))

def publishWithStatsTyped (session : ManagedWriteSession) (stats : GenerationStats)
    (nowMs : Nat) (order : List RunEntry)
    : Disk NativeError String :=
  (publishWithStats host session stats nowMs order).mapError PublicationFailure.source

end WriteSession

section BeginWrite

variable (host : Host)

/-- The directory of a new run, with its lease and its registration if it gets one. -/
def createRunRoot (runId : String) (registered : Bool) : Disk NativeError Unit := do
  observe id (fun store =>
    if (store.runs runId).isSome then
      .error (.invalidInput "run root already exists")
    else
      .ok ())
  effect id (fun store =>
    { store with runs := Function.update store.runs runId (some { registered := registered }) })
  uncertainStep

/-- The rest of `RunWorkspace::create_scoped`. -/
def createScoped (runId : String) (baseGenerationId : Option String)
    : Disk NativeError Unit := do
  effect id (fun store => store.updateRun runId (fun run => { run with inDomain := true }))
  writeJournal runId
    { runId := runId
      phase := .created
      baseGenerationId := baseGenerationId
      candidateGenerationId := none
      activeGenerationId := none
      lastError := none }
  uncertainStep

def setUpCandidate (runId candidateId : String) : Disk NativeError Unit := do
  effect id (fun store => store.updateRun runId (fun run => { run with barrier := true }))
  effect id (fun store =>
    store.updateRun runId (fun run =>
      { run with candidate := some ⟨candidateId, .directory {}⟩ }))
  registerCandidate runId candidateId

/-- A failure drops the unfinished workspace. -/
def orDrop {α : Type} (workspace : RunWorkspace) (order : List RunEntry)
    (attempt : Disk NativeError α)
    : Disk NativeError α :=
  attempt.recoverWith (fun error => do
    (finishInner host workspace (some "workspace dropped without finish or abort")
      order).ignore
    raise error)

/-- `ManagedStore::begin_write` with the two ids it draws. -/
def beginWrite (runId candidateId : String) (registered : Bool) (order : List RunEntry)
    : Disk NativeError ManagedWriteSession := do
  uncertainStep
  ensureRegistryEmpty host
  -- `collect_registry` checks the registry once more before it removes retired phases
  ensureRegistryEmpty host
  uncertainStep
  let active ← readActiveGeneration host
  createRunRoot runId registered
  let workspace : RunWorkspace := { runId := runId, registered := registered }
  orDrop host { workspace with cleanupBarrier := false } order
    (createScoped runId (active.map ActiveGeneration.generationId))
  orDrop host workspace order (setUpCandidate runId candidateId)
  ret { candidateId := candidateId, workspace := some workspace }

end BeginWrite

section Recovery

variable (host : Host)

structure ManagedRecoveryReport where
  publishingRecovered : Nat := 0
  skippedLocked : Nat := 0
  observationComplete : Bool := true
deriving DecidableEq, Repr

def ManagedRecoveryReport.skip (report : ManagedRecoveryReport) : ManagedRecoveryReport :=
  { report with
    skippedLocked := report.skippedLocked + 1
    observationComplete := false }

/-- One run directory as the recovery meets it. -/
structure RunListing where
  runId : String
  leaseHeld : Bool
  nowMs : Nat
deriving DecidableEq, Repr

/-- What recovery finds of a run's registration. -/
inductive Registration where
  | missing
  | live
  | terminal
deriving DecidableEq, Repr

/-- A registration that cannot be read counts as missing. -/
def recoverRegistration {Error : Type} (run : RunDirectory) : Disk Error Registration :=
  (uncertainStep.andThen (fun _ =>
    ret (if !run.registered then .missing else if run.terminal then .terminal else .live)
    )).recoverWith (fun _ => ret .missing)

def readRunJournalOrDefault (runId : String) : Disk NativeError RunJournal :=
  observe id (fun store =>
    match store.runs runId with
    | some { journal := some content, .. } => content
    | _ =>
        .ok
          { runId := runId
            phase := .cleanupPending
            baseGenerationId := none
            candidateGenerationId := none
            activeGenerationId := none
            lastError := some "missing journal" })

def RunResolution.phase : RunResolution → RunPhase
  | .committed _ => .published
  | .obsolete _ => .failed

/-- The receipt of a resolved run: its journal and its terminal control. -/
def closeResolved (runId : String) (journal : RunJournal) (resolution : RunResolution)
    (active : Option ActiveGeneration)
    : Disk NativeError Unit := do
  uncertainStep
  writeJournal runId
    { runId := journal.runId
      phase := resolution.phase
      baseGenerationId := journal.baseGenerationId
      candidateGenerationId := journal.candidateGenerationId
      activeGenerationId := active.map ActiveGeneration.generationId
      lastError := none }
  uncertainStep
  effect id (fun store => store.updateRun runId (fun run => { run with terminal := true }))

/-- Only a live registration takes the receipt, and it may fail to. -/
def closeLive (registration : Registration) (closure : Disk NativeError Unit)
    : Disk NativeError Unit :=
  if registration = .live then closure.ignore else ret ()

/-- A publishing or published run is finished; every other phase has nothing to resolve. -/
def resolveRun (listing : RunListing) (registration : Registration) (journal : RunJournal)
    (active : Option ActiveGeneration) (report : ManagedRecoveryReport)
    : Disk NativeError (Option ActiveGeneration × ManagedRecoveryReport) :=
  if journal.phase = .publishing ∨ journal.phase = .published then do
    let (resolution, active) ←
      (finishRunTransactionLocked host journal listing.runId active true listing.nowMs).mapError
        PublicationFailure.source
    closeLive registration (closeResolved listing.runId journal resolution active)
    ret (active, { report with publishingRecovered := report.publishingRecovered + 1 })
  else
    ret (active, report)

/-- One round of the loop of `recover_runs_locked_typed` without the janitor. -/
def recoverRun (listing : RunListing) (active : Option ActiveGeneration)
    (report : ManagedRecoveryReport)
    : Disk NativeError (Option ActiveGeneration × ManagedRecoveryReport) := do
  match ← observe id (fun store => .ok (store.runs listing.runId)) with
  | none => ret (active, report)
  | some run =>
      if listing.leaseHeld ∨ !run.inDomain then
        ret (active, report.skip)
      else do
        let registration ← recoverRegistration run
        if registration = .terminal then
          ret (active, report)
        else do
          let journal ← readRunJournalOrDefault listing.runId
          resolveRun host listing registration journal active report

def recoverRunsLockedTyped : List RunListing → Option ActiveGeneration → ManagedRecoveryReport
    → Disk NativeError ManagedRecoveryReport
  | [], _, report => ret report
  | listing :: rest, active, report => do
      let (active, report) ← recoverRun host listing active report
      recoverRunsLockedTyped rest active report

/-- Whether an attempt succeeds, when its error is of no interest. -/
def succeeds {Error : Type} (attempt : Disk NativeError Unit) : Disk Error Bool :=
  (attempt.andThen (fun _ => ret true)).recoverWith (fun _ => ret false)

def recoverWithState (listings : List RunListing) : Disk NativeError ManagedRecoveryReport := do
  uncertainStep
  let active ← readActiveGeneration host
  recoverRunsLockedTyped host listings active {}

/-- Recovery is deferred when the reference domain is being changed by someone else. -/
def recoverInDomain (listings : List RunListing) : Disk NativeError ManagedRecoveryReport := do
  uncertainStep
  let mutation ← succeeds uncertainStep
  if mutation then recoverWithState host listings else ret { observationComplete := false }

/-- `recover_required_with_owned_writer` over the run directories in their listed order. -/
def recoverRequiredWithOwnedWriter (listings : List RunListing)
    : Disk NativeError ManagedRecoveryReport := do
  let work ← observe id (fun store =>
    .ok (listings.any (fun listing => (store.runs listing.runId).any RunDirectory.inDomain)))
  if !work then
    ret {}
  else do
    let empty ← succeeds (ensureRegistryEmpty host)
    if empty then recoverInDomain host listings else ret { observationComplete := false }

end Recovery

end CodebaseGraph.Storage
