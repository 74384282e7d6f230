import CodebaseGraph.Crash.Program
import CodebaseGraph.Storage.Generation
import Mathlib.Logic.Function.Basic

/-! The files of a managed store and the run workspaces in it (`src/storage/run_workspace.rs`).
Every change of a file that a reader can tell apart is one step of a program; an atomic write
is the one step of its rename, which may be reported as failed before or after it happened.
-/

namespace CodebaseGraph.Storage

open CodebaseGraph.Crash

inductive RunPhase where
  | created
  | staged
  | candidateReady
  | publishing
  | published
  | failed
  | cleanupPending
deriving DecidableEq, Repr

structure RunJournal where
  runId : String
  phase : RunPhase
  baseGenerationId : Option String
  candidateGenerationId : Option String
  activeGenerationId : Option String
  lastError : Option String
deriving DecidableEq, Repr

/-- The candidate directory `candidate/gen-{id}` of a run. -/
structure StagedCandidate where
  generationId : String
  root : GenerationRoot

/-- A run directory: its journal, its candidate, whether its reference scope and its cleanup
barrier are recorded, and the state of its registration with the maintenance lane.
-/
structure RunDirectory where
  journal : Option (Except NativeError RunJournal) := none
  candidate : Option StagedCandidate := none
  inDomain : Bool := false
  barrier : Bool := false
  registered : Bool := false
  terminal : Bool := false

structure ActiveGeneration where
  schemaVersion : Nat
  generationId : String
  publishedAt : String
  activatedAtMs : Nat
deriving DecidableEq, Repr

/-- What the store keeps on disk. `registry` is what a probe of the protected phase registry
answers; `recorded` lists every candidate id that a journal has ever named and is kept by no
file.
-/
structure Store where
  active : JsonFile ActiveGeneration := .absent
  generations : String → Option GenerationRoot := fun _ => none
  runs : String → Option RunDirectory := fun _ => none
  registry : Except String Bool := .ok true
  recorded : List String := []

namespace Store

def updateRun (store : Store) (runId : String) (change : RunDirectory → RunDirectory)
    : Store :=
  { store with
    runs := Function.update store.runs runId ((store.runs runId).map change) }

/-- What stands at the root of a generation. -/
def root? (store : Store) : GenerationPaths → Option GenerationRoot
  | .published generationId => store.generations generationId
  | .staged runId generationId => do
      let candidate ← (← store.runs runId).candidate
      if candidate.generationId = generationId then some candidate.root else none

/-- The files of a generation; reading below a missing root fails. -/
def files (store : Store) (paths : GenerationPaths) : Except NativeError GenerationDirectory :=
  match store.root? paths with
  | some (.directory files) => .ok files
  | some .other => .error (.io "Not a directory (os error 20)")
  | none => .error notFound

def changeFiles (store : Store) (paths : GenerationPaths)
    (change : GenerationDirectory → GenerationDirectory)
    : Store :=
  let changeRoot : GenerationRoot → GenerationRoot
    | .directory files => .directory (change files)
    | .other => .other
  match paths with
  | .published generationId =>
      { store with
        generations := Function.update store.generations generationId
          ((store.generations generationId).map changeRoot) }
  | .staged runId generationId =>
      store.updateRun runId (fun run =>
        { run with
          candidate := run.candidate.map (fun candidate =>
            if candidate.generationId = generationId then
              { candidate with root := changeRoot candidate.root }
            else
              candidate) })

end Store

/-- A program over the files of the store. Its faults are I/O errors. -/
abbrev Disk (Error α : Type) := Program Store NativeError Error α

open Program

/-- A step that leaves no trace in the store: taking a lock, creating a directory, syncing. -/
def uncertainStep : Disk NativeError Unit :=
  observe id (fun _ => .ok ())

def registryRoot (host : Host) : String :=
  s!"{host.storageRoot}/phases"

/-- `ensure_registry_empty`, with its text as an invalid input. -/
def ensureRegistryEmpty (host : Host) : Disk NativeError Unit :=
  let unverified (reason : String) : NativeError :=
    .invalidInput
      s!"containment_unknown: cannot verify protected phase registry {registryRoot host}: {reason}"
  observe (fun fault => unverified fault.display) (fun store =>
    match store.registry with
    | .ok true => .ok ()
    | .ok false =>
        .error (.invalidInput
          s!"containment_unknown: protected phase registry {registryRoot host} is not proven empty")
    | .error reason => .error (unverified reason))

/-- `RunWorkspace::journal` -/
def readJournal (runId : String) : Disk NativeError RunJournal :=
  observe id (fun store =>
    match store.runs runId with
    | some { journal := some content, .. } => content
    | _ => .error notFound)

/-- `RunWorkspace::write_journal`; what the registration is told of it is optional. -/
def writeJournal (runId : String) (journal : RunJournal) : Disk NativeError Unit :=
  effect id (fun store =>
    store.updateRun runId (fun run => { run with journal := some (.ok journal) }))

def markPhase (runId : String) (phase : RunPhase) (activeGenerationId lastError : Option String)
    : Disk NativeError Unit := do
  let journal ← readJournal runId
  writeJournal runId
    { journal with
      phase := phase
      activeGenerationId := activeGenerationId
      lastError := lastError }

/-- The journal records its candidate for the first time. -/
def registerCandidate (runId candidateGenerationId : String) : Disk NativeError Unit := do
  let journal ← readJournal runId
  effect id (fun store =>
    { store.updateRun runId (fun run =>
        { run with
          journal := some (.ok
            { journal with
              candidateGenerationId := some candidateGenerationId
              phase := .staged }) }) with
      recorded := candidateGenerationId :: store.recorded })

def markCandidateReady (runId : String) : Disk NativeError Unit := do
  let journal ← readJournal runId
  if journal.candidateGenerationId.isNone then
    raise (.invalidInput "cannot mark candidate ready without a candidate generation id")
  else
    writeJournal runId { journal with phase := .candidateReady, lastError := none }

/-- What a live process knows of its run: the registration it holds, the barrier it has set
and whether some phase still shares its lease.
-/
structure RunWorkspace where
  runId : String
  registered : Bool
  cleanupBarrier : Bool := true
  phaseOwned : Bool := false
deriving DecidableEq, Repr

/-- One entry of a run directory, as its recursive removal meets them. -/
inductive RunEntry where
  | journal
  | barrier
  | scope
  | candidateFile (remove : GenerationDirectory → GenerationDirectory)
  | candidate

def RunDirectory.removeEntry (run : RunDirectory) : RunEntry → RunDirectory
  | .journal => { run with journal := none }
  | .barrier => { run with barrier := false }
  | .scope => { run with inDomain := false }
  | .candidateFile remove =>
      { run with
        candidate := run.candidate.map (fun candidate =>
          match candidate.root with
          | .directory files => { candidate with root := .directory (remove files) }
          | .other => candidate) }
  | .candidate => { run with candidate := none }

/-- `remove_run_tree`: the entries in the order the directory lists them, then the directory.
Its refusal of symbolic links is one of the faults of its first step.
-/
def removeRunTree (runId : String) : List RunEntry → Disk NativeError Unit
  | [] => do
      uncertainStep
      effect id (fun store => { store with runs := Function.update store.runs runId none })
  | entry :: rest => do
      effect id (fun store => store.updateRun runId (fun run => run.removeEntry entry))
      removeRunTree runId rest

def markCleanupPending (runId : String) (primaryError : Option String)
    (cleanupError : NativeError)
    : Disk NativeError Unit :=
  let message :=
    match primaryError with
    | some primary => s!"{primary}; cleanup pending: {cleanupError.display}"
    | none => s!"cleanup pending: {cleanupError.display}"
  markPhase runId .cleanupPending none (some message)

/-- A failed `finish_inner` with its error and whether the workspace counts as finished. -/
structure FinishFailure where
  source : NativeError
  finished : Bool

/-- A barrier keeps a run while the registry may still hold phases of it. -/
def checkBarrier (host : Host) (barrier : Bool) : Disk NativeError Unit :=
  if barrier then ensureRegistryEmpty host else ret ()

def ensureCleanupAllowed (host : Host) (workspace : RunWorkspace) : Disk NativeError Unit := do
  checkBarrier host workspace.cleanupBarrier
  let persisted ← observe id (fun store =>
    .ok ((store.runs workspace.runId).any RunDirectory.barrier))
  checkBarrier host persisted

/-- Closing a registered workspace leaves its directory to the maintenance lane. -/
def terminateRegistered (workspace : RunWorkspace) (primaryError : Option String)
    : Disk FinishFailure Unit := do
  let journal ← (readJournal workspace.runId).mapError (fun error => ⟨error, false⟩)
  if journal.phase = .publishing then
    raise ⟨.invalidInput "workspace publication requires recovery", true⟩
  else
    (effect id (fun store =>
      store.updateRun workspace.runId (fun run => { run with terminal := true }))).recoverWith
      (fun error => do
        (markCleanupPending workspace.runId primaryError error).ignore
        raise ⟨error, true⟩)

def removeUnregistered (workspace : RunWorkspace) (primaryError : Option String)
    (order : List RunEntry)
    : Disk FinishFailure Unit :=
  (removeRunTree workspace.runId order).recoverWith (fun error => do
    (markCleanupPending workspace.runId primaryError error).mapError (fun next => ⟨next, true⟩)
    raise ⟨error, true⟩)

/-- The journal of an aborted run names the error that ended it. -/
def markFailed (runId : String) (primaryError : Option String) : Disk FinishFailure Unit :=
  match primaryError with
  | some error =>
      (markPhase runId .failed none (some error)).mapError (fun source => ⟨source, false⟩)
  | none => ret ()

def releaseDirectory (workspace : RunWorkspace) (primaryError : Option String)
    (order : List RunEntry)
    : Disk FinishFailure Unit :=
  if workspace.registered then
    terminateRegistered workspace primaryError
  else
    removeUnregistered workspace primaryError order

/-- `RunWorkspace::finish_inner` -/
def finishInner (host : Host) (workspace : RunWorkspace) (primaryError : Option String)
    (order : List RunEntry)
    : Disk FinishFailure Unit :=
  if workspace.phaseOwned then
    raise ⟨.invalidInput "workspace still has live phase ownership", true⟩
  else do
    (ensureCleanupAllowed host workspace).recoverWith (fun error => do
      (markCleanupPending workspace.runId primaryError error).ignore
      raise ⟨error, true⟩)
    markFailed workspace.runId primaryError
    releaseDirectory workspace primaryError order

/-- `RunWorkspace::finish` and `abort`: a workspace that could not finish is dropped at once,
which finishes it once more.
-/
def closeWorkspace (host : Host) (workspace : RunWorkspace) (primaryError : Option String)
    (order : List RunEntry)
    : Disk NativeError Unit :=
  (finishInner host workspace primaryError order).recoverWith (fun failure =>
    if failure.finished then
      raise failure.source
    else do
      (finishInner host workspace (some "workspace dropped without finish or abort")
        order).ignore
      raise failure.source)

end CodebaseGraph.Storage
