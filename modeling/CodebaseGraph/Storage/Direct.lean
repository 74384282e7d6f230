import CodebaseGraph.Crash.Program
import CodebaseGraph.Storage.Generation

/-! Publication and recovery of a direct store (`src/storage/direct.rs`).
Every rename and every removal is one step of a program over the files of the layout; locks,
registrations and directory syncs leave no trace there.
-/

namespace CodebaseGraph.Storage.Direct

open CodebaseGraph.Crash Program

/-- The paths of a direct layout, each named by how the source derives it. -/
inductive DirectPath where
  | database
  | manifest
  | candidate (destination : DirectPath)
  | sidecar (base : DirectPath) (suffix : String)
  | shadow (path : DirectPath)
deriving DecidableEq, Repr

inductive DirectPublishPhase where
  | prepared
  | databasePromoted
  | manifestPromoted
  | committed
deriving DecidableEq, Repr

structure DirectPublishJournal where
  phase : DirectPublishPhase
  dbPath : DirectPath
  dbCandidatePath : DirectPath
  manifestPath : DirectPath
  manifestCandidatePath : DirectPath
  dbSha256 : String
  manifestSha256 : String
  sidecarSha256 : List (String × String)
deriving DecidableEq, Repr

structure DirectPublishRequest where
  dbCandidatePath : DirectPath
  manifestCandidatePath : DirectPath
deriving DecidableEq, Repr

/-- The regular files of the layout and the journal, which is replaced as a whole. -/
structure DirectFiles (Bytes : Type) where
  file : DirectPath → Option Bytes
  journal : Option DirectPublishJournal

namespace DirectFiles

variable {Bytes : Type}

/-- `fs::rename`: the target is replaced. -/
def rename (files : DirectFiles Bytes) (source target : DirectPath) : DirectFiles Bytes :=
  {
    files with
    file := fun path =>
      if path = target then files.file source
      else if path = source then none
      else files.file path
  }

def remove (files : DirectFiles Bytes) (removed : DirectPath) : DirectFiles Bytes :=
  { files with file := fun path => if path = removed then none else files.file path }

end DirectFiles

/-- A program over the files of a direct layout, which may be cut but meets no I/O error. -/
abbrev DirectDisk (Bytes α : Type) := Program (DirectFiles Bytes) Empty NativeError α

section Direct

variable {Bytes : Type} (sha256 : Bytes → String) (display : DirectPath → String)

def pathExists (path : DirectPath) : DirectDisk Bytes Bool :=
  observe Empty.elim (fun files => .ok (files.file path).isSome)

/-- `fs::read`, and what every other call on a missing file answers. -/
def readFile (path : DirectPath) : DirectDisk Bytes Bytes :=
  observe Empty.elim (fun files =>
    match files.file path with
    | some bytes => .ok bytes
    | none => .error notFound)

def renameFile (source target : DirectPath) : DirectDisk Bytes Unit := do
  let _ ← readFile source
  effect Empty.elim (fun files => files.rename source target)

/-- `remove_if_safe`; every entry is a regular file, so none is a symbolic link. -/
def removeIfSafe (path : DirectPath) : DirectDisk Bytes Unit := do
  let _ ← readFile path
  effect Empty.elim (fun files => files.remove path)

def removeIfSafeIfPresent (path : DirectPath) : DirectDisk Bytes Unit := do
  if ← pathExists path then removeIfSafe path else ret ()

def ensureRegularFile (path : DirectPath) : DirectDisk Bytes Unit := do
  let _ ← readFile path
  ret ()

/-- The rename of an existing destination to its shadow. -/
def moveAside (target : DirectPath) : DirectDisk Bytes Unit := do
  if ← pathExists target then renameFile target (.shadow target) else ret ()

def replaceWithShadow (source target : DirectPath) : DirectDisk Bytes Unit := do
  if ← pathExists source then do
    ensureRegularFile source
    removeIfSafeIfPresent (.shadow target)
    moveAside target
    renameFile source target
  else do
    if ← pathExists target then ret ()
    else raise (.invalidInput s!"publish source does not exist: {display source}")

/-- What `promote_database_bundle` does with one sidecar. -/
def promoteSidecar (journal : DirectPublishJournal) (suffix : String)
    : DirectDisk Bytes Unit := do
  if journal.sidecarSha256.any (fun entry => entry.1 = suffix) then do
    replaceWithShadow display (.sidecar journal.dbCandidatePath suffix)
      (.sidecar journal.dbPath suffix)
    ensureRegularFile (.sidecar journal.dbPath suffix)
  else removeIfSafeIfPresent (.sidecar journal.dbPath suffix)

def promoteDatabaseBundle (journal : DirectPublishJournal) : DirectDisk Bytes Unit := do
  replaceWithShadow display journal.dbCandidatePath journal.dbPath
  directDbSidecarSuffixes.forM (promoteSidecar display journal)

def sha256Path (path : DirectPath) : DirectDisk Bytes String := do
  let bytes ← readFile path
  ret (sha256 bytes)

def validateChecksum (path : DirectPath) (expected label : String)
    : DirectDisk Bytes Unit := do
  let actual ← sha256Path sha256 path
  if actual = expected then ret ()
  else raise (.invalidInput s!"{label} checksum mismatch for {display path}")

def validateSidecarChecksums (dbPath : DirectPath) (checksums : List (String × String))
    : DirectDisk Bytes Unit :=
  checksums.forM (fun entry =>
    validateChecksum sha256 display (.sidecar dbPath entry.1) entry.2
      s!"database sidecar .{entry.1}")

/-- The checksums of the existing candidates among `suffixes`. -/
def sidecarChecksumsOf (dbCandidatePath : DirectPath)
    : List String → DirectDisk Bytes (List (String × String))
  | [] => ret []
  | suffix :: rest => do
      if ← pathExists (.sidecar dbCandidatePath suffix) then do
        let digest ← sha256Path sha256 (.sidecar dbCandidatePath suffix)
        let others ← sidecarChecksumsOf dbCandidatePath rest
        ret ((suffix, digest) :: others)
      else sidecarChecksumsOf dbCandidatePath rest

/-- `sidecar_checksums`; the map iterates in the order of its keys. -/
def sidecarChecksums (dbCandidatePath : DirectPath)
    : DirectDisk Bytes (List (String × String)) := do
  let found ← sidecarChecksumsOf sha256 dbCandidatePath directDbSidecarSuffixes
  ret (found.mergeSort (fun left right => left.1 ≤ right.1))

/-- The rename of the journal's temporary file is its only visible step. -/
def writeJournal (journal : DirectPublishJournal) : DirectDisk Bytes Unit :=
  effect Empty.elim (fun files => { files with journal := some journal })

def readJournal : DirectDisk Bytes (Option DirectPublishJournal) :=
  observe Empty.elim (fun files => .ok files.journal)

/-- The first block of `resume_publish`: promote the database and note it in the journal. -/
def resumePrepared (journal : DirectPublishJournal)
    : DirectDisk Bytes DirectPublishJournal := do
  if journal.phase = .prepared then do
    promoteDatabaseBundle display journal
    validateChecksum sha256 display journal.dbPath journal.dbSha256 "database"
    validateSidecarChecksums sha256 display journal.dbPath journal.sidecarSha256
    writeJournal { journal with phase := .databasePromoted }
    ret { journal with phase := .databasePromoted }
  else ret journal

/-- The checks of the promoted database; no phase that reaches them is `prepared`. -/
def resumeDatabaseChecks (journal : DirectPublishJournal) : DirectDisk Bytes Unit := do
  if journal.phase = .databasePromoted ∨ journal.phase = .manifestPromoted
      ∨ journal.phase = .committed then do
    validateChecksum sha256 display journal.dbPath journal.dbSha256 "database"
    validateSidecarChecksums sha256 display journal.dbPath journal.sidecarSha256
  else ret ()

def resumeDatabasePromoted (journal : DirectPublishJournal)
    : DirectDisk Bytes DirectPublishJournal := do
  if journal.phase = .databasePromoted then do
    replaceWithShadow display journal.manifestCandidatePath journal.manifestPath
    validateChecksum sha256 display journal.manifestPath journal.manifestSha256 "manifest"
    writeJournal { journal with phase := .manifestPromoted }
    ret { journal with phase := .manifestPromoted }
  else ret journal

def resumeManifestChecks (journal : DirectPublishJournal) : DirectDisk Bytes Unit := do
  if journal.phase = .manifestPromoted ∨ journal.phase = .committed then
    validateChecksum sha256 display journal.manifestPath journal.manifestSha256 "manifest"
  else ret ()

def resumeManifestPromoted (journal : DirectPublishJournal) : DirectDisk Bytes Unit := do
  if journal.phase = .manifestPromoted then
    writeJournal { journal with phase := .committed }
  else ret ()

def resumePublish (journal : DirectPublishJournal) : DirectDisk Bytes Unit := do
  let journal ← resumePrepared sha256 display journal
  resumeDatabaseChecks sha256 display journal
  let journal ← resumeDatabasePromoted sha256 display journal
  resumeManifestChecks sha256 display journal
  resumeManifestPromoted journal

def removeJournal : DirectDisk Bytes Unit := do
  if (← readJournal).isSome then
    effect Empty.elim (fun files => { files with journal := none })
  else ret ()

def removeJournalAndShadows : DirectDisk Bytes Unit := do
  removeJournal
  removeIfSafeIfPresent (.shadow .database)
  removeIfSafeIfPresent (.shadow .manifest)

def validateJournalDestinations (journal : DirectPublishJournal)
    : Except NativeError Unit :=
  if journal.dbPath ≠ .database ∨ journal.manifestPath ≠ .manifest then
    .error (.invalidInput
      "direct publish journal does not match this store's configured destinations")
  else .ok ()

def validateJournalSources (journal : DirectPublishJournal) : Except NativeError Unit :=
  if journal.dbCandidatePath ≠ .candidate .database
      ∨ journal.manifestCandidatePath ≠ .candidate .manifest
      ∨ ∃ entry ∈ journal.sidecarSha256, entry.1 ∉ directDbSidecarSuffixes then
    .error (.invalidInput
      "direct publish journal contains unexpected candidate paths or sidecars")
  else .ok ()

def recoverWithLock : DirectDisk Bytes Unit := do
  match ← readJournal with
  | none => ret ()
  | some journal => do
      ofExcept (validateJournalDestinations journal)
      ofExcept (validateJournalSources journal)
      resumePublish sha256 display journal
      removeJournalAndShadows

/-- `direct_bundle_paths`. -/
def directBundlePaths (base : DirectPath) : List DirectPath :=
  base :: directDbSidecarSuffixes.map (.sidecar base)

/-- `cleanup_candidate_set`; without any candidate there is nothing to remove. -/
def cleanupCandidateSet : DirectDisk Bytes Unit := do
  (directBundlePaths (.candidate .database)).forM removeIfSafeIfPresent
  removeIfSafeIfPresent (.candidate .manifest)

def ensureExpectedCandidatePaths (request : DirectPublishRequest)
    : Except NativeError Unit :=
  if request.dbCandidatePath ≠ .candidate .database
      ∨ request.manifestCandidatePath ≠ .candidate .manifest then
    .error (.invalidInput
      "direct candidates must be the deterministic sibling candidate paths")
  else .ok ()

def publishCandidateWithLock (request : DirectPublishRequest) : DirectDisk Bytes Unit := do
  ofExcept (ensureExpectedCandidatePaths request)
  recoverWithLock sha256 display
  ensureRegularFile request.dbCandidatePath
  ensureRegularFile request.manifestCandidatePath
  let dbSha256 ← sha256Path sha256 request.dbCandidatePath
  let manifestSha256 ← sha256Path sha256 request.manifestCandidatePath
  let sidecarSha256 ← sidecarChecksums sha256 request.dbCandidatePath
  let journal : DirectPublishJournal := {
    phase := .prepared,
    dbPath := .database,
    dbCandidatePath := request.dbCandidatePath,
    manifestPath := .manifest,
    manifestCandidatePath := request.manifestCandidatePath,
    dbSha256,
    manifestSha256,
    sidecarSha256
  }
  writeJournal journal
  resumePublish sha256 display journal
  removeJournalAndShadows
  cleanupCandidateSet

/-- `DirectWriteSession::publish`. -/
def publish : DirectDisk Bytes Unit :=
  publishCandidateWithLock sha256 display
    { dbCandidatePath := .candidate .database, manifestCandidatePath := .candidate .manifest }

def beginWrite : DirectDisk Bytes Unit := do
  recoverWithLock sha256 display
  cleanupCandidateSet

def beginRead : DirectDisk Bytes Unit := do
  if (← readJournal).isSome then recoverWithLock sha256 display else ret ()

end Direct

end CodebaseGraph.Storage.Direct
