import CodebaseGraph.Basic

/-! One generation directory of the managed store (`src/storage/layout.rs` and the validation
functions of `src/storage/managed.rs`): its files, its metadata and what makes it ready.
-/

namespace CodebaseGraph.Storage

/-- What one path of the file system holds. -/
inductive PathEntry (α : Type) where
  | absent
  | symlink
  | other
  | regular (content : α)
deriving DecidableEq, Repr

def PathEntry.isPresent {α : Type} : PathEntry α → Bool
  | .absent => false
  | _ => true

def PathEntry.isSymlink {α : Type} : PathEntry α → Bool
  | .symlink => true
  | _ => false

abbrev Bytes := List UInt8

/-- Reading a JSON file gives the record it holds or the error of reading it. -/
abbrev JsonFile (α : Type) := PathEntry (Except NativeError α)

def managedSchemaVersion : Nat := 2

structure GenerationMetadata where
  schemaVersion : Nat
  generationId : String
  createdAtMs : Nat
  publishedAtMs : Nat
  baseGenerationId : Option String
  logicalSizeBytes : Nat
  physicalSizeBytes : Nat
  nodeCount : Nat
  edgeCount : Nat
deriving DecidableEq, Repr

/-- The files of a generation directory that the store reads or writes; `nestedSymlink` is a
symbolic link anywhere else below it.
-/
structure GenerationDirectory where
  database : PathEntry Bytes := .absent
  manifest : PathEntry Bytes := .absent
  sidecars : String → PathEntry Bytes := fun _ => .absent
  metadata : JsonFile GenerationMetadata := .absent
  ready : PathEntry String := .absent
  nestedSymlink : Option String := none

/-- What stands at the root path of a generation, when anything does. -/
inductive GenerationRoot where
  | directory (files : GenerationDirectory)
  | other

/-- What the store takes from its surroundings: where it lives, how a manifest decodes to the
checksums of its search backend, the digest, and the two sizes a file reports.
-/
structure Host where
  storageRoot : String
  parseManifest : Bytes → Except NativeError (Option (List (String × String)))
  sha256 : Bytes → String
  fileSizes : PathEntry Bytes → Nat × Nat

/-- A host whose manifests name no search backend. -/
def plainHost : Host where
  storageRoot := "/state/storage"
  parseManifest := fun _ => .ok none
  sha256 := fun _ => ""
  fileSizes := fun _ => (0, 0)

def notFound : NativeError := .io "No such file or directory (os error 2)"

def isIdByte (character : Char) : Bool :=
  character.isAlphanum || character == '-' || character == '_'

/-- Generation ids are short ASCII words, so that they are safe in a path. -/
def validateGenerationId (generationId : String) : Except NativeError Unit :=
  if generationId.isEmpty
      || 128 < generationId.utf8ByteSize
      || !generationId.toList.all isIdByte then
    .error (.invalidInput s!"invalid managed generation id: {generationId.quote}")
  else
    .ok ()

/-- A generation is published below the store's root or staged in a run directory. -/
inductive GenerationPaths where
  | published (generationId : String)
  | staged (runId : String) (generationId : String)
deriving DecidableEq, Repr

namespace GenerationPaths

def generationId : GenerationPaths → String
  | published generationId | staged _ generationId => generationId

def root (host : Host) : GenerationPaths → String
  | published generationId => s!"{host.storageRoot}/generations/gen-{generationId}"
  | staged runId generationId =>
      s!"{host.storageRoot}/runs/run-{runId}/candidate/gen-{generationId}"

def dbPath (host : Host) (paths : GenerationPaths) : String :=
  s!"{paths.root host}/graph.ldb"

def manifestPath (host : Host) (paths : GenerationPaths) : String :=
  s!"{paths.root host}/manifest.json"

def metadataPath (host : Host) (paths : GenerationPaths) : String :=
  s!"{paths.root host}/metadata.json"

def readyPath (host : Host) (paths : GenerationPaths) : String :=
  s!"{paths.root host}/READY"

end GenerationPaths

/-- `ManagedLayout::generation` -/
def layoutGeneration (generationId : String) : Except NativeError GenerationPaths :=
  (validateGenerationId generationId).map (fun _ => .published generationId)

def directDbSidecarSuffixes : List String :=
  ["wal", "tmp", "lock", "search.meta.json", "search.lexicon.bin", "search.postings.bin",
    "search.doc_lengths.bin", "search.documents.bin", "search.document_offsets.bin"]

def ensureRegularFile {α : Type} (path : String) : PathEntry α → Except NativeError α
  | .absent => .error notFound
  | .symlink => .error (.invalidInput s!"refusing to use symlinked file {path}")
  | .other => .error (.invalidInput s!"expected regular file {path}")
  | .regular content => .ok content

/-- The first symbolic link a walk of the directory meets. -/
def GenerationDirectory.findSymlink (host : Host) (paths : GenerationPaths)
    (files : GenerationDirectory)
    : Option String :=
  if files.database.isSymlink then some (paths.dbPath host)
  else if files.manifest.isSymlink then some (paths.manifestPath host)
  else if files.metadata.isSymlink then some (paths.metadataPath host)
  else if files.ready.isSymlink then some (paths.readyPath host)
  else
    match directDbSidecarSuffixes.find? (fun suffix => (files.sidecars suffix).isSymlink) with
    | some suffix => some s!"{paths.dbPath host}.{suffix}"
    | none => files.nestedSymlink

def ensureDirectoryWithoutSymlinks (host : Host) (paths : GenerationPaths)
    (files : GenerationDirectory)
    : Except NativeError Unit :=
  match files.findSymlink host paths with
  | some path => .error (.invalidInput s!"refusing to use symlinked path {path}")
  | none => .ok ()

def checkSearchSidecar (host : Host) (paths : GenerationPaths) (files : GenerationDirectory)
    (expected : List (String × String)) (suffix : String)
    : Except NativeError Unit := do
  let path := s!"{paths.dbPath host}.{suffix}"
  let content ← ensureRegularFile path (files.sidecars suffix)
  if expected.lookup suffix ≠ some (host.sha256 content) then
    .error (.invalidInput s!"managed search sidecar checksum mismatch: {path}")
  else
    .ok ()

def validateSearchSidecarChecksums (host : Host) (paths : GenerationPaths)
    (files : GenerationDirectory) (expected : List (String × String))
    : Except NativeError Unit :=
  let searchSuffixes := directDbSidecarSuffixes.filter (fun suffix => suffix.startsWith "search.")
  if expected.length ≠ searchSuffixes.length
      || searchSuffixes.any (fun suffix => (expected.lookup suffix).isNone) then
    .error (.invalidInput "managed search sidecar metadata has an incomplete file set")
  else
    searchSuffixes.forM (checkSearchSidecar host paths files expected)

def validateCandidateGeneration (host : Host) (paths : GenerationPaths)
    (files : GenerationDirectory)
    : Except NativeError Unit := do
  let _ ← ensureRegularFile (paths.dbPath host) files.database
  let manifest ← ensureRegularFile (paths.manifestPath host) files.manifest
  ensureDirectoryWithoutSymlinks host paths files
  match ← host.parseManifest manifest with
  | some expected => validateSearchSidecarChecksums host paths files expected
  | none => .ok ()

def readGenerationMetadata (host : Host) (paths : GenerationPaths)
    (files : GenerationDirectory)
    : Except NativeError GenerationMetadata :=
  match files.metadata with
  | .absent => .error notFound
  | .symlink | .other => .error (.io "Is a directory (os error 21)")
  | .regular (.error unreadable) => .error unreadable
  | .regular (.ok metadata) =>
      if metadata.schemaVersion ≠ managedSchemaVersion
          ∨ metadata.generationId ≠ paths.generationId then
        .error (.invalidInput s!"generation metadata does not match {paths.root host}")
      else
        .ok metadata

def validateReadyGeneration (host : Host) (paths : GenerationPaths)
    (files : GenerationDirectory)
    : Except NativeError Unit := do
  validateCandidateGeneration host paths files
  if !files.ready.isPresent then
    .error (.invalidInput s!"candidate generation is not ready: {paths.readyPath host}")
  else do
    let _ ← ensureRegularFile (paths.readyPath host) files.ready
    let _ ← readGenerationMetadata host paths files
    .ok ()

/-- The logical and physical size of the bundle and its manifest. -/
def generationSizes (host : Host) (files : GenerationDirectory) : Nat × Nat :=
  let bundle := files.database :: directDbSidecarSuffixes.map files.sidecars ++ [files.manifest]
  (bundle.filter PathEntry.isPresent).foldl
    (fun total entry =>
      (total.1 + (host.fileSizes entry).1, total.2 + (host.fileSizes entry).2))
    (0, 0)

end CodebaseGraph.Storage
