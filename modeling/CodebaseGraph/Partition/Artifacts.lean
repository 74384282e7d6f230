import CodebaseGraph.Partition.Builder
import CodebaseGraph.Transition.Runs

/-! The cache of built partitions and the builds that use it (`src/artifact_store.rs`,
`src/execution/parallel.rs`). A stored artifact is the text of its envelope under its key.
-/

namespace CodebaseGraph.Partition

open CodebaseGraph.Protocol
open CodebaseGraph.Syntax
open CodebaseGraph.Transition

def artifactFormatVersion : Nat := 2

structure ArtifactKeyMaterial where
  artifactFormatVersion : Nat
  profileCompatibilityVersion : Nat
  sourceRoot : String
  repositoryLabel : String
  relativePath : String
  contentHash : String
  language : String
  parserVersion : String
  profile : Option LanguageProfile
  ontology : String
  ontologySchema : OntologySchema

structure ArtifactEnvelope where
  formatVersion : Nat
  artifactKey : String
  partitionPayloadSha256 : String
  partition : GraphPartition

structure ParseOutput where
  root : SyntaxNode
  diagnostics : List String

/-- What the cache calls outside the modelled sources: SHA-256 in lowercase hexadecimal, JSON,
and the parsers, as functions of the source and the profile.
-/
structure ArtifactFunctions where
  sha256 : String → String
  encodeMaterial : ArtifactKeyMaterial → String
  encodePartition : GraphPartition → String
  encodeEnvelope : ArtifactEnvelope → String
  decodeEnvelope : String → Option ArtifactEnvelope
  parseSource : String → LanguageProfile → Except NativeError ParseOutput

variable (environment : Environment) (functions : ArtifactFunctions)

def keyForRequest (request : NativeSyntaxMaterializationRequest) (snapshot : SourceSnapshot)
    (profile : Option LanguageProfile)
    : String :=
  functions.sha256
    (functions.encodeMaterial
      {
        artifactFormatVersion := artifactFormatVersion
        profileCompatibilityVersion := profileCompatibilityVersion
        sourceRoot := request.sourceRoot
        repositoryLabel := request.repositoryLabel
        relativePath := snapshot.path
        contentHash := snapshot.contentHash
        language := snapshot.language.getD ""
        parserVersion := request.parserVersion
        profile
        ontology := request.ontology
        ontologySchema := request.ontologySchema
      })

/-- Lowercase hexadecimal digits, 64 of them. -/
def validateArtifactKey (artifactKey : String) : Except NativeError Unit :=
  if artifactKey.utf8ByteSize ≠ 64 then
    .error (.invalidInput "artifact key must be 64 hex characters")
  else if !artifactKey.toList.all (fun digit =>
      ('0' ≤ digit && digit ≤ '9') || ('a' ≤ digit && digit ≤ 'f')) then
    .error (.invalidInput "artifact key must be lowercase hexadecimal")
  else .ok ()

/-- The stored files by artifact key. -/
abbrev ArtifactCache := String → Option String

def envelopeFor (artifactKey : String) (partition : GraphPartition) : ArtifactEnvelope where
  formatVersion := artifactFormatVersion
  artifactKey
  partitionPayloadSha256 := functions.sha256 (functions.encodePartition partition)
  partition

def setArtifact (cache : ArtifactCache) (artifactKey file : String) : ArtifactCache :=
  fun key => if key = artifactKey then some file else cache key

def canonicalPayloadConflict : NativeError :=
  .invalidInput "artifact_existing_payload_differs_or_unproven"

/-- What the checks of `store_partition` before any write report. -/
def storeChecks (artifactKey : String) (partition : GraphPartition) : Except NativeError Unit := do
  validateArtifactKey artifactKey
  match partition.validateRawRows with
  | .error problem => .error (.invalidInput problem)
  | .ok _ => pure ()
  if partition.entry.artifactKey ≠ some artifactKey then
    .error
      (.invalidInput
        ("partition artifact key does not match store key for " ++ partition.entry.path))
  else pure ()

/-- Publication without replacement: an equal file is reused, a different one is a conflict. The
disk may fail before or after the file is in place.
-/
def storePartition (diskFails : Option (NativeError × Bool)) (artifactKey : String)
    (partition : GraphPartition) (cache : ArtifactCache)
    : Except NativeError Unit × ArtifactCache :=
  match storeChecks artifactKey partition with
  | .error problem => (.error problem, cache)
  | .ok _ =>
      let file := functions.encodeEnvelope (envelopeFor functions artifactKey partition)
      let published :=
        match cache artifactKey with
        | none => setArtifact cache artifactKey file
        | some _ => cache
      match diskFails with
      | some (problem, placed) => (.error problem, if placed then published else cache)
      | none =>
          match cache artifactKey with
          | none => (.ok (), published)
          | some existing =>
              if existing = file then (.ok (), cache) else (.error canonicalPayloadConflict, cache)

structure ArtifactExpectations where
  path : String
  contentHash : String
  language : String

/-- A file that is not what the key and the expectations promise counts as absent. -/
def loadPartition (artifactKey : String) (expected : ArtifactExpectations)
    (cache : ArtifactCache)
    : Option GraphPartition := do
  guard (validateArtifactKey artifactKey).toBool
  let file ← cache artifactKey
  let envelope ← functions.decodeEnvelope file
  let partition := envelope.partition
  guard (envelope.formatVersion = artifactFormatVersion ∧ envelope.artifactKey = artifactKey)
  guard
    (partition.entry.path = expected.path
      ∧ partition.entry.contentHash = expected.contentHash
      ∧ partition.entry.language = expected.language)
  guard (partition.entry.artifactKey = some artifactKey)
  guard
    (envelope.partitionPayloadSha256 = functions.sha256 (functions.encodePartition partition))
  guard partition.validateRawRows.toBool
  pure partition

/-- What the machine does during one build: whether the cache can be read, where the source is
spooled to unless it already is, what its file holds, and whether writes fail.
-/
structure BuildWorld where
  cacheReadable : Except NativeError Bool
  spooled : Except NativeError (Option (String × Nat))
  readToString : String → Except NativeError String
  storeFails : Option (NativeError × Bool)
  transientCreated : Except NativeError Unit

structure PartitionBuildResult where
  partition : GraphPartition
  diagnostics : List String
  reusedArtifact : Bool
  transient : Bool

variable (world : BuildWorld)

omit functions in
def spoolSnapshotForBuild (snapshot : SourceSnapshot) : Except NativeError SourceSnapshot := do
  match ← world.spooled with
  | none => pure snapshot
  | some (absolutePath, byteLen) => pure { snapshot with absolutePath, byteLen }

/-- The text must have the length and the hash that the scan recorded. -/
def readSnapshottedSource (snapshot : SourceSnapshot) : Except NativeError String := do
  let source ← world.readToString snapshot.absolutePath
  if source.utf8ByteSize ≠ snapshot.byteLen ∨ functions.sha256 source ≠ snapshot.contentHash then
    .error (.invalidInput ("source snapshot changed before parsing: " ++ snapshot.path))
  else pure source

/-- The part of a rebuild up to the graph: spool, read, parse and build. -/
def rebuildPartition (request : NativeSyntaxMaterializationRequest) (snapshot : SourceSnapshot)
    (profile : LanguageProfile)
    : Except NativeError (GraphPartition × List String) := do
  let snapshot ← spoolSnapshotForBuild world snapshot
  let source ← readSnapshottedSource functions world snapshot
  let parse ← functions.parseSource source profile
  let partition ← buildPartition environment request snapshot parse.root
  pure (partition, parse.diagnostics)

def conflictDiagnostic (path : String) : String :=
  "artifact cache publication conflict for " ++ path
    ++ "; rebuilt from scanned source using a per-run copy; canonical cache preserved"

/-- The artifact of the previous entry's key, if that is the key of this build. -/
def reusablePartition (artifactKey : String) (snapshot : SourceSnapshot)
    (previousEntry : Option ManifestEntry) (cache : ArtifactCache)
    : Except NativeError (Option GraphPartition) :=
  if (previousEntry.bind ManifestEntry.artifactKey) = some artifactKey then do
    if ← world.cacheReadable then
      pure
        (loadPartition functions artifactKey
          {
            path := snapshot.path
            contentHash := snapshot.contentHash
            language := snapshot.language.getD ""
          }
          cache)
    else pure none
  else pure none

/-- A rebuilt partition is stored; where another file holds its place, a copy is kept for the
run.
-/
def storeRebuilt (artifactKey path : String) (partition : GraphPartition)
    (diagnostics : List String) (cache : ArtifactCache)
    : Except NativeError PartitionBuildResult × ArtifactCache :=
  match storePartition functions world.storeFails artifactKey partition cache with
  | (.ok _, cache) =>
      (.ok { partition, diagnostics, reusedArtifact := false, transient := false }, cache)
  | (.error problem, cache) =>
      if problem = canonicalPayloadConflict then
        match world.transientCreated with
        | .error problem => (.error problem, cache)
        | .ok _ =>
            (.ok
              {
                partition
                diagnostics := diagnostics ++ [conflictDiagnostic path]
                reusedArtifact := false
                transient := true
              },
              cache)
      else (.error problem, cache)

def buildPartitionForSnapshot (request : NativeSyntaxMaterializationRequest)
    (snapshot : SourceSnapshot) (profile : LanguageProfile)
    (previousEntry : Option ManifestEntry) (cache : ArtifactCache)
    : Except NativeError PartitionBuildResult × ArtifactCache :=
  let artifactKey := keyForRequest functions request snapshot (some profile)
  match reusablePartition functions world artifactKey snapshot previousEntry cache with
  | .error problem => (.error problem, cache)
  | .ok (some partition) =>
      (.ok { partition, diagnostics := [], reusedArtifact := true, transient := false }, cache)
  | .ok none =>
      match rebuildPartition environment functions world request snapshot profile with
      | .error problem => (.error problem, cache)
      | .ok (partition, diagnostics) =>
          storeRebuilt functions world artifactKey snapshot.path
            (partition.setArtifactKey artifactKey) diagnostics cache

omit functions world

/-- The profiles of some languages. -/
def selectedProfiles (set : ProfileSet) (languages : List String) : List LanguageProfile :=
  languages.filterMap set.byLanguage

/-- A scan keeps the request's profiles for the languages of its supported files. -/
structure SourceScan where
  input : NativeSyntaxMaterializationRequest
  supported : List (String × SourceSnapshot)
  profiles : List LanguageProfile
  selected
    : ∃ languages,
        profiles
        = selectedProfiles (ProfileSet.new environment.unicode.toTextFunctions input.profiles)
            languages

/-- The snapshot and the profile that a path is built from. -/
def SourceScan.choose {environment : Environment} (scan : SourceScan environment) (path : String)
    : Except NativeError (SourceSnapshot × LanguageProfile) :=
  match scan.supported.lookup path with
  | none => .error (.invalidInput ("missing scanned source for artifact rebuild: " ++ path))
  | some snapshot =>
      match snapshot.language with
      | none => .error (.invalidInput ("missing language for artifact rebuild: " ++ path))
      | some language =>
          match scan.profiles.find? (fun profile => profile.language = language) with
          | none =>
              .error
                (.invalidInput ("missing language profile for artifact rebuild: " ++ path))
          | some profile => .ok (snapshot, profile)

/-- One build as `build_partition_for_path_with_workers` asks for it. -/
structure PlannedBuild where
  scan : SourceScan environment
  path : String
  snapshot : SourceSnapshot
  profile : LanguageProfile
  chosen : scan.choose path = .ok (snapshot, profile)
  previousEntry : Option ManifestEntry

namespace PlannedBuild

variable {environment} (planned : PlannedBuild environment) (functions : ArtifactFunctions)

def key : String := keyForRequest functions planned.scan.input planned.snapshot planned.profile

def run (world : BuildWorld) (cache : ArtifactCache)
    : Except NativeError PartitionBuildResult × ArtifactCache :=
  buildPartitionForSnapshot environment functions world planned.scan.input planned.snapshot
    planned.profile planned.previousEntry cache

/-- The partition of a source, without the cache. -/
def partitionOf (source : String) : Except NativeError GraphPartition := do
  let parse ← functions.parseSource source planned.profile
  buildPartition environment planned.scan.input planned.snapshot parse.root

end PlannedBuild

/-- What changes the cache: builds, and the retirement of an artifact. -/
inductive CacheAction where
  | build (planned : PlannedBuild environment) (world : BuildWorld)
  | retire (artifactKey : String)

def cacheStep (functions : ArtifactFunctions)
    : StepFn ArtifactCache (CacheAction environment)
        (Option (Except NativeError PartitionBuildResult))
  | cache, .build planned world =>
      let (outcome, cache) := planned.run functions world cache
      some (some outcome, cache)
  | cache, .retire artifactKey =>
      some (none, fun key => if key = artifactKey then none else cache key)

end CodebaseGraph.Partition
