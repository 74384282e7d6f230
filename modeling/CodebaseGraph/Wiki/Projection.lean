import CodebaseGraph.Wiki.Model

/-! Versioned storage of compiled bundles (`crates/k-wiki/src/projection/mod.rs`).
A generation is staged in a directory of its own, validated against its manifest, moved into
place and then named by `manifest.json` and `current.json`. A file of a generation is named by
its path below the generation's directory; bundle identifiers are the names of bundle
directories, so such a path stays inside it.
-/

namespace CodebaseGraph.Wiki

open CodebaseGraph.Collections

abbrev Bytes := List UInt8

-----------------------------------------------------------------------------------------
-- Data
-----------------------------------------------------------------------------------------

structure GenerationToken where
  generationId : String
  sequence : Nat
deriving DecidableEq, Repr

structure GenerationPointer where
  generationId : String
  sequence : Nat
deriving DecidableEq, Repr

structure PublishedBundleArtifact where
  bundleId : String
  rootPath : String
  sourceRevision : Option String
  projectionPath : String
  searchPath : Option String
  contentHash : String
  outputHash : String
deriving DecidableEq, Repr

structure ConceptDependency where
  conceptId : String
  sourcePath : String
  searchDocument : String
  outgoingTargets : SortedSet String
  ancestorDirectories : SortedSet String

structure BundleDependencyIndex where
  conceptSources : SortedMap String ConceptDependency := .empty

structure ProjectionManifest where
  schemaVersion : Nat
  generation : GenerationPointer
  lastSuccessfulGeneration : GenerationPointer
  generatedAt : String
  okfVersion : String
  sourceRevision : Option String
  buildDurationMs : Nat
  bundleRoots : SortedMap String String
  bundles : SortedMap String PublishedBundleArtifact
  dependencyEdges : SortedMap String BundleDependencyIndex
  contentHashes : SortedMap String String
  outputHashes : SortedMap String String
  diagnosticsPath : String
  diagnosticsHash : String

structure BundleCacheEntry where
  schemaVersion : Nat
  bundleId : String
  generationId : String
  contentHash : String
  outputHash : String
  projectionPath : String
  searchPath : Option String
deriving DecidableEq, Repr

structure BundlePublication where
  bundle : Bundle
  dependencyIndex : BundleDependencyIndex := {}
  searchArtifact : Option Bytes := none

inductive FailurePoint where
  | afterStageWrite
  | beforePointerSwap
deriving DecidableEq, Repr

structure PublishRequest where
  token : GenerationToken
  generatedAt : String
  okfVersion : String
  sourceRevision : Option String
  buildDurationMs : Nat
  bundles : List BundlePublication
  diagnostics : List Diagnostic
  injectFailure : Option FailurePoint := none

inductive CacheStatus where
  | hit
  | mixed
  | miss
deriving DecidableEq, Repr

structure PublishOutcome where
  cacheStatus : CacheStatus
  manifest : ProjectionManifest
  published : Bool

inductive ProjectionStoreError where
  | io (message : String)
  | staleGeneration (attempted latest : Nat)
  | validation (message : String)
  | failureInjected (point : FailurePoint)
deriving DecidableEq, Repr

/-- How a call ends: with a value, with an error or by unwinding. -/
inductive Ending (α : Type) where
  | ok (value : α)
  | error (problem : ProjectionStoreError)
  | panicked (message : String)

/-- The serialiser and the hash; serialising these types does not fail. -/
structure StoreFunctions where
  bundleJson : Bundle → Bytes
  dependencyJson : BundleDependencyIndex → Bytes
  diagnosticsJson : List Diagnostic → Bytes
  manifestJson : ProjectionManifest → Bytes
  sha256 : Bytes → String

/-- What the store relies on: the digest tells byte strings apart, and the text of a JSON object
ends where its last bracket closes.
-/
structure StoreFunctions.Sound (functions : StoreFunctions) : Prop where
  hashInjective : Function.Injective functions.sha256
  bundleEnds
    : ∀ first second rest rest',
        functions.bundleJson first ++ rest = functions.bundleJson second ++ rest'
        → functions.bundleJson first = functions.bundleJson second
  dependencyEnds
    : ∀ first second rest rest',
        functions.dependencyJson first ++ rest = functions.dependencyJson second ++ rest'
        → functions.dependencyJson first = functions.dependencyJson second

variable (functions : StoreFunctions)

def stableBundleHash (projectionBytes : Bytes) (searchBytes : Option Bytes)
    (dependencyIndex : BundleDependencyIndex)
    : String :=
  functions.sha256
    (projectionBytes ++ functions.dependencyJson dependencyIndex ++ searchBytes.getD [])

def stableOutputHash (projectionBytes : Bytes) (searchBytes : Option Bytes) : String :=
  functions.sha256 (projectionBytes ++ searchBytes.getD [])

structure PreparedBundle where
  bundleId : String
  rootPath : String
  sourceRevision : Option String
  dependencyIndex : BundleDependencyIndex
  projectionBytes : Bytes
  searchBytes : Option Bytes
  contentHash : String
  outputHash : String

def PreparedBundle.fromPublication (publication : BundlePublication) : PreparedBundle :=
  let bundle := publication.bundle.normalize
  let projectionBytes := functions.bundleJson bundle
  {
    bundleId := bundle.id,
    rootPath := bundle.rootPath,
    sourceRevision := bundle.sourceRevision,
    dependencyIndex := publication.dependencyIndex,
    projectionBytes,
    searchBytes := publication.searchArtifact,
    contentHash :=
      stableBundleHash functions projectionBytes publication.searchArtifact
        publication.dependencyIndex,
    outputHash := stableOutputHash functions projectionBytes publication.searchArtifact
  }

def PublishRequest.prepared (request : PublishRequest) : List PreparedBundle :=
  request.bundles.map (PreparedBundle.fromPublication functions)

def PublishRequest.diagnosticsHash (request : PublishRequest) : String :=
  functions.sha256 (functions.diagnosticsJson request.diagnostics)

def PublishRequest.pointer (request : PublishRequest) : GenerationPointer :=
  { generationId := request.token.generationId, sequence := request.token.sequence }

/-- The published artifact of a bundle whose content is unchanged. -/
def unchangedArtifact (currentManifest : ProjectionManifest) (prepared : PreparedBundle)
    : Option PublishedBundleArtifact :=
  (currentManifest.bundles.get? prepared.bundleId).filter
    (fun existing => existing.contentHash = prepared.contentHash)

def cacheStatus (prepared : List PreparedBundle) (currentManifest : Option ProjectionManifest)
    : CacheStatus :=
  match currentManifest with
  | none => .miss
  | some manifest =>
      let reused := prepared.countP (fun bundle => (unchangedArtifact manifest bundle).isSome)
      if reused = 0 then .miss
      else if reused = prepared.length then .hit
      else .mixed

def isFullCacheHit (request : PublishRequest) (manifest : ProjectionManifest) : Bool :=
  manifest.okfVersion = request.okfVersion
    && manifest.sourceRevision = request.sourceRevision
    && manifest.diagnosticsHash = request.diagnosticsHash functions
    && (request.prepared functions).all
      (fun bundle => (unchangedArtifact manifest bundle).isSome)

-----------------------------------------------------------------------------------------
-- The store
-----------------------------------------------------------------------------------------

abbrev GenerationDirectory := SortedMap String Bytes

/-- The state directory, the temporary files of its two pointers, and the runtime that the
clones of a store share.
-/
structure ProjectionStore where
  manifest : Option ProjectionManifest := none
  current : Option GenerationPointer := none
  manifestTemp : Option ProjectionManifest := none
  currentTemp : Option GenerationPointer := none
  staging : SortedMap String GenerationDirectory := .empty
  generations : SortedMap String GenerationDirectory := .empty
  cache : SortedMap String BundleCacheEntry := .empty
  latestIssuedSequence : Nat := 0
  latestPublishedSequence : Nat := 0

def projectionPath (bundleId : String) : String := "projections/" ++ bundleId ++ ".json"

def searchPath (bundleId : String) : String := "search/" ++ bundleId ++ ".idx"

def diagnosticsFile : String := "diagnostics.json"

def manifestFile : String := "manifest.json"

def generationId (sequence unique : Nat) : String :=
  let digits := Nat.toDigits 10 sequence
  "gen-" ++ String.ofList (List.replicate (20 - digits.length) '0' ++ digits) ++ "-"
    ++ String.ofList (Nat.toDigits 16 unique)

/-- `unique` is the clock reading that makes the identifier unique. -/
def ProjectionStore.beginGeneration (store : ProjectionStore) (unique : Nat)
    : GenerationToken × ProjectionStore :=
  let sequence := store.latestIssuedSequence + 1
  (
    { generationId := generationId sequence unique, sequence },
    { store with latestIssuedSequence := sequence }
  )

variable {functions}

/-- Why staging ends before it is done. -/
inductive StageFault where
  | failed (problem : ProjectionStoreError)
  | panicked (message : String)
deriving DecidableEq, Repr

/-- Copies a file of the published generation into the stage. -/
def copyIfNeeded (store : ProjectionStore) (generation : GenerationPointer) (source target : String)
    (stage : GenerationDirectory)
    : GenerationDirectory × Option StageFault :=
  match (store.generations.get? generation.generationId).bind (·.get? source) with
  | some bytes => (stage.insert target bytes, none)
  | none => (stage, some (.failed (.io "No such file or directory (os error 2)")))

/-- Puts one bundle's files into the stage: copied where the published content is the same,
written otherwise. The second component says why staging ends here.
-/
def stageBundle (store : ProjectionStore) (currentManifest : Option ProjectionManifest)
    (prepared : PreparedBundle) (stage : GenerationDirectory)
    : GenerationDirectory × Option StageFault :=
  let projection := projectionPath prepared.bundleId
  let search := prepared.searchBytes.map (fun _ => searchPath prepared.bundleId)
  match currentManifest.bind
      (fun manifest => (unchangedArtifact manifest prepared).map (fun found => (manifest, found))) with
  | some (manifest, existing) =>
      match copyIfNeeded store manifest.generation existing.projectionPath projection stage with
      | (stage, some fault) => (stage, some fault)
      | (stage, none) =>
          match existing.searchPath with
          | none => (stage, none)
          | some existingSearchPath =>
              match search with
              | none =>
                  (
                    stage,
                    some (.panicked "search path should exist when reusing search artifact")
                  )
              | some target =>
                  copyIfNeeded store manifest.generation existingSearchPath target stage
  | none =>
      let stage := stage.insert projection prepared.projectionBytes
      match prepared.searchBytes with
      | none => (stage, none)
      | some bytes => (stage.insert (searchPath prepared.bundleId) bytes, none)

def stageBundles (store : ProjectionStore) (currentManifest : Option ProjectionManifest)
    : List PreparedBundle → GenerationDirectory → GenerationDirectory × Option StageFault
  | [], stage => (stage, none)
  | prepared :: rest, stage =>
      match stageBundle store currentManifest prepared stage with
      | (stage, some fault) => (stage, some fault)
      | (stage, none) => stageBundles store currentManifest rest stage

def PreparedBundle.artifact (prepared : PreparedBundle) : PublishedBundleArtifact :=
  {
    bundleId := prepared.bundleId,
    rootPath := prepared.rootPath,
    sourceRevision := prepared.sourceRevision,
    projectionPath := projectionPath prepared.bundleId,
    searchPath := prepared.searchBytes.map (fun _ => searchPath prepared.bundleId),
    contentHash := prepared.contentHash,
    outputHash := prepared.outputHash
  }

/-- The map of a value of every bundle; a later bundle replaces an earlier one of its name. -/
def byBundle {α : Type} (value : PreparedBundle → α) (prepared : List PreparedBundle)
    : SortedMap String α :=
  prepared.foldl (fun map bundle => map.insert bundle.bundleId (value bundle)) .empty

def wikiSchemaVersion : Nat := 1

variable (functions)

/-- The manifest of a request. -/
def PublishRequest.manifest (request : PublishRequest) : ProjectionManifest :=
  let prepared := request.prepared functions
  {
    schemaVersion := wikiSchemaVersion,
    generation := request.pointer,
    lastSuccessfulGeneration := request.pointer,
    generatedAt := request.generatedAt,
    okfVersion := request.okfVersion,
    sourceRevision := request.sourceRevision,
    buildDurationMs := request.buildDurationMs,
    bundleRoots := byBundle PreparedBundle.rootPath prepared,
    bundles := byBundle PreparedBundle.artifact prepared,
    dependencyEdges := byBundle PreparedBundle.dependencyIndex prepared,
    contentHashes := byBundle PreparedBundle.contentHash prepared,
    outputHashes := byBundle PreparedBundle.outputHash prepared,
    diagnosticsPath := diagnosticsFile,
    diagnosticsHash := request.diagnosticsHash functions
  }

/-- Fills the stage of a request; what was left there by an earlier attempt stays. -/
def writeStage (store : ProjectionStore) (currentManifest : Option ProjectionManifest)
    (request : PublishRequest) (stage : GenerationDirectory)
    : GenerationDirectory × Option StageFault :=
  match stageBundles store currentManifest (request.prepared functions) stage with
  | (stage, some fault) => (stage, some fault)
  | (stage, none) =>
      (
        (stage.insert diagnosticsFile (functions.diagnosticsJson request.diagnostics)).insert
          manifestFile (functions.manifestJson (request.manifest functions)),
        none
      )

def readFile (stage : GenerationDirectory) (path : String) : Except ProjectionStoreError Bytes :=
  (stage.get? path).elim (.error (.io "No such file or directory (os error 2)")) .ok

def readSearch (stage : GenerationDirectory) (bundle : PublishedBundleArtifact)
    : Except ProjectionStoreError (Option Bytes) :=
  match bundle.searchPath with
  | some path => (readFile stage path).map some
  | none => .ok none

/-- Reads one bundle back and compares its digests. -/
def validateBundle (stage : GenerationDirectory) (manifest : ProjectionManifest)
    (bundleId : String) (bundle : PublishedBundleArtifact)
    : Except ProjectionStoreError Unit := do
  let projectionBytes ← readFile stage bundle.projectionPath
  let searchBytes ← readSearch stage bundle
  let dependencies ←
    (manifest.dependencyEdges.get? bundleId).elim
      (.error (.validation ("missing dependency edges for bundle " ++ bundleId))) .ok
  if stableBundleHash functions projectionBytes searchBytes dependencies ≠ bundle.contentHash then
    .error (.validation ("content hash mismatch for bundle " ++ bundleId))
  else if stableOutputHash functions projectionBytes searchBytes ≠ bundle.outputHash then
    .error (.validation ("output hash mismatch for bundle " ++ bundleId))
  else .ok ()

def validateGeneration (stage : GenerationDirectory) (manifest : ProjectionManifest)
    : Except ProjectionStoreError Unit := do
  if (stage.get? manifestFile).isNone then
    -- the source's message goes on with the path of the file
    throw (.validation "missing stage manifest")
  let diagnosticsBytes ← readFile stage manifest.diagnosticsPath
  if functions.sha256 diagnosticsBytes ≠ manifest.diagnosticsHash then
    throw (.validation "diagnostics hash does not match manifest")
  manifest.bundles.entries.forM
    (fun (bundleId, bundle) => validateBundle functions stage manifest bundleId bundle)

def cacheEntryOf (manifest : ProjectionManifest) (bundle : PublishedBundleArtifact)
    : BundleCacheEntry :=
  {
    schemaVersion := manifest.schemaVersion,
    bundleId := bundle.bundleId,
    generationId := manifest.generation.generationId,
    contentHash := bundle.contentHash,
    outputHash := bundle.outputHash,
    projectionPath := bundle.projectionPath,
    searchPath := bundle.searchPath
  }

def ProjectionStore.writeCacheEntries (store : ProjectionStore) (manifest : ProjectionManifest)
    : ProjectionStore :=
  {
    store with
    cache :=
      manifest.bundles.entries.foldl
        (fun cache (_, bundle) => cache.insert bundle.contentHash (cacheEntryOf manifest bundle))
        store.cache
  }

-----------------------------------------------------------------------------------------
-- The steps of `publish`
-----------------------------------------------------------------------------------------

/-- Where a call of `publish` stands. -/
inductive PublishPhase where
  | started
  /-- The manifest was loaded and does not satisfy the request. -/
  | loaded (currentManifest : Option ProjectionManifest)
  | staged (currentManifest : Option ProjectionManifest)
  | renamed (currentManifest : Option ProjectionManifest)
  | current (currentManifest : Option ProjectionManifest)
  | manifestStaged (currentManifest : Option ProjectionManifest)
  | manifestWritten (currentManifest : Option ProjectionManifest)
  | pointerStaged (currentManifest : Option ProjectionManifest)
  | pointerWritten (currentManifest : Option ProjectionManifest)
  | cached (currentManifest : Option ProjectionManifest)
  | ended (ending : Ending PublishOutcome)

/-- Loads the manifest; a request it satisfies is answered with it. -/
def loadStep (request : PublishRequest) (store : ProjectionStore) : PublishPhase :=
  match store.manifest with
  | none => .loaded none
  | some manifest =>
      if isFullCacheHit functions request manifest then
        .ended (.ok { cacheStatus := .hit, manifest, published := false })
      else .loaded (some manifest)

/-- Fills and validates the stage. -/
def stageStep (request : PublishRequest) (currentManifest : Option ProjectionManifest)
    (store : ProjectionStore)
    : PublishPhase × ProjectionStore :=
  let key := request.token.generationId
  let written :=
    writeStage functions store currentManifest request ((store.staging.get? key).getD .empty)
  let filled := { store with staging := store.staging.insert key written.1 }
  match written.2 with
  | some (.panicked message) => (.ended (.panicked message), filled)
  | some (.failed problem) => (.ended (.error problem), filled)
  | none =>
      if request.injectFailure = some .afterStageWrite then
        (
          .ended (.error (.failureInjected .afterStageWrite)),
          { store with staging := store.staging.remove key }
        )
      else
        match validateGeneration functions written.1 (request.manifest functions) with
        | .error problem => (.ended (.error problem), filled)
        | .ok () => (.staged currentManifest, filled)

/-- Moves the stage into place; a generation that is already there is not replaced. -/
def renameStep (request : PublishRequest) (currentManifest : Option ProjectionManifest)
    (store : ProjectionStore)
    : PublishPhase × ProjectionStore :=
  let key := request.token.generationId
  match store.staging.get? key with
  | none => (.ended (.error (.io "No such file or directory (os error 2)")), store)
  | some stage =>
      if store.generations.contains key then
        (.ended (.error (.io "Directory not empty (os error 39)")), store)
      else
        let moved :=
          {
            store with
            staging := store.staging.remove key, generations := store.generations.insert key stage
          }
        if request.injectFailure = some .beforePointerSwap then
          (.ended (.error (.failureInjected .beforePointerSwap)), moved)
        else (.renamed currentManifest, moved)

/-- Compares the token with the newest one issued. -/
def checkStep (request : PublishRequest) (currentManifest : Option ProjectionManifest)
    (store : ProjectionStore)
    : PublishPhase × ProjectionStore :=
  let latest := store.latestIssuedSequence
  if request.token.sequence < latest then
    (
      .ended (.error (.staleGeneration request.token.sequence latest)),
      { store with generations := store.generations.remove request.token.generationId }
    )
  else (.current currentManifest, store)

/-- One step of a call; a call that has ended takes none. -/
def publishStep (request : PublishRequest) (phase : PublishPhase) (store : ProjectionStore)
    : Option (PublishPhase × ProjectionStore) :=
  match phase with
  | .started => some (loadStep functions request store, store)
  | .loaded currentManifest => some (stageStep functions request currentManifest store)
  | .staged currentManifest => some (renameStep request currentManifest store)
  | .renamed currentManifest => some (checkStep request currentManifest store)
  | .current currentManifest =>
      some
        (
          .manifestStaged currentManifest,
          { store with manifestTemp := some (request.manifest functions) }
        )
  | .manifestStaged currentManifest =>
      match store.manifestTemp with
      | none =>
          some (.ended (.error (.io "No such file or directory (os error 2)")), store)
      | some manifest =>
          some
            (
              .manifestWritten currentManifest,
              { store with manifest := some manifest, manifestTemp := none }
            )
  | .manifestWritten currentManifest =>
      some
        (.pointerStaged currentManifest, { store with currentTemp := some request.pointer })
  | .pointerStaged currentManifest =>
      match store.currentTemp with
      | none =>
          some (.ended (.error (.io "No such file or directory (os error 2)")), store)
      | some pointer =>
          some
            (
              .pointerWritten currentManifest,
              { store with current := some pointer, currentTemp := none }
            )
  | .pointerWritten currentManifest =>
      some (.cached currentManifest, store.writeCacheEntries (request.manifest functions))
  | .cached currentManifest =>
      some
        (
          .ended
            (.ok
              {
                cacheStatus := cacheStatus (request.prepared functions) currentManifest,
                manifest := request.manifest functions,
                published := true
              }),
          { store with latestPublishedSequence := request.token.sequence }
        )
  | .ended _ => none

/-- The steps of a call that nobody interrupts. -/
def publishFrom (request : PublishRequest) : Nat → PublishPhase → ProjectionStore
    → PublishPhase × ProjectionStore
  | 0, phase, store => (phase, store)
  | fuel + 1, phase, store =>
      match publishStep functions request phase store with
      | none => (phase, store)
      | some (next, after) => publishFrom request fuel next after

/-- A call of `publish` by itself: ten steps end it. -/
def publish (request : PublishRequest) (store : ProjectionStore)
    : Ending PublishOutcome × ProjectionStore :=
  match publishFrom functions request 10 .started store with
  | (.ended ending, after) => (ending, after)
  | (_, after) => (.panicked "publish has not ended", after)

end CodebaseGraph.Wiki
