import CodebaseGraph.Partition.Artifacts
import CodebaseGraph.Partition.Closed
import CodebaseGraph.Protocol.Compatibility
import CodebaseGraph.Transition.Fallible

/-! The cache of partitions is transparent: all that a build reads is determined by its key, so
that a loaded partition is the one a rebuild would make.
-/

namespace CodebaseGraph.Partition

open CodebaseGraph.Protocol
open CodebaseGraph.Syntax
open CodebaseGraph.Transition

variable {environment : Environment} {functions : ArtifactFunctions}

/-- A profile set lists each profile under its own language. -/
theorem language_of_byLanguage {text : TextFunctions} {profiles : List LanguageProfile}
    {language : String} {profile : LanguageProfile}
    (found : (ProfileSet.new text profiles).byLanguage language = some profile)
    : profile.language = language := by
  have lookup
      : some profile
        = ((profiles.filter (·.language = language)).getLast?).or
            ((builtInProfiles.filter (·.language = language)).getLast?) :=
    found.symm.trans (profileForLanguage_new profiles language)
  rcases Option.or_eq_some_iff.mp lookup.symm with own | ⟨-, builtIn⟩
  · simpa using (List.mem_filter.mp (List.mem_of_getLast? own)).2
  · simpa using (List.mem_filter.mp (List.mem_of_getLast? builtIn)).2

namespace PlannedBuild

/-- The profile of a planned build is the one the graph's metadata look up. -/
theorem lookup (planned : PlannedBuild environment)
    : planned.snapshot.language = some planned.profile.language
      ∧ (ProfileSet.new environment.unicode.toTextFunctions
          planned.scan.input.profiles).profileForLanguage planned.profile.language
        = some planned.profile := by
  have chosen := planned.chosen
  rw [SourceScan.choose] at chosen
  split at chosen
  next => exact nomatch chosen
  next snapshot _ =>
      split at chosen
      next => exact nomatch chosen
      next language known =>
          split at chosen
          next => exact nomatch chosen
          next profile found =>
              have pair := Prod.mk.inj (Except.ok.inj chosen)
              have isLanguage : profile.language = language := by
                simpa using List.find?_some found
              obtain ⟨languages, selected⟩ := planned.scan.selected
              have inside := List.mem_of_find?_eq_some found
              rw [selected, selectedProfiles, List.mem_filterMap] at inside
              obtain ⟨listed, -, byLanguage⟩ := inside
              have same := language_of_byLanguage byLanguage
              rw [← pair.1, ← pair.2]
              refine ⟨known.trans (congrArg some isLanguage.symm), ?_⟩
              rw [ProfileSet.profileForLanguage, same]
              exact byLanguage

variable {first second : PlannedBuild environment}

/-- What two planned builds of one key have in common. -/
structure Alike (first second : PlannedBuild environment) : Prop where
  sourceRoot : first.scan.input.sourceRoot = second.scan.input.sourceRoot
  repositoryLabel : first.scan.input.repositoryLabel = second.scan.input.repositoryLabel
  ontologySchema : first.scan.input.ontologySchema = second.scan.input.ontologySchema
  path : first.snapshot.path = second.snapshot.path
  contentHash : first.snapshot.contentHash = second.snapshot.contentHash
  profile : first.profile = second.profile

theorem alike_of_key (hashInjective : Function.Injective functions.sha256)
    (materialInjective : Function.Injective functions.encodeMaterial)
    (sameKey : first.key functions = second.key functions)
    : Alike first second := by
  have material := materialInjective (hashInjective sameKey)
  simp only [ArtifactKeyMaterial.mk.injEq, Option.some.injEq] at material
  obtain ⟨-, -, sourceRoot, repositoryLabel, path, contentHash, -, -, profile, -, schema⟩ :=
    material
  exact ⟨sourceRoot, repositoryLabel, schema, path, contentHash, profile⟩

theorem Alike.language (alike : Alike first second)
    : first.snapshot.language = second.snapshot.language := by
  rw [first.lookup.1, second.lookup.1, alike.profile]

theorem Alike.graphMeta (alike : Alike first second)
    : graphMeta environment first.scan.input first.snapshot
      = graphMeta environment second.scan.input second.snapshot := by
  have version (planned : PlannedBuild environment)
      : planned.snapshot.language.bind
          (ProfileSet.new environment.unicode.toTextFunctions
            planned.scan.input.profiles).profileForLanguage
        = some planned.profile := by
    rw [planned.lookup.1, Option.bind_some]
    exact planned.lookup.2
  simp only [Partition.graphMeta, version]
  simp only [alike.language, alike.path, alike.profile, alike.sourceRoot, alike.repositoryLabel,
    alike.ontologySchema]

theorem Alike.manifestEntry (alike : Alike first second) (nodes edges)
    : manifestEntry first.snapshot nodes edges = manifestEntry second.snapshot nodes edges := by
  simp only [Partition.manifestEntry, alike.language, alike.path, alike.contentHash]

/-- Builds of one key make the same partition of a source. -/
theorem Alike.partitionOf (alike : Alike first second) (source : String)
    : first.partitionOf functions source = second.partitionOf functions source := by
  simp only [PlannedBuild.partitionOf, buildPartition, alike.profile, alike.graphMeta,
    alike.manifestEntry]

end PlannedBuild

/-- A partition with the key of a build that makes it from a source of the scanned hash. -/
def Built (environment : Environment) (functions : ArtifactFunctions) (artifactKey : String)
    (partition : GraphPartition)
    : Prop :=
  ∃ (planned : PlannedBuild environment) (source : String) (raw : GraphPartition),
    planned.key functions = artifactKey
    ∧ functions.sha256 source = planned.snapshot.contentHash
    ∧ planned.partitionOf functions source = .ok raw
    ∧ partition = raw.setArtifactKey artifactKey

/-- One key, one partition. -/
theorem Built.unique {artifactKey : String} {partition other : GraphPartition}
    (hashInjective : Function.Injective functions.sha256)
    (materialInjective : Function.Injective functions.encodeMaterial)
    (built : Built environment functions artifactKey partition)
    (built' : Built environment functions artifactKey other)
    : partition = other := by
  obtain ⟨planned, source, raw, isKey, hashed, made, rfl⟩ := built
  obtain ⟨planned', source', raw', isKey', hashed', made', rfl⟩ := built'
  have alike := PlannedBuild.alike_of_key hashInjective materialInjective
    (isKey.trans isKey'.symm)
  have sameSource : source = source' :=
    hashInjective (hashed.trans (alike.contentHash.trans hashed'.symm))
  subst sameSource
  rw [alike.partitionOf, made'] at made
  cases made
  rfl

/-- Every stored file is the envelope of a built partition. -/
def SoundCache (environment : Environment) (functions : ArtifactFunctions)
    (cache : ArtifactCache)
    : Prop :=
  ∀ artifactKey file,
    cache artifactKey = some file →
    ∃ partition,
      Built environment functions artifactKey partition
      ∧ file = functions.encodeEnvelope (envelopeFor functions artifactKey partition)

/-- The spooled snapshot differs only in where its text is kept. -/
theorem spoolSnapshotForBuild_eq_ok {world : BuildWorld} {snapshot spooled : SourceSnapshot}
    (ran : spoolSnapshotForBuild world snapshot = .ok spooled)
    : spooled.path = snapshot.path
      ∧ spooled.contentHash = snapshot.contentHash
      ∧ spooled.language = snapshot.language := by
  rw [spoolSnapshotForBuild] at ran
  cases place : world.spooled with
  | error problem =>
      rw [place] at ran
      exact nomatch ran
  | ok found =>
      rw [place] at ran
      cases found with
      | none =>
          cases ran
          exact ⟨rfl, rfl, rfl⟩
      | some target =>
          cases ran
          exact ⟨rfl, rfl, rfl⟩

theorem buildPartition_spooled {request : NativeSyntaxMaterializationRequest}
    {snapshot spooled : SourceSnapshot} {world : BuildWorld} (root : SyntaxNode)
    (ran : spoolSnapshotForBuild world snapshot = .ok spooled)
    : buildPartition environment request spooled root
      = buildPartition environment request snapshot root := by
  obtain ⟨path, contentHash, language⟩ := spoolSnapshotForBuild_eq_ok ran
  simp only [buildPartition, graphMeta, manifestEntry, path, contentHash, language]

theorem readSnapshottedSource_eq_ok {world : BuildWorld} {snapshot : SourceSnapshot}
    {source : String} (ran : readSnapshottedSource functions world snapshot = .ok source)
    : functions.sha256 source = snapshot.contentHash := by
  rw [readSnapshottedSource] at ran
  cases read : world.readToString snapshot.absolutePath with
  | error problem =>
      rw [read] at ran
      exact nomatch ran
  | ok text =>
      rw [read] at ran
      simp only [bind, Except.bind] at ran
      split at ran
      next => exact nomatch ran
      next matching =>
          cases ran
          simpa using (not_or.mp matching).2

/-- A rebuild makes the partition of a source with the scanned hash. -/
theorem rebuildPartition_eq_ok {world : BuildWorld} (planned : PlannedBuild environment)
    {partition : GraphPartition} {diagnostics : List String}
    (ran : rebuildPartition environment functions world planned.scan.input planned.snapshot
      planned.profile = .ok (partition, diagnostics))
    : Built environment functions (planned.key functions)
        (partition.setArtifactKey (planned.key functions)) := by
  simp only [rebuildPartition, bind_eq_ok] at ran
  obtain ⟨spooled, spools, source, reads, parse, parsed, raw, built, answer⟩ := ran
  cases answer
  refine ⟨planned, source, partition, rfl, ?_, ?_, rfl⟩
  · exact (readSnapshottedSource_eq_ok reads).trans (spoolSnapshotForBuild_eq_ok spools).2.1
  · rw [buildPartition_spooled parse.root spools] at built
    rw [PlannedBuild.partitionOf, bind_eq_ok]
    exact ⟨parse, parsed, built⟩

/-- What is loaded from a sound cache was built under its key. -/
theorem loadPartition_built
    (roundTrip : ∀ envelope,
      functions.decodeEnvelope (functions.encodeEnvelope envelope) = some envelope)
    {cache : ArtifactCache} (sound : SoundCache environment functions cache)
    {artifactKey : String} {expected : ArtifactExpectations} {partition : GraphPartition}
    (loaded : loadPartition functions artifactKey expected cache = some partition)
    : Built environment functions artifactKey partition
      ∧ (validateArtifactKey artifactKey).toBool = true := by
  cases stored : cache artifactKey with
  | none => simp [loadPartition, stored] at loaded
  | some file =>
      obtain ⟨made, built, rfl⟩ := sound artifactKey file stored
      simp only [loadPartition, stored, roundTrip, envelopeFor, Option.bind_eq_bind,
        Option.bind_some, Option.bind_eq_some_iff] at loaded
      obtain ⟨_, valid, _, _, _, _, _, _, _, _, _, _, answer⟩ := loaded
      cases answer
      exact ⟨built, (Option.guard_eq_some' _).mp valid⟩

/-- Storing a built partition keeps the cache sound. -/
theorem storePartition_sound {diskFails : Option (NativeError × Bool)} {artifactKey : String}
    {partition : GraphPartition} {cache : ArtifactCache}
    (sound : SoundCache environment functions cache)
    (built : Built environment functions artifactKey partition)
    : SoundCache environment functions
        (storePartition functions diskFails artifactKey partition cache).2 := by
  have published
      : SoundCache environment functions
          (setArtifact cache artifactKey
            (functions.encodeEnvelope (envelopeFor functions artifactKey partition))) := by
    intro other file stored
    simp only [setArtifact] at stored
    split at stored
    next same =>
        cases stored
        subst same
        exact ⟨partition, built, rfl⟩
    next => exact sound other file stored
  rw [storePartition]
  cases storeChecks artifactKey partition with
  | error problem => exact sound
  | ok _ =>
      cases diskFails with
      | some failure =>
          obtain ⟨problem, placed⟩ := failure
          cases placed with
          | false => exact sound
          | true =>
              cases cache artifactKey with
              | none => exact published
              | some _ => exact sound
      | none =>
          cases stored : cache artifactKey with
          | none => exact published
          | some existing =>
              simp only
              split <;> exact sound

/-- A partition to reuse is one that the cache loads. -/
theorem reusablePartition_eq_some {world : BuildWorld} {artifactKey : String}
    {snapshot : SourceSnapshot} {previousEntry : Option ManifestEntry} {cache : ArtifactCache}
    {partition : GraphPartition}
    (found : reusablePartition functions world artifactKey snapshot previousEntry cache
      = .ok (some partition))
    : ∃ expected, loadPartition functions artifactKey expected cache = some partition := by
  rw [reusablePartition] at found
  split at found
  next =>
      obtain ⟨readable, -, answer⟩ := bind_eq_ok.mp found
      cases readable with
      | true => exact ⟨_, Except.ok.inj answer⟩
      | false => exact nomatch Except.ok.inj answer
  next => exact nomatch Except.ok.inj found

/-- Storing what was rebuilt returns it, and not as reused. -/
theorem storeRebuilt_partition {world : BuildWorld} {artifactKey path : String}
    {partition : GraphPartition} {diagnostics : List String} {cache : ArtifactCache}
    {result : PartitionBuildResult}
    (ran : (storeRebuilt functions world artifactKey path partition diagnostics cache).1
      = .ok result)
    : result.partition = partition ∧ result.reusedArtifact = false := by
  rw [storeRebuilt] at ran
  split at ran
  next =>
      cases ran
      exact ⟨rfl, rfl⟩
  next =>
      split at ran
      next =>
          split at ran
          next => exact nomatch ran
          next =>
              cases ran
              exact ⟨rfl, rfl⟩
      next => exact nomatch ran

theorem storeRebuilt_cache {world : BuildWorld} {artifactKey path : String}
    {partition : GraphPartition} {diagnostics : List String} {cache : ArtifactCache}
    : (storeRebuilt functions world artifactKey path partition diagnostics cache).2
      = (storePartition functions world.storeFails artifactKey partition cache).2 := by
  rw [storeRebuilt]
  split
  next stored => rw [stored]
  next stored =>
      rw [stored]
      split
      next => split <;> rfl
      next => rfl

/-- Only a loaded partition is marked as reused. -/
theorem PlannedBuild.loaded_of_reused (planned : PlannedBuild environment) {world : BuildWorld}
    {cache : ArtifactCache} {result : PartitionBuildResult}
    (ran : (planned.run functions world cache).1 = .ok result)
    (reused : result.reusedArtifact = true)
    : ∃ expected,
        loadPartition functions (planned.key functions) expected cache = some result.partition := by
  rw [PlannedBuild.run, buildPartitionForSnapshot] at ran
  split at ran
  next => exact nomatch ran
  next partition found =>
      cases ran
      exact reusablePartition_eq_some found
  next =>
      split at ran
      next => exact nomatch ran
      next partition diagnostics rebuilt =>
          rw [(storeRebuilt_partition ran).2] at reused
          exact nomatch reused

/-- A build keeps the cache sound, and what it returns was built under its key. -/
theorem PlannedBuild.run_sound
    (roundTrip : ∀ envelope,
      functions.decodeEnvelope (functions.encodeEnvelope envelope) = some envelope)
    (planned : PlannedBuild environment) (world : BuildWorld) {cache : ArtifactCache}
    (sound : SoundCache environment functions cache)
    : SoundCache environment functions (planned.run functions world cache).2
      ∧ ∀ result,
          (planned.run functions world cache).1 = .ok result →
          Built environment functions (planned.key functions) result.partition := by
  rw [PlannedBuild.run, buildPartitionForSnapshot]
  split
  next => exact ⟨sound, fun _ failed => nomatch failed⟩
  next partition found =>
      obtain ⟨expected, loaded⟩ := reusablePartition_eq_some found
      refine ⟨sound, fun result answer => ?_⟩
      cases answer
      exact (loadPartition_built roundTrip sound loaded).1
  next =>
      split
      next => exact ⟨sound, fun _ failed => nomatch failed⟩
      next partition diagnostics rebuilt =>
          have built := rebuildPartition_eq_ok planned rebuilt
          refine ⟨?_, fun result answer => ?_⟩
          · rw [storeRebuilt_cache]
            exact storePartition_sound sound built
          · rw [(storeRebuilt_partition answer).1]
            exact built

/-- Every cache that builds and retirements lead to is sound. -/
theorem soundCache_of_run
    (roundTrip : ∀ envelope,
      functions.decodeEnvelope (functions.encodeEnvelope envelope) = some envelope)
    {trace} {cache : ArtifactCache}
    (run : Run (cacheStep environment functions) (fun _ => none) trace cache)
    : SoundCache environment functions cache := by
  apply run.invariant
  · intro _ _ stored
    exact nomatch stored
  · intro before action event after sound next
    cases action with
    | build planned world =>
        cases next
        exact (planned.run_sound roundTrip world sound).1
    | retire artifactKey =>
        cases next
        intro other file stored
        simp only at stored
        split at stored
        next => exact nomatch stored
        next => exact sound other file stored

/-- A partition built under a valid key passes the checks of the store. -/
theorem storeChecks_built {artifactKey : String} {partition : GraphPartition}
    (valid : (validateArtifactKey artifactKey).toBool = true)
    (built : Built environment functions artifactKey partition)
    : storeChecks artifactKey partition = .ok () := by
  obtain ⟨planned, source, raw, -, -, made, rfl⟩ := built
  obtain ⟨parse, -, made⟩ := bind_eq_ok.mp made
  have validRows : (raw.setArtifactKey artifactKey).validateRawRows = .ok () := by
    have unkeyed := buildPartition_valid made
    exact unkeyed
  have validKey : validateArtifactKey artifactKey = .ok () := by
    cases checked : validateArtifactKey artifactKey with
    | error problem =>
        rw [checked] at valid
        exact nomatch valid
    | ok _ => rfl
  rw [storeChecks, validKey, validRows]
  simp [GraphPartition.setArtifactKey, bind, Except.bind, pure, Except.pure]

/-- Where a partition is loaded, a rebuild of the scanned source returns it too. -/
theorem PlannedBuild.rebuild_of_loaded (hashInjective : Function.Injective functions.sha256)
    (materialInjective : Function.Injective functions.encodeMaterial)
    (roundTrip : ∀ envelope,
      functions.decodeEnvelope (functions.encodeEnvelope envelope) = some envelope)
    (planned : PlannedBuild environment) {cache : ArtifactCache}
    (sound : SoundCache environment functions cache) {expected : ArtifactExpectations}
    {partition : GraphPartition}
    (loaded : loadPartition functions (planned.key functions) expected cache = some partition)
    {world : BuildWorld} {spooled : SourceSnapshot} {source : String}
    (spools : spoolSnapshotForBuild world planned.snapshot = .ok spooled)
    (reads : readSnapshottedSource functions world spooled = .ok source)
    (stores : world.storeFails = none)
    : ∃ rebuilt,
        (({ planned with previousEntry := none } : PlannedBuild environment).run functions world
          cache).1 = .ok rebuilt
        ∧ rebuilt.reusedArtifact = false
        ∧ rebuilt.partition = partition := by
  obtain ⟨built, valid⟩ := loadPartition_built roundTrip sound loaded
  have checked := storeChecks_built valid built
  have hashed : functions.sha256 source = planned.snapshot.contentHash :=
    (readSnapshottedSource_eq_ok reads).trans (spoolSnapshotForBuild_eq_ok spools).2.1
  obtain ⟨diagnostics, raw, ran, same⟩
      : ∃ diagnostics raw,
          rebuildPartition environment functions world planned.scan.input planned.snapshot
            planned.profile = .ok (raw, diagnostics)
          ∧ raw.setArtifactKey (planned.key functions) = partition := by
    obtain ⟨origin, source', raw, isKey, hashed', made, rfl⟩ := built
    have alike := alike_of_key hashInjective materialInjective isKey
    have sameSource : source' = source :=
      hashInjective (hashed'.trans (alike.contentHash.trans hashed.symm))
    rw [sameSource, alike.partitionOf, PlannedBuild.partitionOf] at made
    obtain ⟨parse, parsed, made⟩ := bind_eq_ok.mp made
    refine ⟨parse.diagnostics, raw, ?_, rfl⟩
    simp only [rebuildPartition, bind_eq_ok]
    refine ⟨spooled, spools, source, reads, parse, parsed, raw, ?_, rfl⟩
    rw [buildPartition_spooled parse.root spools, made]
  have stored
      : (storePartition functions none (planned.key functions) partition cache).1 = .ok () := by
    rw [storePartition, checked]
    cases present : cache (planned.key functions) with
    | none => rfl
    | some file =>
        obtain ⟨other, built', rfl⟩ := sound _ file present
        rw [built'.unique hashInjective materialInjective built]
        simp
  refine ⟨{ partition, diagnostics, reusedArtifact := false, transient := false }, ?_, rfl, rfl⟩
  have unplanned
      : reusablePartition functions world (planned.key functions) planned.snapshot none cache
        = .ok none := by
    simp [reusablePartition, pure, Except.pure]
  have opened
      : ({ planned with previousEntry := none } : PlannedBuild environment).run functions world cache
        = storeRebuilt functions world (planned.key functions) planned.snapshot.path partition
            diagnostics cache := by
    rw [PlannedBuild.run, buildPartitionForSnapshot]
    simp only [PlannedBuild.key] at unplanned same
    simp only [unplanned, ran, same, PlannedBuild.key]
  rw [opened, storeRebuilt, stores]
  split
  next => rfl
  next problem _ failed =>
      rw [failed] at stored
      exact nomatch stored

/-- The cache of partitions is transparent. Planned builds of one key make the same partition of
any source; so whatever builds and retirements led to the caches, builds of one key return the
same partition wherever both return one, be it loaded or rebuilt; and where a partition is
loaded, a rebuild that can still read the scanned source and write the cache returns it.
Witness: a build, and the same build served from the cache.
-/
theorem artifactCache_transparent (environment : Environment) (functions : ArtifactFunctions)
    (hashInjective : Function.Injective functions.sha256)
    (materialInjective : Function.Injective functions.encodeMaterial)
    (roundTrip : ∀ envelope,
      functions.decodeEnvelope (functions.encodeEnvelope envelope) = some envelope)
    : (∀ first second : PlannedBuild environment,
        first.key functions = second.key functions →
        ∀ source, first.partitionOf functions source = second.partitionOf functions source)
      ∧ (∀ trace trace' cache cache',
          Run (cacheStep environment functions) (fun _ => none) trace cache →
          Run (cacheStep environment functions) (fun _ => none) trace' cache' →
          ∀ (first second : PlannedBuild environment) (world world' : BuildWorld) result result',
            first.key functions = second.key functions →
            (first.run functions world cache).1 = .ok result →
            (second.run functions world' cache').1 = .ok result' →
            result.partition = result'.partition)
      ∧ ∀ trace cache,
          Run (cacheStep environment functions) (fun _ => none) trace cache →
          ∀ (planned : PlannedBuild environment) (world world' : BuildWorld) result spooled source,
            (planned.run functions world cache).1 = .ok result →
            result.reusedArtifact = true →
            spoolSnapshotForBuild world' planned.snapshot = .ok spooled →
            readSnapshottedSource functions world' spooled = .ok source →
            world'.storeFails = none →
            ∃ rebuilt,
              (({ planned with previousEntry := none } : PlannedBuild environment).run functions
                world' cache).1 = .ok rebuilt
              ∧ rebuilt.reusedArtifact = false
              ∧ rebuilt.partition = result.partition := by
  refine ⟨?_, ?_, ?_⟩
  · intro first second sameKey source
    have alike := PlannedBuild.alike_of_key hashInjective materialInjective sameKey
    exact alike.partitionOf source
  · intro trace trace' cache cache' reached reached' first second world world' result result'
      sameKey ran ran'
    have sound := soundCache_of_run roundTrip reached
    have sound' := soundCache_of_run roundTrip reached'
    have built := (first.run_sound roundTrip world sound).2 result ran
    have built' := (second.run_sound roundTrip world' sound').2 result' ran'
    rw [sameKey] at built
    exact built.unique hashInjective materialInjective built'
  · intro trace cache reached planned world world' result spooled source ran reused spools reads
      stores
    have sound := soundCache_of_run roundTrip reached
    obtain ⟨expected, loaded⟩ := planned.loaded_of_reused ran reused
    exact planned.rebuild_of_loaded hashInjective materialInjective roundTrip sound loaded spools
      reads stores

end CodebaseGraph.Partition
