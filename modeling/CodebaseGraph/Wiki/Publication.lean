import Mathlib.Data.List.Induction
import CodebaseGraph.Transition.Fallible
import CodebaseGraph.Transition.Runs
import CodebaseGraph.Wiki.Projection

/-! What a published projection contains. Every generation that becomes current was validated
against its manifest, so its files are determined by the digests the manifest lists.
-/

namespace CodebaseGraph.Wiki

open CodebaseGraph.Collections CodebaseGraph.Transition

variable {functions : StoreFunctions}

-- Digests

/-- Equal digests of a bundle are digests of the same projection, dependencies and search
bytes; an absent search artifact and an empty one have the same bytes.
-/
theorem StoreFunctions.Sound.bundleHash (sound : functions.Sound) {first second : Bundle}
    {search search' : Option Bytes} {dependencies dependencies' : BundleDependencyIndex}
    (same
      : stableBundleHash functions (functions.bundleJson first) search dependencies
        = stableBundleHash functions (functions.bundleJson second) search' dependencies')
    : functions.bundleJson first = functions.bundleJson second
      ∧ search.getD [] = search'.getD [] := by
  have texts := sound.hashInjective same
  rw [List.append_assoc, List.append_assoc] at texts
  have projections := sound.bundleEnds _ _ _ _ texts
  rw [projections] at texts
  have rests := List.append_cancel_left texts
  have indexes := sound.dependencyEnds _ _ _ _ rests
  rw [indexes] at rests
  exact ⟨projections, List.append_cancel_left rests⟩

-- Files of a generation

/-- The search bytes an artifact names in a directory. -/
def SearchBytes (directory : GenerationDirectory) (artifact : PublishedBundleArtifact)
    (search : Option Bytes)
    : Prop :=
  match artifact.searchPath with
  | none => search = none
  | some path => ∃ bytes, directory.get? path = some bytes ∧ search = some bytes

/-- The files of a bundle are a projection and a search artifact with the listed digest. -/
structure HoldsBundle (functions : StoreFunctions) (directory : GenerationDirectory)
    (manifest : ProjectionManifest) (bundleId : String) (artifact : PublishedBundleArtifact)
    (bundle : Bundle) (search : Option Bytes) (dependencies : BundleDependencyIndex)
    : Prop where
  written : directory.get? artifact.projectionPath = some (functions.bundleJson bundle)
  searched : SearchBytes directory artifact search
  indexed : manifest.dependencyEdges.get? bundleId = some dependencies
  digest
    : stableBundleHash functions (functions.bundleJson bundle) search dependencies
      = artifact.contentHash

def HoldsBundles (functions : StoreFunctions) (directory : GenerationDirectory)
    (manifest : ProjectionManifest)
    : Prop :=
  ∀ bundleId artifact,
    manifest.bundles.get? bundleId = some artifact
    → ∃ bundle search dependencies,
        HoldsBundle functions directory manifest bundleId artifact bundle search dependencies

/-- The manifest on disk and the pointer name one generation, whose files it describes. -/
structure Published (functions : StoreFunctions) (store : ProjectionStore)
    (manifest : ProjectionManifest)
    : Prop where
  pointer : store.current = some manifest.generation
  files
    : ∃ directory,
        store.generations.get? manifest.generation.generationId = some directory
        ∧ HoldsBundles functions directory manifest

/-- What holds of a store between calls. -/
structure StoreInvariant (functions : StoreFunctions) (store : ProjectionStore) : Prop where
  unpublished : store.manifest = none → store.current = none
  published {manifest} : store.manifest = some manifest → Published functions store manifest

/-- A change that keeps the pointers and the published generation keeps the invariant. -/
theorem StoreInvariant.frame {store after : ProjectionStore}
    (holds : StoreInvariant functions store) (manifests : after.manifest = store.manifest)
    (pointers : after.current = store.current)
    (generations
      : ∀ key directory,
          store.generations.get? key = some directory → after.generations.get? key = some directory)
    : StoreInvariant functions after where
  unpublished absent := pointers.trans (holds.unpublished (manifests.symm.trans absent))
  published found := by
    obtain ⟨pointer, directory, there, files⟩ := holds.published (manifests.symm.trans found)
    exact ⟨pointers.trans pointer, directory, generations _ _ there, files⟩

-----------------------------------------------------------------------------------------
-- Staging
-----------------------------------------------------------------------------------------

theorem searchPath_ne_projectionPath (first second : String)
    : searchPath first ≠ projectionPath second := by
  simp [projectionPath, searchPath, ← String.toList_inj]

theorem diagnosticsFile_ne_projectionPath (bundleId : String)
    : projectionPath bundleId ≠ diagnosticsFile := by
  simp [projectionPath, diagnosticsFile, ← String.toList_inj]

theorem manifestFile_ne_projectionPath (bundleId : String)
    : projectionPath bundleId ≠ manifestFile := by
  simp [projectionPath, manifestFile, ← String.toList_inj]

/-- The projection of a bundle in a directory is the text of some bundle. -/
def HasProjection (functions : StoreFunctions) (directory : GenerationDirectory) (bundleId : String)
    : Prop :=
  ∃ bundle, directory.get? (projectionPath bundleId) = some (functions.bundleJson bundle)

theorem HasProjection.insert {directory : GenerationDirectory} {bundleId path : String}
    (has : HasProjection functions directory bundleId) (bytes : Bytes)
    (other : projectionPath bundleId ≠ path)
    : HasProjection functions (directory.insert path bytes) bundleId := by
  obtain ⟨bundle, found⟩ := has
  exact ⟨bundle, by rw [SortedMap.get?_insert_of_ne _ _ other, found]⟩

theorem unchangedArtifact_eq_some {manifest : ProjectionManifest} {prepared : PreparedBundle}
    {artifact : PublishedBundleArtifact}
    : unchangedArtifact manifest prepared = some artifact
      ↔ manifest.bundles.get? prepared.bundleId = some artifact
        ∧ artifact.contentHash = prepared.contentHash := by
  simp [unchangedArtifact, Option.filter_eq_some_iff]

/-- The loaded manifest names a generation with the files it describes. -/
def Sources (functions : StoreFunctions) (store : ProjectionStore)
    (currentManifest : Option ProjectionManifest)
    : Prop :=
  ∀ manifest,
    currentManifest = some manifest
    → ∃ directory,
        store.generations.get? manifest.generation.generationId = some directory
        ∧ HoldsBundles functions directory manifest

/-- The published artifact of an unchanged bundle has a search file, the bundle has none. -/
def Clash (currentManifest : Option ProjectionManifest) (prepared : PreparedBundle) : Prop :=
  ∃ manifest artifact,
    currentManifest = some manifest
    ∧ unchangedArtifact manifest prepared = some artifact
    ∧ artifact.searchPath.isSome = true
    ∧ prepared.searchBytes = none

/-- What staging one bundle does when the files to copy are there: it panics exactly at a
clash, and otherwise leaves the text of a bundle under its path.
-/
theorem stageBundle_spec {store : ProjectionStore} {currentManifest : Option ProjectionManifest}
    (sources : Sources functions store currentManifest) {prepared : PreparedBundle}
    (text : ∃ bundle, prepared.projectionBytes = functions.bundleJson bundle)
    (stage : GenerationDirectory)
    : (Clash currentManifest prepared
        ∧ ∃ message,
            (stageBundle store currentManifest prepared stage).2 = some (.panicked message))
      ∨ (¬ Clash currentManifest prepared
        ∧ (stageBundle store currentManifest prepared stage).2 = none
        ∧ HasProjection functions (stageBundle store currentManifest prepared stage).1
            prepared.bundleId
        ∧ ∀ other,
            HasProjection functions stage other
            → HasProjection functions (stageBundle store currentManifest prepared stage).1
                other) := by
  cases reused : currentManifest.bind
      (fun manifest =>
        (unchangedArtifact manifest prepared).map (fun found => (manifest, found))) with
  | none =>
      right
      have clashless : ¬ Clash currentManifest prepared := by
        rintro ⟨manifest, artifact, rfl, unchanged, _⟩
        simp [unchanged] at reused
      obtain ⟨bundle, same⟩ := text
      have written (other : String) (has : HasProjection functions stage other)
          : HasProjection functions
              (stage.insert (projectionPath prepared.bundleId) prepared.projectionBytes) other := by
        by_cases equal : projectionPath other = projectionPath prepared.bundleId
        · exact ⟨bundle, by rw [equal, SortedMap.get?_insert_self, same]⟩
        · exact has.insert _ equal
      have self : HasProjection functions
          (stage.insert (projectionPath prepared.bundleId) prepared.projectionBytes)
          prepared.bundleId :=
        ⟨bundle, by rw [SortedMap.get?_insert_self, same]⟩
      cases artifact : prepared.searchBytes with
      | none =>
          simp only [stageBundle, reused, artifact]
          exact ⟨clashless, trivial, self, written⟩
      | some bytes =>
          simp only [stageBundle, reused, artifact]
          refine ⟨clashless, trivial, self.insert _ (searchPath_ne_projectionPath _ _).symm, ?_⟩
          intro other has
          exact (written other has).insert _ (searchPath_ne_projectionPath _ _).symm
  | some pair =>
      obtain ⟨manifest, existing⟩ := pair
      obtain ⟨manifest', rfl, mapped⟩ := Option.bind_eq_some_iff.mp reused
      obtain ⟨existing', unchanged, same⟩ := Option.map_eq_some_iff.mp mapped
      obtain ⟨rfl, rfl⟩ := Prod.mk.inj same
      obtain ⟨directory, there, files⟩ := sources manifest' rfl
      obtain ⟨listed, _⟩ := unchangedArtifact_eq_some.mp unchanged
      obtain ⟨bundle, search, dependencies, holds⟩ := files _ _ listed
      have copied (path target : String) (bytes : Bytes) (found : directory.get? path = some bytes)
          (stage : GenerationDirectory)
          : copyIfNeeded store manifest'.generation path target stage
            = (stage.insert target bytes, none) := by
        simp [copyIfNeeded, there, found]
      have self : HasProjection functions
          (stage.insert (projectionPath prepared.bundleId) (functions.bundleJson bundle))
          prepared.bundleId :=
        ⟨bundle, SortedMap.get?_insert_self ..⟩
      have written (other : String) (has : HasProjection functions stage other)
          : HasProjection functions
              (stage.insert (projectionPath prepared.bundleId) (functions.bundleJson bundle))
              other := by
        by_cases equal : projectionPath other = projectionPath prepared.bundleId
        · exact ⟨bundle, by rw [equal, SortedMap.get?_insert_self]⟩
        · exact has.insert _ equal
      cases searched : existing'.searchPath with
      | none =>
          right
          simp only [stageBundle, reused, copied _ _ _ holds.written, searched]
          refine ⟨?_, trivial, self, written⟩
          rintro ⟨manifest, artifact, found, unchanged', some', _⟩
          obtain rfl := Option.some.inj found
          obtain rfl := Option.some.inj (unchanged.symm.trans unchanged')
          simp [searched] at some'
      | some path =>
          cases artifact : prepared.searchBytes with
          | none =>
              left
              refine ⟨⟨manifest', existing', rfl, unchanged, by simp [searched], artifact⟩, ?_⟩
              simp only [stageBundle, reused, copied _ _ _ holds.written, searched, artifact,
                Option.map_none]
              exact ⟨_, rfl⟩
          | some bytes =>
              right
              have stored := holds.searched
              rw [SearchBytes, searched] at stored
              obtain ⟨old, found, _⟩ := stored
              simp only [stageBundle, reused, copied _ _ _ holds.written, searched, artifact,
                Option.map_some, copied _ _ _ found]
              refine ⟨?_, trivial, self.insert _ (searchPath_ne_projectionPath _ _).symm, ?_⟩
              · rintro ⟨manifest, artifact', _, _, _, absent⟩
                simp [artifact] at absent
              · intro other has
                exact (written other has).insert _ (searchPath_ne_projectionPath _ _).symm

/-- Staging the bundles of a request panics exactly when one of them clashes, and otherwise
leaves the text of a bundle under the path of each.
-/
theorem stageBundles_spec {store : ProjectionStore} {currentManifest : Option ProjectionManifest}
    (sources : Sources functions store currentManifest) {prepared : List PreparedBundle}
    (texts
      : ∀ bundle ∈ prepared, ∃ origin, bundle.projectionBytes = functions.bundleJson origin)
    (stage : GenerationDirectory)
    : ((∃ bundle ∈ prepared, Clash currentManifest bundle)
        ∧ ∃ message,
            (stageBundles store currentManifest prepared stage).2 = some (.panicked message))
      ∨ ((∀ bundle ∈ prepared, ¬ Clash currentManifest bundle)
        ∧ (stageBundles store currentManifest prepared stage).2 = none
        ∧ ∀ bundleId,
            (HasProjection functions stage bundleId
              ∨ ∃ bundle ∈ prepared, bundle.bundleId = bundleId)
            → HasProjection functions (stageBundles store currentManifest prepared stage).1
                bundleId) := by
  induction prepared generalizing stage with
  | nil => exact Or.inr ⟨by simp, rfl, by simp [stageBundles]⟩
  | cons bundle rest ih =>
      rcases stageBundle_spec sources (texts bundle (by simp)) stage with
        ⟨clash, message, panicked⟩ | ⟨clear, done, self, kept⟩
      · left
        refine ⟨⟨bundle, by simp, clash⟩, message, ?_⟩
        cases staged : stageBundle store currentManifest bundle stage with
        | mk after fault =>
            obtain rfl : fault = some (.panicked message) := by simpa [staged] using panicked
            simp only [stageBundles, staged]
      · have continued
            : stageBundles store currentManifest (bundle :: rest) stage
              = stageBundles store currentManifest rest
                  (stageBundle store currentManifest bundle stage).1 := by
          cases staged : stageBundle store currentManifest bundle stage with
          | mk after fault =>
              obtain rfl : fault = none := by simpa [staged] using done
              simp only [stageBundles, staged]
        rw [continued]
        rcases ih (fun other inside => texts other (by simp [inside]))
            (stageBundle store currentManifest bundle stage).1 with
          ⟨⟨other, inside, clash⟩, message, panicked⟩ | ⟨clear', done', written⟩
        · exact Or.inl ⟨⟨other, by simp [inside], clash⟩, message, panicked⟩
        · refine Or.inr ⟨?_, done', ?_⟩
          · intro other inside
            rcases List.mem_cons.mp inside with rfl | later
            · exact clear
            · exact clear' other later
          · rintro bundleId (has | ⟨other, inside, rfl⟩)
            · exact written _ (Or.inl (kept _ has))
            · rcases List.mem_cons.mp inside with rfl | later
              · exact written _ (Or.inl self)
              · exact written _ (Or.inr ⟨other, later, rfl⟩)

-- The manifest of a request

/-- Of the bundles of one name the last one counts. -/
theorem get?_byBundle {α : Type} (value : PreparedBundle → α) (prepared : List PreparedBundle)
    (bundleId : String)
    : (byBundle value prepared).get? bundleId
      = (prepared.reverse.find? (fun bundle => bundle.bundleId = bundleId)).map value := by
  induction prepared using List.reverseRec with
  | nil => rfl
  | append_singleton rest last ih =>
      have folded
          : byBundle value (rest ++ [last])
            = (byBundle value rest).insert last.bundleId (value last) := by
        simp only [byBundle, List.foldl_append, List.foldl_cons, List.foldl_nil]
      rw [folded, SortedMap.get?_insert, List.reverse_append, List.reverse_singleton,
        List.singleton_append, List.find?_cons, ih]
      by_cases same : last.bundleId = bundleId
      · simp [same]
      · simp [same, Ne.symm same]

theorem byBundle_origin {α : Type} {value : PreparedBundle → α} {prepared : List PreparedBundle}
    {bundleId : String} {found : α} (listed : (byBundle value prepared).get? bundleId = some found)
    : ∃ bundle ∈ prepared, bundle.bundleId = bundleId ∧ value bundle = found := by
  rw [get?_byBundle, Option.map_eq_some_iff] at listed
  obtain ⟨bundle, first, rfl⟩ := listed
  exact ⟨bundle, by simpa using List.mem_of_find?_eq_some first,
    by simpa using List.find?_some first, rfl⟩

theorem mem_keys_byBundle {α : Type} {value : PreparedBundle → α} {prepared : List PreparedBundle}
    {bundleId : String}
    : bundleId ∈ (byBundle value prepared).keys
      ↔ ∃ bundle ∈ prepared, bundle.bundleId = bundleId := by
  simp only [SortedMap.mem_keys_iff, get?_byBundle, ← Option.isSome_iff_exists, Option.isSome_map,
    List.find?_isSome, List.mem_reverse, decide_eq_true_eq]

theorem get?_byBundle_of_mem {α : Type} {value : PreparedBundle → α}
    {prepared : List PreparedBundle} (distinct : (prepared.map PreparedBundle.bundleId).Nodup)
    {bundle : PreparedBundle} (inside : bundle ∈ prepared)
    : (byBundle value prepared).get? bundle.bundleId = some (value bundle) := by
  have key : bundle.bundleId ∈ (byBundle value prepared).keys :=
    mem_keys_byBundle.mpr ⟨bundle, inside, rfl⟩
  obtain ⟨found, listed⟩ := SortedMap.mem_keys_iff.mp key
  obtain ⟨other, inside', same, rfl⟩ := byBundle_origin listed
  obtain rfl := List.inj_on_of_nodup_map distinct inside' inside same
  exact listed

-- Validation

theorem readFile_eq_ok {stage : GenerationDirectory} {path : String} {bytes : Bytes}
    : readFile stage path = .ok bytes ↔ stage.get? path = some bytes := by
  cases found : stage.get? path with
  | none => simp [readFile, found]
  | some there => simp [readFile, found]

theorem readSearch_eq_ok {stage : GenerationDirectory} {artifact : PublishedBundleArtifact}
    {search : Option Bytes}
    : readSearch stage artifact = .ok search ↔ SearchBytes stage artifact search := by
  unfold readSearch SearchBytes
  cases artifact.searchPath with
  | none => simp [eq_comm]
  | some path =>
      cases found : stage.get? path with
      | none => simp [readFile, found, Except.map]
      | some there => simp [readFile, found, Except.map, eq_comm]

/-- A bundle that passes validation has files with the listed digest. -/
theorem validateBundle_ok {stage : GenerationDirectory} {manifest : ProjectionManifest}
    {bundleId : String} {artifact : PublishedBundleArtifact}
    (passed : validateBundle functions stage manifest bundleId artifact = .ok ())
    : ∃ bytes search dependencies,
        stage.get? artifact.projectionPath = some bytes
        ∧ SearchBytes stage artifact search
        ∧ manifest.dependencyEdges.get? bundleId = some dependencies
        ∧ stableBundleHash functions bytes search dependencies = artifact.contentHash := by
  rw [validateBundle] at passed
  obtain ⟨bytes, projection, passed⟩ := bind_eq_ok.mp passed
  obtain ⟨search, searched, passed⟩ := bind_eq_ok.mp passed
  obtain ⟨dependencies, indexed, passed⟩ := bind_eq_ok.mp passed
  have digest : stableBundleHash functions bytes search dependencies = artifact.contentHash := by
    by_contra different
    simp [different] at passed
  refine ⟨bytes, search, dependencies, readFile_eq_ok.mp projection, readSearch_eq_ok.mp searched,
    ?_, digest⟩
  cases found : manifest.dependencyEdges.get? bundleId with
  | none => simp [found] at indexed
  | some there => simpa [found] using indexed

/-- Validation passes every bundle of the manifest. -/
theorem validateGeneration_bundle {stage : GenerationDirectory} {manifest : ProjectionManifest}
    (validated : validateGeneration functions stage manifest = .ok ()) {bundleId : String}
    {artifact : PublishedBundleArtifact}
    (listed : manifest.bundles.get? bundleId = some artifact)
    : validateBundle functions stage manifest bundleId artifact = .ok () := by
  rw [validateGeneration] at validated
  split at validated
  · cases validated
  obtain ⟨_, _, validated⟩ := bind_eq_ok.mp validated
  split at validated
  · cases validated
  exact forM_eq_ok.mp validated _ (SortedMap.get?_eq_some_iff.mp listed)

theorem holdsBundles_of_validated {stage : GenerationDirectory} {request : PublishRequest}
    (validated : validateGeneration functions stage (request.manifest functions) = .ok ())
    (texts
      : ∀ bundle ∈ request.prepared functions, HasProjection functions stage bundle.bundleId)
    : HoldsBundles functions stage (request.manifest functions) := by
  intro bundleId artifact listed
  obtain ⟨prepared, inside, rfl, rfl⟩ := byBundle_origin listed
  obtain ⟨bytes, search, dependencies, projection, searched, indexed, digest⟩ :=
    validateBundle_ok (validateGeneration_bundle validated listed)
  obtain ⟨bundle, text⟩ := texts prepared inside
  obtain rfl := Option.some.inj (projection.symm.trans text)
  exact ⟨bundle, search, dependencies, projection, searched, indexed, digest⟩

-----------------------------------------------------------------------------------------
-- What a call does
-----------------------------------------------------------------------------------------

/-- A change that the manifest, the pointer and the generations survive. -/
structure QuietChange (store after : ProjectionStore) : Prop where
  manifest : after.manifest = store.manifest
  current : after.current = store.current
  generations
    : ∀ key directory,
        store.generations.get? key = some directory → after.generations.get? key = some directory

/-- The manifest on disk answers the request. -/
def Answered (functions : StoreFunctions) (request : PublishRequest) (store : ProjectionStore)
    : Prop :=
  ∃ manifest, store.manifest = some manifest ∧ isFullCacheHit functions request manifest = true

/-- A bundle of the request clashes with the published artifact of the same content. -/
def Clashes (functions : StoreFunctions) (request : PublishRequest) (store : ProjectionStore)
    : Prop :=
  ∃ bundle ∈ request.prepared functions, Clash store.manifest bundle

/-- What a call of `publish` does to the store, by the way it ends. -/
inductive PublishResult (functions : StoreFunctions) (request : PublishRequest)
    (store : ProjectionStore)
    : Ending PublishOutcome → ProjectionStore → Prop where
  | answered {manifest} (found : store.manifest = some manifest)
    (full : isFullCacheHit functions request manifest = true)
    : PublishResult functions request store
        (.ok { cacheStatus := .hit, manifest, published := false }) store
  | clashed {after} (message : String) (unanswered : ¬ Answered functions request store)
    (clash : Clashes functions request store) (quiet : QuietChange store after)
    : PublishResult functions request store (.panicked message) after
  | failed {after} (problem : ProjectionStoreError)
    (unanswered : ¬ Answered functions request store)
    (clear : ¬ Clashes functions request store) (quiet : QuietChange store after)
    : PublishResult functions request store (.error problem) after
  | published {after stage} (outcome : PublishOutcome)
    (unanswered : ¬ Answered functions request store)
    (clear : ¬ Clashes functions request store)
    (manifest : after.manifest = some (request.manifest functions))
    (current : after.current = some request.pointer)
    (moved : after.generations.get? request.token.generationId = some stage)
    (validated : validateGeneration functions stage (request.manifest functions) = .ok ())
    (texts
      : ∀ bundle ∈ request.prepared functions, HasProjection functions stage bundle.bundleId)
    : PublishResult functions request store (.ok outcome) after

theorem StoreInvariant.sources {store : ProjectionStore} (holds : StoreInvariant functions store)
    : Sources functions store store.manifest := by
  intro manifest found
  exact (holds.published found).files

/-- What staging a request leaves behind, by the way it ends. -/
theorem writeStage_spec {store : ProjectionStore} (holds : StoreInvariant functions store)
    (request : PublishRequest) (stage : GenerationDirectory)
    : (Clashes functions request store
        ∧ ∃ message,
            (writeStage functions store store.manifest request stage).2
              = some (.panicked message))
      ∨ (¬ Clashes functions request store
        ∧ (writeStage functions store store.manifest request stage).2 = none
        ∧ ∀ bundle ∈ request.prepared functions,
            HasProjection functions (writeStage functions store store.manifest request stage).1
              bundle.bundleId) := by
  have texts
      : ∀ bundle ∈ request.prepared functions,
          ∃ origin, bundle.projectionBytes = functions.bundleJson origin := by
    intro bundle inside
    obtain ⟨publication, _, rfl⟩ := List.mem_map.mp inside
    exact ⟨publication.bundle.normalize, rfl⟩
  rcases stageBundles_spec holds.sources texts stage with
    ⟨clash, message, panicked⟩ | ⟨clear, done, written⟩
  · left
    refine ⟨clash, message, ?_⟩
    cases staged : stageBundles store store.manifest (request.prepared functions) stage with
    | mk after fault =>
        obtain rfl : fault = some (.panicked message) := by simpa [staged] using panicked
        simp only [writeStage, staged]
  · right
    cases staged : stageBundles store store.manifest (request.prepared functions) stage with
    | mk after fault =>
        obtain rfl : fault = none := by simpa [staged] using done
        simp only [writeStage, staged]
        refine ⟨by rintro ⟨bundle, inside, clash⟩; exact clear bundle inside clash, trivial, ?_⟩
        intro bundle inside
        have text := written bundle.bundleId (Or.inr ⟨bundle, inside, rfl⟩)
        rw [staged] at text
        exact (text.insert _ (diagnosticsFile_ne_projectionPath _)).insert _
          (manifestFile_ne_projectionPath _)

theorem publishFrom_ended (request : PublishRequest) (ending : Ending PublishOutcome)
    (store : ProjectionStore) (fuel : Nat)
    : publishFrom functions request fuel (.ended ending) store = (.ended ending, store) := by
  cases fuel with
  | zero => rfl
  | succ fuel => rfl

/-- The store after both pointers were written. -/
def ProjectionStore.pointed (functions : StoreFunctions) (store : ProjectionStore)
    (request : PublishRequest)
    : ProjectionStore :=
  {
    store with
    manifest := some (request.manifest functions), current := some request.pointer,
    manifestTemp := none, currentTemp := none
  }

/-- Past the staleness check a call that is alone writes both pointers. -/
theorem publishFrom_current (request : PublishRequest)
    (currentManifest : Option ProjectionManifest) (store : ProjectionStore)
    : publishFrom functions request 6 (.current currentManifest) store
      = (
          .ended
            (.ok
              {
                cacheStatus := cacheStatus (request.prepared functions) currentManifest,
                manifest := request.manifest functions,
                published := true
              }),
          {
            (store.pointed functions request).writeCacheEntries (request.manifest functions) with
            latestPublishedSequence := request.token.sequence
          }
        ) :=
  rfl

/-- Staging either ends the call with the pointers and the generations untouched, or leaves a
validated stage.
-/
theorem stageStep_spec {store : ProjectionStore} (holds : StoreInvariant functions store)
    (request : PublishRequest)
    : (Clashes functions request store
        ∧ ∃ message after,
            stageStep functions request store.manifest store
              = (.ended (.panicked message), after)
            ∧ QuietChange store after)
      ∨ (¬ Clashes functions request store
        ∧ ((∃ problem after,
              stageStep functions request store.manifest store = (.ended (.error problem), after)
              ∧ QuietChange store after)
          ∨ ∃ stage,
              stageStep functions request store.manifest store
                = (
                    .staged store.manifest,
                    {
                      store with
                      staging := store.staging.insert request.token.generationId stage
                    }
                  )
              ∧ validateGeneration functions stage (request.manifest functions) = .ok ()
              ∧ ∀ bundle ∈ request.prepared functions,
                  HasProjection functions stage bundle.bundleId)) := by
  rcases writeStage_spec holds request
      ((store.staging.get? request.token.generationId).getD .empty) with
    ⟨clash, message, panicked⟩ | ⟨clear, done, texts⟩
  · left
    refine ⟨clash, message, ?_⟩
    simp only [stageStep, panicked]
    exact ⟨_, rfl, rfl, rfl, fun _ _ there => there⟩
  · refine Or.inr ⟨clear, ?_⟩
    simp only [stageStep, done]
    split
    · exact Or.inl ⟨_, _, rfl, rfl, rfl, fun _ _ there => there⟩
    · split
      · exact Or.inl ⟨_, _, rfl, rfl, rfl, fun _ _ there => there⟩
      · next validated => exact Or.inr ⟨_, rfl, validated, texts⟩

/-- Moving the stage into place ends the call or adds a generation that was not there. -/
theorem renameStep_spec (request : PublishRequest) (currentManifest : Option ProjectionManifest)
    (store : ProjectionStore) (stage : GenerationDirectory)
    : (∃ problem after,
          renameStep request currentManifest
              {
                store with
                staging := store.staging.insert request.token.generationId stage
              }
            = (.ended (.error problem), after)
          ∧ QuietChange store after)
      ∨ (store.generations.get? request.token.generationId = none
        ∧ ∃ moved,
            renameStep request currentManifest
                {
                  store with
                  staging := store.staging.insert request.token.generationId stage
                }
              = (.renamed currentManifest, moved)
            ∧ moved.manifest = store.manifest
            ∧ moved.current = store.current
            ∧ moved.generations = store.generations.insert request.token.generationId stage) := by
  simp only [renameStep, SortedMap.get?_insert_self]
  split
  · exact Or.inl ⟨_, _, rfl, rfl, rfl, fun _ _ there => there⟩
  · next fresh =>
      have absent : store.generations.get? request.token.generationId = none := by
        simpa [SortedMap.contains] using fresh
      split
      · refine Or.inl ⟨_, _, rfl, rfl, rfl, ?_⟩
        intro key directory there
        have other : key ≠ request.token.generationId := by
          rintro rfl
          simp [absent] at there
        simpa [SortedMap.get?_insert_of_ne _ _ other] using there
      · exact Or.inr ⟨absent, _, rfl, rfl, rfl, rfl⟩

/-- A call by itself, by the way it ends. -/
theorem publish_result {store : ProjectionStore} (holds : StoreInvariant functions store)
    (request : PublishRequest)
    : PublishResult functions request store (publish functions request store).1
        (publish functions request store).2 := by
  have first
      : publishFrom functions request 10 .started store
        = publishFrom functions request 9 (loadStep functions request store) store :=
    rfl
  by_cases answered : Answered functions request store
  · obtain ⟨manifest, found, full⟩ := answered
    have loaded
        : loadStep functions request store
          = .ended (.ok { cacheStatus := .hit, manifest, published := false }) := by
      simp only [loadStep, found, full, if_true]
    simp only [publish, first, loaded, publishFrom_ended]
    exact .answered found full
  have loaded : loadStep functions request store = .loaded store.manifest := by
    unfold loadStep
    cases found : store.manifest with
    | none => rfl
    | some manifest =>
        have missed : ¬ isFullCacheHit functions request manifest = true :=
          fun full => answered ⟨manifest, found, full⟩
        simp [missed]
  have second
      : publishFrom functions request 9 (.loaded store.manifest) store
        = publishFrom functions request 8 (stageStep functions request store.manifest store).1
            (stageStep functions request store.manifest store).2 :=
    rfl
  rcases stageStep_spec holds request with
    ⟨clash, message, after, ended, quiet⟩
    | ⟨clear, ⟨problem, after, ended, quiet⟩ | ⟨stage, staged, validated, texts⟩⟩
  · simp only [publish, first, loaded, second, ended, publishFrom_ended]
    exact .clashed message answered clash quiet
  · simp only [publish, first, loaded, second, ended, publishFrom_ended]
    exact .failed problem answered clear quiet
  · have third (store' : ProjectionStore)
        : publishFrom functions request 8 (.staged store.manifest) store'
          = publishFrom functions request 7 (renameStep request store.manifest store').1
              (renameStep request store.manifest store').2 :=
      rfl
    rcases renameStep_spec request store.manifest store stage with
      ⟨problem, after, ended, quiet⟩ | ⟨fresh, moved, renamed, manifest, current, generations⟩
    · simp only [publish, first, loaded, second, staged, third, ended, publishFrom_ended]
      exact .failed problem answered clear quiet
    · have fourth
          : publishFrom functions request 7 (.renamed store.manifest) moved
            = publishFrom functions request 6 (checkStep request store.manifest moved).1
                (checkStep request store.manifest moved).2 :=
        rfl
      simp only [publish, first, loaded, second, staged, third, renamed, fourth]
      by_cases stale : request.token.sequence < moved.latestIssuedSequence
      · simp only [checkStep, stale, if_true, publishFrom_ended]
        refine .failed _ answered clear ⟨manifest, current, ?_⟩
        intro key directory there
        have other : key ≠ request.token.generationId := by
          rintro rfl
          simp [fresh] at there
        simp [SortedMap.get?_remove, generations, SortedMap.get?_insert_of_ne _ _ other, other,
          there]
      · simp only [checkStep, stale, if_false, publishFrom_current]
        refine .published _ answered clear rfl rfl ?_ validated texts
        exact (congrArg (·.get? request.token.generationId) generations).trans
          (SortedMap.get?_insert_self ..)

end CodebaseGraph.Wiki
