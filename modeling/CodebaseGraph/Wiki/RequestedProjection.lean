import CodebaseGraph.Hashing.TableDigest
import CodebaseGraph.Wiki.Publication

/-! A published projection is the requested one. A call that writes publishes exactly its
request; a call that the manifest on disk answers compares only the bundles of the request, and
the digest of a bundle does not tell an absent search artifact from an empty one.
-/

namespace CodebaseGraph.Wiki

open CodebaseGraph.Collections CodebaseGraph.Hashing CodebaseGraph.Transition

variable {functions : StoreFunctions}

-- Runs of a store

inductive StoreAction where
  | publish (request : PublishRequest)
  | beginGeneration (unique : Nat)
  /-- Another process opens the directory; its sequences start again. -/
  | reopen

def storeStep (functions : StoreFunctions) : StepFn ProjectionStore StoreAction StoreAction :=
  fun store action =>
    match action with
    | .publish request => some (action, (publish functions request store).2)
    | .beginGeneration unique => some (action, (store.beginGeneration unique).2)
    | .reopen =>
        some (action, { store with latestIssuedSequence := 0, latestPublishedSequence := 0 })

theorem PublishResult.storeInvariant {request : PublishRequest} {store after : ProjectionStore}
    {ending : Ending PublishOutcome} (holds : StoreInvariant functions store)
    (result : PublishResult functions request store ending after)
    : StoreInvariant functions after := by
  cases result with
  | answered found full => exact holds
  | clashed message unanswered clash quiet =>
      exact holds.frame quiet.manifest quiet.current quiet.generations
  | failed problem unanswered clear quiet =>
      exact holds.frame quiet.manifest quiet.current quiet.generations
  | published outcome unanswered clear manifest current moved validated texts =>
      refine ⟨fun absent => ?_, fun found => ?_⟩
      · rw [manifest] at absent
        cases absent
      · obtain rfl := Option.some.inj (manifest.symm.trans found)
        exact ⟨current, _, moved, holdsBundles_of_validated validated texts⟩

/-- Whatever the calls request and however they end, the manifest on disk describes the
files of the generation that the pointer names.
-/
theorem storeInvariant_reachable {trace : List StoreAction} {store : ProjectionStore}
    (run : Run (storeStep functions) {} trace store)
    : StoreInvariant functions store := by
  have initial : StoreInvariant functions {} :=
    ⟨fun _ => rfl, fun found => absurd found (by simp)⟩
  refine run.invariant initial ?_
  intro mid action event last holds next
  cases action with
  | publish request =>
      obtain ⟨rfl, rfl⟩ := Prod.mk.inj (Option.some.inj next)
      exact (publish_result holds request).storeInvariant holds
  | beginGeneration unique =>
      obtain ⟨rfl, rfl⟩ := Prod.mk.inj (Option.some.inj next)
      exact holds.frame rfl rfl (fun _ _ there => there)
  | reopen =>
      obtain ⟨rfl, rfl⟩ := Prod.mk.inj (Option.some.inj next)
      exact holds.frame rfl rfl (fun _ _ there => there)

-----------------------------------------------------------------------------------------
-- The requested projection
-----------------------------------------------------------------------------------------

/-- The manifest names, below the generation's directory, the normalised projection of the
bundle and its search artifact, or no search file when there is none.
-/
def Carries (functions : StoreFunctions) (directory : GenerationDirectory)
    (manifest : ProjectionManifest) (publication : BundlePublication)
    : Prop :=
  ∃ artifact,
    manifest.bundles.get? publication.bundle.id = some artifact
    ∧ directory.get? artifact.projectionPath
      = some (functions.bundleJson publication.bundle.normalize)
    ∧ SearchBytes directory artifact publication.searchArtifact

/-- The manifest on disk lists the bundles of the request and describes their files. -/
def PublishesRequest (functions : StoreFunctions) (request : PublishRequest)
    (store : ProjectionStore)
    : Prop :=
  ∃ manifest directory,
    store.manifest = some manifest
    ∧ store.generations.get? manifest.generation.generationId = some directory
    ∧ (∀ bundleId,
        bundleId ∈ manifest.bundles.keys
        ↔ ∃ publication ∈ request.bundles, publication.bundle.id = bundleId)
    ∧ ∀ publication ∈ request.bundles, Carries functions directory manifest publication

def FaithfulEnding (functions : StoreFunctions) (request : PublishRequest)
    (store : ProjectionStore) (after : ProjectionStore)
    : Ending PublishOutcome → Prop
  | .ok _ => PublishesRequest functions request after
  | .error _ => after.manifest = store.manifest ∧ after.current = store.current
  | .panicked _ => False

/-- A call on this store publishes its request, or fails and leaves the pointers alone. -/
structure Faithful (functions : StoreFunctions) (request : PublishRequest)
    (store : ProjectionStore)
    : Prop where
  ending
    : FaithfulEnding functions request store (publish functions request store).2
        (publish functions request store).1

/-- Whether a search file is listed exactly for the bundles that have a search artifact. -/
def searchesAgree (functions : StoreFunctions) (request : PublishRequest)
    (manifest : ProjectionManifest)
    : Bool :=
  (request.prepared functions).all
    (fun bundle =>
      (unchangedArtifact manifest bundle).all
        (fun artifact => artifact.searchPath.isSome = bundle.searchBytes.isSome))

/-- Whether every search file that would be copied has a place to go. -/
def searchesFit (functions : StoreFunctions) (request : PublishRequest)
    (manifest : ProjectionManifest)
    : Bool :=
  (request.prepared functions).all
    (fun bundle =>
      (unchangedArtifact manifest bundle).all
        (fun artifact => artifact.searchPath.isSome → bundle.searchBytes.isSome))

/-- Whether the manifest lists no bundle that the request does not have. -/
def listsOnly (request : PublishRequest) (manifest : ProjectionManifest) : Bool :=
  manifest.bundles.keys.all
    (fun bundleId =>
      request.bundles.any (fun publication => publication.bundle.id = bundleId))

/-- The condition under which a call is faithful. -/
def meets (functions : StoreFunctions) (request : PublishRequest) (store : ProjectionStore)
    : Bool :=
  match store.manifest with
  | none => true
  | some manifest =>
      if isFullCacheHit functions request manifest then
        listsOnly request manifest && searchesAgree functions request manifest
      else searchesFit functions request manifest

/-- Files with the digest of a bundle are its files when a search file is listed for it
exactly if it has a search artifact.
-/
theorem carries_iff (sound : functions.Sound) {directory : GenerationDirectory}
    {manifest : ProjectionManifest} (holds : HoldsBundles functions directory manifest)
    {publication : BundlePublication} {artifact : PublishedBundleArtifact}
    (listed : manifest.bundles.get? publication.bundle.id = some artifact)
    (digest
      : artifact.contentHash
        = (PreparedBundle.fromPublication functions publication).contentHash)
    : Carries functions directory manifest publication
      ↔ artifact.searchPath.isSome = publication.searchArtifact.isSome := by
  obtain ⟨bundle, search, dependencies, files⟩ := holds _ _ listed
  obtain ⟨projections, searches⟩ := sound.bundleHash (files.digest.trans digest)
  have stored := files.searched
  constructor
  · rintro ⟨artifact', listed', _, searched⟩
    obtain rfl := Option.some.inj (listed.symm.trans listed')
    unfold SearchBytes at searched
    cases path : artifact.searchPath with
    | none =>
        rw [path] at searched
        rw [searched]
        rfl
    | some path' =>
        rw [path] at searched
        obtain ⟨bytes, _, requested⟩ := searched
        rw [requested]
        rfl
  · intro agree
    refine ⟨artifact, listed, files.written.trans (congrArg some projections), ?_⟩
    unfold SearchBytes at stored ⊢
    cases path : artifact.searchPath with
    | none =>
        rw [path] at agree
        exact Option.isSome_eq_false_iff.mp agree.symm |> Option.isNone_iff_eq_none.mp
    | some path' =>
        rw [path] at stored
        obtain ⟨bytes, there, rfl⟩ := stored
        rw [path] at agree
        obtain ⟨requested, present⟩ := Option.isSome_iff_exists.mp agree.symm
        rw [present] at searches
        exact ⟨bytes, there, present.trans (congrArg some searches.symm)⟩

theorem prepared_of_mem {request : PublishRequest} {publication : BundlePublication}
    (inside : publication ∈ request.bundles)
    : PreparedBundle.fromPublication functions publication ∈ request.prepared functions :=
  List.mem_map_of_mem inside

@[simp]
theorem fromPublication_searchBytes (publication : BundlePublication)
    : (PreparedBundle.fromPublication functions publication).searchBytes
      = publication.searchArtifact :=
  rfl

/-- On a manifest that answers the request, every bundle of the request is unchanged. -/
theorem unchanged_of_fullCacheHit {request : PublishRequest} {manifest : ProjectionManifest}
    (full : isFullCacheHit functions request manifest = true) {publication : BundlePublication}
    (inside : publication ∈ request.bundles)
    : ∃ artifact,
        unchangedArtifact manifest (PreparedBundle.fromPublication functions publication)
        = some artifact := by
  simp only [isFullCacheHit, Bool.and_eq_true] at full
  exact Option.isSome_iff_exists.mp (List.all_eq_true.mp full.2 _ (prepared_of_mem inside))

/-- The projection that answers a request is the requested one when it has no other bundles
and the search artifacts agree.
-/
theorem publishesRequest_answered_iff (sound : functions.Sound) {request : PublishRequest}
    {store : ProjectionStore} (holds : StoreInvariant functions store)
    {manifest : ProjectionManifest} (found : store.manifest = some manifest)
    (full : isFullCacheHit functions request manifest = true)
    : PublishesRequest functions request store
      ↔ listsOnly request manifest = true ∧ searchesAgree functions request manifest = true := by
  obtain ⟨directory, there, files⟩ := (holds.published found).files
  have carried {publication : BundlePublication} (inside : publication ∈ request.bundles)
      {artifact : PublishedBundleArtifact}
      (unchanged
        : unchangedArtifact manifest (PreparedBundle.fromPublication functions publication)
          = some artifact)
      : Carries functions directory manifest publication
        ↔ artifact.searchPath.isSome = publication.searchArtifact.isSome := by
    obtain ⟨listed, digest⟩ := unchangedArtifact_eq_some.mp unchanged
    exact carries_iff sound files listed digest
  constructor
  · rintro ⟨manifest', directory', found', there', listed, carry⟩
    obtain rfl := Option.some.inj (found.symm.trans found')
    obtain rfl := Option.some.inj (there.symm.trans there')
    refine ⟨?_, ?_⟩
    · simpa [listsOnly] using fun bundleId key => (listed bundleId).mp key
    · rw [searchesAgree, List.all_eq_true]
      intro prepared inside
      obtain ⟨publication, requested, rfl⟩ := List.mem_map.mp inside
      obtain ⟨artifact, unchanged⟩ := unchanged_of_fullCacheHit full requested
      rw [unchanged, Option.all_some, decide_eq_true_iff, fromPublication_searchBytes]
      exact (carried requested unchanged).mp (carry publication requested)
  · rintro ⟨only, agree⟩
    refine ⟨manifest, directory, found, there, fun bundleId => ⟨?_, ?_⟩, ?_⟩
    · intro key
      simpa using List.all_eq_true.mp only bundleId key
    · rintro ⟨publication, requested, rfl⟩
      obtain ⟨artifact, unchanged⟩ := unchanged_of_fullCacheHit full requested
      exact SortedMap.mem_keys_iff.mpr ⟨artifact, (unchangedArtifact_eq_some.mp unchanged).1⟩
    · intro publication requested
      obtain ⟨artifact, unchanged⟩ := unchanged_of_fullCacheHit full requested
      have same := List.all_eq_true.mp agree _ (prepared_of_mem requested)
      rw [unchanged, Option.all_some, decide_eq_true_iff, fromPublication_searchBytes] at same
      exact (carried requested unchanged).mpr same

/-- A published request is the one on disk. -/
theorem publishesRequest_of_validated (sound : functions.Sound) {request : PublishRequest}
    (distinct : (request.bundles.map (fun publication => publication.bundle.id)).Nodup)
    {after : ProjectionStore} {stage : GenerationDirectory}
    (manifest : after.manifest = some (request.manifest functions))
    (moved : after.generations.get? request.token.generationId = some stage)
    (holds : HoldsBundles functions stage (request.manifest functions))
    : PublishesRequest functions request after := by
  have ids
      : (request.prepared functions).map PreparedBundle.bundleId
        = request.bundles.map (fun publication => publication.bundle.id) := by
    simp only [PublishRequest.prepared, List.map_map]
    rfl
  refine ⟨_, stage, manifest, moved, ?_, ?_⟩
  · intro bundleId
    have keys
        : bundleId ∈ (request.manifest functions).bundles.keys
          ↔ ∃ bundle ∈ request.prepared functions, bundle.bundleId = bundleId :=
      mem_keys_byBundle
    simp only [PublishRequest.prepared, List.mem_map, exists_exists_and_eq_and] at keys
    exact keys
  · intro publication inside
    have listed
        : (request.manifest functions).bundles.get? publication.bundle.id
          = some (PreparedBundle.fromPublication functions publication).artifact :=
      get?_byBundle_of_mem (ids ▸ distinct) (prepared_of_mem inside)
    refine (carries_iff sound holds listed rfl).mpr ?_
    simp [PreparedBundle.artifact]

theorem meets_of_answered {request : PublishRequest} {store : ProjectionStore}
    {manifest : ProjectionManifest} (found : store.manifest = some manifest)
    (full : isFullCacheHit functions request manifest = true)
    : meets functions request store = true
      ↔ listsOnly request manifest = true ∧ searchesAgree functions request manifest = true := by
  simp [meets, found, full]

/-- A request that the manifest does not answer meets the condition when nothing clashes. -/
theorem meets_of_unanswered {request : PublishRequest} {store : ProjectionStore}
    (unanswered : ¬ Answered functions request store)
    : meets functions request store = true ↔ ¬ Clashes functions request store := by
  cases found : store.manifest with
  | none => simp [meets, found, Clashes, Clash]
  | some manifest =>
      have missed : ¬ isFullCacheHit functions request manifest = true :=
        fun full => unanswered ⟨manifest, found, full⟩
      simp only [meets, found, if_neg missed, searchesFit, List.all_eq_true]
      constructor
      · rintro fit ⟨bundle, inside, manifest', artifact, same, unchanged, copied, absent⟩
        obtain rfl := Option.some.inj (found.symm.trans same)
        have fits := fit bundle inside
        rw [unchanged, Option.all_some, decide_eq_true_iff, absent] at fits
        exact absurd (fits copied) (by simp)
      · intro clear bundle inside
        cases unchanged : unchangedArtifact manifest bundle with
        | none => rfl
        | some artifact =>
            cases absent : bundle.searchBytes with
            | some bytes => simp
            | none =>
                cases copied : artifact.searchPath with
                | none => simp [copied]
                | some path =>
                    refine absurd ⟨bundle, inside, manifest, artifact, found, unchanged, ?_⟩ clear
                    exact ⟨by simp [copied], absent⟩

/-- What a call does is faithful exactly when its request meets the condition. -/
theorem PublishResult.faithful_iff (sound : functions.Sound) {request : PublishRequest}
    (distinct : (request.bundles.map (fun publication => publication.bundle.id)).Nodup)
    {store after : ProjectionStore} {ending : Ending PublishOutcome}
    (holds : StoreInvariant functions store)
    (result : PublishResult functions request store ending after)
    : FaithfulEnding functions request store after ending
      ↔ meets functions request store = true := by
  cases result with
  | answered found full =>
      rw [meets_of_answered found full]
      exact publishesRequest_answered_iff sound holds found full
  | clashed message unanswered clash quiet =>
      rw [meets_of_unanswered unanswered]
      exact iff_of_false not_false (not_not_intro clash)
  | failed problem unanswered clear quiet =>
      rw [meets_of_unanswered unanswered]
      exact iff_of_true ⟨quiet.manifest, quiet.current⟩ clear
  | published outcome unanswered clear manifest current moved validated texts =>
      rw [meets_of_unanswered unanswered]
      refine iff_of_true ?_ clear
      exact publishesRequest_of_validated sound distinct manifest moved
        (holdsBundles_of_validated validated texts)

theorem faithful_iff_meets (sound : functions.Sound) {store : ProjectionStore}
    (holds : StoreInvariant functions store) (request : PublishRequest)
    (distinct : (request.bundles.map (fun publication => publication.bundle.id)).Nodup)
    : Faithful functions request store ↔ meets functions request store = true := by
  rw [← (publish_result holds request).faithful_iff sound distinct holds]
  exact ⟨fun faithful => faithful.ending, fun ending => ⟨ending⟩⟩

-----------------------------------------------------------------------------------------
-- Every reachable store
-----------------------------------------------------------------------------------------

/-- After any calls, a call publishes its request, or fails and leaves the pointers alone,
exactly when its request meets the condition. Witness: what each ending says of the store.
-/
theorem publish_faithful_iff (sound : functions.Sound) {trace : List StoreAction}
    {store : ProjectionStore} (run : Run (storeStep functions) {} trace store)
    (request : PublishRequest)
    (distinct : (request.bundles.map (fun publication => publication.bundle.id)).Nodup)
    : Faithful functions request store ↔ meets functions request store = true :=
  faithful_iff_meets sound (storeInvariant_reachable run) request distinct

/-- The bytes of an ASCII text. -/
def bytesOf (text : String) : Bytes := text.toList.map (fun letter => UInt8.ofNat letter.toNat)

/-- The bytes of lines of ASCII text. -/
def linesOf (lines : List String) : Bytes := List.intercalate (bytesOf "\n") (lines.map bytesOf)

/-- The JSON text of a bundle without content. -/
def emptyBundleText (id title : String) : Bytes :=
  linesOf
    [
      "\x7b",
      "  \"id\": \"" ++ id ++ "\",",
      "  \"root_path\": \"wiki/" ++ id ++ "\",",
      "  \"okf_version\": \"0.1\",",
      "  \"title\": \"" ++ title ++ "\",",
      "  \"source_revision\": null,",
      "  \"directories\": [],",
      "  \"concepts\": [],",
      "  \"diagnostics\": []",
      "\x7d"
    ]

def noDependenciesText : Bytes :=
  linesOf ["\x7b", "  \"concept_sources\": \x7b\x7d", "\x7d"]

/-- The SHA-256 digests of the texts that are hashed below. -/
def digests : List (Bytes × String) :=
  [
    (
      emptyBundleText "a" "A" ++ noDependenciesText,
      "dd08661b8e22521208afb61aa491fef47b28a180fa598417f1765d2ce28b3c6a"
    ),
    (
      emptyBundleText "a" "A",
      "90eb4bf1c57af46c647136955f0795b66b1f2b72f7ebf9c8d6134c9c3530b77c"
    ),
    (
      emptyBundleText "b" "B" ++ noDependenciesText,
      "cda8bee0ff1f72654df8e5bc91410663fe0bc7027ff18953cc12d52a4937c87f"
    ),
    (
      emptyBundleText "b" "B",
      "264c495b1e75b831c403f7d83508fd922cd045450a1dd0bcf46cef5fd1039bca"
    ),
    (bytesOf "[]", "4f53cda18c2baa0c0354bb5f9a3ecbe5ed12ab4d8e11ba873c2f11161202b945")
  ]

def emptyBundle (id title : String) : Bundle :=
  { id, rootPath := "wiki/" ++ id, okfVersion := "0.1", title, sourceRevision := none }

/-- The manifest of the two bundles below. -/
def sampleManifestText : Bytes :=
  linesOf
    [
      "\x7b",
      "  \"schema_version\": 1,",
      "  \"generation\": \x7b",
      "    \"generation_id\": \"gen-00000000000000000001-18c0ffee\",",
      "    \"sequence\": 1",
      "  \x7d,",
      "  \"last_successful_generation\": \x7b",
      "    \"generation_id\": \"gen-00000000000000000001-18c0ffee\",",
      "    \"sequence\": 1",
      "  \x7d,",
      "  \"generated_at\": \"2026-01-01T00:00:00Z\",",
      "  \"okf_version\": \"0.1\",",
      "  \"source_revision\": null,",
      "  \"build_duration_ms\": 0,",
      "  \"bundle_roots\": \x7b",
      "    \"a\": \"wiki/a\",",
      "    \"b\": \"wiki/b\"",
      "  \x7d,",
      "  \"bundles\": \x7b",
      "    \"a\": \x7b",
      "      \"bundle_id\": \"a\",",
      "      \"root_path\": \"wiki/a\",",
      "      \"source_revision\": null,",
      "      \"projection_path\": \"projections/a.json\",",
      "      \"search_path\": null,",
      "      \"content_hash\": \"dd08661b8e22521208afb61aa491fef47b28a180fa598417f1765d2ce28b3c6a\",",
      "      \"output_hash\": \"90eb4bf1c57af46c647136955f0795b66b1f2b72f7ebf9c8d6134c9c3530b77c\"",
      "    \x7d,",
      "    \"b\": \x7b",
      "      \"bundle_id\": \"b\",",
      "      \"root_path\": \"wiki/b\",",
      "      \"source_revision\": null,",
      "      \"projection_path\": \"projections/b.json\",",
      "      \"search_path\": null,",
      "      \"content_hash\": \"cda8bee0ff1f72654df8e5bc91410663fe0bc7027ff18953cc12d52a4937c87f\",",
      "      \"output_hash\": \"264c495b1e75b831c403f7d83508fd922cd045450a1dd0bcf46cef5fd1039bca\"",
      "    \x7d",
      "  \x7d,",
      "  \"dependency_edges\": \x7b",
      "    \"a\": \x7b",
      "      \"concept_sources\": \x7b\x7d",
      "    \x7d,",
      "    \"b\": \x7b",
      "      \"concept_sources\": \x7b\x7d",
      "    \x7d",
      "  \x7d,",
      "  \"content_hashes\": \x7b",
      "    \"a\": \"dd08661b8e22521208afb61aa491fef47b28a180fa598417f1765d2ce28b3c6a\",",
      "    \"b\": \"cda8bee0ff1f72654df8e5bc91410663fe0bc7027ff18953cc12d52a4937c87f\"",
      "  \x7d,",
      "  \"output_hashes\": \x7b",
      "    \"a\": \"90eb4bf1c57af46c647136955f0795b66b1f2b72f7ebf9c8d6134c9c3530b77c\",",
      "    \"b\": \"264c495b1e75b831c403f7d83508fd922cd045450a1dd0bcf46cef5fd1039bca\"",
      "  \x7d,",
      "  \"diagnostics_path\": \"diagnostics.json\",",
      "  \"diagnostics_hash\": \"4f53cda18c2baa0c0354bb5f9a3ecbe5ed12ab4d8e11ba873c2f11161202b945\"",
      "\x7d"
    ]

/-- The serialiser on two bundles without content. -/
def sampleFunctions : StoreFunctions where
  bundleJson bundle :=
    if bundle.id = "b" then emptyBundleText "b" "B" else emptyBundleText "a" "A"
  dependencyJson _ := noDependenciesText
  diagnosticsJson _ := bytesOf "[]"
  manifestJson _ := sampleManifestText
  sha256 := tableDigest digests

def sampleRequest (sequence : Nat) (bundles : List Bundle) : PublishRequest :=
  {
    token := { generationId := generationId sequence 0x18c0ffee, sequence },
    generatedAt := "2026-01-01T00:00:00Z",
    okfVersion := "0.1",
    sourceRevision := none,
    buildDurationMs := 0,
    bundles := bundles.map (fun bundle => { bundle }),
    diagnostics := []
  }

def bothBundles : PublishRequest := sampleRequest 1 [emptyBundle "a" "A", emptyBundle "b" "B"]

def firstBundle : PublishRequest := sampleRequest 2 [emptyBundle "a" "A"]

/-- The store after both bundles were published. -/
def sampleStore : ProjectionStore := (publish sampleFunctions bothBundles {}).2

theorem sampleFunctions_sound : sampleFunctions.Sound where
  hashInjective := tableDigest_injective digests (by decide) (by decide)
  bundleEnds first second rest rest' same := by
    have lengths (bundle : Bundle)
        : (sampleFunctions.bundleJson bundle).length = (emptyBundleText "a" "A").length := by
      simp only [sampleFunctions]
      split
      · decide +kernel
      · rfl
    exact (List.append_inj same ((lengths first).trans (lengths second).symm)).1
  dependencyEnds _ _ _ _ _ := rfl

theorem sampleRun
    : Run (storeStep sampleFunctions) {} [.publish bothBundles] sampleStore :=
  Run.nil.snoc (.publish bothBundles) rfl

/-- Publishing both bundles again. -/
theorem publish_faithful_iff_again
    : Faithful sampleFunctions bothBundles sampleStore
      ↔ meets sampleFunctions bothBundles sampleStore = true :=
  publish_faithful_iff sampleFunctions_sound sampleRun bothBundles (by decide)

theorem firstBundle_missed : meets sampleFunctions firstBundle sampleStore = false := by
  decide +kernel

/-- A bundle that the next request leaves out stays listed. -/
theorem publish_keeps_removed_bundle
    : ¬ ∀ (functions : StoreFunctions), functions.Sound
        → ∀ (trace : List StoreAction) (store : ProjectionStore),
            Run (storeStep functions) {} trace store
            → ∀ request : PublishRequest,
                (request.bundles.map (fun publication => publication.bundle.id)).Nodup
                → Faithful functions request store := by
  intro holds
  have distinct
      : (firstBundle.bundles.map (fun publication => publication.bundle.id)).Nodup :=
    List.nodup_singleton _
  have faithful : Faithful sampleFunctions firstBundle sampleStore :=
    holds _ sampleFunctions_sound _ _ sampleRun firstBundle distinct
  have condition :=
    (faithful_iff_meets sampleFunctions_sound (storeInvariant_reachable sampleRun) firstBundle
      distinct).mp faithful
  rw [firstBundle_missed] at condition
  exact Bool.false_ne_true condition

end CodebaseGraph.Wiki
