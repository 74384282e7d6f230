import CodebaseGraph.Storage.Managed
import CodebaseGraph.Transition.Fallible
import Mathlib.Tactic.Tauto

/-! When a generation is ready: the readable meaning of `validate_ready_generation`, which no
longer mentions the place the generation stands at, and how promotion and activation keep it.
-/

namespace CodebaseGraph.Storage

open CodebaseGraph.Crash Program
open CodebaseGraph.Transition (bind_eq_ok forM_eq_ok)

section Validation

@[simp] theorem ensureRegularFile_eq_ok {α : Type} {path : String} {entry : PathEntry α}
    {content : α}
    : ensureRegularFile path entry = .ok content ↔ entry = .regular content := by
  cases entry <;> simp [ensureRegularFile]

/-- The files below a generation root are no symbolic links. -/
structure NoSymlinks (files : GenerationDirectory) : Prop where
  database : files.database.isSymlink = false
  manifest : files.manifest.isSymlink = false
  metadata : files.metadata.isSymlink = false
  ready : files.ready.isSymlink = false
  sidecars : ∀ suffix ∈ directDbSidecarSuffixes, (files.sidecars suffix).isSymlink = false
  nested : files.nestedSymlink = none

theorem ensureDirectoryWithoutSymlinks_eq_ok {host : Host} {paths : GenerationPaths}
    {files : GenerationDirectory}
    : ensureDirectoryWithoutSymlinks host paths files = .ok () ↔ NoSymlinks files := by
  have absent
      : files.findSymlink host paths = none ↔ NoSymlinks files := by
    unfold GenerationDirectory.findSymlink
    constructor
    · intro none
      split_ifs at none with database manifest metadata ready
      split at none
      · simp at none
      · next unlinked =>
          simp only [List.find?_eq_none] at unlinked
          exact ⟨by simpa using database, by simpa using manifest, by simpa using metadata,
            by simpa using ready, by simpa using unlinked, none⟩
    · intro clean
      have unlinked
          : directDbSidecarSuffixes.find? (fun suffix => (files.sidecars suffix).isSymlink)
            = none := by
        simpa using clean.sidecars
      simp [clean.database, clean.manifest, clean.metadata, clean.ready, unlinked, clean.nested]
  rw [← absent]
  unfold ensureDirectoryWithoutSymlinks
  split <;> simp_all

/-- The search sidecars have the checksums that the manifest expects. -/
def SidecarsIntact (host : Host) (files : GenerationDirectory)
    (expected : List (String × String))
    : Prop :=
  let searchSuffixes := directDbSidecarSuffixes.filter (fun suffix => suffix.startsWith "search.")
  expected.length = searchSuffixes.length
  ∧ (∀ suffix ∈ searchSuffixes, (expected.lookup suffix).isSome)
  ∧ ∀ suffix ∈ searchSuffixes,
      ∃ content,
        files.sidecars suffix = .regular content
        ∧ expected.lookup suffix = some (host.sha256 content)

theorem validateSearchSidecarChecksums_eq_ok {host : Host} {paths : GenerationPaths}
    {files : GenerationDirectory} {expected : List (String × String)}
    : validateSearchSidecarChecksums host paths files expected = .ok ()
      ↔ SidecarsIntact host files expected := by
  have one (suffix : String)
      : checkSearchSidecar host paths files expected suffix = .ok ()
        ↔ ∃ content,
            files.sidecars suffix = .regular content
            ∧ expected.lookup suffix = some (host.sha256 content) := by
    simp [checkSearchSidecar, bind_eq_ok]
  unfold validateSearchSidecarChecksums SidecarsIntact
  simp only [Bool.or_eq_true, decide_eq_true_eq, List.any_eq_true, Option.isNone_iff_eq_none]
  split
  · next incomplete =>
      simp only [reduceCtorEq, false_iff]
      rintro ⟨same, present, _⟩
      rcases incomplete with different | ⟨suffix, member, missing⟩
      · exact different same
      · simpa [missing] using present suffix member
  · next complete =>
      simp only [forM_eq_ok, one]
      rw [not_or] at complete
      obtain ⟨same, present⟩ := complete
      constructor
      · intro checked
        refine ⟨by simpa using same, ?_, checked⟩
        intro suffix member
        rw [Option.isSome_iff_ne_none]
        exact fun missing => present ⟨suffix, member, missing⟩
      · exact fun intact => intact.2.2

/-- The bundle that `validate_candidate_generation` accepts. -/
structure IntactBundle (host : Host) (files : GenerationDirectory) : Prop where
  database : ∃ content, files.database = .regular content
  manifest
    : ∃ content sums,
        files.manifest = .regular content
        ∧ host.parseManifest content = .ok sums
        ∧ ∀ expected, sums = some expected → SidecarsIntact host files expected
  clean : NoSymlinks files

theorem validateCandidateGeneration_eq_ok {host : Host} {paths : GenerationPaths}
    {files : GenerationDirectory}
    : validateCandidateGeneration host paths files = .ok () ↔ IntactBundle host files := by
  simp only [validateCandidateGeneration, bind_eq_ok, ensureRegularFile_eq_ok]
  constructor
  · rintro ⟨database, hasDatabase, manifest, hasManifest, ⟨⟩, clean, sums, parsed, checked⟩
    refine ⟨⟨database, hasDatabase⟩, ⟨manifest, sums, hasManifest, parsed, ?_⟩,
      ensureDirectoryWithoutSymlinks_eq_ok.mp clean⟩
    rintro expected rfl
    exact validateSearchSidecarChecksums_eq_ok.mp checked
  · rintro ⟨⟨database, hasDatabase⟩, ⟨manifest, sums, hasManifest, parsed, intact⟩, clean⟩
    refine ⟨database, hasDatabase, manifest, hasManifest, (),
      ensureDirectoryWithoutSymlinks_eq_ok.mpr clean, sums, parsed, ?_⟩
    cases sums with
    | none => rfl
    | some expected => exact validateSearchSidecarChecksums_eq_ok.mpr (intact expected rfl)

theorem readGenerationMetadata_eq_ok {host : Host} {paths : GenerationPaths}
    {files : GenerationDirectory} {metadata : GenerationMetadata}
    : readGenerationMetadata host paths files = .ok metadata
      ↔ files.metadata = .regular (.ok metadata)
        ∧ metadata.schemaVersion = managedSchemaVersion
        ∧ metadata.generationId = paths.generationId := by
  unfold readGenerationMetadata
  split
  case h_5 found held =>
    split
    · next mismatch => simp_all; grind
    · next matching => simp_all; grind
  all_goals simp_all

/-- The files that `validate_ready_generation` accepts for a generation. -/
structure ReadyFiles (host : Host) (generationId : String) (files : GenerationDirectory)
    : Prop where
  bundle : IntactBundle host files
  ready : ∃ text, files.ready = .regular text
  metadata
    : ∃ metadata,
        files.metadata = .regular (.ok metadata)
        ∧ metadata.schemaVersion = managedSchemaVersion
        ∧ metadata.generationId = generationId

theorem validateReadyGeneration_eq_ok {host : Host} {paths : GenerationPaths}
    {files : GenerationDirectory}
    : validateReadyGeneration host paths files = .ok ()
      ↔ ReadyFiles host paths.generationId files := by
  simp only [validateReadyGeneration, bind_eq_ok]
  constructor
  · rintro ⟨⟨⟩, bundle, marked⟩
    split at marked
    · simp at marked
    · simp only [bind_eq_ok, ensureRegularFile_eq_ok, readGenerationMetadata_eq_ok] at marked
      obtain ⟨text, ready, metadata, read, _⟩ := marked
      exact ⟨validateCandidateGeneration_eq_ok.mp bundle, ⟨text, ready⟩, metadata, read⟩
  · rintro ⟨bundle, ⟨text, ready⟩, metadata, read⟩
    refine ⟨(), validateCandidateGeneration_eq_ok.mpr bundle, ?_⟩
    simp only [ready, PathEntry.isPresent, Bool.not_true, Bool.false_eq_true, if_false,
      bind_eq_ok, ensureRegularFile_eq_ok, readGenerationMetadata_eq_ok]
    exact ⟨text, rfl, metadata, read, trivial⟩

end Validation

section ReadyPlaces

variable {host : Host} {generationId : String} {files : GenerationDirectory}

/-- Metadata of the right identity may replace what is there. -/
theorem ReadyFiles.withMetadata (ready : ReadyFiles host generationId files)
    {metadata : GenerationMetadata} (version : metadata.schemaVersion = managedSchemaVersion)
    (identity : metadata.generationId = generationId)
    : ReadyFiles host generationId { files with metadata := .regular (.ok metadata) } where
  bundle :=
    { database := ready.bundle.database
      manifest := ready.bundle.manifest
      clean := { ready.bundle.clean with metadata := rfl } }
  ready := ready.ready
  metadata := ⟨metadata, rfl, version, identity⟩

/-- The text in `READY` does not matter, only that the file is there. -/
theorem ReadyFiles.withReady (ready : ReadyFiles host generationId files) (text : String)
    : ReadyFiles host generationId { files with ready := .regular text } where
  bundle :=
    { database := ready.bundle.database
      manifest := ready.bundle.manifest
      clean := { ready.bundle.clean with ready := rfl } }
  ready := ⟨text, rfl⟩
  metadata := ready.metadata

/-- A generation that stands ready at a place, published or staged. -/
def Store.ReadyAt (host : Host) (store : Store) (paths : GenerationPaths) : Prop :=
  ∃ files,
    store.root? paths = some (.directory files)
    ∧ ReadyFiles host paths.generationId files

variable {allowed : Store → Store → Prop} {pre : Store → Prop} {paths : GenerationPaths}

theorem probeStore_valid {store : Store}
    : probeStore host paths store = .valid ↔ store.ReadyAt host paths := by
  unfold probeStore Store.ReadyAt
  split
  · next missing => simp [missing]
  · next blocked => simp [blocked]
  · next files held =>
      rw [held]
      split
      · next valid =>
          have ready := validateReadyGeneration_eq_ok.mp valid
          simpa using ready
      · next error invalid =>
          have unready : ¬ ReadyFiles host paths.generationId files := by
            rw [← validateReadyGeneration_eq_ok, invalid]
            simp
          simpa using unready

theorem probeStore_absent {store : Store}
    : probeStore host paths store = .absent ↔ store.root? paths = none := by
  unfold probeStore
  split
  · next missing => simp [missing]
  · next blocked => simp [blocked]
  · next files held => rw [held]; split <;> simp

/-- A probe changes nothing, and its good answers are true of the store. -/
theorem probeReady_ensures {Error : Type}
    : Ensures pre allowed (probeReady host paths : Disk Error ReadyProbe)
        (fun probe store =>
          pre store
          ∧ (probe = .valid → store.ReadyAt host paths)
          ∧ (probe = .absent → store.root? paths = none))
        (fun _ store => pre store) := by
  refine .recoverWith (fun _ => pre) ?_ (fun fault => .ret (fun _ start => ⟨start, by simp⟩))
  refine .observe ?_ (fun _ _ start _ => start) (fun _ _ start => start)
  intro store probe start answer
  have probed : probeStore host paths store = probe := by simpa using answer
  exact ⟨start, fun valid => probeStore_valid.mp (probed.trans valid),
    fun absent => probeStore_absent.mp (probed.trans absent)⟩

theorem requireReady_ensures
    : Ensures pre allowed (requireReady host paths)
        (fun _ store => pre store ∧ store.ReadyAt host paths) (fun _ store => pre store) := by
  refine .bind _ probeReady_ensures (fun probe => ?_)
  cases probe with
  | valid => exact .ret (fun _ ⟨start, ready, _⟩ => ⟨start, ready rfl⟩)
  | invalid error => exact .raise (fun _ held => held.1)
  | absent => exact .raise (fun _ held => held.1)

theorem files_eq_ok {store : Store}
    : store.files paths = .ok files ↔ store.root? paths = some (.directory files) := by
  unfold Store.files
  split <;> simp_all

theorem validateReady_ensures
    : Ensures pre allowed (validateReady host paths)
        (fun _ store => pre store ∧ store.ReadyAt host paths) (fun _ store => pre store) := by
  refine .observe ?_ (fun _ _ start _ => start) (fun _ _ start => start)
  intro store _ start answer
  simp only [bind_eq_ok, files_eq_ok] at answer
  obtain ⟨files, held, valid⟩ := answer
  exact ⟨start, files, held, validateReadyGeneration_eq_ok.mp valid⟩

/-- Metadata that was read is what the file holds and has the identity of its generation. -/
theorem readMetadata_ensures
    : Ensures pre allowed (readMetadata host paths)
        (fun metadata store =>
          pre store
          ∧ (∃ files,
              store.root? paths = some (.directory files)
              ∧ files.metadata = .regular (.ok metadata))
          ∧ metadata.schemaVersion = managedSchemaVersion
          ∧ metadata.generationId = paths.generationId)
        (fun _ store => pre store) := by
  refine .observe ?_ (fun _ _ start _ => start) (fun _ _ start => start)
  intro store metadata start answer
  simp only [bind_eq_ok, files_eq_ok, readGenerationMetadata_eq_ok] at answer
  obtain ⟨files, held, read, version, identity⟩ := answer
  exact ⟨start, ⟨files, held, read⟩, version, identity⟩

theorem syncParentDir_ensures
    : Ensures pre allowed (syncParentDir host paths) (fun _ store => pre store)
        (fun _ store => pre store) :=
  .bind _ Ensures.peek (fun _ => Ensures.peek)

end ReadyPlaces

end CodebaseGraph.Storage
