import CodebaseGraph.Collections.SortedMap
import CodebaseGraph.Partition.Artifacts
import CodebaseGraph.Syntax.TreeCopy
import CodebaseGraph.Transition.Fallible

/-! Materializations one after the other (`src/scan.rs`, `src/execution/plan.rs`,
`src/execution/run.rs`, `src/api/materialization.rs`): what a scan finds is compared with the
manifest of the last publication, a refresh that finds no difference is acknowledged without a
build, and a build publishes a new manifest.
-/

namespace CodebaseGraph.Partition

open CodebaseGraph.Collections
open CodebaseGraph.Protocol
open CodebaseGraph.Syntax
open CodebaseGraph.Transition

/-- The manifest without the metadata of the search index. -/
structure NativeManifest where
  schemaVersion : Nat
  ontology : String
  parserVersion : String
  graphBuildDigest : Option String
  files : SortedMap String ManifestEntry

structure MaterializationRequest extends NativeSyntaxMaterializationRequest where
  mode : String
  candidatePaths : List String := []

structure ManifestDiff where
  added : List String
  modified : List String
  unchanged : List String
  deleted : List String
  forceRebuild : Bool
deriving DecidableEq, Repr

/-- The supported files of a scan by their relative paths. -/
abbrev SourceFiles := SortedMap String SourceSnapshot

-- The plan

/-- The text whose hash a digest is, or the error of its encoder. -/
abbrev DigestFunction := GraphBuildDigestInput → Except NativeError String

section Plan

variable (digestOf : DigestFunction) (request : MaterializationRequest)
  (previous : Option NativeManifest) (supported : SourceFiles)

def graphBuildCompatibilityDigest : Except NativeError String :=
  digestOf request.graphBuildDigestInput

def requiresFullSourceRebuild : Bool :=
  match previous with
  | none => true
  | some manifest =>
      manifest.graphBuildDigest ≠ (graphBuildCompatibilityDigest digestOf request).toOption
      || manifest.files.entries.any (fun file => file.2.artifactKey.getD "" = "")

/-- One turn of the loop over the supported files. -/
def ManifestDiff.compare (manifest : NativeManifest) (diff : ManifestDiff)
    (file : String × SourceSnapshot)
    : ManifestDiff :=
  match manifest.files.get? file.1 with
  | none => { diff with added := diff.added ++ [file.1] }
  | some entry =>
      if entry.contentHash ≠ file.2.contentHash ∨ entry.language ≠ file.2.language.getD "" then
        { diff with modified := diff.modified ++ [file.1] }
      else { diff with unchanged := diff.unchanged ++ [file.1] }

def NativeManifest.incompatible (manifest : NativeManifest) : Bool :=
  manifest.schemaVersion ≠ request.manifestSchemaVersion
  || manifest.ontology ≠ request.ontology
  || manifest.parserVersion ≠ request.parserVersion

def computeDiff (fullRebuild : Bool) : ManifestDiff :=
  match previous with
  | none =>
      {
        added := supported.keys
        modified := []
        unchanged := []
        deleted := []
        forceRebuild := true
      }
  | some manifest =>
      let deleted := manifest.files.keys.filter (fun path => !supported.contains path)
      if request.mode = "full" ∨ manifest.incompatible request = true ∨ fullRebuild = true then
        {
          added := supported.keys
          modified := []
          unchanged := []
          deleted
          forceRebuild := true
        }
      else
        supported.entries.foldl (ManifestDiff.compare manifest)
          { added := [], modified := [], unchanged := [], deleted, forceRebuild := false }

/-- The diff of a scan. -/
def scanDiff : ManifestDiff :=
  computeDiff request previous supported (requiresFullSourceRebuild digestOf request previous)

end Plan

/-- The counts stay, the ids go. -/
def ManifestEntry.compact (entry : ManifestEntry) : ManifestEntry :=
  {
    entry with
    nodeCount := if entry.nodeCount = 0 then entry.nodeIds.length else entry.nodeCount
    edgeCount := if entry.edgeCount = 0 then entry.edgeIds.length else entry.edgeCount
    nodeIds := []
    edgeIds := []
    nodeTypes := []
    edgeTypes := []
  }

section Build

variable (environment : Environment) (functions : ArtifactFunctions)
  (request : NativeSyntaxMaterializationRequest) (previous : Option NativeManifest)
  (supported : SourceFiles) (world : String → PathWorld)

/-- A manifest of another version does not say what may be reused. -/
def previousEntry (path : String) : Option ManifestEntry :=
  (previous.filter (fun manifest => manifest.schemaVersion = request.manifestSchemaVersion)).bind
    (fun manifest => manifest.files.get? path)

end Build

def materializationManifestSchemaVersion : Nat := 5

section Step

variable (environment : Environment) (functions : ArtifactFunctions) (digestOf : DigestFunction)

/-- The execution sets the version of the manifest itself. -/
def MaterializationRequest.prepared (request : MaterializationRequest) : MaterializationRequest :=
  { request with manifestSchemaVersion := materializationManifestSchemaVersion }

end Step

-----------------------------------------------------------------------------------------
-- What is published
-----------------------------------------------------------------------------------------

/-- What the comparison looks at. -/
def SourceSnapshot.fingerprint (snapshot : SourceSnapshot) : String × String :=
  (snapshot.contentHash, snapshot.language.getD "")

def ManifestEntry.fingerprint (entry : ManifestEntry) : String × String :=
  (entry.contentHash, entry.language)

@[simp]
theorem fingerprint_compact (entry : ManifestEntry)
    : entry.compact.fingerprint = entry.fingerprint := rfl

/-- A path whose artifact can be looked up under its key. -/
def ManifestEntry.Locates (entry : ManifestEntry) (path : String) : Prop :=
  entry.path = path
  ∧ ∃ artifactKey,
      entry.artifactKey = some artifactKey ∧ (validateArtifactKey artifactKey).toBool = true

/-- The manifest says of a path what a scan says. -/
def NativeManifest.Agrees (manifest : NativeManifest) (supported : SourceFiles) (path : String)
    : Prop :=
  (manifest.files.get? path).map ManifestEntry.fingerprint
  = (supported.get? path).map SourceSnapshot.fingerprint

/-- The manifest of a build. -/
structure Describes (digestOf : DigestFunction) (request : MaterializationRequest)
    (supported : SourceFiles) (manifest : NativeManifest)
    : Prop where
  schemaVersion : manifest.schemaVersion = materializationManifestSchemaVersion
  ontology : manifest.ontology = request.ontology
  parserVersion : manifest.parserVersion = request.parserVersion
  digest
    : ∃ digest,
        graphBuildCompatibilityDigest digestOf request.prepared = .ok digest
        ∧ manifest.graphBuildDigest = some digest
  agrees : ∀ path, manifest.Agrees supported path
  located : ∀ path entry, manifest.files.get? path = some entry → entry.Locates path

section Published

variable {environment : Environment} {functions : ArtifactFunctions} {digestOf : DigestFunction}
  {request : NativeSyntaxMaterializationRequest} {previous : Option NativeManifest}
  {supported : SourceFiles} {world : String → PathWorld}

/-- An entry of the manifest stands for a file of the scan. -/
def Recorded (supported : SourceFiles) (file : String × ManifestEntry) : Prop :=
  file.2.Locates file.1
  ∧ ∃ snapshot,
      supported.get? file.1 = some snapshot ∧ file.2.fingerprint = snapshot.fingerprint

end Published

-----------------------------------------------------------------------------------------
-- When a refresh is acknowledged
-----------------------------------------------------------------------------------------

section Difference

variable {manifest : NativeManifest} {supported : SourceFiles}

/-- The files whose entry is another one. -/
def NativeManifest.differs (manifest : NativeManifest) (file : String × SourceSnapshot) : Bool :=
  (manifest.files.get? file.1).any (fun entry => entry.fingerprint ≠ file.2.fingerprint)

/-- The three lists of the loop, by induction on the files. -/
theorem foldl_compare (files : List (String × SourceSnapshot)) (diff : ManifestDiff)
    : files.foldl (ManifestDiff.compare manifest) diff
      = {
          diff with
          added :=
            diff.added
              ++ (files.filter (fun file => (manifest.files.get? file.1).isNone)).map Prod.fst
          modified := diff.modified ++ (files.filter manifest.differs).map Prod.fst
          unchanged :=
            diff.unchanged
              ++ (files.filter
                (fun file =>
                  (manifest.files.get? file.1).isSome && !manifest.differs file)).map Prod.fst
        } := by
  induction files generalizing diff with
  | nil => simp
  | cons file rest ih =>
      rw [List.foldl_cons, ih]
      have differs
          : (manifest.differs file = true)
            = ∃ entry, manifest.files.get? file.1 = some entry
                ∧ (entry.contentHash ≠ file.2.contentHash
                  ∨ entry.language ≠ file.2.language.getD "") := by
        simp [NativeManifest.differs, ManifestEntry.fingerprint, SourceSnapshot.fingerprint,
          Option.any_eq_true, Prod.ext_iff, or_iff_not_imp_left]
      rw [ManifestDiff.compare]
      cases found : manifest.files.get? file.1 with
      | none =>
          have same : manifest.differs file = false := by simp [NativeManifest.differs, found]
          simp [found, same]
      | some entry =>
          by_cases other
              : entry.contentHash ≠ file.2.contentHash ∨ entry.language ≠ file.2.language.getD ""
          · have changed : manifest.differs file = true := by
              rw [differs]
              exact ⟨entry, found, other⟩
            simp [found, changed, other]
          · have same : manifest.differs file = false := by
              rw [Bool.eq_false_iff, ne_eq, differs]
              rintro ⟨_, found', other'⟩
              rw [found] at found'
              cases found'
              exact other other'
            simp [found, same, other]

end Difference

section Difference

variable {digestOf : DigestFunction} {request : MaterializationRequest}
  {manifest : NativeManifest} {supported : SourceFiles}

/-- The paths that a build has to look at again. -/
def ManifestDiff.changedPaths (diff : ManifestDiff) : List String :=
  diff.added ++ diff.modified ++ diff.deleted

/-- What an incremental diff compares was built in the same way. -/
structure Comparable (digestOf : DigestFunction) (request : MaterializationRequest)
    (manifest : NativeManifest)
    : Prop where
  incremental : request.mode ≠ "full"
  schemaVersion : manifest.schemaVersion = request.manifestSchemaVersion
  ontology : manifest.ontology = request.ontology
  parserVersion : manifest.parserVersion = request.parserVersion
  digest
    : manifest.graphBuildDigest = (graphBuildCompatibilityDigest digestOf request).toOption
  keyed : ∀ path entry, manifest.files.get? path = some entry → entry.artifactKey.getD "" ≠ ""

theorem requiresFullSourceRebuild_eq_false
    : requiresFullSourceRebuild digestOf request (some manifest) = false
      ↔ manifest.graphBuildDigest = (graphBuildCompatibilityDigest digestOf request).toOption
        ∧ ∀ path entry,
            manifest.files.get? path = some entry → entry.artifactKey.getD "" ≠ "" := by
  simp only [requiresFullSourceRebuild, Bool.or_eq_false_iff, decide_eq_false_iff_not, ne_eq,
    not_not, List.any_eq_false, decide_eq_true_eq, Prod.forall, SortedMap.get?_eq_some_iff]

theorem incompatible_eq_false
    : manifest.incompatible request = false
      ↔ manifest.schemaVersion = request.manifestSchemaVersion
        ∧ manifest.ontology = request.ontology
        ∧ manifest.parserVersion = request.parserVersion := by
  simp [NativeManifest.incompatible, and_assoc]

/-- Which branch the diff takes. -/
theorem scanDiff_forceRebuild
    : (scanDiff digestOf request (some manifest) supported).forceRebuild = false
      ↔ Comparable digestOf request manifest := by
  rw [scanDiff, computeDiff]
  split
  next forced =>
      refine iff_of_false (by simp) ?_
      intro comparable
      rcases forced with full | incompatible | rebuild
      · exact absurd full comparable.incremental
      · have compatible :=
          incompatible_eq_false.mpr
            ⟨comparable.schemaVersion, comparable.ontology, comparable.parserVersion⟩
        exact absurd (incompatible.symm.trans compatible) (by simp)
      · have reuses := requiresFullSourceRebuild_eq_false.mpr ⟨comparable.digest, comparable.keyed⟩
        exact absurd (rebuild.symm.trans reuses) (by simp)
  next unforced =>
      simp only [not_or, Bool.not_eq_true] at unforced
      obtain ⟨incremental, compatible, reuses⟩ := unforced
      obtain ⟨schemaVersion, ontology, parserVersion⟩ := incompatible_eq_false.mp compatible
      obtain ⟨digest, keyed⟩ := requiresFullSourceRebuild_eq_false.mp reuses
      rw [foldl_compare]
      exact iff_of_true rfl ⟨incremental, schemaVersion, ontology, parserVersion, digest, keyed⟩

/-- The diff of comparable builds. -/
theorem scanDiff_of_comparable (comparable : Comparable digestOf request manifest)
    : scanDiff digestOf request (some manifest) supported
      = {
          added :=
            (supported.entries.filter
              (fun file => (manifest.files.get? file.1).isNone)).map Prod.fst
          modified := (supported.entries.filter manifest.differs).map Prod.fst
          unchanged :=
            (supported.entries.filter
              (fun file =>
                (manifest.files.get? file.1).isSome && !manifest.differs file)).map Prod.fst
          deleted := manifest.files.keys.filter (fun path => !supported.contains path)
          forceRebuild := false
        } := by
  have branch : (scanDiff digestOf request (some manifest) supported).forceRebuild = false :=
    scanDiff_forceRebuild.mpr comparable
  rw [scanDiff, computeDiff] at branch ⊢
  split at branch
  next => cases branch
  next unforced =>
      simp only [if_neg unforced, foldl_compare, List.nil_append]

theorem mem_filter_keys {keep : String × SourceSnapshot → Bool} {path : String}
    : path ∈ (supported.entries.filter keep).map Prod.fst
      ↔ ∃ snapshot, supported.get? path = some snapshot ∧ keep (path, snapshot) = true := by
  simp [SortedMap.get?_eq_some_iff]

theorem mem_added {path : String}
    : path ∈ (supported.entries.filter
          (fun file => (manifest.files.get? file.1).isNone)).map Prod.fst
      ↔ path ∈ supported.keys ∧ path ∉ manifest.files.keys := by
  simp [mem_filter_keys, SortedMap.mem_keys_iff, Option.eq_none_iff_forall_ne_some]

theorem mem_modified {path : String}
    : path ∈ (supported.entries.filter manifest.differs).map Prod.fst
      ↔ path ∈ supported.keys ∧ path ∈ manifest.files.keys ∧ ¬manifest.Agrees supported path := by
  rw [mem_filter_keys, NativeManifest.Agrees, SortedMap.mem_keys_iff, SortedMap.mem_keys_iff]
  cases scanned : supported.get? path <;> cases recorded : manifest.files.get? path <;>
    simp [NativeManifest.differs, recorded]

theorem mem_unchanged {path : String}
    : path ∈ (supported.entries.filter
          (fun file =>
            (manifest.files.get? file.1).isSome && !manifest.differs file)).map Prod.fst
      ↔ path ∈ supported.keys ∧ path ∈ manifest.files.keys ∧ manifest.Agrees supported path := by
  rw [mem_filter_keys, NativeManifest.Agrees, SortedMap.mem_keys_iff, SortedMap.mem_keys_iff]
  cases scanned : supported.get? path <;> cases recorded : manifest.files.get? path <;>
    simp [NativeManifest.differs, recorded]

theorem mem_deleted {path : String}
    : path ∈ manifest.files.keys.filter (fun path => !supported.contains path)
      ↔ path ∈ manifest.files.keys ∧ path ∉ supported.keys := by
  rw [List.mem_filter, Bool.not_eq_true', ← Bool.not_eq_true, SortedMap.contains_iff]

/-- A path is listed as a change if and only if manifest and scan say different things of it. -/
theorem mem_changedPaths (comparable : Comparable digestOf request manifest) {path : String}
    : path ∈ (scanDiff digestOf request (some manifest) supported).changedPaths
      ↔ ¬manifest.Agrees supported path := by
  rw [scanDiff_of_comparable comparable, ManifestDiff.changedPaths, List.mem_append,
    List.mem_append, mem_added, mem_modified, mem_deleted, SortedMap.mem_keys_iff,
    SortedMap.mem_keys_iff, NativeManifest.Agrees]
  cases scanned : supported.get? path <;> cases recorded : manifest.files.get? path <;> simp

end Difference

section Exactness

variable {digestOf : DigestFunction} {request : MaterializationRequest}
  {manifest : NativeManifest} {supported : SourceFiles}

def ManifestDiff.paths (diff : ManifestDiff) : List String :=
  diff.added ++ diff.modified ++ diff.unchanged ++ diff.deleted

/-- The diff of builds that are not comparable. -/
theorem scanDiff_of_forced
    (forced : (scanDiff digestOf request (some manifest) supported).forceRebuild = true)
    : scanDiff digestOf request (some manifest) supported
      = {
          added := supported.keys
          modified := []
          unchanged := []
          deleted := manifest.files.keys.filter (fun path => !supported.contains path)
          forceRebuild := true
        } := by
  rw [scanDiff, computeDiff] at forced ⊢
  split at forced
  next branch => simp only [if_pos branch]
  next => simp [foldl_compare] at forced

theorem filter_increasing (keep : String × SourceSnapshot → Bool)
    : ((supported.entries.filter keep).map Prod.fst).Pairwise (· < ·) :=
  List.pairwise_map.mpr (supported.increasing.filter keep)

theorem nodup_of_increasing {list : List String} (increasing : list.Pairwise (· < ·))
    : list.Nodup :=
  increasing.imp ne_of_lt

/-- The diff of a scan and a manifest lists every path that one of them knows once, in order, and
unless everything is built again, it lists as changes the paths on which they disagree.
-/
theorem scanDiff_exact (digestOf : DigestFunction) (request : MaterializationRequest)
    (manifest : NativeManifest) (supported : SourceFiles)
    : let diff := scanDiff digestOf request (some manifest) supported
      diff.paths.Nodup
      ∧ (∀ path, path ∈ diff.paths ↔ path ∈ supported.keys ∨ path ∈ manifest.files.keys)
      ∧ (∀ list ∈ [diff.added, diff.modified, diff.unchanged, diff.deleted],
          list.Pairwise (· < ·))
      ∧ (diff.forceRebuild = true ∧ diff.modified = [] ∧ diff.unchanged = []
        ∨ diff.forceRebuild = false
          ∧ ∀ path, path ∈ diff.changedPaths ↔ ¬manifest.Agrees supported path) := by
  intro diff
  have deletedIncreasing
      : (manifest.files.keys.filter (fun path => !supported.contains path)).Pairwise (· < ·) :=
    manifest.files.keys_increasing.filter _
  cases forced : diff.forceRebuild with
  | true =>
      have branch : diff = _ := scanDiff_of_forced forced
      refine ⟨?_, ?_, ?_, .inl ⟨rfl, by rw [branch], by rw [branch]⟩⟩
      · simp only [branch, ManifestDiff.paths, List.append_nil]
        refine List.nodup_append.mpr
          ⟨supported.keys_nodup, nodup_of_increasing deletedIncreasing, ?_⟩
        rintro path scanned _ gone rfl
        exact (mem_deleted.mp gone).2 scanned
      · intro path
        simp only [branch, ManifestDiff.paths, List.append_nil, List.mem_append, mem_deleted]
        tauto
      · simp only [branch, List.mem_cons, List.not_mem_nil, or_false, forall_eq_or_imp, forall_eq]
        exact ⟨supported.keys_increasing, .nil, .nil, deletedIncreasing⟩
  | false =>
      have comparable := scanDiff_forceRebuild.mp forced
      have branch : diff = _ := scanDiff_of_comparable comparable
      refine ⟨?_, ?_, ?_, .inr ⟨rfl, fun path => mem_changedPaths comparable⟩⟩
      · simp only [branch, ManifestDiff.paths]
        refine List.nodup_append.mpr
          ⟨List.nodup_append.mpr
            ⟨List.nodup_append.mpr
              ⟨nodup_of_increasing (filter_increasing _), nodup_of_increasing (filter_increasing _),
                ?_⟩,
              nodup_of_increasing (filter_increasing _), ?_⟩,
            nodup_of_increasing deletedIncreasing, ?_⟩
        · rintro path added _ modified rfl
          exact (mem_added.mp added).2 (mem_modified.mp modified).2.1
        · rintro path changed _ unchanged rfl
          have known := mem_unchanged.mp unchanged
          rcases List.mem_append.mp changed with added | modified
          · exact (mem_added.mp added).2 known.2.1
          · exact (mem_modified.mp modified).2.2 known.2.2
        · rintro path scanned _ gone rfl
          refine (mem_deleted.mp gone).2 ?_
          rcases List.mem_append.mp scanned with changed | unchanged
          · rcases List.mem_append.mp changed with added | modified
            · exact (mem_added.mp added).1
            · exact (mem_modified.mp modified).1
          · exact (mem_unchanged.mp unchanged).1
      · intro path
        simp only [branch, ManifestDiff.paths, List.mem_append, mem_added, mem_modified,
          mem_unchanged, mem_deleted]
        tauto
      · simp only [branch, List.mem_cons, List.not_mem_nil, or_false, forall_eq_or_imp, forall_eq]
        exact
          ⟨filter_increasing _, filter_increasing _, filter_increasing _, deletedIncreasing⟩

end Exactness

section Runs

variable {environment : Environment} {functions : ArtifactFunctions} {digestOf : DigestFunction}
  {trace : List MaterializationEvent} {previous : Option NativeManifest}

/-- A key that can be looked up is not empty. -/
theorem ManifestEntry.Locates.keyed {entry : ManifestEntry} {path : String}
    (located : entry.Locates path)
    : entry.artifactKey.getD "" ≠ "" := by
  obtain ⟨-, artifactKey, keyed, valid⟩ := located
  rw [keyed]
  rintro rfl
  simp [validateArtifactKey, Except.toBool] at valid

end Runs

section Example

end Example

end CodebaseGraph.Partition
