import CodebaseGraph.Wiki.CompiledGraph

/-! What the parts of a compiled bundle are made of: the headings and the fragments of its
concepts, the bodies and the log entries of its directories, and the index that its links are
resolved with.
-/

namespace CodebaseGraph.Wiki

open CodebaseGraph.Collections CodebaseGraph.Sorting

variable {libraries : TextLibraries}

-- Headings and fragments

/-- The fragments of a page are the identities of its headings. -/
def MarkdownState.Anchored (state : MarkdownState) : Prop :=
  ∀ slug, state.fragments.contains slug = true ↔ ∃ heading ∈ state.headings, heading.id = slug

theorem MarkdownState.Anchored.read {state : MarkdownState} (anchored : state.Anchored)
    (body : String) (event : MarkdownEvent × Nat)
    : (state.read libraries body event).Anchored := by
  obtain ⟨event, start⟩ := event
  cases event with
  | endHeading =>
      simp only [MarkdownState.read]
      split
      · exact anchored
      split
      · exact anchored
      · intro slug
        simp only [SortedMap.contains_iff, SortedMap.mem_keys_insert, List.mem_append,
          List.mem_singleton, or_and_right, exists_or, exists_eq_left, ← anchored slug]
        rw [or_comm, eq_comm]
  | endLink =>
      simp only [MarkdownState.read]
      split <;> exact anchored
  | _ => exact anchored

/-- What a draft knows of the headings of its concepts. -/
structure HeadingInvariant (libraries : TextLibraries) (draft : CompileDraft) : Prop where
  headings
    : ∀ concept ∈ draft.concepts,
        concept.headings = (parseMarkdown libraries concept.bodyMarkdown).headings
  fragments
    : ∀ concept ∈ draft.concepts,
        draft.conceptFragments.get? concept.id
        = some (parseMarkdown libraries concept.bodyMarkdown).fragments
  owned
    : ∀ conceptId ∈ draft.conceptFragments.keys,
        ∃ concept ∈ draft.concepts, concept.id = conceptId

theorem HeadingInvariant.addConcept {draft : CompileDraft}
    (holds : HeadingInvariant libraries draft) (bundleId : String) (document : SourceDocument)
    : HeadingInvariant libraries (draft.addConcept libraries bundleId document) := by
  rw [CompileDraft.addConcept]
  split
  · exact ⟨holds.headings, holds.fragments, holds.owned⟩
  · next fresh =>
      have absent
          : ∀ concept ∈ draft.concepts,
              concept.id ≠ conceptIdFromSourcePath (normalizeSourcePath document.path) := by
        intro concept inside same
        exact fresh (List.any_eq_true.mpr ⟨concept, inside, by simpa using same⟩)
      refine ⟨?_, ?_, ?_⟩ <;> dsimp only
      · intro concept inside
        rcases List.mem_append.mp inside with old | new
        · exact holds.headings concept old
        · rw [List.mem_singleton.mp new]
          simp only [conceptOf]
      · intro concept inside
        rcases List.mem_append.mp inside with old | new
        · rw [SortedMap.get?_insert_of_ne _ _ (absent concept old)]
          exact holds.fragments concept old
        · rw [List.mem_singleton.mp new, conceptOf_id, conceptOf_bodyMarkdown,
            SortedMap.get?_insert_self]
      · intro conceptId inside
        simp only [SortedMap.mem_keys_insert] at inside
        simp only [List.mem_append, List.mem_singleton, or_and_right, exists_or, exists_eq_left]
        rcases inside with same | old
        · exact Or.inr ((conceptOf_id _ _).trans same.symm)
        · exact Or.inl (holds.owned conceptId old)

theorem HeadingInvariant.addDocument {draft : CompileDraft}
    (holds : HeadingInvariant libraries draft) (bundleId : String) (document : SourceDocument)
    : HeadingInvariant libraries (draft.addDocument libraries bundleId document) := by
  rw [CompileDraft.addDocument]
  split
  · exact holds.addConcept bundleId document
  · rw [CompileDraft.addIndex]
    exact ⟨holds.headings, holds.fragments, holds.owned⟩
  · rw [CompileDraft.addLog]
    exact ⟨holds.headings, holds.fragments, holds.owned⟩

theorem headingInvariant_ofDocuments (libraries : TextLibraries) (source : SourceBundle)
    : HeadingInvariant libraries (.ofDocuments libraries source) := by
  have run (documents : List SourceDocument) (draft : CompileDraft)
      (holds : HeadingInvariant libraries draft)
      : HeadingInvariant libraries
          (documents.foldl (CompileDraft.addDocument libraries source.id) draft) := by
    induction documents generalizing draft with
    | nil => exact holds
    | cons document rest ih => exact ih _ (holds.addDocument source.id document)
  exact run _ _ ⟨by simp [CompileDraft.start], by simp [CompileDraft.start],
    by simp [CompileDraft.start]⟩

-- Aggregated logs

theorem length_of_mem_enclosingScopes {fuel : Nat} {scope path : String}
    (inside : path ∈ enclosingScopes fuel scope)
    : path.length ≤ scope.length := by
  induction fuel generalizing scope with
  | zero => simp_all [enclosingScopes]
  | succ fuel ih =>
      rw [enclosingScopes] at inside
      split at inside
      · rw [List.mem_singleton.mp inside]
      · next nested =>
          rcases List.mem_cons.mp inside with rfl | above
          · exact le_refl _
          · exact (ih above).trans (parentDirectory_length nested).le

/-- A directory stands once among those that enclose it: each is shorter than the last. -/
theorem enclosingScopes_nodup (fuel : Nat) (scope : String)
    : (enclosingScopes fuel scope).Nodup := by
  induction fuel generalizing scope with
  | zero => exact List.nodup_singleton _
  | succ fuel ih =>
      rw [enclosingScopes]
      split
      · exact List.nodup_singleton _
      · next nested =>
          refine List.nodup_cons.mpr ⟨fun inside => ?_, ih _⟩
          have shorter := length_of_mem_enclosingScopes inside
          have longer := parentDirectory_length nested
          have same : parentDirectoryFromDirectory scope = parentDirectory scope := rfl
          rw [same] at shorter
          omega

theorem ancestorDirectories_nodup (path : String) : (ancestorDirectories path).Nodup :=
  List.nodup_reverse.mpr (enclosingScopes_nodup _ _)

/-- The entries that the logs give to a directory: those of the logs in it and below it. -/
def entriesWithin (logs : List LogSource) (path : String) : List LogEntry :=
  logs.flatMap (fun log =>
    if path ∈ ancestorDirectories log.scopePath then (parseLogEntries log).1 else [])

/-- A directory with more log entries. -/
def DirectoryDraft.log (entries : List LogEntry) (draft : DirectoryDraft) : DirectoryDraft :=
  { draft with logEntries := draft.logEntries ++ entries }

theorem map_log_nil (found : Option DirectoryDraft) : found.map (DirectoryDraft.log []) = found := by
  cases found <;> simp [DirectoryDraft.log]

theorem map_log_log (found : Option DirectoryDraft) (first second : List LogEntry)
    : (found.map (DirectoryDraft.log first)).map (DirectoryDraft.log second)
      = found.map (DirectoryDraft.log (first ++ second)) := by
  cases found <;> simp [DirectoryDraft.log]

theorem addEntry_get? (scopes : List String) (distinct : scopes.Nodup) (entry : LogEntry)
    (directories : Directories) (path : String)
    : (scopes.foldl
        (fun map scope =>
          map.modify scope
            (fun directory => { directory with logEntries := directory.logEntries ++ [entry] }))
        directories).get? path
      = (directories.get? path).map (.log (if path ∈ scopes then [entry] else [])) := by
  induction scopes generalizing directories with
  | nil => simp [map_log_nil]
  | cons scope rest ih =>
      obtain ⟨fresh, distinct⟩ := List.nodup_cons.mp distinct
      rw [List.foldl_cons, ih distinct, SortedMap.get?_modify]
      by_cases same : path = scope
      · subst same
        rw [if_pos rfl, if_neg fresh, if_pos List.mem_cons_self, map_log_nil]
        rfl
      · simp [same]

theorem addEntries_get? (scopes : List String) (distinct : scopes.Nodup)
    (entries : List LogEntry) (directories : Directories) (path : String)
    : (entries.foldl
        (fun map entry =>
          scopes.foldl
            (fun map scope =>
              map.modify scope
                (fun directory => { directory with logEntries := directory.logEntries ++ [entry] }))
            map)
        directories).get? path
      = (directories.get? path).map (.log (if path ∈ scopes then entries else [])) := by
  induction entries generalizing directories with
  | nil => simp [map_log_nil]
  | cons entry rest ih =>
      rw [List.foldl_cons, ih, addEntry_get? scopes distinct, map_log_log]
      by_cases inside : path ∈ scopes <;> simp [inside]

/-- The log pass gives each directory the entries of the logs in it and below it. -/
theorem aggregateLogs_get? (diagnostics : List Diagnostic) (logs : List LogSource)
    (directories : Directories) (path : String)
    : (aggregateLogs diagnostics logs directories).2.get? path
      = (directories.get? path).map (.log (entriesWithin logs path)) := by
  rw [aggregateLogs]
  induction logs generalizing diagnostics directories with
  | nil => simp [entriesWithin, map_log_nil]
  | cons log rest ih =>
      rw [List.foldl_cons, ih, addEntries_get? _ (ancestorDirectories_nodup _), map_log_log]
      simp [entriesWithin]

-----------------------------------------------------------------------------------------
-- The compiled bundle
-----------------------------------------------------------------------------------------

/-- The directories of a bundle before the logs are added. -/
def SourceBundle.hierarchy (libraries : TextLibraries) (source : SourceBundle) : Directories :=
  (CompileDraft.ofDocuments libraries source).hierarchy libraries source.title

/-- The directories of a bundle. -/
def SourceBundle.directories (libraries : TextLibraries) (source : SourceBundle) : Directories :=
  let draft := CompileDraft.ofDocuments libraries source
  (aggregateLogs draft.diagnostics draft.logs (source.hierarchy libraries)).2

/-- The directories are those of the hierarchy, with the entries of the logs. -/
theorem directories_get? (libraries : TextLibraries) (source : SourceBundle) (path : String)
    : (source.directories libraries).get? path
      = ((source.hierarchy libraries).get? path).map
          (.log (entriesWithin (CompileDraft.ofDocuments libraries source).logs path)) :=
  aggregateLogs_get? _ _ _ _

/-- The index that the links of a bundle are resolved with. -/
def SourceBundle.linkIndex (libraries : TextLibraries) (source : SourceBundle) : LinkIndex :=
  (CompileDraft.ofDocuments libraries source).linkIndex source.id (source.directories libraries)
    (buildDirectoryFragments libraries (source.hierarchy libraries))

theorem compileBundle_concepts (libraries : TextLibraries) (source : SourceBundle)
    : let draft := CompileDraft.ofDocuments libraries source
      ∃ waiting,
        (compileBundle libraries source).concepts
        = (sortBy Concept.id
            (draft.concepts.map
              (linkedConcept libraries (source.linkIndex libraries) draft.conceptLinks
                waiting))).map
            Concept.normalize := by
  intro draft
  obtain ⟨waiting, concepts, -⟩ :=
    resolveBundleLinks_spec (draftInvariant_ofDocuments libraries source)
      (aggregateLogs draft.diagnostics draft.logs (source.hierarchy libraries)).1
      (source.directories libraries)
      (buildDirectoryFragments libraries (source.hierarchy libraries))
  refine ⟨waiting, ?_⟩
  rw [SourceBundle.linkIndex, ← concepts]
  rfl

theorem compileBundle_directories (libraries : TextLibraries) (source : SourceBundle)
    : (compileBundle libraries source).directories
      = (sortBy Directory.path
          ((source.directories libraries).entries.map
            (fun entry => entry.2.intoDirectory entry.1))).map
          Directory.normalize :=
  rfl

section Compiled

variable {source : SourceBundle}

/-- A compiled concept is a concept of the draft with its links, in its normal form. -/
theorem origin_of_mem_concepts {concept : Concept}
    (inside : concept ∈ (compileBundle libraries source).concepts)
    : ∃ origin ∈ (CompileDraft.ofDocuments libraries source).concepts,
        ∃ waiting,
          concept
          = (linkedConcept libraries (source.linkIndex libraries)
              (CompileDraft.ofDocuments libraries source).conceptLinks waiting origin).normalize := by
  obtain ⟨waiting, concepts⟩ := compileBundle_concepts libraries source
  rw [concepts] at inside
  obtain ⟨linked, member, rfl⟩ := List.mem_map.mp inside
  rw [(sortBy_perm _ _).mem_iff] at member
  obtain ⟨origin, known, rfl⟩ := List.mem_map.mp member
  exact ⟨origin, known, waiting, rfl⟩

theorem mem_directories_compileBundle {directory : Directory}
    : directory ∈ (compileBundle libraries source).directories
      ↔ ∃ path entry,
          (source.directories libraries).get? path = some entry
          ∧ (entry.intoDirectory path).normalize = directory := by
  simp only [compileBundle_directories, List.mem_map, (sortBy_perm _ _).mem_iff, Prod.exists,
    SortedMap.get?_eq_some_iff]
  constructor
  · rintro ⟨_, ⟨path, entry, inside, rfl⟩, rfl⟩
    exact ⟨path, entry, inside, rfl⟩
  · rintro ⟨path, entry, inside, rfl⟩
    exact ⟨_, ⟨path, entry, inside, rfl⟩, rfl⟩

/-- The directories of a bundle form the tree of its draft. -/
theorem treeFacts_directories (libraries : TextLibraries) (source : SourceBundle)
    : TreeFacts (CompileDraft.ofDocuments libraries source) (source.directories libraries) :=
  (TreeFacts.of_draft source.title (draftInvariant_ofDocuments libraries source)).congr
    (fun path => aggregateLogs_members _ _ _ path)

section Kept

variable (index : LinkIndex) (parsedLinks : SortedMap String (List ParsedLink))
  (waiting : SortedMap String (List Link)) (origin : Concept)

theorem compiled_id
    : (linkedConcept libraries index parsedLinks waiting origin).normalize.id = origin.id :=
  rfl

theorem compiled_sourcePath
    : (linkedConcept libraries index parsedLinks waiting origin).normalize.sourcePath
      = origin.sourcePath :=
  rfl

theorem compiled_bodyMarkdown
    : (linkedConcept libraries index parsedLinks waiting origin).normalize.bodyMarkdown
      = origin.bodyMarkdown :=
  rfl

end Kept

/-- The headings of a concept are those of its page, in the order of their identities. -/
theorem compiled_headings {concept : Concept}
    (inside : concept ∈ (compileBundle libraries source).concepts)
    : concept.headings
      = sortBy (fun heading : Heading => toLex (heading.id, heading.level))
          (parseMarkdown libraries concept.bodyMarkdown).headings := by
  obtain ⟨origin, member, waiting, rfl⟩ := origin_of_mem_concepts inside
  rw [compiled_bodyMarkdown,
    ← (headingInvariant_ofDocuments libraries source).headings origin member]
  rfl

end Compiled

end CodebaseGraph.Wiki
