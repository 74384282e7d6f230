import CodebaseGraph.Wiki.Compiler

/-! The compiled graph of a bundle is consistent: identities are distinct, the directory tree is
closed, links and backlinks are two views of one relation.
-/

namespace CodebaseGraph.Wiki

open CodebaseGraph.Collections CodebaseGraph.Sorting

variable {libraries : TextLibraries}

-- Paths

theorem parentDirectory_eq (path : String)
    : parentDirectory path = ((rsplitOnce '/' path).map Prod.fst).getD "" := by
  rw [parentDirectory]
  cases rsplitOnce '/' path <;> rfl

/-- A concept's identity lies in the directory of its document. -/
theorem parentDirectory_conceptId (path : String)
    : parentDirectory (conceptIdFromSourcePath path) = parentDirectory path := by
  rw [conceptIdFromSourcePath]
  cases stripped : stripSuffix path ".md" with
  | none => rfl
  | some stem =>
      conv_rhs => rw [append_of_stripSuffix stripped]
      rw [Option.getD_some, parentDirectory_eq, parentDirectory_eq,
        rsplitOnce_append stem (by decide)]

theorem parentDirectory_length {path : String} (inner : path ≠ "")
    : (parentDirectory path).length < path.length := by
  rw [parentDirectory]
  cases split : rsplitOnce '/' path with
  | some pair => exact rsplitOnce_length split
  | none =>
      rw [String.length_empty, Nat.pos_iff_ne_zero]
      simpa using inner

theorem self_mem_enclosingScopes (fuel : Nat) (scope : String)
    : scope ∈ enclosingScopes fuel scope := by
  cases fuel with
  | zero => simp [enclosingScopes]
  | succ fuel =>
      rw [enclosingScopes]
      split <;> simp

theorem parent_mem_enclosingScopes {fuel : Nat} {scope path : String}
    (enough : scope.length ≤ fuel) (inside : path ∈ enclosingScopes fuel scope)
    (inner : path ≠ "")
    : parentDirectory path ∈ enclosingScopes fuel scope := by
  induction fuel generalizing scope with
  | zero =>
      simp only [enclosingScopes, List.mem_singleton] at inside
      subst inside
      have positive := parentDirectory_length inner
      omega
  | succ fuel ih =>
      rw [enclosingScopes] at inside ⊢
      split at inside
      · next root =>
          rw [List.mem_singleton] at inside
          exact absurd (inside.trans root) inner
      · next nested =>
          rw [if_neg nested]
          have shorter := parentDirectory_length nested
          rcases List.mem_cons.mp inside with rfl | above
          · exact List.mem_cons_of_mem _ (self_mem_enclosingScopes _ _)
          · exact List.mem_cons_of_mem _ (ih (by
              have same : parentDirectoryFromDirectory scope = parentDirectory scope := rfl
              rw [same]
              omega) above)

theorem self_mem_ancestorDirectories (path : String) : path ∈ ancestorDirectories path :=
  List.mem_reverse.mpr (self_mem_enclosingScopes _ _)

/-- The chain of a directory is closed under taking the parent. -/
theorem parent_mem_ancestorDirectories {path scope : String}
    (inside : scope ∈ ancestorDirectories path) (inner : scope ≠ "")
    : parentDirectory scope ∈ ancestorDirectories path :=
  List.mem_reverse.mpr
    (parent_mem_enclosingScopes (le_refl _) (List.mem_reverse.mp inside) inner)

theorem conceptRouteId_inj {bundleId first second : String}
    : conceptRouteId bundleId first = conceptRouteId bundleId second ↔ first = second := by
  simp [conceptRouteId, ← String.toList_inj]

/-- A directory's route is no concept's: after the bundle they differ in one letter. -/
theorem directoryRouteId_ne (bundleId path conceptId : String)
    : directoryRouteId bundleId path ≠ conceptRouteId bundleId conceptId := by
  intro same
  have texts := congrArg String.toList same
  rw [directoryRouteId] at texts
  split at texts <;>
    simp [conceptRouteId] at texts

-----------------------------------------------------------------------------------------
-- The directories of a draft
-----------------------------------------------------------------------------------------

/-- The root and, with every directory, the one above it are present. -/
structure Closed (directories : Directories) : Prop where
  root : "" ∈ directories.keys
  parent : ∀ path ∈ directories.keys, path ≠ "" → parentDirectory path ∈ directories.keys

/-- The members of a directory, if it is there: its sub-directories and its concepts. -/
def membersOf (directories : Directories) (path : String)
    : Option (SortedSet String × SortedSet String) :=
  (directories.get? path).map (fun entry => (entry.childDirectories, entry.conceptIds))

theorem mem_keys_iff_membersOf {directories : Directories} {path : String}
    : path ∈ directories.keys ↔ ∃ members, membersOf directories path = some members := by
  rw [SortedMap.mem_keys_iff, membersOf]
  cases directories.get? path <;> simp

theorem Closed.congr {first second : Directories} (closed : Closed first)
    (same : ∀ path, membersOf second path = membersOf first path)
    : Closed second := by
  have keys (path : String) : path ∈ second.keys ↔ path ∈ first.keys := by
    rw [mem_keys_iff_membersOf, mem_keys_iff_membersOf, same]
  refine ⟨(keys _).mpr closed.root, ?_⟩
  intro path inside inner
  exact (keys _).mpr (closed.parent path ((keys _).mp inside) inner)

/-- Making the missing directories of a chain leaves the members of the others. -/
theorem foldl_ensure (scopes : List String) (directories : Directories) (path : String)
    : (scopes.foldl (fun map scope => map.update scope ({} : DirectoryDraft) id) directories).get? path
      = if path ∈ scopes then some ((directories.get? path).getD {}) else directories.get? path := by
  induction scopes generalizing directories with
  | nil => simp
  | cons scope rest ih =>
      rw [List.foldl_cons, ih, SortedMap.get?_update]
      by_cases same : path = scope
      · simp [same]
      · simp [same]

theorem ensureDirectoryChain_get? (chain : String) (directories : Directories) (path : String)
    : (ensureDirectoryChain chain directories).get? path
      = if path ∈ ancestorDirectories chain then some ((directories.get? path).getD {})
        else directories.get? path :=
  foldl_ensure ..

theorem mem_keys_ensureDirectoryChain {chain path : String} {directories : Directories}
    : path ∈ (ensureDirectoryChain chain directories).keys
      ↔ path ∈ ancestorDirectories chain ∨ path ∈ directories.keys := by
  rw [SortedMap.mem_keys_iff, SortedMap.mem_keys_iff, ensureDirectoryChain_get?]
  by_cases inside : path ∈ ancestorDirectories chain <;> simp [inside]

theorem Closed.ensureDirectoryChain {directories : Directories} (closed : Closed directories)
    (chain : String)
    : Closed (ensureDirectoryChain chain directories) := by
  refine ⟨mem_keys_ensureDirectoryChain.mpr (Or.inr closed.root), ?_⟩
  intro path inside inner
  rw [mem_keys_ensureDirectoryChain] at inside ⊢
  rcases inside with above | old
  · exact Or.inl (parent_mem_ancestorDirectories above inner)
  · exact Or.inr (closed.parent path old inner)

/-- Changing a directory that is there makes no new one. -/
theorem Closed.update {directories : Directories} (closed : Closed directories) {path : String}
    (present : path ∈ directories.keys) (change : DirectoryDraft → DirectoryDraft)
    : Closed (directories.update path {} change) := by
  have keys (other : String)
      : other ∈ (directories.update path {} change).keys ↔ other ∈ directories.keys := by
    rw [SortedMap.mem_keys_update]
    exact ⟨fun either => either.elim (fun same => same ▸ present) id, Or.inr⟩
  refine ⟨(keys _).mpr closed.root, ?_⟩
  intro other inside inner
  exact (keys _).mpr (closed.parent other ((keys _).mp inside) inner)

/-- What every draft of a bundle satisfies. -/
structure DraftInvariant (libraries : TextLibraries) (bundleId : String) (draft : CompileDraft)
    : Prop where
  distinct : (draft.concepts.map Concept.id).Nodup
  closed : Closed draft.directories
  childless
    : ∀ path entry, draft.directories.get? path = some entry → entry.childDirectories = .empty
  housed
    : ∀ path entry,
        draft.directories.get? path = some entry
        → ∀ conceptId ∈ entry.conceptIds.keys, parentDirectory conceptId = path
  named : ∀ concept ∈ draft.concepts, concept.id = conceptIdFromSourcePath concept.sourcePath
  listed
    : ∀ concept ∈ draft.concepts,
        ∃ entry,
          draft.directories.get? (parentDirectory concept.sourcePath) = some entry
          ∧ concept.id ∈ entry.conceptIds.keys
  unlinked : ∀ concept ∈ draft.concepts, concept.outboundLinks = []
  parsed
    : ∀ concept ∈ draft.concepts,
        draft.conceptLinks.get? concept.id
          = some (parseMarkdown libraries concept.bodyMarkdown).links

variable (libraries) in
theorem draftInvariant_start (bundleId : String)
    : DraftInvariant libraries bundleId .start where
  distinct := List.nodup_nil
  closed := by
    refine ⟨?_, ?_⟩
    · simp [CompileDraft.start, SortedMap.mem_keys_insert]
    · intro path inside inner
      simp [CompileDraft.start, SortedMap.mem_keys_insert] at inside
      exact absurd inside inner
  childless := by
    intro path entry found
    simp only [CompileDraft.start, SortedMap.get?_insert, SortedMap.get?_empty] at found
    split at found
    · rw [← Option.some.inj found]
    · exact nomatch found
  housed := by
    intro path entry found conceptId inside
    simp only [CompileDraft.start, SortedMap.get?_insert, SortedMap.get?_empty] at found
    split at found
    · rw [← Option.some.inj found] at inside
      exact nomatch inside
    · exact nomatch found
  named := by simp [CompileDraft.start]
  listed := by simp [CompileDraft.start]
  unlinked := by simp [CompileDraft.start]
  parsed := by simp [CompileDraft.start]

/-- A change of the directories that keeps the members of each keeps the invariant; new
directories may be added without members.
-/
theorem DraftInvariant.withDirectories {bundleId : String} {draft : CompileDraft}
    (holds : DraftInvariant libraries bundleId draft) {directories : Directories}
    (closed : Closed directories)
    (kept
      : ∀ path,
          membersOf directories path = membersOf draft.directories path
          ∨ membersOf draft.directories path = none
            ∧ membersOf directories path = some (.empty, .empty))
    {logs : List LogSource}
    : DraftInvariant libraries bundleId { draft with directories, logs } := by
  have old {path : String} {entry : DirectoryDraft} (found : directories.get? path = some entry)
      : (entry.childDirectories = .empty ∧ entry.conceptIds = .empty)
        ∨ ∃ before,
            draft.directories.get? path = some before
            ∧ before.childDirectories = entry.childDirectories
            ∧ before.conceptIds = entry.conceptIds := by
    rcases kept path with same | ⟨_, fresh⟩
    · right
      rw [membersOf, membersOf, found, Option.map_some, eq_comm, Option.map_eq_some_iff] at same
      obtain ⟨before, was, pair⟩ := same
      exact ⟨before, was, (Prod.mk.inj pair).1, (Prod.mk.inj pair).2⟩
    · left
      rw [membersOf, found, Option.map_some] at fresh
      exact Prod.mk.inj (Option.some.inj fresh)
  exact {
    holds with
    closed
    childless := by
      intro path entry found
      rcases old found with ⟨none, _⟩ | ⟨before, was, same, _⟩
      · exact none
      · exact same ▸ holds.childless path before was
    housed := by
      intro path entry found conceptId inside
      rcases old found with ⟨_, none⟩ | ⟨before, was, _, same⟩
      · rw [none] at inside
        exact nomatch inside
      · exact holds.housed path before was conceptId (same ▸ inside)
    listed := by
      intro concept inside
      obtain ⟨entry, found, listed⟩ := holds.listed concept inside
      rcases kept (parentDirectory concept.sourcePath) with same | ⟨absent, _⟩
      · rw [membersOf, membersOf, found, Option.map_some, Option.map_eq_some_iff] at same
        obtain ⟨after, now, pair⟩ := same
        exact ⟨after, now, (Prod.mk.inj pair).2 ▸ listed⟩
      · simp [membersOf, found] at absent
  }

theorem membersOf_ensureDirectoryChain (chain : String) (directories : Directories) (path : String)
    : membersOf (ensureDirectoryChain chain directories) path = membersOf directories path
      ∨ membersOf directories path = none
        ∧ membersOf (ensureDirectoryChain chain directories) path = some (.empty, .empty) := by
  simp only [membersOf, ensureDirectoryChain_get?]
  by_cases inside : path ∈ ancestorDirectories chain
  · cases found : directories.get? path with
    | some entry => simp [inside]
    | none => simp [inside]
  · simp [inside]

/-- Listing a concept in the directory of its document, which the chain has made. -/
theorem conceptDirectories_get? (draft : CompileDraft) (conceptId directory path : String)
    : ((ensureDirectoryChain directory draft.directories).update directory {}
          (fun entry => { entry with conceptIds := entry.conceptIds.insert conceptId () })).get? path
      = if path = directory then
          some
            {
              (draft.directories.get? path).getD {} with
              conceptIds := ((draft.directories.get? path).getD {}).conceptIds.insert conceptId ()
            }
        else (ensureDirectoryChain directory draft.directories).get? path := by
  rw [SortedMap.get?_update]
  split
  · next same =>
      subst same
      simp [ensureDirectoryChain_get?, self_mem_ancestorDirectories]
  · rfl

/-- The directories after a concept was listed, for a draft that satisfies the invariant. -/
theorem DraftInvariant.listConcept {bundleId : String} {draft : CompileDraft}
    (holds : DraftInvariant libraries bundleId draft) {conceptId directory : String}
    (lies : parentDirectory conceptId = directory)
    (diagnostics : List Diagnostic)
    : DraftInvariant libraries bundleId
        {
          draft with
          diagnostics,
          directories :=
            (ensureDirectoryChain directory draft.directories).update directory {}
              (fun entry => { entry with conceptIds := entry.conceptIds.insert conceptId () })
        } := by
  have chained : DraftInvariant libraries bundleId
      { draft with directories := ensureDirectoryChain directory draft.directories } :=
    holds.withDirectories (holds.closed.ensureDirectoryChain directory)
      (membersOf_ensureDirectoryChain directory draft.directories)
  have present : directory ∈ (ensureDirectoryChain directory draft.directories).keys :=
    mem_keys_ensureDirectoryChain.mpr (Or.inl (self_mem_ancestorDirectories directory))
  have before : ((draft.directories.get? directory).getD {}).childDirectories = .empty
      ∧ ∀ listed ∈ ((draft.directories.get? directory).getD {}).conceptIds.keys,
          parentDirectory listed = directory := by
    cases found : draft.directories.get? directory with
    | none => exact ⟨rfl, fun listed inside => nomatch inside⟩
    | some entry => exact ⟨holds.childless _ _ found, holds.housed _ _ found⟩
  refine {
    holds with
    closed := (holds.closed.ensureDirectoryChain directory).update present
      (fun entry => { entry with conceptIds := entry.conceptIds.insert conceptId () })
    childless := ?_
    housed := ?_
    listed := ?_
  }
  · intro path entry found
    rw [conceptDirectories_get?] at found
    split at found
    · next same =>
        subst same
        rw [← Option.some.inj found]
        exact before.1
    · exact chained.childless path entry found
  · intro path entry found listed inside
    rw [conceptDirectories_get?] at found
    split at found
    · next same =>
        subst same
        rw [← Option.some.inj found, SortedMap.mem_keys_insert] at inside
        rcases inside with rfl | old
        · exact lies
        · exact before.2 listed old
    · exact chained.housed path entry found listed inside
  · intro concept inside
    obtain ⟨entry, found, listed⟩ := chained.listed concept inside
    rw [conceptDirectories_get?]
    split
    · next same =>
        obtain ⟨entry', found', listed'⟩ := holds.listed concept inside
        rw [found']
        exact ⟨_, rfl, SortedMap.mem_keys_insert.mpr (Or.inr listed')⟩
    · exact ⟨entry, found, listed⟩

theorem conceptOf_id (bundleId : String) (document : SourceDocument)
    : (conceptOf libraries bundleId document).id
      = conceptIdFromSourcePath (normalizeSourcePath document.path) := by
  simp only [conceptOf]

theorem conceptOf_sourcePath (bundleId : String) (document : SourceDocument)
    : (conceptOf libraries bundleId document).sourcePath = normalizeSourcePath document.path := by
  simp only [conceptOf]

theorem conceptOf_bodyMarkdown (bundleId : String) (document : SourceDocument)
    : (conceptOf libraries bundleId document).bodyMarkdown = document.bodyMarkdown := by
  simp only [conceptOf]

theorem conceptOf_outboundLinks (bundleId : String) (document : SourceDocument)
    : (conceptOf libraries bundleId document).outboundLinks = [] := by
  simp only [conceptOf]

theorem DraftInvariant.addConcept {bundleId : String} {draft : CompileDraft}
    (holds : DraftInvariant libraries bundleId draft) (document : SourceDocument)
    : DraftInvariant libraries bundleId (draft.addConcept libraries bundleId document) := by
  have lies
      : parentDirectory (conceptIdFromSourcePath (normalizeSourcePath document.path))
        = parentDirectory (normalizeSourcePath document.path) :=
    parentDirectory_conceptId _
  rw [CompileDraft.addConcept]
  split
  · exact holds.listConcept lies _
  · next fresh =>
      have absent
          : ∀ concept ∈ draft.concepts,
              concept.id ≠ conceptIdFromSourcePath (normalizeSourcePath document.path) := by
        intro concept inside same
        exact fresh (List.any_eq_true.mpr ⟨concept, inside, by simpa using same⟩)
      have listed := holds.listConcept lies draft.diagnostics
      refine {
        listed with
        distinct := ?_
        named := ?_
        listed := ?_
        unlinked := ?_
        parsed := ?_
      }
      · rw [List.map_append, List.map_singleton, List.nodup_append]
        refine ⟨holds.distinct, List.nodup_singleton _, ?_⟩
        intro conceptId inside other single same
        rw [List.mem_singleton.mp single, conceptOf_id] at same
        obtain ⟨concept, member, rfl⟩ := List.mem_map.mp inside
        exact absent concept member same
      · intro concept inside
        rcases List.mem_append.mp inside with old | new
        · exact holds.named concept old
        · rw [List.mem_singleton.mp new, conceptOf_id, conceptOf_sourcePath]
      · intro concept inside
        rcases List.mem_append.mp inside with old | new
        · exact listed.listed concept old
        · rw [List.mem_singleton.mp new]
          rw [conceptOf_sourcePath, conceptOf_id, conceptDirectories_get?, if_pos rfl]
          exact ⟨_, rfl, SortedMap.mem_keys_insert.mpr (Or.inl rfl)⟩
      · intro concept inside
        rcases List.mem_append.mp inside with old | new
        · exact holds.unlinked concept old
        · rw [List.mem_singleton.mp new, conceptOf_outboundLinks]
      · intro concept inside
        rcases List.mem_append.mp inside with old | new
        · rw [SortedMap.get?_insert_of_ne _ _ (absent concept old)]
          exact holds.parsed concept old
        · rw [List.mem_singleton.mp new, conceptOf_id, conceptOf_bodyMarkdown,
            SortedMap.get?_insert_self]

theorem DraftInvariant.addIndex {bundleId : String} {draft : CompileDraft}
    (holds : DraftInvariant libraries bundleId draft) (document : SourceDocument)
    : DraftInvariant libraries bundleId (draft.addIndex document) := by
  rw [CompileDraft.addIndex]
  generalize reservedDocumentDirectory (normalizeSourcePath document.path) = directory
  have chained := holds.closed.ensureDirectoryChain directory
  have present : directory ∈ (ensureDirectoryChain directory draft.directories).keys :=
    mem_keys_ensureDirectoryChain.mpr (Or.inl (self_mem_ancestorDirectories directory))
  refine holds.withDirectories (chained.update present _) ?_
  intro path
  have kept := membersOf_ensureDirectoryChain directory draft.directories path
  have same (change : DirectoryDraft → DirectoryDraft)
      (keeps : ∀ entry, (change entry).childDirectories = entry.childDirectories
        ∧ (change entry).conceptIds = entry.conceptIds)
      : membersOf ((ensureDirectoryChain directory draft.directories).update directory {} change)
          path
        = membersOf (ensureDirectoryChain directory draft.directories) path := by
    simp only [membersOf, SortedMap.get?_update]
    split
    · next at_ =>
        subst at_
        obtain ⟨entry, found⟩ := SortedMap.mem_keys_iff.mp present
        simp [found, (keeps entry).1, (keeps entry).2]
    · rfl
  rcases kept with old | ⟨absent, fresh⟩
  · refine Or.inl (Eq.trans (same _ ?_) old)
    exact fun entry => ⟨rfl, rfl⟩
  · refine Or.inr ⟨absent, Eq.trans (same _ ?_) fresh⟩
    exact fun entry => ⟨rfl, rfl⟩

theorem DraftInvariant.addDocument {bundleId : String} {draft : CompileDraft}
    (holds : DraftInvariant libraries bundleId draft) (document : SourceDocument)
    : DraftInvariant libraries bundleId (draft.addDocument libraries bundleId document) := by
  rw [CompileDraft.addDocument]
  split
  · exact holds.addConcept document
  · exact holds.addIndex document
  · exact holds.withDirectories (holds.closed.ensureDirectoryChain _)
      (membersOf_ensureDirectoryChain _ draft.directories)

theorem draftInvariant_ofDocuments (libraries : TextLibraries) (source : SourceBundle)
    : DraftInvariant libraries source.id (.ofDocuments libraries source) := by
  rw [CompileDraft.ofDocuments]
  generalize source.documents = documents
  have start := draftInvariant_start libraries source.id
  revert start
  generalize CompileDraft.start = draft
  intro holds
  induction documents generalizing draft with
  | nil => exact holds
  | cons document rest ih => exact ih _ (holds.addDocument document)

-----------------------------------------------------------------------------------------
-- The directory tree
-----------------------------------------------------------------------------------------

/-- The later directories are the earlier ones, with the same concepts and with the added
children.
-/
structure Populated (added : String → String → Prop) (before after : Directories) : Prop where
  absent : ∀ path, before.get? path = none → after.get? path = none
  present
    : ∀ path entry,
        before.get? path = some entry
        → ∃ populated,
            after.get? path = some populated
            ∧ populated.conceptIds = entry.conceptIds
            ∧ ∀ child,
                child ∈ populated.childDirectories.keys
                  ↔ child ∈ entry.childDirectories.keys ∨ added path child

theorem Populated.refl (directories : Directories)
    : Populated (fun _ _ => False) directories directories where
  absent := fun _ missing => missing
  present := fun _ entry found => ⟨entry, found, rfl, by simp⟩

/-- One more child is entered below the directory it lies in. -/
theorem Populated.insertChild {added : String → String → Prop} {before after : Directories}
    (populated : Populated added before after) (parent child : String)
    : Populated (fun path other => added path other ∨ (path = parent ∧ other = child)) before
        (after.modify parent
          (fun entry =>
            { entry with childDirectories := entry.childDirectories.insert child () })) := by
  constructor
  · intro path missing
    rw [SortedMap.get?_modify]
    split
    · next same => rw [← same, populated.absent path missing, Option.map_none]
    · exact populated.absent path missing
  · intro path entry found
    obtain ⟨now, stored, concepts, children⟩ := populated.present path entry found
    rw [SortedMap.get?_modify]
    by_cases same : path = parent
    · subst same
      rw [if_pos rfl, stored, Option.map_some]
      refine ⟨_, rfl, concepts, ?_⟩
      intro other
      rw [SortedMap.mem_keys_insert, children]
      tauto
    · refine ⟨now, by rw [if_neg same, stored], concepts, ?_⟩
      intro other
      rw [children]
      tauto

theorem Populated.weaken {added added' : String → String → Prop} {before after : Directories}
    (populated : Populated added before after)
    (same : ∀ path child, added path child ↔ added' path child)
    : Populated added' before after where
  absent := populated.absent
  present := by
    intro path entry found
    obtain ⟨now, stored, concepts, children⟩ := populated.present path entry found
    exact ⟨now, stored, concepts, fun child => by rw [children, same]⟩

/-- Every listed path is entered as a child of its parent, by induction on the list. -/
theorem addDirectoryHierarchy_populated (directories : Directories)
    : Populated
        (fun path child =>
          child ∈ directories.keys ∧ child ≠ "" ∧ parentDirectory child = path)
        directories (addDirectoryHierarchy directories) := by
  rw [addDirectoryHierarchy]
  have general (paths : List String) (added : String → String → Prop) (after : Directories)
      (populated : Populated added directories after)
      : Populated
          (fun path child =>
            added path child ∨ (child ∈ paths ∧ child ≠ "" ∧ parentDirectory child = path))
          directories
          (paths.foldl
            (fun map path =>
              if path = "" then map
              else
                map.modify (parentDirectoryFromDirectory path)
                  (fun entry =>
                    { entry with childDirectories := entry.childDirectories.insert path () }))
            after) := by
    induction paths generalizing added after with
    | nil => exact populated.weaken (by simp)
    | cons path rest ih =>
        rw [List.foldl_cons]
        by_cases root : path = ""
        · rw [if_pos root]
          refine (ih added after populated).weaken ?_
          intro parent child
          rw [List.mem_cons]
          constructor
          · rintro (old | ⟨inside, inner, lies⟩)
            · exact Or.inl old
            · exact Or.inr ⟨Or.inr inside, inner, lies⟩
          · rintro (old | ⟨same | inside, inner, lies⟩)
            · exact Or.inl old
            · exact absurd (same.trans root) inner
            · exact Or.inr ⟨inside, inner, lies⟩
        · rw [if_neg root]
          refine (ih _ _ (populated.insertChild _ path)).weaken ?_
          intro parent child
          rw [List.mem_cons]
          constructor
          · rintro ((old | ⟨rfl, rfl⟩) | ⟨inside, inner, lies⟩)
            · exact Or.inl old
            · exact Or.inr ⟨Or.inl rfl, root, rfl⟩
            · exact Or.inr ⟨Or.inr inside, inner, lies⟩
          · rintro (old | ⟨rfl | inside, inner, lies⟩)
            · exact Or.inl (Or.inl old)
            · exact Or.inl (Or.inr ⟨lies.symm, rfl⟩)
            · exact Or.inr ⟨inside, inner, lies⟩
  exact (general directories.keys _ directories (.refl directories)).weaken (by simp)

variable (libraries) in
theorem membersOf_finalizeDirectories (title : String) (concepts : List Concept)
    (directories : Directories) (path : String)
    : membersOf (finalizeDirectories libraries title concepts directories) path
      = membersOf directories path := by
  simp only [membersOf, finalizeDirectories, SortedMap.get?_mapValues, Option.map_map]
  congr 1
  funext entry
  simp only [Function.comp_apply]
  split <;> split <;> rfl

theorem membersOf_modify {directories : Directories} {change : DirectoryDraft → DirectoryDraft}
    (keeps : ∀ entry, (change entry).childDirectories = entry.childDirectories
      ∧ (change entry).conceptIds = entry.conceptIds)
    (scope path : String)
    : membersOf (directories.modify scope change) path = membersOf directories path := by
  simp only [membersOf, SortedMap.get?_modify]
  split
  · next same =>
      subst same
      cases found : directories.get? path with
      | none => rfl
      | some entry => simp [(keeps entry).1, (keeps entry).2]
  · rfl

/-- Logs are added to directories without changing their members. -/
theorem aggregateLogs_members (diagnostics : List Diagnostic) (logs : List LogSource)
    (directories : Directories) (path : String)
    : membersOf (aggregateLogs diagnostics logs directories).2 path = membersOf directories path := by
  have chained (scopes : List String) (entry : LogEntry) (directories : Directories)
      : membersOf
          (scopes.foldl
            (fun map scope =>
              map.modify scope
                (fun directory => { directory with logEntries := directory.logEntries ++ [entry] }))
            directories)
          path
        = membersOf directories path := by
    induction scopes generalizing directories with
    | nil => rfl
    | cons scope rest ih =>
        rw [List.foldl_cons, ih]
        apply membersOf_modify
        exact fun entry => ⟨rfl, rfl⟩
  have entered (chain : List String) (entries : List LogEntry) (directories : Directories)
      : membersOf
          (entries.foldl
            (fun map entry =>
              chain.foldl
                (fun map scope =>
                  map.modify scope
                    (fun directory =>
                      { directory with logEntries := directory.logEntries ++ [entry] }))
                map)
            directories)
          path
        = membersOf directories path := by
    induction entries generalizing directories with
    | nil => rfl
    | cons entry rest ih => rw [List.foldl_cons, ih, chained]
  rw [aggregateLogs]
  induction logs generalizing diagnostics directories with
  | nil => rfl
  | cons log rest ih =>
      rw [List.foldl_cons, ih]
      exact entered _ _ _

-----------------------------------------------------------------------------------------
-- Links and backlinks
-----------------------------------------------------------------------------------------

/-- A target carries the route of the concept or directory it stands for. -/
def ResolvedTarget.Routed (bundleId : String) : ResolvedTarget → Prop
  | .concept conceptId routeId => routeId = conceptRouteId bundleId conceptId
  | .directory routeId => ∃ path, routeId = directoryRouteId bundleId path

theorem resolveTargetPath_routed {bundleId sourceDirectory rawPath : String}
    {conceptIds directoryPaths : SortedSet String} {target : ResolvedTarget}
    (resolved
      : resolveTargetPath bundleId sourceDirectory rawPath conceptIds directoryPaths = .ok target)
    : target.Routed bundleId := by
  rw [resolveTargetPath] at resolved
  cases normal : normalizeLinkPath (if startsWith rawPath "/" then "" else sourceDirectory) rawPath with
  | error problem => simp [normal, bind, Except.bind] at resolved
  | ok normalized =>
      simp only [normal, bind, Except.bind] at resolved
      repeat' split at resolved
      all_goals first
        | (obtain rfl := Except.ok.inj resolved; exact ⟨_, rfl⟩)
        | (obtain rfl := Except.ok.inj resolved; rfl)
        | exact nomatch resolved

theorem resolveLink_routed {index : LinkIndex} {conceptId sourceDirectory : String}
    {sourceFragments : SortedSet String} {parsed : ParsedLink} {target : ResolvedTarget}
    (resolved
      : resolveLink libraries index conceptId sourceDirectory sourceFragments parsed
        = .resolved target)
    : target.Routed index.bundleId := by
  rw [resolveLink] at resolved
  split at resolved
  · exact nomatch resolved
  · split at resolved
    · exact nomatch resolved
    · split at resolved
      · split at resolved <;> exact nomatch resolved
      · dsimp only at resolved
        split at resolved
        · exact nomatch resolved
        · exact nomatch resolved
        · next found same =>
            have routed : found.Routed index.bundleId := by
              split at same
              · obtain rfl := Except.ok.inj same
                rfl
              · exact resolveTargetPath_routed same
            split at resolved
            · exact LinkResolution.resolved.inj resolved ▸ routed
            · split at resolved
              · exact LinkResolution.resolved.inj resolved ▸ routed
              · exact nomatch resolved

/-- A compiled link is a backlink of exactly the concept it is resolved to. -/
theorem mem_compiledLinks_backlink {index : LinkIndex}
    {parsedLinks : SortedMap String (List ParsedLink)} {concept : Concept} {compiled : CompiledLink}
    (inside : compiled ∈ compiledLinks libraries index parsedLinks concept)
    (targetId : String) (link : Link)
    : compiled.backlink = some (targetId, link)
      ↔ compiled.link = link
        ∧ link.status = .resolved
        ∧ link.normalizedTargetId = some (conceptRouteId index.bundleId targetId) := by
  simp only [compiledLinks, List.mem_map] at inside
  obtain ⟨parsed, _, rfl⟩ := inside
  cases resolution : resolveLink libraries index concept.id (parentDirectory concept.sourcePath)
      ((index.conceptFragments.get? concept.id).getD .empty) parsed with
  | resolved target =>
      have routed := resolveLink_routed resolution
      cases target with
      | concept conceptId routeId =>
          obtain rfl : routeId = conceptRouteId index.bundleId conceptId := routed
          simp only [compileLink, ResolvedTarget.routeId, Option.some.injEq, Prod.mk.injEq]
          constructor
          · rintro ⟨rfl, rfl⟩
            exact ⟨rfl, rfl, rfl⟩
          · rintro ⟨rfl, _, target⟩
            exact ⟨conceptRouteId_inj.mp (Option.some.inj target), rfl⟩
      | directory routeId =>
          obtain ⟨path, rfl⟩ := routed
          simp only [compileLink, ResolvedTarget.routeId, reduceCtorEq, false_iff, not_and]
          rintro rfl _ target
          exact directoryRouteId_ne _ _ _ (Option.some.inj target)
  | broken target message =>
      simp only [compileLink, reduceCtorEq, false_iff, not_and]
      rintro rfl status
      exact nomatch status
  | rejected message =>
      simp only [compileLink, reduceCtorEq, false_iff, not_and]
      rintro rfl status
      exact nomatch status
  | external =>
      simp only [compileLink, reduceCtorEq, false_iff, not_and]
      rintro rfl status
      exact nomatch status

/-- The diagnostic code of a link that leads nowhere. -/
def LinkStatus.diagnosticCode : LinkStatus → Option String
  | .broken => some "broken_link"
  | .rejected => some "rejected_link"
  | .resolved | .external => none

/-- A link is reported under its status, at the line it stands on. -/
theorem mem_compiledLinks_diagnostic {index : LinkIndex}
    {parsedLinks : SortedMap String (List ParsedLink)} {concept : Concept} {compiled : CompiledLink}
    (inside : compiled ∈ compiledLinks libraries index parsedLinks concept) {code : String}
    (reported : compiled.link.status.diagnosticCode = some code)
    : ∃ parsed ∈ (parsedLinks.get? concept.id).getD [],
        parsed.rawHref = compiled.link.rawHref
        ∧ ∃ message,
            compiled.diagnostic = some (.warning code concept.sourcePath parsed.line message) := by
  simp only [compiledLinks, List.mem_map] at inside
  obtain ⟨parsed, member, rfl⟩ := inside
  refine ⟨parsed, member, ?_⟩
  cases resolution : resolveLink libraries index concept.id (parentDirectory concept.sourcePath)
      ((index.conceptFragments.get? concept.id).getD .empty) parsed with
  | resolved target => simp [resolution, compileLink, LinkStatus.diagnosticCode] at reported
  | external => simp [resolution, compileLink, LinkStatus.diagnosticCode] at reported
  | broken target message =>
      simp only [resolution, compileLink, LinkStatus.diagnosticCode, Option.some.injEq] at reported
      subst reported
      exact ⟨rfl, message, rfl⟩
  | rejected message =>
      simp only [resolution, compileLink, LinkStatus.diagnosticCode, Option.some.injEq] at reported
      subst reported
      exact ⟨rfl, message, rfl⟩

/-- The links waiting for a concept. -/
def waitingFor (backlinks : SortedMap String (List Link)) (conceptId : String) : List Link :=
  (backlinks.get? conceptId).getD []

/-- What recording a list of compiled links adds, by induction on the list. -/
theorem foldl_record (compiled : List CompiledLink) (pass : LinkPass) (outbound : List Link)
    : (compiled.foldl LinkPass.record (pass, outbound)).2
          = outbound ++ compiled.map CompiledLink.link
      ∧ (compiled.foldl LinkPass.record (pass, outbound)).1.concepts = pass.concepts
      ∧ (compiled.foldl LinkPass.record (pass, outbound)).1.diagnostics
          = pass.diagnostics ++ compiled.filterMap CompiledLink.diagnostic
      ∧ ∀ targetId link,
          link ∈ waitingFor (compiled.foldl LinkPass.record (pass, outbound)).1.backlinks targetId
            ↔ link ∈ waitingFor pass.backlinks targetId
              ∨ ∃ item ∈ compiled, item.backlink = some (targetId, link) := by
  induction compiled generalizing pass outbound with
  | nil => simp
  | cons item rest ih =>
      obtain ⟨links, concepts, diagnostics, backlinks⟩ :=
        ih (LinkPass.record (pass, outbound) item).1 (outbound ++ [item.link])
      refine ⟨?_, ?_, ?_, ?_⟩
      · rw [List.foldl_cons]
        exact links.trans (by simp)
      · rw [List.foldl_cons]
        exact concepts
      · rw [List.foldl_cons]
        refine diagnostics.trans ?_
        cases reported : item.diagnostic <;> simp [LinkPass.record, reported]
      · intro targetId link
        rw [List.foldl_cons]
        refine (backlinks targetId link).trans ?_
        have first
            : link ∈ waitingFor (LinkPass.record (pass, outbound) item).1.backlinks targetId
              ↔ link ∈ waitingFor pass.backlinks targetId
                ∨ item.backlink = some (targetId, link) := by
          cases aimed : item.backlink with
          | none => simp [LinkPass.record, aimed]
          | some pair =>
              obtain ⟨target, back⟩ := pair
              simp only [LinkPass.record, aimed, waitingFor, SortedMap.get?_update]
              by_cases same : targetId = target
              · subst same
                simp [eq_comm]
              · simp [same, Ne.symm same]
        rw [first]
        simp only [List.mem_cons, exists_eq_or_imp]
        tauto

/-- A concept with its outbound links. -/
def withOutbound (libraries : TextLibraries) (index : LinkIndex)
    (parsedLinks : SortedMap String (List ParsedLink)) (concept : Concept)
    : Concept :=
  {
    concept with
    outboundLinks :=
      sortDedup
        (concept.outboundLinks
          ++ (compiledLinks libraries index parsedLinks concept).map CompiledLink.link)
  }

variable (libraries) in
/-- What the first pass over the concepts makes, by induction on the concepts. -/
theorem foldl_addConcept (index : LinkIndex) (parsedLinks : SortedMap String (List ParsedLink))
    (concepts : List Concept) (pass : LinkPass)
    : let done := concepts.foldl (LinkPass.addConcept libraries index parsedLinks) pass
      done.concepts = pass.concepts ++ concepts.map (withOutbound libraries index parsedLinks)
      ∧ (∀ diagnostic,
          diagnostic ∈ pass.diagnostics
            ∨ (∃ concept ∈ concepts,
                ∃ compiled ∈ compiledLinks libraries index parsedLinks concept,
                  compiled.diagnostic = some diagnostic)
          → diagnostic ∈ done.diagnostics)
      ∧ ∀ targetId link,
          link ∈ waitingFor done.backlinks targetId
            ↔ link ∈ waitingFor pass.backlinks targetId
              ∨ ∃ concept ∈ concepts,
                  ∃ compiled ∈ compiledLinks libraries index parsedLinks concept,
                    compiled.backlink = some (targetId, link) := by
  induction concepts generalizing pass with
  | nil => simp
  | cons concept rest ih =>
      obtain ⟨links, kept, diagnostics, backlinks⟩ :=
        foldl_record (compiledLinks libraries index parsedLinks concept) pass concept.outboundLinks
      obtain ⟨made, reported, waiting⟩ :=
        ih (LinkPass.addConcept libraries index parsedLinks pass concept)
      have one
          : (LinkPass.addConcept libraries index parsedLinks pass concept).concepts
            = pass.concepts ++ [withOutbound libraries index parsedLinks concept] := by
        simp only [LinkPass.addConcept, kept, links, withOutbound]
      simp only [List.foldl_cons]
      refine ⟨?_, ?_, ?_⟩
      · rw [made, one]
        simp
      · intro diagnostic known
        apply reported
        have first : (LinkPass.addConcept libraries index parsedLinks pass concept).diagnostics
            = pass.diagnostics
              ++ (compiledLinks libraries index parsedLinks concept).filterMap
                CompiledLink.diagnostic := by
          simp only [LinkPass.addConcept, diagnostics]
        rw [first, List.mem_append, List.mem_filterMap]
        simpa only [List.mem_cons, exists_eq_or_imp, or_assoc] using known
      · intro targetId link
        rw [waiting]
        have first
            : (LinkPass.addConcept libraries index parsedLinks pass concept).backlinks
              = ((compiledLinks libraries index parsedLinks concept).foldl LinkPass.record
                  (pass, concept.outboundLinks)).1.backlinks := rfl
        rw [first, backlinks]
        simp only [List.mem_cons, exists_eq_or_imp, or_assoc]

/-- Taking backlinks out of the map leaves those of the other concepts. -/
theorem attachBacklinks_eq (backlinks : SortedMap String (List Link)) {concepts : List Concept}
    (distinct : (concepts.map Concept.id).Nodup)
    : attachBacklinks backlinks concepts
      = concepts.map
          (fun concept => { concept with backlinks := sortDedup (waitingFor backlinks concept.id) }) := by
  induction concepts generalizing backlinks with
  | nil => rfl
  | cons concept rest ih =>
      rw [List.map_cons, List.nodup_cons] at distinct
      rw [attachBacklinks, ih _ distinct.2, List.map_cons]
      congr 1
      apply List.map_congr_left
      intro other inside
      have different : other.id ≠ concept.id := by
        intro same
        exact distinct.1 (same ▸ List.mem_map_of_mem inside)
      simp only [waitingFor, SortedMap.get?_remove, if_neg different]

-----------------------------------------------------------------------------------------
-- The consistent graph
-----------------------------------------------------------------------------------------

/-- A compiled bundle's identities are distinct, its directories form a tree that houses every
concept in one place, its backlinks are its resolved links read from the other end, and every
internal link without a target is reported.
-/
structure ConsistentGraph (libraries : TextLibraries) (bundle : Bundle) : Prop where
  conceptsDistinct : (bundle.concepts.map Concept.id).Nodup
  directoriesDistinct : (bundle.directories.map Directory.path).Nodup
  backlinksOnce : ∀ concept ∈ bundle.concepts, concept.backlinks.Nodup
  backlinks
    : ∀ concept ∈ bundle.concepts,
        ∀ link,
          link ∈ concept.backlinks
            ↔ ∃ source ∈ bundle.concepts,
                link ∈ source.outboundLinks
                ∧ link.status = .resolved
                ∧ link.normalizedTargetId = some (conceptRouteId bundle.id concept.id)
  root : ∃ directory ∈ bundle.directories, directory.path = ""
  parents
    : ∀ directory ∈ bundle.directories,
        directory.path ≠ ""
        → ∃ parent ∈ bundle.directories, parent.path = parentDirectory directory.path
  childrenOnce : ∀ directory ∈ bundle.directories, directory.childDirectories.Nodup
  children
    : ∀ directory ∈ bundle.directories,
        ∀ path,
          path ∈ directory.childDirectories
            ↔ path ≠ ""
              ∧ parentDirectory path = directory.path
              ∧ ∃ child ∈ bundle.directories, child.path = path
  housed
    : ∀ concept ∈ bundle.concepts,
        ∃ directory ∈ bundle.directories, directory.path = parentDirectory concept.sourcePath
  listed
    : ∀ concept ∈ bundle.concepts,
        ∀ directory ∈ bundle.directories,
          concept.id ∈ directory.conceptIds
            ↔ directory.path = parentDirectory concept.sourcePath
  listedOnce : ∀ directory ∈ bundle.directories, directory.conceptIds.Nodup
  reported
    : ∀ concept ∈ bundle.concepts,
        ∀ link ∈ concept.outboundLinks,
          ∀ code,
            link.status.diagnosticCode = some code
            → ∃ parsed ∈ (parseMarkdown libraries concept.bodyMarkdown).links,
                parsed.rawHref = link.rawHref
                ∧ ∃ message,
                    .warning code concept.sourcePath parsed.line message ∈ bundle.diagnostics

/-- The directories of a compiled bundle, as the passes over the documents leave them. -/
structure TreeFacts (draft : CompileDraft) (directories : Directories) : Prop where
  closed : Closed directories
  children
    : ∀ path entry,
        directories.get? path = some entry
        → ∀ child,
            child ∈ entry.childDirectories.keys
              ↔ child ≠ "" ∧ parentDirectory child = path ∧ child ∈ directories.keys
  listed
    : ∀ concept ∈ draft.concepts,
        ∀ path entry,
          directories.get? path = some entry
          → (concept.id ∈ entry.conceptIds.keys ↔ path = parentDirectory concept.sourcePath)
  housed : ∀ concept ∈ draft.concepts, parentDirectory concept.sourcePath ∈ directories.keys

variable (libraries) in
/-- The hierarchy has the directories of the draft. -/
theorem mem_keys_hierarchy (draft : CompileDraft) (title : String) {path : String}
    : path ∈ (draft.hierarchy libraries title).keys ↔ path ∈ draft.directories.keys := by
  have populated := addDirectoryHierarchy_populated draft.directories
  rw [mem_keys_iff_membersOf, CompileDraft.hierarchy, membersOf_finalizeDirectories,
    ← mem_keys_iff_membersOf, SortedMap.mem_keys_iff, SortedMap.mem_keys_iff]
  constructor
  · rintro ⟨entry, found⟩
    cases was : draft.directories.get? path with
    | none => exact nomatch (populated.absent path was).symm.trans found
    | some before => exact ⟨before, rfl⟩
  · rintro ⟨before, was⟩
    obtain ⟨entry, found, _⟩ := populated.present path before was
    exact ⟨entry, found⟩

theorem TreeFacts.of_draft {bundleId : String} {draft : CompileDraft} (title : String)
    (holds : DraftInvariant libraries bundleId draft)
    : TreeFacts draft (draft.hierarchy libraries title) := by
  have populated := addDirectoryHierarchy_populated draft.directories
  have members := membersOf_finalizeDirectories libraries title draft.concepts
    (addDirectoryHierarchy draft.directories)
  -- every directory of the tree is one of the draft, with the same concepts
  have origin {path : String} {entry : DirectoryDraft}
      (found : (draft.hierarchy libraries title).get? path = some entry)
      : ∃ before,
          draft.directories.get? path = some before
          ∧ entry.conceptIds = before.conceptIds
          ∧ ∀ child,
              child ∈ entry.childDirectories.keys
                ↔ child ∈ draft.directories.keys ∧ child ≠ "" ∧ parentDirectory child = path := by
    have same := members path
    rw [membersOf, membersOf, ← CompileDraft.hierarchy, found, Option.map_some, eq_comm,
      Option.map_eq_some_iff] at same
    obtain ⟨middle, stored, pair⟩ := same
    obtain ⟨children, concepts⟩ := Prod.mk.inj pair
    cases was : draft.directories.get? path with
    | none => exact nomatch (populated.absent path was).symm.trans stored
    | some before =>
        obtain ⟨entered, stored', concepts', children'⟩ := populated.present path before was
        obtain rfl := Option.some.inj (stored.symm.trans stored')
        refine ⟨before, rfl, concepts.symm.trans concepts', ?_⟩
        intro child
        rw [← children, children', holds.childless path before was]
        simp
  have keys (path : String)
      : path ∈ (draft.hierarchy libraries title).keys ↔ path ∈ draft.directories.keys :=
    mem_keys_hierarchy libraries draft title
  refine ⟨⟨?_, ?_⟩, ?_, ?_, ?_⟩
  · exact (keys _).mpr holds.closed.root
  · intro path inside inner
    exact (keys _).mpr (holds.closed.parent path ((keys _).mp inside) inner)
  · intro path entry found child
    obtain ⟨before, _, _, children⟩ := origin found
    rw [children, keys]
    tauto
  · intro concept inside path entry found
    obtain ⟨before, was, concepts, _⟩ := origin found
    rw [concepts]
    have lies : parentDirectory concept.id = parentDirectory concept.sourcePath := by
      rw [holds.named concept inside, parentDirectory_conceptId]
    constructor
    · intro listed
      rw [← holds.housed path before was _ listed, lies]
    · rintro rfl
      obtain ⟨entry', found', listed⟩ := holds.listed concept inside
      obtain rfl := Option.some.inj (was.symm.trans found')
      exact listed
  · intro concept inside
    obtain ⟨entry, found, _⟩ := holds.listed concept inside
    exact (keys _).mpr (SortedMap.mem_keys_iff.mpr ⟨entry, found⟩)

/-- Directories with the same members have the same tree. -/
theorem TreeFacts.congr {draft : CompileDraft} {first second : Directories}
    (facts : TreeFacts draft first)
    (same : ∀ path, membersOf second path = membersOf first path)
    : TreeFacts draft second := by
  have keys (path : String) : path ∈ second.keys ↔ path ∈ first.keys := by
    rw [mem_keys_iff_membersOf, mem_keys_iff_membersOf, same]
  have origin {path : String} {entry : DirectoryDraft} (found : second.get? path = some entry)
      : ∃ before,
          first.get? path = some before
          ∧ before.childDirectories = entry.childDirectories
          ∧ before.conceptIds = entry.conceptIds := by
    have here := same path
    rw [membersOf, membersOf, found, Option.map_some, eq_comm, Option.map_eq_some_iff] at here
    obtain ⟨before, was, pair⟩ := here
    exact ⟨before, was, (Prod.mk.inj pair).1, (Prod.mk.inj pair).2⟩
  refine ⟨facts.closed.congr same, ?_, ?_, ?_⟩
  · intro path entry found child
    obtain ⟨before, was, children, _⟩ := origin found
    rw [← children, facts.children path before was child, keys]
  · intro concept inside path entry found
    obtain ⟨before, was, _, concepts⟩ := origin found
    rw [← concepts]
    exact facts.listed concept inside path before was
  · intro concept inside
    exact (keys _).mpr (facts.housed concept inside)

/-- A concept with its links in both directions. -/
def linkedConcept (libraries : TextLibraries) (index : LinkIndex)
    (parsedLinks : SortedMap String (List ParsedLink)) (waiting : SortedMap String (List Link))
    (concept : Concept)
    : Concept :=
  {
    withOutbound libraries index parsedLinks concept with
    backlinks := sortDedup (waitingFor waiting concept.id)
  }

/-- The index that the links of a draft are resolved with. -/
def CompileDraft.linkIndex (bundleId : String) (draft : CompileDraft) (directories : Directories)
    (directoryFragments : SortedMap String (SortedSet String))
    : LinkIndex :=
  {
    bundleId,
    conceptIds := draft.concepts.foldl (fun set concept => set.insert concept.id ()) .empty,
    directoryPaths := directories.mapValues (fun _ _ => ()),
    conceptFragments := draft.conceptFragments,
    directoryFragments
  }

/-- The links of a compiled bundle, as the two passes over the concepts leave them. -/
theorem resolveBundleLinks_spec {bundleId : String} {draft : CompileDraft}
    (holds : DraftInvariant libraries bundleId draft) (diagnostics : List Diagnostic)
    (directories : Directories)
    (directoryFragments : SortedMap String (SortedSet String))
    : let index := draft.linkIndex bundleId directories directoryFragments
      ∃ waiting : SortedMap String (List Link),
        (resolveBundleLinks libraries bundleId draft.concepts diagnostics directories
            draft.conceptLinks draft.conceptFragments directoryFragments).1
          = draft.concepts.map
              (linkedConcept libraries index draft.conceptLinks waiting)
        ∧ (∀ concept ∈ draft.concepts,
            ∀ compiled ∈ compiledLinks libraries index draft.conceptLinks concept,
              ∀ diagnostic,
                compiled.diagnostic = some diagnostic
                → diagnostic ∈ (resolveBundleLinks libraries bundleId draft.concepts diagnostics
                    directories draft.conceptLinks draft.conceptFragments
                    directoryFragments).2)
        ∧ ∀ targetId link,
            link ∈ waitingFor waiting targetId
              ↔ ∃ concept ∈ draft.concepts,
                  ∃ compiled ∈ compiledLinks libraries index draft.conceptLinks concept,
                    compiled.backlink = some (targetId, link) := by
  intro index
  obtain ⟨made, reported, waiting⟩ :=
    foldl_addConcept libraries index draft.conceptLinks draft.concepts { diagnostics }
  refine ⟨(draft.concepts.foldl (LinkPass.addConcept libraries index draft.conceptLinks)
    { diagnostics }).backlinks, ?_, ?_, ?_⟩
  · have unchanged
        : (draft.concepts.map (withOutbound libraries index draft.conceptLinks)).map Concept.id
          = draft.concepts.map Concept.id := by
      rw [List.map_map]
      rfl
    calc (resolveBundleLinks libraries bundleId draft.concepts diagnostics directories
            draft.conceptLinks draft.conceptFragments directoryFragments).1
        = attachBacklinks
            (draft.concepts.foldl (LinkPass.addConcept libraries index draft.conceptLinks)
              { diagnostics }).backlinks
            (draft.concepts.map (withOutbound libraries index draft.conceptLinks)) :=
          congrArg (attachBacklinks _) made
      _ = _ := by
          rw [attachBacklinks_eq _ (unchanged ▸ holds.distinct), List.map_map]
          rfl
  · intro concept inside compiled member diagnostic found
    exact reported diagnostic (Or.inr ⟨concept, inside, compiled, member, found⟩)
  · intro targetId link
    rw [waiting]
    simp [waitingFor]

section Linked

variable {index : LinkIndex} {parsedLinks : SortedMap String (List ParsedLink)}
  {waiting : SortedMap String (List Link)} {concept : Concept}

theorem mem_backlinks_linked {link : Link}
    : link ∈ (linkedConcept libraries index parsedLinks waiting concept).normalize.backlinks
      ↔ link ∈ waitingFor waiting concept.id := by
  simp only [Concept.normalize, linkedConcept, withOutbound, mem_sortDedup]

theorem mem_outboundLinks_linked {link : Link} (unlinked : concept.outboundLinks = [])
    : link ∈ (linkedConcept libraries index parsedLinks waiting concept).normalize.outboundLinks
      ↔ ∃ compiled ∈ compiledLinks libraries index parsedLinks concept, compiled.link = link := by
  simp only [Concept.normalize, linkedConcept, withOutbound, mem_sortDedup, unlinked,
    List.nil_append, List.mem_map]

end Linked

/-- Every compiled bundle is a consistent graph, whatever its documents are.
Witness: the passes over the documents keep the draft's invariant, those over the directories
the members of each, and those over the concepts record every resolved link at both its ends.
-/
theorem compileBundle_consistent (libraries : TextLibraries) (source : SourceBundle)
    : ConsistentGraph libraries (compileBundle libraries source) := by
  have holds := draftInvariant_ofDocuments libraries source
  rw [compileBundle]
  generalize CompileDraft.ofDocuments libraries source = draft at holds ⊢
  obtain ⟨logged, tree, aggregated⟩
      : ∃ logged tree,
          aggregateLogs draft.diagnostics draft.logs (draft.hierarchy libraries source.title)
            = (logged, tree) := ⟨_, _, rfl⟩
  have facts : TreeFacts draft tree := by
    refine (TreeFacts.of_draft source.title holds).congr ?_
    intro path
    have members := aggregateLogs_members draft.diagnostics draft.logs
      (draft.hierarchy libraries source.title) path
    rwa [aggregated] at members
  generalize buildDirectoryFragments libraries (draft.hierarchy libraries source.title) = fragments
  obtain ⟨waiting, concepts, diagnostics, backlinks⟩ :=
    resolveBundleLinks_spec holds logged tree fragments
  have sameBundle : (draft.linkIndex source.id tree fragments).bundleId = source.id := rfl
  generalize draft.linkIndex source.id tree fragments = index
    at concepts diagnostics backlinks sameBundle
  obtain ⟨linked, reports, resolved⟩
      : ∃ linked reports,
          resolveBundleLinks libraries source.id draft.concepts logged tree draft.conceptLinks
            draft.conceptFragments fragments = (linked, reports) := ⟨_, _, rfl⟩
  rw [resolved] at concepts diagnostics
  simp only at concepts diagnostics
  simp only [aggregated, resolved]
  have distinctPaths
      : (tree.entries.map (fun entry => entry.2.intoDirectory entry.1)).map Directory.path
        = tree.keys := by
    rw [List.map_map]
    rfl
  generalize compiled
      : ({
          id := source.id, rootPath := source.rootPath, okfVersion := source.okfVersion,
          title := source.title, sourceRevision := source.sourceRevision,
          directories := tree.entries.map (fun entry => entry.2.intoDirectory entry.1),
          concepts := linked, diagnostics := reports
        } : Bundle) = bundle
  have bundleId : bundle.normalize.id = index.bundleId := by
    rw [← compiled, sameBundle]
    rfl
  have memConcept {concept : Concept}
      : concept ∈ bundle.normalize.concepts
        ↔ ∃ origin ∈ draft.concepts,
            (linkedConcept libraries index draft.conceptLinks waiting origin).normalize
              = concept := by
    rw [Bundle.mem_concepts_normalize, ← compiled]
    simp only [concepts, List.mem_map, exists_exists_and_eq_and]
  have memDirectory {directory : Directory}
      : directory ∈ bundle.normalize.directories
        ↔ ∃ path entry,
            tree.get? path = some entry ∧ (entry.intoDirectory path).normalize = directory := by
    rw [Bundle.mem_directories_normalize, ← compiled]
    simp only [List.mem_map, Prod.exists, SortedMap.get?_eq_some_iff]
    constructor
    · rintro ⟨_, ⟨path, entry, inside, rfl⟩, rfl⟩
      exact ⟨path, entry, inside, rfl⟩
    · rintro ⟨path, entry, inside, rfl⟩
      exact ⟨_, ⟨path, entry, inside, rfl⟩, rfl⟩
  have atPath {path : String}
      : (∃ directory ∈ bundle.normalize.directories, directory.path = path)
        ↔ path ∈ tree.keys := by
    rw [SortedMap.mem_keys_iff]
    constructor
    · rintro ⟨directory, inside, rfl⟩
      obtain ⟨path, entry, found, rfl⟩ := memDirectory.mp inside
      exact ⟨entry, found⟩
    · rintro ⟨entry, found⟩
      exact ⟨_, memDirectory.mpr ⟨path, entry, found, rfl⟩, rfl⟩
  exact {
    conceptsDistinct := by
      refine (bundle.normalize_conceptIds.nodup_iff).mpr ?_
      rw [← compiled]
      simp only [concepts, List.map_map]
      exact holds.distinct
    directoriesDistinct := by
      refine (bundle.normalize_directoryPaths.nodup_iff).mpr ?_
      rw [← compiled]
      simp only [distinctPaths]
      exact tree.keys_nodup
    backlinksOnce := by
      intro concept inside
      obtain ⟨origin, _, rfl⟩ := memConcept.mp inside
      exact sortDedup_nodup _
    backlinks := by
      intro concept inside link
      obtain ⟨origin, _, rfl⟩ := memConcept.mp inside
      rw [mem_backlinks_linked, backlinks, bundleId]
      constructor
      · rintro ⟨other, member, item, among, aimed⟩
        obtain ⟨rfl, status, target⟩ := (mem_compiledLinks_backlink among _ _).mp aimed
        refine ⟨_, memConcept.mpr ⟨other, member, rfl⟩, ?_, status, target⟩
        exact (mem_outboundLinks_linked (holds.unlinked other member)).mpr ⟨item, among, rfl⟩
      · rintro ⟨sourceConcept, member, outbound, status, target⟩
        obtain ⟨other, member', rfl⟩ := memConcept.mp member
        obtain ⟨item, among, rfl⟩ :=
          (mem_outboundLinks_linked (holds.unlinked other member')).mp outbound
        exact ⟨other, member', item, among,
          (mem_compiledLinks_backlink among _ _).mpr ⟨rfl, status, target⟩⟩
    root := atPath.mpr facts.closed.root
    parents := by
      intro directory inside inner
      exact atPath.mpr
        (facts.closed.parent _ (atPath.mp ⟨directory, inside, rfl⟩) inner)
    childrenOnce := by
      intro directory inside
      obtain ⟨path, entry, _, rfl⟩ := memDirectory.mp inside
      exact sortDedup_nodup _
    children := by
      intro directory inside path
      obtain ⟨parent, entry, found, rfl⟩ := memDirectory.mp inside
      rw [atPath]
      exact mem_sortDedup.trans (facts.children parent entry found path)
    housed := by
      intro concept inside
      obtain ⟨origin, member, rfl⟩ := memConcept.mp inside
      exact atPath.mpr (facts.housed origin member)
    listed := by
      intro concept inside directory member
      obtain ⟨origin, member', rfl⟩ := memConcept.mp inside
      obtain ⟨path, entry, found, rfl⟩ := memDirectory.mp member
      exact mem_sortDedup.trans (facts.listed origin member' path entry found)
    listedOnce := by
      intro directory inside
      obtain ⟨path, entry, _, rfl⟩ := memDirectory.mp inside
      exact sortDedup_nodup _
    reported := by
      intro concept inside link outbound code known
      obtain ⟨origin, member, rfl⟩ := memConcept.mp inside
      obtain ⟨item, among, rfl⟩ :=
        (mem_outboundLinks_linked (holds.unlinked origin member)).mp outbound
      obtain ⟨parsed, occurs, href, message, reported⟩ :=
        mem_compiledLinks_diagnostic among known
      rw [holds.parsed origin member, Option.getD_some] at occurs
      refine ⟨parsed, occurs, href, message, ?_⟩
      rw [Bundle.mem_diagnostics_normalize, ← compiled]
      exact diagnostics origin member item among _ reported
  }

end CodebaseGraph.Wiki
