import CodebaseGraph.Wiki.Documents
import CodebaseGraph.Wiki.LinkTargets
import CodebaseGraph.Wiki.LogItems
import CodebaseGraph.Wiki.Render.SiteBuild
import CodebaseGraph.Wiki.SampleLibrary

/-! Sites of authored bundles: what a document may name for its bundle to be rendered. -/

namespace CodebaseGraph.Wiki

open CodebaseGraph.Collections CodebaseGraph.Sorting CodebaseGraph.Transition

-- Loaded bundles

/-- A bundle as it is loaded from its directory (`crates/k-wiki/src/bundle/mod.rs`). -/
structure LoadedBundle where
  id : String
  title : Option String
  okfVersion : Option String
  entries : List SourceDocument

/-- The source that the service compiles (`crates/k-wiki/src/service.rs`). -/
def sourceBundle (bundle : LoadedBundle) : SourceBundle where
  id := bundle.id
  rootPath := bundle.id
  okfVersion := bundle.okfVersion.getD "0.1"
  title := bundle.title.getD "Knowledge Bundle"
  documents := bundle.entries

namespace Render

def WikiProjection.normalize (projection : WikiProjection) : WikiProjection :=
  {
    projection with
    bundles := (sortBy Bundle.id projection.bundles).map Bundle.normalize
  }

def wikiSchemaVersion : Nat := 1

def compileProjection (libraries : TextLibraries) (generatedAt : String)
    (sourceRevision : Option String) (bundles : List SourceBundle)
    : WikiProjection :=
  WikiProjection.normalize
    {
      schemaVersion := wikiSchemaVersion,
      generatedAt,
      sourceRevision,
      bundles := bundles.map (compileBundle libraries)
    }

end Render

-----------------------------------------------------------------------------------------
-- The characters of names
-----------------------------------------------------------------------------------------

/-- The characters of the paths of plain names. -/
def isPathCharacter (character : Char) : Bool :=
  Render.isSegmentCharacter character || character = '/'

def PlainPath (path : String) : Prop :=
  ∀ character ∈ path.toList, isPathCharacter character = true

theorem PlainPath.of_sublist {path part : String} (plain : PlainPath path)
    (within : ∀ character ∈ part.toList, character ∈ path.toList)
    : PlainPath part :=
  fun character inside => plain character (within character inside)

theorem mem_of_rsplitOnce {separator : Char} {text before after : String}
    (split : rsplitOnce separator text = some (before, after))
    : ∀ character ∈ before.toList, character ∈ text.toList := by
  rw [rsplitOnce] at split
  cases found : text.toList.reverse.dropWhile (· ≠ separator) with
  | nil =>
      simp only [found] at split
      cases split
  | cons first rest =>
      simp only [found, Option.some.injEq, Prod.mk.injEq] at split
      obtain ⟨rfl, -⟩ := split
      intro character inside
      rw [String.toList_ofList, List.mem_reverse] at inside
      have member : character ∈ text.toList.reverse.dropWhile (· ≠ separator) := by
        rw [found]
        exact List.mem_cons_of_mem _ inside
      exact List.mem_reverse.mp ((List.dropWhile_sublist _).subset member)

theorem PlainPath.parent {path : String} (plain : PlainPath path)
    : PlainPath (parentDirectory path) := by
  rw [parentDirectory]
  cases split : rsplitOnce '/' path with
  | none =>
      intro character inside
      exact absurd inside List.not_mem_nil
  | some parts => exact plain.of_sublist (mem_of_rsplitOnce split)

theorem PlainPath.ancestor {path scope : String} (plain : PlainPath path)
    (above : scope ∈ ancestorDirectories path)
    : PlainPath scope := by
  rw [ancestorDirectories, List.mem_reverse] at above
  generalize path.length = fuel at above
  induction fuel generalizing path with
  | zero => exact List.mem_singleton.mp above ▸ plain
  | succ fuel ih =>
      rw [enclosingScopes] at above
      split at above
      · exact List.mem_singleton.mp above ▸ plain
      · rcases List.mem_cons.mp above with rfl | above
        · exact plain
        · exact ih plain.parent above

theorem infix_of_mem_splitOn {separator : Char} {text part : String}
    (listed : part ∈ splitOn separator text)
    : part.toList <:+: text.toList := by
  have whole := congrArg String.toList (joinWith_splitOn separator text)
  rw [toList_joinWith] at whole
  exact whole ▸ infix_intercalate (List.mem_map_of_mem listed)

/-- The parts do not have the separator in them, by induction on the text. -/
theorem separator_notMem_splitOn {separator : Char} {text part : List Char}
    (listed : part ∈ text.splitOn separator)
    : separator ∉ part := by
  induction text generalizing part with
  | nil => simp_all [List.splitOn_nil]
  | cons character rest ih =>
      rw [List.splitOn_cons_eq_if_modifyHead] at listed
      split at listed
      · rcases List.mem_cons.mp listed with rfl | listed
        · exact List.not_mem_nil
        · exact ih listed
      · next other =>
          cases parts : rest.splitOn separator with
          | nil => exact absurd parts (List.splitOn_ne_nil _ _)
          | cons head tail =>
              rw [parts] at ih listed
              rcases List.mem_cons.mp listed with rfl | listed
              · have different : separator ≠ character := by
                  rintro rfl
                  simp at other
                simpa [different] using ih List.mem_cons_self
              · exact ih (List.mem_cons_of_mem _ listed)

theorem mem_joinWith {separator character : Char} {parts : List String}
    (inside : character ∈ (joinWith separator parts).toList)
    : character = separator ∨ ∃ part ∈ parts, character ∈ part.toList := by
  induction parts with
  | nil => nomatch inside
  | cons part rest ih =>
      by_cases more : rest = []
      · rw [more, joinWith_singleton] at inside
        exact Or.inr ⟨part, List.mem_cons_self, inside⟩
      · rw [joinWith_cons more, String.toList_append, String.toList_append,
          String.toList_singleton] at inside
        rcases List.mem_append.mp inside with inside | inside
        · rcases List.mem_append.mp inside with inside | inside
          · exact Or.inr ⟨part, List.mem_cons_self, inside⟩
          · exact Or.inl (List.mem_singleton.mp inside)
        · rcases ih inside with same | ⟨other, listed, within⟩
          · exact Or.inl same
          · exact Or.inr ⟨other, List.mem_cons_of_mem _ listed, within⟩

theorem PlainPath.normalized {path : String} (plain : PlainPath path)
    : PlainPath (normalizeSourcePath path) := by
  intro character inside
  rw [normalizeSourcePath] at inside
  rcases mem_joinWith inside with rfl | ⟨part, listed, within⟩
  · decide
  · have member := (infix_of_mem_splitOn (List.mem_filter.mp listed).1).subset within
    rw [toList_replaceChar, List.mem_map] at member
    obtain ⟨original, known, rfl⟩ := member
    split
    · decide
    · exact plain original known

theorem PlainPath.conceptId {path : String} (plain : PlainPath path)
    : PlainPath (conceptIdFromSourcePath path) := by
  rw [conceptIdFromSourcePath]
  cases stripped : stripSuffix path ".md" with
  | none => exact plain
  | some stem =>
      refine plain.of_sublist (fun character inside => ?_)
      rw [append_of_stripSuffix stripped, String.toList_append]
      exact List.mem_append_left _ inside

theorem PlainPath.reserved {path : String} (plain : PlainPath path)
    : PlainPath (reservedDocumentDirectory path) := by
  rw [reservedDocumentDirectory]
  cases split : rsplitOnce '/' (normalizeSourcePath path) with
  | none =>
      intro character inside
      exact absurd inside List.not_mem_nil
  | some parts => exact plain.normalized.of_sublist (mem_of_rsplitOnce split)

-- Compiled names

/-- The concepts and directories of the draft have plain paths. -/
structure PlainDraft (draft : CompileDraft) : Prop where
  concepts : ∀ concept ∈ draft.concepts, PlainPath concept.id
  directories : ∀ path ∈ draft.directories.keys, PlainPath path

theorem plain_ensureDirectoryChain {directories : Directories}
    (plain : ∀ path ∈ directories.keys, PlainPath path) {chain : String}
    (within : PlainPath chain)
    : ∀ path ∈ (ensureDirectoryChain chain directories).keys, PlainPath path := by
  intro path inside
  rcases mem_keys_ensureDirectoryChain.mp inside with above | known
  · exact within.ancestor above
  · exact plain path known

theorem plain_update {directories : Directories}
    (plain : ∀ path ∈ directories.keys, PlainPath path) {scope : String} (within : PlainPath scope)
    (change : DirectoryDraft → DirectoryDraft)
    : ∀ path ∈ (directories.update scope {} change).keys, PlainPath path := by
  intro path inside
  rcases SortedMap.mem_keys_update.mp inside with rfl | known
  · exact within
  · exact plain path known

section Compiled

variable {libraries : TextLibraries}

theorem PlainDraft.addDocument {draft : CompileDraft} (holds : PlainDraft draft)
    (bundleId : String) {document : SourceDocument} (plain : PlainPath document.path)
    : PlainDraft (draft.addDocument libraries bundleId document) := by
  have parent := plain.normalized.parent
  have reserved := plain.normalized.reserved
  rw [CompileDraft.addDocument]
  split
  · have named := plain.normalized.conceptId
    have made
        : (conceptOf libraries bundleId document).id
          = conceptIdFromSourcePath (normalizeSourcePath document.path) :=
      conceptOf_id bundleId document
    rw [CompileDraft.addConcept]
    generalize parentDirectory (normalizeSourcePath document.path) = directory at parent ⊢
    generalize conceptOf libraries bundleId document = concept at made ⊢
    generalize conceptIdFromSourcePath (normalizeSourcePath document.path) = conceptId at *
    have directories := plain_update (plain_ensureDirectoryChain holds.directories parent) parent
    split
    · exact ⟨holds.concepts, directories _⟩
    · refine ⟨List.forall_mem_append.mpr ⟨holds.concepts, ?_⟩, directories _⟩
      rw [List.forall_mem_singleton, made]
      exact named
  · rw [CompileDraft.addIndex]
    generalize reservedDocumentDirectory (normalizeSourcePath document.path) = directory
      at reserved ⊢
    exact ⟨holds.concepts,
      plain_update (plain_ensureDirectoryChain holds.directories reserved) reserved _⟩
  · rw [CompileDraft.addLog]
    generalize reservedDocumentDirectory (normalizeSourcePath document.path) = directory
      at reserved ⊢
    exact ⟨holds.concepts, plain_ensureDirectoryChain holds.directories reserved⟩

theorem plainDraft_ofDocuments {source : SourceBundle}
    (plain : ∀ document ∈ source.documents, PlainPath document.path)
    : PlainDraft (.ofDocuments libraries source) := by
  have run (documents : List SourceDocument) (draft : CompileDraft) (holds : PlainDraft draft)
      (plain : ∀ document ∈ documents, PlainPath document.path)
      : PlainDraft (documents.foldl (CompileDraft.addDocument libraries source.id) draft) := by
    induction documents generalizing draft with
    | nil => exact holds
    | cons document rest ih =>
        rw [List.forall_mem_cons] at plain
        exact ih _ (holds.addDocument source.id plain.1) plain.2
  refine run source.documents .start ⟨by simp [CompileDraft.start], ?_⟩ plain
  intro path inside
  rw [CompileDraft.start, SortedMap.mem_keys_insert, SortedMap.keys_empty] at inside
  obtain rfl := inside.resolve_right List.not_mem_nil
  intro character absent
  exact absurd absent List.not_mem_nil

theorem plain_compileBundle (libraries : TextLibraries) {source : SourceBundle}
    (plain : ∀ document ∈ source.documents, PlainPath document.path)
    : (∀ concept ∈ (compileBundle libraries source).concepts, PlainPath concept.id)
      ∧ ∀ directory ∈ (compileBundle libraries source).directories, PlainPath directory.path := by
  have draft : PlainDraft (.ofDocuments libraries source) := plainDraft_ofDocuments plain
  constructor
  · intro concept inside
    obtain ⟨origin, known, waiting, rfl⟩ := origin_of_mem_concepts inside
    exact draft.concepts origin known
  · intro directory inside
    obtain ⟨path, entry, found, rfl⟩ := mem_directories_compileBundle.mp inside
    rw [directories_get?, Option.map_eq_some_iff] at found
    obtain ⟨before, old, -⟩ := found
    exact draft.directories path ((mem_keys_hierarchy libraries _ source.title).mp
      (SortedMap.mem_keys_iff.mpr ⟨before, old⟩))

end Compiled

-- Compiled links

open Render

theorem datedItem_scopePath {log : LogSource} {above below : List String} {line : String}
    {entry : LogEntry} (made : datedItem log above line below = some entry)
    : entry.scopePath = log.scopePath := by
  unfold datedItem at made
  generalize dateAbove above = date at made
  generalize parseListItem (line :: below) = item at made
  generalize headingText line = heading at made
  generalize categoryAbove above = category at made
  generalize extractAllHrefs = hrefs at made
  cases date with
  | none => cases made
  | some date =>
      cases heading with
      | some heading => cases made
      | none =>
          cases item with
          | none => cases made
          | some item =>
              obtain rfl := Option.some.inj made
              rfl

theorem compileLink_sourceId (concept : Concept) (parsed : ParsedLink)
    (resolution : LinkResolution)
    : (compileLink concept parsed resolution).link.sourceId = concept.id := by
  cases resolution <;> rfl

theorem datedItemsBelow_scopePath {log : LogSource} {above below : List String} {entry : LogEntry}
    (inside : entry ∈ datedItemsBelow log above below)
    : entry.scopePath = log.scopePath := by
  induction below generalizing above with
  | nil => nomatch inside
  | cons line rest ih =>
      rw [datedItemsBelow] at inside
      rcases List.mem_append.mp inside with here | there
      · exact datedItem_scopePath (Option.mem_toList.mp here)
      · exact ih there

/-- What a compiled bundle's pages link to is in the bundle. -/
theorem linksWithin_compileBundle (libraries : TextLibraries) (source : SourceBundle)
    : LinksWithin (compileBundle libraries source) := by
  have consistent := compileBundle_consistent libraries source
  refine ⟨?_, ?_, ?_⟩
  · intro concept listed link linked
    obtain ⟨origin, inside, outbound, -⟩ := (consistent.backlinks concept listed link).mp linked
    obtain ⟨parsed, -, compiled⟩ := (compiled_outboundLinks inside link).mp outbound
    refine ⟨origin, inside, ?_⟩
    rw [← compiled, compileLink_sourceId]
  · intro directory listed child inside
    exact ((consistent.children directory listed child).mp inside).2.2
  · intro directory listed entry inside
    obtain ⟨path, draft, found, rfl⟩ := mem_directories_compileBundle.mp listed
    have logged : entry ∈ draft.logEntries := (sortBy_perm LogEntry.key _).mem_iff.mp inside
    rw [directories_logEntries libraries source found, entriesWithin, List.mem_flatMap] at logged
    obtain ⟨log, known, within⟩ := logged
    have scope : entry.scopePath = log.scopePath := by
      split at within
      · rw [parseLogEntries_entries] at within
        exact datedItemsBelow_scopePath within
      · exact absurd within List.not_mem_nil
    obtain ⟨other, placed⟩ :=
      SortedMap.mem_keys_iff.mp (mem_directories_scope libraries source known)
    exact ⟨_, mem_directories_compileBundle.mpr ⟨_, other, placed, rfl⟩, scope.symm⟩

/-- Normalising a bundle once more keeps the links of its pages. -/
theorem linksWithin_normalize {bundle : Bundle} (within : LinksWithin bundle)
    : LinksWithin bundle.normalize := by
  have directory {path : String} (known : ∃ inner ∈ bundle.directories, inner.path = path)
      : ∃ inner ∈ bundle.normalize.directories, inner.path = path := by
    obtain ⟨inner, inside, rfl⟩ := known
    exact ⟨_, Bundle.mem_directories_normalize.mpr ⟨inner, inside, rfl⟩, rfl⟩
  refine ⟨?_, ?_, ?_⟩
  · intro concept listed link linked
    obtain ⟨draft, inside, rfl⟩ := Bundle.mem_concepts_normalize.mp listed
    obtain ⟨source, known, same⟩ := within.backlinks draft inside link (mem_sortDedup.mp linked)
    exact ⟨_, Bundle.mem_concepts_normalize.mpr ⟨source, known, rfl⟩, same⟩
  · intro other listed child inside
    obtain ⟨draft, known, rfl⟩ := Bundle.mem_directories_normalize.mp listed
    exact directory (within.children draft known child (mem_sortDedup.mp inside))
  · intro other listed entry inside
    obtain ⟨draft, known, rfl⟩ := Bundle.mem_directories_normalize.mp listed
    exact directory
      (within.logs draft known entry ((sortBy_perm LogEntry.key _).mem_iff.mp inside))

theorem nameable_normalize {bundle : Bundle} : Nameable bundle.normalize ↔ Nameable bundle := by
  constructor
  · intro nameable
    have concept {draft : Concept} (inside : draft ∈ bundle.concepts) :=
      Bundle.mem_concepts_normalize.mpr ⟨draft, inside, rfl⟩
    refine ⟨nameable.id, fun draft inside => nameable.concepts draft.normalize (concept inside),
      fun draft inside => nameable.types draft.normalize (concept inside), ?_, ?_⟩
    · exact fun draft inside tag tagged =>
        nameable.tags draft.normalize (concept inside) tag (mem_sortDedup.mpr tagged)
    · exact fun draft inside =>
        nameable.directories draft.normalize
          (Bundle.mem_directories_normalize.mpr ⟨draft, inside, rfl⟩)
  · intro nameable
    refine ⟨nameable.id, ?_, ?_, ?_, ?_⟩
    · intro concept listed
      obtain ⟨draft, inside, rfl⟩ := Bundle.mem_concepts_normalize.mp listed
      exact nameable.concepts draft inside
    · intro concept listed
      obtain ⟨draft, inside, rfl⟩ := Bundle.mem_concepts_normalize.mp listed
      exact nameable.types draft inside
    · intro concept listed tag tagged
      obtain ⟨draft, inside, rfl⟩ := Bundle.mem_concepts_normalize.mp listed
      exact nameable.tags draft inside tag (mem_sortDedup.mp tagged)
    · intro directory listed
      obtain ⟨draft, inside, rfl⟩ := Bundle.mem_directories_normalize.mp listed
      exact nameable.directories draft inside

-- Sites of authored bundles

/-- A name of a file or of a directory. -/
structure PlainName (name : String) : Prop where
  filled : name ≠ ""
  plain : ∀ character ∈ name.toList, isSegmentCharacter character = true

structure LoadedBundle.Named (bundle : LoadedBundle) : Prop where
  id : PlainName bundle.id
  files : ∀ entry ∈ bundle.entries, ∀ name ∈ splitOn '/' entry.path, PlainName name

/-- The path is made of names other than those of a directory and its parent. -/
def Undotted (path : String) : Prop :=
  ∀ segment ∈ pathSegments path, segment ≠ "." ∧ segment ≠ ".."

/-- No concept or directory of the bundle is called `.` or `..`, and its types and tags are valid
segments.
-/
structure Linkable (bundle : Bundle) : Prop where
  id : bundle.id ≠ "." ∧ bundle.id ≠ ".."
  concepts : ∀ concept ∈ bundle.concepts, Undotted concept.id
  types : ∀ concept ∈ bundle.concepts, ValidSegment concept.conceptType
  tags : ∀ concept ∈ bundle.concepts, ∀ tag ∈ concept.tags, ValidSegment tag
  directories : ∀ directory ∈ bundle.directories, Undotted directory.path

theorem plainPath_of_names {path : String} (named : ∀ name ∈ splitOn '/' path, PlainName name)
    : PlainPath path := by
  intro character inside
  rw [← joinWith_splitOn '/' path] at inside
  rcases mem_joinWith inside with rfl | ⟨part, listed, within⟩
  · decide
  · simp [isPathCharacter, (named part listed).plain character within]

/-- On a plain path only the names of a directory and its parent are refused. -/
theorem routablePath_iff {path : String} (plain : PlainPath path)
    : RoutablePath path ↔ Undotted path := by
  refine forall_congr' (fun segment => forall_congr' (fun inside => ?_))
  obtain ⟨listed, filled⟩ := List.mem_filter.mp inside
  refine ⟨fun valid => valid.named.2, fun undotted => ⟨⟨by simpa using filled, undotted⟩, ?_⟩⟩
  intro character within
  have known := plain character ((infix_of_mem_splitOn listed).subset within)
  have parted : character ≠ '/' := by
    rintro rfl
    obtain ⟨part, split, rfl⟩ := List.mem_map.mp listed
    rw [String.toList_ofList] at within
    exact separator_notMem_splitOn split within
  simpa [isPathCharacter, parted] using known

theorem nameable_iff {bundle : Bundle} (named : PlainName bundle.id)
    (concepts : ∀ concept ∈ bundle.concepts, PlainPath concept.id)
    (directories : ∀ directory ∈ bundle.directories, PlainPath directory.path)
    : Nameable bundle ↔ Linkable bundle := by
  constructor
  · intro nameable
    exact ⟨nameable.id.named.2,
      fun concept listed =>
        (routablePath_iff (concepts concept listed)).mp (nameable.concepts concept listed),
      nameable.types, nameable.tags,
      fun directory listed =>
        (routablePath_iff (directories directory listed)).mp
          (nameable.directories directory listed)⟩
  · intro linkable
    exact ⟨⟨⟨named.filled, linkable.id⟩, named.plain⟩,
      fun concept listed =>
        (routablePath_iff (concepts concept listed)).mpr (linkable.concepts concept listed),
      linkable.types, linkable.tags,
      fun directory listed =>
        (routablePath_iff (directories directory listed)).mpr
          (linkable.directories directory listed)⟩

/-- A compiled site can be rendered just if the names of its bundles can stand in routes. -/
theorem completes_compiled_iff (renderer : Renderer) (renderLibraries : RenderLibraries)
    (context : RenderContext) (libraries : TextLibraries) (generatedAt : String)
    (sourceRevision : Option String) (sources : List SourceBundle)
    : Completes
        (renderer.renderSite renderLibraries
          (compileProjection libraries generatedAt sourceRevision sources) context)
      ↔ ∀ source ∈ sources, Nameable (compileBundle libraries source) := by
  have members {bundle : Bundle}
      : bundle ∈ (compileProjection libraries generatedAt sourceRevision sources).bundles
        ↔ ∃ source ∈ sources, (compileBundle libraries source).normalize = bundle := by
    simp only [compileProjection, WikiProjection.normalize, List.mem_map,
      (sortBy_perm Bundle.id _).mem_iff, exists_exists_and_eq_and]
  refine (completes_renderSite_iff (fun bundle inside => ?_)).trans ⟨?_, ?_⟩
  · obtain ⟨source, -, rfl⟩ := members.mp inside
    exact linksWithin_normalize (linksWithin_compileBundle _ _)
  · intro nameable source listed
    exact nameable_normalize.mp (nameable _ (members.mpr ⟨source, listed, rfl⟩))
  · intro nameable bundle inside
    obtain ⟨source, listed, rfl⟩ := members.mp inside
    exact nameable_normalize.mpr (nameable source listed)

/-- The site of loaded bundles can be rendered exactly if every name in them can be a segment of
a route: plain names of files can but for `.` and `..`, types and tags need not.
-/
theorem authoredSite_completes_iff (renderer : Renderer) (renderLibraries : RenderLibraries)
    (context : RenderContext) (libraries : TextLibraries) (generatedAt : String)
    (sourceRevision : Option String) {bundles : List LoadedBundle}
    (named : ∀ bundle ∈ bundles, bundle.Named)
    : (∃ site,
        renderer.renderSite renderLibraries
            (compileProjection libraries generatedAt sourceRevision (bundles.map sourceBundle))
            context
          = .ok site)
      ↔ ∀ bundle ∈ bundles, Linkable (compileBundle libraries (sourceBundle bundle)) := by
  refine (completes_compiled_iff renderer renderLibraries context libraries generatedAt
    sourceRevision _).trans ?_
  rw [List.forall_mem_map]
  refine forall_congr' (fun bundle => forall_congr' (fun listed => ?_))
  have plain : ∀ document ∈ (sourceBundle bundle).documents, PlainPath document.path :=
    fun entry inside => plainPath_of_names ((named bundle listed).files entry inside)
  have paths := plain_compileBundle libraries plain
  exact nameable_iff (named bundle listed).id paths.1 paths.2

-- A type with a separator

/-- A bundle of one page, whose front matter has a type. -/
def typedPage (conceptType : String) : LoadedBundle where
  id := "wiki"
  title := some "wiki"
  okfVersion := none
  entries :=
    [
      parseMarkdownEntry
        (sampleLibrary
          [(SortedMap.empty.insert "type" (.text conceptType), "type: " ++ conceptType ++ "\n")])
        "guide.md" ("---\ntype: " ++ conceptType ++ "\n---\n")
    ]

theorem typedPage_named {conceptType : String}
    (path : (typedPage conceptType).entries.map SourceDocument.path = ["guide.md"])
    : (typedPage conceptType).Named := by
  have plain (name : String) (filled : name ≠ "")
      (characters : name.toList.all isSegmentCharacter = true)
      : PlainName name :=
    ⟨filled, List.all_eq_true.mp characters⟩
  refine ⟨plain "wiki" (by decide) (by decide), ?_⟩
  intro entry inside name listed
  have same : entry.path = "guide.md" := by
    have known := List.mem_map_of_mem (f := SourceDocument.path) inside
    rw [path] at known
    exact List.mem_singleton.mp known
  rw [same, show splitOn '/' "guide.md" = ["guide.md"] by decide, List.mem_singleton] at listed
  exact listed ▸ plain "guide.md" (by decide) (by decide)

theorem authoredSite_completes_note
    : ∃ site,
        (⟨"", ⟨[]⟩⟩ : Renderer).renderSite textlessLibraries
            (compileProjection linkPages "2026-01-01T00:00:00Z" none
              ([typedPage "note"].map sourceBundle)) {}
          = .ok site := by
  have named : ∀ bundle ∈ [typedPage "note"], bundle.Named :=
    List.forall_mem_singleton.mpr (typedPage_named (by decide))
  refine (authoredSite_completes_iff ⟨"", ⟨[]⟩⟩ textlessLibraries {} linkPages
    "2026-01-01T00:00:00Z" none named).mpr (List.forall_mem_singleton.mpr ?_)
  have concepts
      : (compileBundle linkPages (sourceBundle (typedPage "note"))).concepts.map
          (fun concept => (concept.id, concept.conceptType, concept.tags))
        = [("guide", "note", [])] := by
    decide
  have directories
      : (compileBundle linkPages (sourceBundle (typedPage "note"))).directories.map Directory.path
        = [""] := by
    decide
  have concept {concept : Concept}
      (inside : concept ∈ (compileBundle linkPages (sourceBundle (typedPage "note"))).concepts)
      : (concept.id, concept.conceptType, concept.tags) = ("guide", "note", []) := by
    have known :=
      List.mem_map_of_mem (f := fun concept => (concept.id, concept.conceptType, concept.tags)) inside
    rw [concepts] at known
    exact List.mem_singleton.mp known
  refine ⟨by decide, ?_, ?_, ?_, ?_⟩
  · intro found inside
    rw [Undotted, (Prod.mk.inj (concept inside)).1]
    decide
  · intro found inside
    rw [(Prod.mk.inj (Prod.mk.inj (concept inside)).2).1]
    decide
  · intro found inside tag tagged
    rw [(Prod.mk.inj (Prod.mk.inj (concept inside)).2).2] at tagged
    nomatch tagged
  · intro directory inside
    have known := List.mem_map_of_mem (f := Directory.path) inside
    rw [directories, List.mem_singleton] at known
    rw [Undotted, known]
    decide

/-- A page of the type `how/to` leaves the bundle without a site. -/
theorem authoredSite_separated
    : (typedPage "how/to").Named
      ∧ ¬∃ site,
          (⟨"", ⟨[]⟩⟩ : Renderer).renderSite textlessLibraries
              (compileProjection linkPages "2026-01-01T00:00:00Z" none
                ([typedPage "how/to"].map sourceBundle)) {}
            = .ok site := by
  refine ⟨typedPage_named (by decide), ?_⟩
  intro completed
  have types
      : (compileBundle linkPages (sourceBundle (typedPage "how/to"))).concepts.map
          Concept.conceptType
        = ["how/to"] := by
    decide
  obtain ⟨concept, listed, typed⟩ :=
    List.mem_map.mp (types.symm ▸ List.mem_singleton_self "how/to")
  have nameable := (completes_compiled_iff ⟨"", ⟨[]⟩⟩ textlessLibraries {} linkPages
    "2026-01-01T00:00:00Z" none _).mp completed _ (List.mem_singleton_self _)
  have valid : ValidSegment "how/to" := typed ▸ nameable.types concept listed
  exact absurd valid (by decide)

end CodebaseGraph.Wiki
