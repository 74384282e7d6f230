import CodebaseGraph.Wiki.Render.PageAddresses

/-! When a site can be rendered: every name that a page links to has to be a valid segment. -/

namespace CodebaseGraph.Wiki.Render

open CodebaseGraph.Collections CodebaseGraph.Sorting CodebaseGraph.Transition

-----------------------------------------------------------------------------------------
-- The index of a bundle
-----------------------------------------------------------------------------------------

/-- The groups have no concepts but those seen. -/
def Grouped (seen : List Concept) (groups : SortedMap String (List Concept)) : Prop :=
  ∀ key group, groups.get? key = some group → ∀ concept ∈ group, concept ∈ seen

theorem Grouped.update {seen : List Concept} {groups : SortedMap String (List Concept)}
    (grouped : Grouped seen groups) {concept : Concept} (listed : concept ∈ seen) (key : String)
    : Grouped seen (groups.update key [] (· ++ [concept])) := by
  intro other group found member inside
  rw [SortedMap.get?_update] at found
  split at found
  · obtain rfl := Option.some.inj found
    rcases List.mem_append.mp inside with before | last
    · cases old : groups.get? key with
      | none => simp [old] at before
      | some former => exact grouped key former old member (by simpa [old] using before)
    · exact List.mem_singleton.mp last ▸ listed
  · exact grouped other group found member inside

theorem Grouped.weaken {seen more : List Concept} {groups : SortedMap String (List Concept)}
    (grouped : Grouped seen groups) (grown : seen ⊆ more)
    : Grouped more groups :=
  fun key group found concept inside => grown (grouped key group found concept inside)

theorem Grouped.sorted {seen : List Concept} {groups : SortedMap String (List Concept)}
    (grouped : Grouped seen groups)
    : Grouped seen (groups.mapValues (fun _ => sortBy Concept.id)) := by
  intro key group found concept inside
  rw [SortedMap.get?_mapValues, Option.map_eq_some_iff] at found
  obtain ⟨former, old, rfl⟩ := found
  exact grouped key former old concept ((sortBy_perm _ _).mem_iff.mp inside)

/-- What the index has after some of the concepts. -/
structure IndexInvariant (seen : List Concept) (index : BundleIndex) : Prop where
  concepts
    : ∀ id concept, index.concepts.get? id = some concept → concept ∈ seen ∧ concept.id = id
  byType : Grouped seen index.conceptsByType
  byTag : Grouped seen index.conceptsByTag
  types : ∀ value, value ∈ index.types.keys ↔ ∃ concept ∈ seen, concept.conceptType = value
  tags : ∀ value, value ∈ index.tags.keys ↔ ∃ concept ∈ seen, value ∈ concept.tags

theorem mem_keys_foldl_insert (values : List String) (set : SortedSet String) (value : String)
    : value ∈ (values.foldl (fun set tag => set.insert tag ()) set).keys
      ↔ value ∈ values ∨ value ∈ set.keys := by
  induction values generalizing set with
  | nil => simp
  | cons first rest ih =>
      rw [List.foldl_cons, ih, SortedMap.mem_keys_insert, List.mem_cons]
      tauto

theorem IndexInvariant.addConcept {seen : List Concept} {index : BundleIndex}
    (holds : IndexInvariant seen index) (concept : Concept)
    : IndexInvariant (seen ++ [concept]) (index.addConcept concept) := by
  have grown : seen ⊆ seen ++ [concept] := List.subset_append_left _ _
  have listed : concept ∈ seen ++ [concept] := by simp
  refine ⟨?_, (holds.byType.weaken grown).update listed _, ?_, ?_, ?_⟩
  · intro id other found
    rw [BundleIndex.addConcept, SortedMap.get?_insert] at found
    split at found
    · next same =>
        obtain rfl := Option.some.inj found
        exact ⟨listed, same.symm⟩
    · exact ⟨grown (holds.concepts id other found).1, (holds.concepts id other found).2⟩
  · have run (tags : List String) (groups : SortedMap String (List Concept))
        (grouped : Grouped (seen ++ [concept]) groups)
        : Grouped (seen ++ [concept])
            (tags.foldl (fun map tag => map.update tag [] (· ++ [concept])) groups) := by
      induction tags generalizing groups with
      | nil => exact grouped
      | cons tag rest ih => exact ih _ (grouped.update listed tag)
    exact run concept.tags _ (holds.byTag.weaken grown)
  · intro value
    rw [BundleIndex.addConcept, SortedMap.mem_keys_insert, holds.types]
    simp only [List.mem_append, List.mem_singleton, or_and_right, exists_or, exists_eq_left]
    rw [or_comm, eq_comm]
  · intro value
    rw [BundleIndex.addConcept, mem_keys_foldl_insert, holds.tags]
    simp only [List.mem_append, List.mem_singleton, or_and_right, exists_or, exists_eq_left]
    exact or_comm

/-- What the index of a bundle has. -/
structure IndexFacts (bundle : Bundle) (index : BundleIndex) : Prop
    extends IndexInvariant bundle.concepts index where
  sorted : ∀ concept ∈ index.sortedConcepts, concept ∈ bundle.concepts
  directories
    : ∀ path directory,
        index.directories.get? path = some directory → directory ∈ bundle.directories

theorem foldl_addConcept_kept (concepts : List Concept) (index : BundleIndex)
    : (concepts.foldl BundleIndex.addConcept index).sortedConcepts = index.sortedConcepts
      ∧ (concepts.foldl BundleIndex.addConcept index).directories = index.directories := by
  induction concepts generalizing index with
  | nil => exact ⟨rfl, rfl⟩
  | cons concept rest ih => exact ih (index.addConcept concept)

theorem indexFacts (bundle : Bundle) : IndexFacts bundle (BundleIndex.new bundle) := by
  have run (concepts seen : List Concept) (index : BundleIndex) (holds : IndexInvariant seen index)
      : IndexInvariant (seen ++ concepts) (concepts.foldl BundleIndex.addConcept index) := by
    induction concepts generalizing seen index with
    | nil => rwa [List.append_nil]
    | cons concept rest ih =>
        rw [List.append_cons]
        exact ih _ _ (holds.addConcept concept)
  have start
      : IndexInvariant []
          {
            directories :=
              bundle.directories.foldl (fun map directory => map.insert directory.path directory)
                .empty,
            sortedConcepts := sortBy Concept.id bundle.concepts
          } := by
    constructor
    · intro id concept absent
      cases absent
    · intro key group absent
      cases absent
    · intro key group absent
      cases absent
    · simp [SortedMap.keys_empty]
    · simp [SortedMap.keys_empty]
  have indexed := run bundle.concepts [] _ start
  obtain ⟨sorted, directories⟩ := foldl_addConcept_kept bundle.concepts
    {
      directories :=
        bundle.directories.foldl (fun map directory => map.insert directory.path directory) .empty,
      sortedConcepts := sortBy Concept.id bundle.concepts
    }
  refine ⟨⟨indexed.concepts, indexed.byType.sorted, indexed.byTag.sorted, indexed.types,
    indexed.tags⟩, ?_, ?_⟩
  · intro concept inside
    refine (sortBy_perm Concept.id bundle.concepts).mem_iff.mp ?_
    exact (congrArg (concept ∈ ·) sorted).mp inside
  · intro path directory found
    have kept (listed : List Directory) (map : SortedMap String Directory)
        (known : ∀ path directory, map.get? path = some directory → directory ∈ bundle.directories)
        (sub : ∀ directory ∈ listed, directory ∈ bundle.directories) (path : String)
        (directory : Directory)
        (found
          : (listed.foldl (fun map directory => map.insert directory.path directory) map).get? path
            = some directory)
        : directory ∈ bundle.directories := by
      induction listed generalizing map with
      | nil => exact known path directory found
      | cons first rest ih =>
          refine ih _ ?_ (fun other inside => sub other (List.mem_cons_of_mem _ inside)) found
          intro other entry here
          rw [SortedMap.get?_insert] at here
          split at here
          · exact Option.some.inj here ▸ sub first List.mem_cons_self
          · exact known other entry here
    refine kept bundle.directories .empty (fun _ _ absent => by cases absent) (fun _ => id) path
      directory ?_
    exact (congrArg (SortedMap.get? · path) directories).symm.trans found

-----------------------------------------------------------------------------------------
-- Links of a page
-----------------------------------------------------------------------------------------

/-- Every segment of the path can stand in a route. -/
def RoutablePath (path : String) : Prop := ∀ segment ∈ pathSegments path, ValidSegment segment

/-- All that the pages of a bundle link to can stand in a route. -/
structure Routable (bundle : Bundle) : Prop where
  id : ValidSegment bundle.id
  concepts : ∀ concept ∈ bundle.concepts, RoutablePath concept.id
  types : ∀ concept ∈ bundle.concepts, ValidSegment concept.conceptType
  tags : ∀ concept ∈ bundle.concepts, ∀ tag ∈ concept.tags, ValidSegment tag
  backlinks : ∀ concept ∈ bundle.concepts, ∀ link ∈ concept.backlinks, RoutablePath link.sourceId
  directories : ∀ directory ∈ bundle.directories, RoutablePath directory.path
  children
    : ∀ directory ∈ bundle.directories, ∀ child ∈ directory.childDirectories, RoutablePath child
  logs
    : ∀ directory ∈ bundle.directories,
        ∀ entry ∈ directory.logEntries, RoutablePath entry.scopePath

section Links

variable {renderer : Renderer} {libraries : RenderLibraries} {bundle : Bundle}
  {index : BundleIndex} {context : RenderContext} {stylesheetHref : String}

theorem completes_bundle (valid : ValidSegment bundle.id)
    : Completes (renderer.routes.bundle bundle.id) :=
  (renderer.routes.leads_bundle bundle.id).completes.mpr
    (by simpa using ⟨(plainSegment_families "b" (by decide)).valid, valid⟩)

theorem completes_concept (valid : ValidSegment bundle.id) {conceptId : String}
    (path : RoutablePath conceptId) (fragment : Option String)
    : Completes (renderer.routes.concept bundle.id conceptId fragment) := by
  refine (renderer.routes.leads_concept bundle.id conceptId fragment).completes.mpr ?_
  refine List.forall_mem_append.mpr ⟨?_, path⟩
  simpa using ⟨(plainSegment_families "b" (by decide)).valid, valid,
    (plainSegment_families "c" (by decide)).valid⟩

theorem completes_directory (valid : ValidSegment bundle.id) {path : String}
    (routable : RoutablePath path)
    : Completes (renderer.routes.directory bundle.id path) := by
  refine (renderer.routes.leads_directory bundle.id path).completes.mpr ?_
  refine List.forall_mem_append.mpr ⟨?_, routable⟩
  simpa using ⟨(plainSegment_families "b" (by decide)).valid, valid,
    (plainSegment_families "d" (by decide)).valid⟩

theorem completes_facet (valid : ValidSegment bundle.id) {kind value : String}
    (family : PlainSegment kind) (named : ValidSegment value)
    : Completes (renderer.routes.facet kind bundle.id value) := by
  refine (renderer.routes.leads_facet family bundle.id value).completes.mpr ?_
  simpa using ⟨(plainSegment_families "b" (by decide)).valid, valid, family.valid, named⟩

theorem completes_bundlePage (valid : ValidSegment bundle.id) {name : String}
    (family : PlainSegment name) (fragment : Option String)
    : Completes (renderer.routes.bundlePage name bundle.id fragment) := by
  refine (renderer.routes.leads_bundlePage family bundle.id fragment).completes.mpr ?_
  simpa using ⟨(plainSegment_families "b" (by decide)).valid, valid, family.valid⟩

theorem completes_diagnostics (valid : ValidSegment bundle.id)
    : Completes (renderer.routes.diagnostics bundle.id none) :=
  completes_bundlePage valid (plainSegment_families "diagnostics" (by decide)) none

theorem completes_bundleNavigation (valid : ValidSegment bundle.id)
    : Completes (renderer.bundleNavigation bundle) := by
  refine (completes_bundle valid).bind (fun _ _ => ?_)
  refine (completes_bundlePage valid (plainSegment_families "search" (by decide)) none).bind
    (fun _ _ => ?_)
  refine (completes_bundlePage valid (plainSegment_families "graph" (by decide)) none).bind
    (fun _ _ => ?_)
  refine (completes_bundlePage valid (plainSegment_families "changes" (by decide)) none).bind
    (fun _ _ => ?_)
  exact (completes_diagnostics valid).bind (fun _ _ => .ok _)

theorem completes_pageBreadcrumbs (valid : ValidSegment bundle.id) (current : String)
    : Completes (renderer.pageBreadcrumbs bundle current) :=
  (completes_bundle valid).bind (fun _ _ => .ok _)

theorem completes_renderConceptCards (routable : Routable bundle) {concepts : List Concept}
    (listed : ∀ concept ∈ concepts, concept ∈ bundle.concepts)
    : Completes (renderConceptCards bundle concepts renderer.routes) := by
  rw [renderConceptCards]
  split
  · exact .ok _
  · refine (completes_mapM.mpr (fun concept inside => ?_)).bind (fun _ _ => .ok _)
    exact (completes_concept routable.id (routable.concepts concept (listed concept inside))
      none).bind (fun _ _ => .ok _)

theorem completes_renderDirectoryBody (routable : Routable bundle)
    (facts : IndexFacts bundle index) {directory : Directory}
    (listed : directory ∈ bundle.directories)
    : Completes (renderer.renderDirectoryBody libraries bundle index directory) := by
  have cards
      : Completes
          (renderConceptCards bundle (directory.conceptIds.filterMap index.concepts.get?)
            renderer.routes) := by
    refine completes_renderConceptCards routable (fun concept inside => ?_)
    obtain ⟨id, -, found⟩ := List.mem_filterMap.mp inside
    exact (facts.concepts id concept found).1
  have logs : Completes (renderDirectoryLogEntries directory.logEntries renderer.routes bundle) := by
    refine (completes_mapM.mpr (fun entry inside => ?_)).bind (fun _ _ => .ok _)
    rw [renderLogEntry]
    dsimp only
    split
    · exact (completes_bundle routable.id).bind (fun _ _ => .ok _)
    · exact (completes_directory routable.id (routable.logs directory listed entry inside)).bind
        (fun _ _ => .ok _)
  refine (completes_mapM.mpr (fun child inside => ?_)).bind (fun _ _ => cards.bind (fun _ _ => ?_))
  · exact (completes_directory routable.id (routable.children directory listed child inside)).bind
      (fun _ _ => .ok _)
  · dsimp only
    split
    · exact .ok _
    · exact logs.bind (fun _ _ => .ok _)

theorem completes_segmentCrumbs (valid : ValidSegment bundle.id) {above segments : List String}
    (named : ∀ segment ∈ above ++ segments, ValidSegment segment)
    : Completes (renderer.segmentCrumbs bundle above segments) := by
  induction segments generalizing above with
  | nil => exact .ok _
  | cons segment rest ih =>
      cases rest with
      | nil => exact .ok _
      | cons next rest =>
          rw [Renderer.segmentCrumbs]
          · have path : RoutablePath (joinWith '/' (above ++ [segment])) := by
              have parts : ∀ part ∈ above ++ [segment], ValidSegment part :=
                fun part inside => named part (by simp at inside ⊢; tauto)
              have split
                  : splitOn '/' (joinWith '/' (above ++ [segment])) = above ++ [segment] :=
                splitOn_joinWith (by simp)
                  (fun part inside slash => absurd ((parts part inside).plain _ slash) (by decide))
              intro part inside
              rw [pathSegments, split] at inside
              exact parts part (List.mem_filter.mp inside).1
            refine (completes_directory valid path).bind (fun _ _ => ?_)
            refine (ih ?_).bind (fun _ _ => .ok _)
            rwa [← List.append_cons]
          · simp

theorem completes_directoryBreadcrumbs (valid : ValidSegment bundle.id) {directory : Directory}
    (routable : RoutablePath directory.path)
    : Completes (renderer.directoryBreadcrumbs bundle directory) := by
  refine (completes_bundle valid).bind (fun _ _ => ?_)
  refine Completes.bind ⟨_, splitLogicalPath_eq_ok.mpr ⟨routable, rfl⟩⟩ (fun segments split => ?_)
  obtain ⟨named, rfl⟩ := splitLogicalPath_eq_ok.mp split
  exact (completes_segmentCrumbs valid named).bind (fun _ _ => .ok _)

/-- The directory of a concept has the segments of the concept but for the last. -/
theorem routablePath_conceptParent {conceptId : String} (path : RoutablePath conceptId)
    : RoutablePath (conceptParentPath conceptId) := by
  rw [conceptParentPath]
  split
  · exact fun segment inside => absurd inside (by decide +revert)
  · next long =>
      have parts : ∀ part ∈ (pathSegments conceptId).dropLast, ValidSegment part :=
        fun part inside => path part (List.mem_of_mem_dropLast inside)
      have filled : (pathSegments conceptId).dropLast ≠ [] := by
        intro none
        have short := congrArg List.length none
        rw [List.length_dropLast, List.length_nil] at short
        exact long (by change (pathSegments conceptId).length ≤ 1; omega)
      have split := splitOn_joinWith filled
        (fun part inside slash => absurd ((parts part inside).plain '/' slash) (by decide))
      intro segment inside
      rw [pathSegments] at inside
      exact parts segment (split ▸ (List.mem_filter.mp inside).1)

theorem completes_conceptBreadcrumbs (valid : ValidSegment bundle.id) {concept : Concept}
    (routable : RoutablePath concept.id)
    : Completes (renderer.conceptBreadcrumbs bundle concept) := by
  refine (completes_bundle valid).bind (fun _ _ => ?_)
  dsimp only
  split
  · exact .ok _
  · exact (completes_directory valid (routablePath_conceptParent routable)).bind
      (fun _ _ => .ok _)

theorem completes_conceptSourceDirectory (valid : ValidSegment bundle.id) {conceptId : String}
    (routable : RoutablePath conceptId)
    : Completes (renderer.routes.conceptSourceDirectory bundle.id conceptId) := by
  rw [RouteHelper.conceptSourceDirectory]
  split
  · exact completes_bundle valid
  · exact completes_directory valid (routablePath_conceptParent routable)

theorem completes_resolveInternalLink (routable : Routable bundle)
    (facts : IndexFacts bundle index) {concept : Concept} (listed : concept ∈ bundle.concepts)
    (link : Link)
    : Completes (renderer.resolveInternalLink bundle index concept link) := by
  rw [Renderer.resolveInternalLink]
  split
  · exact (completes_concept routable.id (routable.concepts concept listed) link.fragment).bind
      (fun _ _ => .ok _)
  · next targetId named =>
      refine (completes_diagnostics routable.id).bind (fun _ _ => ?_)
      dsimp only
      split
      · exact .ok _
      · next target found =>
          have known := facts.concepts targetId target found
          split
          · exact .ok _
          · exact (completes_concept routable.id (known.2 ▸ routable.concepts target known.1)
              link.fragment).bind (fun _ _ => .ok _)

theorem completes_renderConceptBody (routable : Routable bundle)
    (facts : IndexFacts bundle index) {concept : Concept} (listed : concept ∈ bundle.concepts)
    : Completes (renderer.renderConceptBody libraries bundle index concept) := by
  refine (completes_diagnostics routable.id).bind (fun diagnosticsRoute _ => ?_)
  refine (completes_mapM.mpr (fun link _ => ?_)).bind (fun _ _ => .ok _)
  refine Completes.bind ?_ (fun _ _ => .ok _)
  rw [Renderer.linkTarget]
  split
  · exact .ok _
  · exact completes_resolveInternalLink routable facts listed link
  · exact .ok _
  · exact .ok _

theorem completes_renderBacklinks (routable : Routable bundle) {concept : Concept}
    (listed : concept ∈ bundle.concepts)
    : Completes (renderer.renderBacklinks bundle index concept) := by
  rw [Renderer.renderBacklinks]
  split
  · exact .ok _
  · refine (completes_mapM.mpr (fun backlink inside => ?_)).bind (fun _ _ => .ok _)
    exact (completes_concept routable.id (routable.backlinks concept listed backlink inside)
      backlink.fragment).bind (fun _ _ => .ok _)

theorem completes_renderConceptDiagnostics (valid : ValidSegment bundle.id) (concept : Concept)
    : Completes (renderer.renderConceptDiagnostics bundle index concept) := by
  rw [Renderer.renderConceptDiagnostics]
  dsimp only
  split
  · exact .ok _
  · exact (completes_diagnostics valid).bind (fun _ _ => .ok _)

theorem completes_renderFacetPanel (valid : ValidSegment bundle.id) {kind : String}
    (family : PlainSegment kind) (title : String) {values : List String}
    (named : ∀ value ∈ values, ValidSegment value)
    : Completes (renderer.renderFacetPanel bundle title kind values) := by
  refine (completes_mapM.mpr (fun value inside => ?_)).bind (fun _ _ => .ok _)
  exact (completes_facet valid family (named value inside)).bind (fun _ _ => .ok _)

-----------------------------------------------------------------------------------------
-- Pages
-----------------------------------------------------------------------------------------

theorem completes_renderBundlePage (routable : Routable bundle) (facts : IndexFacts bundle index)
    : Completes (renderer.renderBundlePage libraries bundle index context stylesheetHref) := by
  have panels (rest : String → String → Except RenderError RenderedPage)
      (ended : ∀ types tags, Completes (rest types tags))
      : Completes
          (do
            let typePanel ← renderer.renderFacetPanel bundle "Types" "type" index.types.keys
            let tagPanel ← renderer.renderFacetPanel bundle "Tags" "tag" index.tags.keys
            rest typePanel tagPanel) := by
    refine (completes_renderFacetPanel routable.id (plainSegment_families "type" (by decide)) _
      (fun value inside => ?_)).bind (fun types _ => ?_)
    · obtain ⟨concept, listed, rfl⟩ := (facts.types value).mp inside
      exact routable.types concept listed
    · refine (completes_renderFacetPanel routable.id (plainSegment_families "tag" (by decide)) _
        (fun value inside => ?_)).bind (fun tags _ => ended types tags)
      obtain ⟨concept, listed, tagged⟩ := (facts.tags value).mp inside
      exact routable.tags concept listed value tagged
  have topConcepts : Completes (renderer.bundleTopConcepts bundle index) := by
    refine completes_mapM.mpr (fun concept inside => ?_)
    have listed := facts.sorted concept (List.mem_of_mem_take inside)
    exact (completes_concept routable.id (routable.concepts concept listed) none).bind
      (fun _ _ => .ok _)
  refine (completes_bundle routable.id).bind (fun _ _ => ?_)
  dsimp only
  split
  · next directory found =>
      have listed := facts.directories "" directory found
      refine (completes_renderDirectoryBody routable facts listed).bind (fun _ _ => panels _ ?_)
      exact fun _ _ => (completes_bundleNavigation routable.id).bind
        (fun _ _ => topConcepts.bind (fun _ _ => .ok _))
  · refine Completes.bind (.ok "") (fun _ _ => panels _ ?_)
    exact fun _ _ => (completes_bundleNavigation routable.id).bind
      (fun _ _ => topConcepts.bind (fun _ _ => .ok _))

theorem completes_renderDirectoryPage (routable : Routable bundle)
    (facts : IndexFacts bundle index) {directory : Directory}
    (listed : directory ∈ bundle.directories)
    : Completes
        (renderer.renderDirectoryPage libraries bundle index context stylesheetHref directory) := by
  refine (completes_directory routable.id (routable.directories directory listed)).bind
    (fun _ _ => ?_)
  refine (completes_renderDirectoryBody routable facts listed).bind (fun _ _ => ?_)
  refine (completes_bundleNavigation routable.id).bind (fun _ _ => ?_)
  exact (completes_directoryBreadcrumbs routable.id (routable.directories directory listed)).bind
    (fun _ _ => .ok _)

theorem completes_renderConceptPage (routable : Routable bundle) (facts : IndexFacts bundle index)
    {concept : Concept} (listed : concept ∈ bundle.concepts)
    : Completes
        (renderer.renderConceptPage libraries bundle index context stylesheetHref concept) := by
  have path := routable.concepts concept listed
  refine (completes_concept routable.id path none).bind (fun _ _ => ?_)
  refine (completes_renderConceptBody routable facts listed).bind (fun _ _ => ?_)
  refine (completes_renderBacklinks routable listed).bind (fun _ _ => ?_)
  refine (completes_conceptSourceDirectory routable.id path).bind (fun _ _ => ?_)
  refine (completes_renderConceptDiagnostics routable.id concept).bind (fun _ _ => ?_)
  refine (completes_bundleNavigation routable.id).bind (fun _ _ => ?_)
  exact (completes_conceptBreadcrumbs routable.id path).bind (fun _ _ => .ok _)

theorem completes_renderFacetPage (routable : Routable bundle) {texts : Renderer.FacetTexts}
    (family : PlainSegment texts.segment) {groups : SortedMap String (List Concept)}
    (grouped : Grouped bundle.concepts groups) {value : String} (named : ValidSegment value)
    : Completes (renderer.renderFacetPage texts groups bundle context stylesheetHref value) := by
  refine (completes_facet routable.id family named).bind (fun _ _ => ?_)
  refine (completes_renderConceptCards routable (fun concept inside => ?_)).bind (fun _ _ => ?_)
  · cases found : groups.get? value with
    | none => simp [found] at inside
    | some group => exact grouped value group found concept (by simpa [found] using inside)
  · refine (completes_bundleNavigation routable.id).bind (fun _ _ => ?_)
    exact (completes_pageBreadcrumbs routable.id _).bind (fun _ _ => .ok _)

theorem completes_renderSearchPage (routable : Routable bundle) (facts : IndexFacts bundle index)
    : Completes (renderer.renderSearchPage bundle index stylesheetHref) := by
  refine (completes_bundlePage routable.id (plainSegment_families "search" (by decide)) none).bind
    (fun _ _ => ?_)
  refine (completes_renderConceptCards routable facts.sorted).bind (fun _ _ => ?_)
  refine (completes_bundleNavigation routable.id).bind (fun _ _ => ?_)
  exact (completes_pageBreadcrumbs routable.id _).bind (fun _ _ => .ok _)

theorem completes_renderGraphPage (routable : Routable bundle) (facts : IndexFacts bundle index)
    : Completes (renderer.renderGraphPage bundle index context stylesheetHref) := by
  refine (completes_bundlePage routable.id (plainSegment_families "graph" (by decide)) none).bind
    (fun _ _ => ?_)
  refine (completes_mapM.mpr (fun concept inside => ?_)).bind (fun _ _ => ?_)
  · have path := routable.concepts concept (facts.sorted concept inside)
    exact (completes_concept routable.id path none).bind (fun _ _ => .ok _)
  · refine (completes_bundleNavigation routable.id).bind (fun _ _ => ?_)
    exact (completes_pageBreadcrumbs routable.id _).bind (fun _ _ => .ok _)

theorem completes_renderChangesPage (valid : ValidSegment bundle.id)
    : Completes (renderer.renderChangesPage bundle index stylesheetHref) := by
  refine (completes_bundlePage valid (plainSegment_families "changes" (by decide)) none).bind
    (fun _ _ => ?_)
  refine (completes_bundleNavigation valid).bind (fun _ _ => ?_)
  exact (completes_pageBreadcrumbs valid _).bind (fun _ _ => .ok _)

theorem completes_renderDiagnosticsPage (valid : ValidSegment bundle.id)
    : Completes (renderer.renderDiagnosticsPage bundle index stylesheetHref) := by
  refine (completes_diagnostics valid).bind (fun _ _ => ?_)
  refine (completes_bundleNavigation valid).bind (fun _ _ => ?_)
  exact (completes_pageBreadcrumbs valid _).bind (fun _ _ => .ok _)

theorem completes_renderBundle (routable : Routable bundle)
    : Completes (renderer.renderBundle libraries context stylesheetHref bundle) := by
  have facts := indexFacts bundle
  have types : ∀ value ∈ (BundleIndex.new bundle).types.keys, ValidSegment value := by
    intro value inside
    obtain ⟨concept, listed, rfl⟩ := (facts.types value).mp inside
    exact routable.types concept listed
  have tags : ∀ value ∈ (BundleIndex.new bundle).tags.keys, ValidSegment value := by
    intro value inside
    obtain ⟨concept, listed, tagged⟩ := (facts.tags value).mp inside
    exact routable.tags concept listed value tagged
  refine (completes_renderBundlePage routable facts).bind (fun _ _ => ?_)
  refine (completes_mapM.mpr (fun directory inside =>
    completes_renderDirectoryPage routable facts (List.mem_filter.mp inside).1)).bind
    (fun _ _ => ?_)
  refine (completes_mapM.mpr (fun concept inside =>
    completes_renderConceptPage routable facts inside)).bind (fun _ _ => ?_)
  refine (completes_mapM.mpr (fun value inside =>
    completes_renderFacetPage routable
      (show PlainSegment Renderer.typeTexts.segment from
        plainSegment_families "type" (by decide))
      facts.byType (types value inside))).bind (fun _ _ => ?_)
  refine (completes_mapM.mpr (fun value inside =>
    completes_renderFacetPage routable
      (show PlainSegment Renderer.tagTexts.segment from plainSegment_families "tag" (by decide))
      facts.byTag (tags value inside))).bind (fun _ _ => ?_)
  refine (completes_renderSearchPage routable facts).bind (fun _ _ => ?_)
  refine (completes_renderGraphPage routable facts).bind (fun _ _ => ?_)
  refine (completes_renderChangesPage routable.id).bind (fun _ _ => ?_)
  exact (completes_renderDiagnosticsPage routable.id).bind (fun _ _ => .ok _)

/-- A site of routable bundles can be rendered. -/
theorem completes_renderSite {projection : WikiProjection}
    (routable : ∀ bundle ∈ projection.bundles, Routable bundle)
    : Completes (renderer.renderSite libraries projection context) := by
  refine Completes.bind ⟨_, asset_stylesheet renderer.routes⟩ (fun stylesheet _ => ?_)
  have home : Completes (renderer.renderHomePage projection stylesheet.route) := by
    refine (completes_mapM.mpr (fun bundle listed => ?_)).bind (fun _ _ => .ok _)
    exact (completes_bundle (routable bundle listed).id).bind (fun _ _ => .ok _)
  refine home.bind (fun _ _ => ?_)
  refine (completes_mapM.mpr (fun bundle listed =>
    completes_renderBundle (routable bundle listed))).bind (fun _ _ => ?_)
  exact Completes.bind ⟨_, asset_routeManifest renderer.routes⟩ (fun _ _ => .ok _)

end Links

-- The names a site needs

/-- The names that the pages of a bundle stand under can stand in a route. -/
structure Nameable (bundle : Bundle) : Prop where
  id : ValidSegment bundle.id
  concepts : ∀ concept ∈ bundle.concepts, RoutablePath concept.id
  types : ∀ concept ∈ bundle.concepts, ValidSegment concept.conceptType
  tags : ∀ concept ∈ bundle.concepts, ∀ tag ∈ concept.tags, ValidSegment tag
  directories : ∀ directory ∈ bundle.directories, RoutablePath directory.path

/-- What a bundle's pages link to is in the bundle. -/
structure LinksWithin (bundle : Bundle) : Prop where
  backlinks
    : ∀ concept ∈ bundle.concepts,
        ∀ link ∈ concept.backlinks, ∃ source ∈ bundle.concepts, source.id = link.sourceId
  children
    : ∀ directory ∈ bundle.directories,
        ∀ child ∈ directory.childDirectories, ∃ inner ∈ bundle.directories, inner.path = child
  logs
    : ∀ directory ∈ bundle.directories,
        ∀ entry ∈ directory.logEntries,
          ∃ scope ∈ bundle.directories, scope.path = entry.scopePath

theorem Nameable.routable {bundle : Bundle} (nameable : Nameable bundle)
    (within : LinksWithin bundle)
    : Routable bundle where
  id := nameable.id
  concepts := nameable.concepts
  types := nameable.types
  tags := nameable.tags
  directories := nameable.directories
  backlinks := by
    intro concept listed link linked
    obtain ⟨source, inside, same⟩ := within.backlinks concept listed link linked
    exact same ▸ nameable.concepts source inside
  children := by
    intro directory listed child inside
    obtain ⟨inner, known, same⟩ := within.children directory listed child inside
    exact same ▸ nameable.directories inner known
  logs := by
    intro directory listed entry inside
    obtain ⟨scope, known, same⟩ := within.logs directory listed entry inside
    exact same ▸ nameable.directories scope known

theorem nameable_of_addresses {bundle : Bundle}
    (valid : ∀ address ∈ bundleAddresses bundle, ∀ segment ∈ address, ValidSegment segment)
    : Nameable bundle := by
  have facts := indexFacts bundle
  simp only [bundleAddresses, List.forall_mem_append, List.forall_mem_map,
    List.forall_mem_singleton, List.mem_filter, decide_eq_true_eq, and_imp] at valid
  obtain ⟨⟨⟨⟨⟨first, directories⟩, concepts⟩, types⟩, tags⟩, -⟩ := valid
  refine ⟨first bundle.id (by simp), ?_, ?_, ?_, ?_⟩
  · intro concept listed
    exact fun segment inside => concepts concept listed segment (List.mem_append_right _ inside)
  · intro concept listed
    exact types concept.conceptType ((facts.types _).mpr ⟨concept, listed, rfl⟩) _ (by simp)
  · intro concept listed tag tagged
    exact tags tag ((facts.tags tag).mpr ⟨concept, listed, tagged⟩) tag (by simp)
  · intro directory listed
    by_cases root : directory.path = ""
    · rw [root]
      exact fun segment inside => absurd inside (by decide +revert)
    · exact fun segment inside =>
        directories directory listed root segment (List.mem_append_right _ inside)

/-- A site whose pages link to each other only can be rendered just if its names can be. -/
theorem completes_renderSite_iff {renderer : Renderer} {libraries : RenderLibraries}
    {projection : WikiProjection} {context : RenderContext}
    (within : ∀ bundle ∈ projection.bundles, LinksWithin bundle)
    : Completes (renderer.renderSite libraries projection context)
      ↔ ∀ bundle ∈ projection.bundles, Nameable bundle := by
  constructor
  · rintro ⟨site, rendered⟩ bundle listed
    have valid := (renderSite_at projection site rendered).valid
    exact nameable_of_addresses (fun address inside =>
      valid address (List.mem_cons_of_mem _ (List.mem_flatMap.mpr ⟨bundle, listed, inside⟩)))
  · intro nameable
    exact completes_renderSite
      (fun bundle listed => (nameable bundle listed).routable (within bundle listed))

/-- Libraries for pages without text, whose manifest has no bytes. -/
def textlessLibraries : RenderLibraries where
  markdownEvents _ := []
  pushHtml _ := ""
  clean text := text
  jsonText _ := ""
  manifestBytes _ := []
  stylesheet := []

end CodebaseGraph.Wiki.Render
