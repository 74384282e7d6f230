import CodebaseGraph.Wiki.Render.Routes
import CodebaseGraph.Wiki.Render.Site

/-! The address of every page of a rendered site: the segments its route is encoded from. -/

namespace CodebaseGraph.Wiki.Render

open CodebaseGraph.Collections CodebaseGraph.Sorting CodebaseGraph.Transition

/-- The segments of a path, without the empty ones. -/
def pathSegments (path : String) : List String := (splitOn '/' path).filter (· ≠ "")

-----------------------------------------------------------------------------------------
-- Routes
-----------------------------------------------------------------------------------------

theorem validateSegments_eq_ok {segments valid : List String}
    : validateSegments segments = .ok valid
      ↔ (∀ segment ∈ segments, ValidSegment segment) ∧ segments = valid := by
  induction segments generalizing valid with
  | nil => simp [validateSegments]
  | cons segment rest ih =>
      rw [validateSegments, bind_eq_ok, List.forall_mem_cons]
      constructor
      · rintro ⟨⟨⟩, here, others⟩
        obtain ⟨later, there, whole⟩ := bind_eq_ok.mp others
        obtain ⟨valid, rfl⟩ := ih.mp there
        exact ⟨⟨validateLogicalSegment_eq_ok.mp here, valid⟩, Except.ok.inj whole⟩
      · rintro ⟨⟨here, there⟩, rfl⟩
        exact ⟨(), validateLogicalSegment_eq_ok.mpr here,
          bind_eq_ok.mpr ⟨rest, ih.mpr ⟨there, rfl⟩, rfl⟩⟩

theorem splitLogicalPath_eq_ok {path : String} {segments : List String}
    : splitLogicalPath path = .ok segments
      ↔ (∀ segment ∈ pathSegments path, ValidSegment segment) ∧ pathSegments path = segments :=
  validateSegments_eq_ok

theorem encodePathSegments_eq_ok {path : String} {encoded : List String}
    : encodePathSegments path = .ok encoded
      ↔ (∀ segment ∈ pathSegments path, ValidSegment segment)
        ∧ (pathSegments path).map encodedText = encoded := by
  rw [encodePathSegments, bind_eq_ok]
  constructor
  · rintro ⟨segments, split, encodings⟩
    obtain ⟨valid, rfl⟩ := splitLogicalPath_eq_ok.mp split
    exact mapM_encodeSegment_eq_ok.mp encodings
  · rintro ⟨valid, rfl⟩
    exact ⟨pathSegments path, splitLogicalPath_eq_ok.mpr ⟨valid, rfl⟩,
      mapM_encodeSegment_eq_ok.mpr ⟨valid, rfl⟩⟩

/-- A segment that is written into routes as it is. -/
structure PlainSegment (segment : String) : Prop where
  valid : ValidSegment segment
  encoded : encodedText segment = segment

instance (segment : String) : Decidable (PlainSegment segment) :=
  decidable_of_iff (ValidSegment segment ∧ encodedText segment = segment)
    ⟨fun holds => ⟨holds.1, holds.2⟩, fun holds => ⟨holds.valid, holds.encoded⟩⟩

theorem plainSegment_families
    : ∀ segment ∈ ["b", "d", "c", "type", "tag", "search", "graph", "changes", "diagnostics"],
        PlainSegment segment := by
  decide

namespace RouteHelper

variable (routes : RouteHelper)

/-- The computation finds the page at the address, if its segments are valid. -/
def Leads (address : List String) (fragment : Option String)
    (action : Except RenderError RouteTarget)
    : Prop :=
  ∀ target,
    action = .ok target
    ↔ (∀ segment ∈ address, ValidSegment segment)
      ∧ routes.pageOwnedWithFragment (address.map encodedText) fragment = target

theorem Leads.completes {address : List String} {fragment : Option String}
    {action : Except RenderError RouteTarget} (leads : routes.Leads address fragment action)
    : Completes action ↔ ∀ segment ∈ address, ValidSegment segment :=
  ⟨fun ⟨target, found⟩ => ((leads target).mp found).1,
    fun valid => ⟨_, (leads _).mpr ⟨valid, rfl⟩⟩⟩

theorem leads_bundle (bundleId : String)
    : routes.Leads ["b", bundleId] none (routes.bundle bundleId) := by
  have family := plainSegment_families "b" (by decide)
  intro target
  rw [bundle, bind_eq_ok]
  simp only [encodeSegment_eq_ok, List.forall_mem_cons, List.map_cons, List.map_nil,
    family.encoded]
  constructor
  · rintro ⟨encoded, ⟨valid, rfl⟩, returned⟩
    exact ⟨⟨family.valid, valid, by simp⟩, Except.ok.inj returned⟩
  · rintro ⟨⟨-, valid, -⟩, rfl⟩
    exact ⟨_, ⟨valid, rfl⟩, rfl⟩

/-- A page below that of a bundle, under a path that the bundle's documents name. -/
theorem leads_path {kind : String} (family : PlainSegment kind) (bundleId path : String)
    (fragment : Option String)
    : routes.Leads (["b", bundleId, kind] ++ pathSegments path) fragment
        (do
          let bundleSegment ← encodeSegment bundleId
          return routes.pageOwnedWithFragment
            (["b", bundleSegment, kind] ++ (← encodePathSegments path)) fragment) := by
  have first := plainSegment_families "b" (by decide)
  intro target
  rw [bind_eq_ok]
  simp only [encodeSegment_eq_ok, List.forall_mem_append, List.forall_mem_cons, List.map_append,
    List.map_cons, List.map_nil, first.encoded, family.encoded]
  constructor
  · rintro ⟨encoded, ⟨valid, rfl⟩, continued⟩
    obtain ⟨segments, found, returned⟩ := bind_eq_ok.mp continued
    obtain ⟨valids, rfl⟩ := encodePathSegments_eq_ok.mp found
    exact ⟨⟨⟨first.valid, valid, family.valid, by simp⟩, valids⟩, Except.ok.inj returned⟩
  · rintro ⟨⟨⟨-, valid, -, -⟩, valids⟩, rfl⟩
    exact ⟨_, ⟨valid, rfl⟩,
      bind_eq_ok.mpr ⟨_, encodePathSegments_eq_ok.mpr ⟨valids, rfl⟩, rfl⟩⟩

theorem leads_directory (bundleId path : String)
    : routes.Leads (["b", bundleId, "d"] ++ pathSegments path) none
        (routes.directory bundleId path) :=
  routes.leads_path (plainSegment_families "d" (by decide)) bundleId path none

theorem leads_concept (bundleId conceptId : String) (fragment : Option String)
    : routes.Leads (["b", bundleId, "c"] ++ pathSegments conceptId) fragment
        (routes.concept bundleId conceptId fragment) :=
  routes.leads_path (plainSegment_families "c" (by decide)) bundleId conceptId fragment

theorem leads_facet {kind : String} (family : PlainSegment kind) (bundleId value : String)
    : routes.Leads ["b", bundleId, kind, value] none (routes.facet kind bundleId value) := by
  have first := plainSegment_families "b" (by decide)
  intro target
  rw [facet, bind_eq_ok]
  simp only [encodeSegment_eq_ok, List.forall_mem_cons, List.map_cons, List.map_nil,
    first.encoded, family.encoded]
  constructor
  · rintro ⟨encoded, ⟨valid, rfl⟩, continued⟩
    obtain ⟨other, found, returned⟩ := bind_eq_ok.mp continued
    obtain ⟨named, rfl⟩ := encodeSegment_eq_ok.mp found
    exact ⟨⟨first.valid, valid, family.valid, named, by simp⟩, Except.ok.inj returned⟩
  · rintro ⟨⟨-, valid, -, named, -⟩, rfl⟩
    exact ⟨_, ⟨valid, rfl⟩, bind_eq_ok.mpr ⟨_, encodeSegment_eq_ok.mpr ⟨named, rfl⟩, rfl⟩⟩

theorem leads_bundlePage {name : String} (family : PlainSegment name) (bundleId : String)
    (fragment : Option String)
    : routes.Leads ["b", bundleId, name] fragment (routes.bundlePage name bundleId fragment) := by
  have first := plainSegment_families "b" (by decide)
  intro target
  rw [bundlePage, bind_eq_ok]
  simp only [encodeSegment_eq_ok, List.forall_mem_cons, List.map_cons, List.map_nil,
    first.encoded, family.encoded]
  constructor
  · rintro ⟨encoded, ⟨valid, rfl⟩, returned⟩
    exact ⟨⟨first.valid, valid, family.valid, by simp⟩, Except.ok.inj returned⟩
  · rintro ⟨⟨-, valid, -, -⟩, rfl⟩
    exact ⟨_, ⟨valid, rfl⟩, rfl⟩

end RouteHelper

-- Pages

def conceptAddress (bundleId conceptId : String) : List String :=
  ["b", bundleId, "c"] ++ pathSegments conceptId

def directoryAddress (bundleId path : String) : List String :=
  ["b", bundleId, "d"] ++ pathSegments path

/-- The page stands at the address. -/
structure PageAt (routes : RouteHelper) (address : List String) (page : RenderedPage) : Prop where
  valid : ∀ segment ∈ address, ValidSegment segment
  route : page.route = (routes.page (address.map encodedText)).route
  outputPath : page.outputPath = (routes.page (address.map encodedText)).outputPath

theorem PageAt.layout {renderer : Renderer} {address : List String} {layout : RenderLayout}
    (valid : ∀ segment ∈ address, ValidSegment segment)
    (route : renderer.routes.page (address.map encodedText) = layout.route)
    : PageAt renderer.routes address (renderer.renderLayout layout) :=
  ⟨valid, by rw [route]; rfl, by rw [route]; rfl⟩

section Pages

variable {renderer : Renderer} {libraries : RenderLibraries} {bundle : Bundle}
  {index : BundleIndex} {context : RenderContext} {stylesheetHref : String}

theorem renderBundlePage_at
    : Yields (renderer.renderBundlePage libraries bundle index context stylesheetHref)
        (PageAt renderer.routes ["b", bundle.id]) := by
  refine Yields.bind (fun route found => ?_)
  obtain ⟨valid, target⟩ := (renderer.routes.leads_bundle bundle.id route).mp found
  dsimp only
  split
  · iterate 5 refine Yields.bind (fun _ _ => ?_)
    exact Yields.ok (PageAt.layout valid target)
  · iterate 5 refine Yields.bind (fun _ _ => ?_)
    exact Yields.ok (PageAt.layout valid target)

theorem renderDirectoryPage_at (directory : Directory)
    : Yields (renderer.renderDirectoryPage libraries bundle index context stylesheetHref directory)
        (PageAt renderer.routes (directoryAddress bundle.id directory.path)) := by
  refine Yields.bind (fun route found => ?_)
  obtain ⟨valid, target⟩ :=
    (renderer.routes.leads_directory bundle.id directory.path route).mp found
  iterate 3 refine Yields.bind (fun _ _ => ?_)
  exact Yields.ok (PageAt.layout valid target)

theorem renderConceptPage_at (concept : Concept)
    : Yields (renderer.renderConceptPage libraries bundle index context stylesheetHref concept)
        (PageAt renderer.routes (conceptAddress bundle.id concept.id)) := by
  refine Yields.bind (fun route found => ?_)
  obtain ⟨valid, target⟩ :=
    (renderer.routes.leads_concept bundle.id concept.id none route).mp found
  iterate 6 refine Yields.bind (fun _ _ => ?_)
  exact Yields.ok (PageAt.layout valid target)

theorem renderFacetPage_at {texts : Renderer.FacetTexts} (family : PlainSegment texts.segment)
    (grouped : SortedMap String (List Concept)) (value : String)
    : Yields (renderer.renderFacetPage texts grouped bundle context stylesheetHref value)
        (PageAt renderer.routes ["b", bundle.id, texts.segment, value]) := by
  refine Yields.bind (fun route found => ?_)
  obtain ⟨valid, target⟩ := (renderer.routes.leads_facet family bundle.id value route).mp found
  iterate 3 refine Yields.bind (fun _ _ => ?_)
  exact Yields.ok (PageAt.layout valid target)

theorem renderTypePage_at (value : String)
    : Yields (renderer.renderTypePage bundle index context stylesheetHref value)
        (PageAt renderer.routes ["b", bundle.id, "type", value]) :=
  have family : PlainSegment Renderer.typeTexts.segment :=
    plainSegment_families "type" (by decide)
  renderFacetPage_at family _ value

theorem renderTagPage_at (value : String)
    : Yields (renderer.renderTagPage bundle index context stylesheetHref value)
        (PageAt renderer.routes ["b", bundle.id, "tag", value]) :=
  have family : PlainSegment Renderer.tagTexts.segment := plainSegment_families "tag" (by decide)
  renderFacetPage_at family _ value

theorem renderSearchPage_at
    : Yields (renderer.renderSearchPage bundle index stylesheetHref)
        (PageAt renderer.routes ["b", bundle.id, "search"]) := by
  refine Yields.bind (fun route found => ?_)
  obtain ⟨valid, target⟩ :=
    (renderer.routes.leads_bundlePage (plainSegment_families "search" (by decide)) bundle.id none
      route).mp found
  iterate 3 refine Yields.bind (fun _ _ => ?_)
  exact Yields.ok (PageAt.layout valid target)

theorem renderGraphPage_at
    : Yields (renderer.renderGraphPage bundle index context stylesheetHref)
        (PageAt renderer.routes ["b", bundle.id, "graph"]) := by
  refine Yields.bind (fun route found => ?_)
  obtain ⟨valid, target⟩ :=
    (renderer.routes.leads_bundlePage (plainSegment_families "graph" (by decide)) bundle.id none
      route).mp found
  iterate 3 refine Yields.bind (fun _ _ => ?_)
  exact Yields.ok (PageAt.layout valid target)

theorem renderChangesPage_at
    : Yields (renderer.renderChangesPage bundle index stylesheetHref)
        (PageAt renderer.routes ["b", bundle.id, "changes"]) := by
  refine Yields.bind (fun route found => ?_)
  obtain ⟨valid, target⟩ :=
    (renderer.routes.leads_bundlePage (plainSegment_families "changes" (by decide)) bundle.id none
      route).mp found
  iterate 2 refine Yields.bind (fun _ _ => ?_)
  exact Yields.ok (PageAt.layout valid target)

theorem renderDiagnosticsPage_at
    : Yields (renderer.renderDiagnosticsPage bundle index stylesheetHref)
        (PageAt renderer.routes ["b", bundle.id, "diagnostics"]) := by
  refine Yields.bind (fun route found => ?_)
  obtain ⟨valid, target⟩ :=
    (renderer.routes.leads_bundlePage (plainSegment_families "diagnostics" (by decide)) bundle.id
      none route).mp found
  iterate 2 refine Yields.bind (fun _ _ => ?_)
  exact Yields.ok (PageAt.layout valid target)

-----------------------------------------------------------------------------------------
-- Bundles and sites
-----------------------------------------------------------------------------------------

/-- The pages that every bundle has once, besides the first. -/
def bundlePageNames : List String := ["search", "graph", "changes", "diagnostics"]

def bundleAddresses (bundle : Bundle) : List (List String) :=
  let index := BundleIndex.new bundle
  [["b", bundle.id]]
    ++ (bundle.directories.filter (fun directory => directory.path ≠ "")).map
      (fun directory => directoryAddress bundle.id directory.path)
    ++ bundle.concepts.map (fun concept => conceptAddress bundle.id concept.id)
    ++ index.types.keys.map (fun value => ["b", bundle.id, "type", value])
    ++ index.tags.keys.map (fun value => ["b", bundle.id, "tag", value])
    ++ bundlePageNames.map (fun name => ["b", bundle.id, name])

/-- The results of a traversal meet what is known of each item's result. -/
theorem forall₂_of_yields {α β : Type} {each : α → Except RenderError β} {items : List α}
    {results : List β} {address : α → List String} {meets : List String → β → Prop}
    (yields : ∀ item ∈ items, Yields (each item) (meets (address item)))
    (returned : items.mapM each = .ok results)
    : List.Forall₂ meets (items.map address) results := by
  rw [List.forall₂_map_left_iff]
  have pairs := mapM_eq_ok.mp returned
  rw [List.forall₂_iff_get] at pairs ⊢
  exact ⟨pairs.1, fun i h h' => yields _ (List.get_mem _ _) _ (pairs.2 i h h')⟩

theorem renderBundle_at
    : Yields (renderer.renderBundle libraries context stylesheetHref bundle)
        (List.Forall₂ (PageAt renderer.routes) (bundleAddresses bundle)) := by
  refine Yields.bind (fun bundlePage first => ?_)
  refine Yields.bind (fun directoryPages directories => ?_)
  refine Yields.bind (fun conceptPages concepts => ?_)
  refine Yields.bind (fun typePages types => ?_)
  refine Yields.bind (fun tagPages tags => ?_)
  refine Yields.bind (fun searchPage search => ?_)
  refine Yields.bind (fun graphPage graph => ?_)
  refine Yields.bind (fun changesPage changes => ?_)
  refine Yields.bind (fun diagnosticsPage diagnostics => ?_)
  refine Yields.ok ?_
  have singles
      : List.Forall₂ (PageAt renderer.routes)
          (bundlePageNames.map (fun name => ["b", bundle.id, name]))
          [searchPage, graphPage, changesPage, diagnosticsPage] :=
    .cons (renderSearchPage_at _ search) (.cons (renderGraphPage_at _ graph)
      (.cons (renderChangesPage_at _ changes) (.cons (renderDiagnosticsPage_at _ diagnostics) .nil)))
  refine List.rel_append (List.rel_append (List.rel_append (List.rel_append (List.rel_append
    (.cons (renderBundlePage_at _ first) .nil) ?_) ?_) ?_) ?_) singles
  · exact forall₂_of_yields (fun directory _ => renderDirectoryPage_at directory) directories
  · exact forall₂_of_yields (fun concept _ => renderConceptPage_at concept) concepts
  · exact forall₂_of_yields (fun value _ => renderTypePage_at value) types
  · exact forall₂_of_yields (fun value _ => renderTagPage_at value) tags

/-- The home page comes first, then those of the bundles. -/
def siteAddresses (projection : WikiProjection) : List (List String) :=
  [] :: projection.bundles.flatMap bundleAddresses

theorem renderHomePage_at (projection : WikiProjection)
    : Yields (renderer.renderHomePage projection stylesheetHref) (PageAt renderer.routes []) := by
  refine Yields.bind (fun _ _ => ?_)
  exact Yields.ok (PageAt.layout (by simp) rfl)

def stylesheetAddress : List String := ["assets", "wiki.css"]

def routeManifestAddress : List String := ["_k-wiki", "routes.json"]

theorem asset_stylesheet (routes : RouteHelper)
    : routes.asset stylesheetPath = .ok (routes.assetOwned stylesheetAddress) := by
  have encoded
      : ((splitOn '/' stylesheetPath).filter (· ≠ "")).mapM encodeSegment
        = .ok stylesheetAddress :=
    mapM_encodeSegment_eq_ok.mpr (by decide)
  rw [RouteHelper.asset, encoded]
  rfl

theorem asset_routeManifest (routes : RouteHelper)
    : routes.asset routeManifestPath = .ok (routes.assetOwned routeManifestAddress) := by
  have encoded
      : ((splitOn '/' routeManifestPath).filter (· ≠ "")).mapM encodeSegment
        = .ok routeManifestAddress :=
    mapM_encodeSegment_eq_ok.mpr (by decide)
  rw [RouteHelper.asset, encoded]
  rfl

/-- The pages of a site are those of its addresses, and it has two assets. -/
structure SiteAt (routes : RouteHelper) (projection : WikiProjection) (site : RenderSite)
    : Prop where
  pages
    : ∃ pages,
        site.pages.Perm pages ∧ List.Forall₂ (PageAt routes) (siteAddresses projection) pages
  assets
    : (site.assets.map (fun asset => RouteTarget.mk asset.route asset.outputPath)).Perm
        [routes.assetOwned stylesheetAddress, routes.assetOwned routeManifestAddress]

/-- A site that is rendered has no address that cannot be encoded. -/
theorem SiteAt.valid {routes : RouteHelper} {projection : WikiProjection} {site : RenderSite}
    (placed : SiteAt routes projection site)
    : ∀ address ∈ siteAddresses projection, ∀ segment ∈ address, ValidSegment segment := by
  obtain ⟨pages, -, found⟩ := placed.pages
  generalize siteAddresses projection = addresses at found ⊢
  induction found with
  | nil => simp
  | cons here _ ih => exact List.forall_mem_cons.mpr ⟨here.valid, ih⟩

theorem renderSite_at (projection : WikiProjection)
    : Yields (renderer.renderSite libraries projection context)
        (SiteAt renderer.routes projection) := by
  refine Yields.bind (fun stylesheet linked => ?_)
  refine Yields.bind (fun homePage home => ?_)
  refine Yields.bind (fun bundlePages bundles => ?_)
  refine Yields.bind (fun manifestRoute listed => ?_)
  obtain rfl := Except.ok.inj ((asset_stylesheet renderer.routes).symm.trans linked)
  obtain rfl := Except.ok.inj ((asset_routeManifest renderer.routes).symm.trans listed)
  refine Yields.ok ⟨⟨homePage :: bundlePages.flatten, sortBy_perm _ _, ?_⟩, ?_⟩
  · have pages
        : List.Forall₂ (List.Forall₂ (PageAt renderer.routes))
            (projection.bundles.map bundleAddresses) bundlePages := by
      rw [List.forall₂_map_left_iff]
      have pairs := mapM_eq_ok.mp bundles
      exact pairs.imp (fun bundle pages returned => renderBundle_at pages returned)
    have flat : List.Forall₂ (PageAt renderer.routes)
        (projection.bundles.map bundleAddresses).flatten bundlePages.flatten :=
      List.rel_flatten pages
    exact .cons (renderHomePage_at projection homePage home) flat
  · exact (sortBy_perm _ _).map _

end Pages

end CodebaseGraph.Wiki.Render
