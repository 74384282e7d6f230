import CodebaseGraph.Wiki.Render.SiteBuild

/-! Collisions of the files of a rendered site: a page is the file `index.html` in the directory of
its address, and an address below it may start with a directory of that name.
-/

namespace CodebaseGraph.Wiki.Render

open CodebaseGraph.Collections CodebaseGraph.Sorting CodebaseGraph.Transition

-- The files of a site

def RenderSite.targets (site : RenderSite) : List RouteTarget :=
  site.pages.map (fun page => ⟨page.route, page.outputPath⟩)
    ++ site.assets.map (fun asset => ⟨asset.route, asset.outputPath⟩)

/-- Every file of the site can be created without overwriting another. -/
structure RenderSite.Apart (site : RenderSite) : Prop where
  routes : (site.targets.map RouteTarget.route).Nodup
  outputs : (site.targets.map RouteTarget.outputPath).Nodup
  relative
    : ∀ target ∈ site.targets,
        target.outputPath ≠ []
        ∧ ∀ component ∈ target.outputPath,
            component ≠ "" ∧ component ≠ "." ∧ component ≠ ".." ∧ '/' ∉ component.toList
  prefixFree
    : ∀ first ∈ site.targets,
        ∀ second ∈ site.targets,
          first.outputPath <+: second.outputPath → first.outputPath = second.outputPath

/-- The names of the bundles, and within each those of its concepts and directories, differ. -/
structure WikiProjection.Distinct (projection : WikiProjection) : Prop where
  bundles : (projection.bundles.map Bundle.id).Nodup
  concepts : ∀ bundle ∈ projection.bundles, (bundle.concepts.map Concept.id).Nodup
  directories : ∀ bundle ∈ projection.bundles, (bundle.directories.map Directory.path).Nodup
  conceptSegments
    : ∀ bundle ∈ projection.bundles, ∀ concept ∈ bundle.concepts, "" ∉ splitOn '/' concept.id
  directorySegments
    : ∀ bundle ∈ projection.bundles,
        ∀ directory ∈ bundle.directories, directory.path ≠ "" → "" ∉ splitOn '/' directory.path

/-- The second path goes on from the first with a segment `index.html`. -/
def BelowIndex (above below : String) : Prop :=
  pathSegments above ++ ["index.html"] <+: pathSegments below

/-- No path of a bundle goes through the page of another. -/
structure ClearOfPages (bundle : Bundle) : Prop where
  concepts
    : ∀ above ∈ bundle.concepts, ∀ below ∈ bundle.concepts, ¬BelowIndex above.id below.id
  directories
    : ∀ above ∈ bundle.directories,
        ∀ below ∈ bundle.directories, above.path ≠ "" → ¬BelowIndex above.path below.path

-- Addresses

/-- The addresses of the pages of a bundle, by families. -/
inductive BundleAddress (bundle : Bundle) : List String → Prop where
  | bundle : BundleAddress bundle ["b", bundle.id]
  | directory {directory : Directory} (listed : directory ∈ bundle.directories)
      (inner : directory.path ≠ "")
    : BundleAddress bundle (directoryAddress bundle.id directory.path)
  | concept {concept : Concept} (listed : concept ∈ bundle.concepts)
    : BundleAddress bundle (conceptAddress bundle.id concept.id)
  | type (value : String) : BundleAddress bundle ["b", bundle.id, "type", value]
  | tag (value : String) : BundleAddress bundle ["b", bundle.id, "tag", value]
  | once {name : String} (listed : name ∈ bundlePageNames)
    : BundleAddress bundle ["b", bundle.id, name]

theorem bundleAddress_of_mem {bundle : Bundle} {address : List String}
    (inside : address ∈ bundleAddresses bundle)
    : BundleAddress bundle address := by
  simp only [bundleAddresses, List.mem_append, List.mem_map, List.mem_singleton, List.mem_filter,
    decide_eq_true_eq] at inside
  rcases inside with (((((rfl | ⟨directory, ⟨listed, inner⟩, rfl⟩) | ⟨concept, listed, rfl⟩)
    | ⟨value, -, rfl⟩) | ⟨value, -, rfl⟩) | ⟨name, listed, rfl⟩)
  · exact .bundle
  · exact .directory listed inner
  · exact .concept listed
  · exact .type value
  · exact .tag value
  · exact .once listed

theorem pathSegments_eq {path : String} (filled : "" ∉ splitOn '/' path)
    : pathSegments path = splitOn '/' path := by
  refine List.filter_eq_self.mpr (fun segment inside => ?_)
  simpa using fun same : segment = "" => filled (same ▸ inside)

theorem pathSegments_inj {first second : String} (left : "" ∉ splitOn '/' first)
    (right : "" ∉ splitOn '/' second) (same : pathSegments first = pathSegments second)
    : first = second := by
  rw [pathSegments_eq left, pathSegments_eq right] at same
  rw [← joinWith_splitOn '/' first, same, joinWith_splitOn]

/-- The segment after that of the bundle tells the families of its pages apart. -/
def addressFamily (address : List String) : Option String := address[2]?

theorem nodup_append_family {first second : List (List String)} (left : first.Nodup)
    (right : second.Nodup)
    (apart : ∀ a ∈ first, ∀ b ∈ second, addressFamily a ≠ addressFamily b)
    : (first ++ second).Nodup :=
  List.nodup_append.mpr
    ⟨left, right, fun a here b there same => apart a here b there (congrArg addressFamily same)⟩

theorem bundleAddresses_nodup {bundle : Bundle} (concepts : (bundle.concepts.map Concept.id).Nodup)
    (directories : (bundle.directories.map Directory.path).Nodup)
    (conceptSegments : ∀ concept ∈ bundle.concepts, "" ∉ splitOn '/' concept.id)
    (directorySegments
      : ∀ directory ∈ bundle.directories,
          directory.path ≠ "" → "" ∉ splitOn '/' directory.path)
    : (bundleAddresses bundle).Nodup := by
  have byPath
      : ((bundle.directories.filter (fun directory => directory.path ≠ "")).map
          (fun directory => directoryAddress bundle.id directory.path)).Nodup := by
    have kept := (List.pairwise_map.mp directories).filter (fun directory => directory.path ≠ "")
    refine List.pairwise_map.mpr (kept.imp_of_mem ?_)
    intro first second here there different same
    simp only [List.mem_filter, decide_eq_true_eq] at here there
    exact different (pathSegments_inj (directorySegments first here.1 here.2)
      (directorySegments second there.1 there.2) (List.append_cancel_left same))
  have byId
      : (bundle.concepts.map (fun concept => conceptAddress bundle.id concept.id)).Nodup := by
    refine List.pairwise_map.mpr ((List.pairwise_map.mp concepts).imp_of_mem ?_)
    intro first second here there different same
    exact different (pathSegments_inj (conceptSegments first here) (conceptSegments second there)
      (List.append_cancel_left same))
  have byValue (kind : String) (values : List String) (distinct : values.Nodup)
      : (values.map (fun value => ["b", bundle.id, kind, value])).Nodup :=
    distinct.map (fun first second same => by simpa using same)
  have byName
      : (bundlePageNames.map (fun name => ["b", bundle.id, name])).Nodup :=
    (show bundlePageNames.Nodup by decide).map (fun first second same => by simpa using same)
  refine nodup_append_family (nodup_append_family (nodup_append_family (nodup_append_family
    (nodup_append_family (List.nodup_singleton _) byPath ?_) byId ?_)
    (byValue "type" _ (SortedMap.keys_nodup _)) ?_) (byValue "tag" _ (SortedMap.keys_nodup _)) ?_)
    byName ?_
  all_goals
    simp only [List.forall_mem_append, List.forall_mem_map, List.forall_mem_singleton,
      addressFamily, directoryAddress, conceptAddress]
    simp [bundlePageNames]

/-- Every page of a bundle is below the bundle. -/
theorem BundleAddress.below {bundle : Bundle} {address : List String}
    (page : BundleAddress bundle address)
    : ["b", bundle.id] <+: address := by
  cases page <;> exact ⟨_, rfl⟩

theorem siteAddresses_nodup {projection : WikiProjection} (distinct : projection.Distinct)
    : (siteAddresses projection).Nodup := by
  refine List.nodup_cons.mpr ⟨?_, List.nodup_flatMap.mpr ⟨?_, ?_⟩⟩
  · intro inside
    obtain ⟨bundle, -, page⟩ := List.mem_flatMap.mp inside
    exact absurd (bundleAddress_of_mem page).below (by simp)
  · intro bundle listed
    exact bundleAddresses_nodup (distinct.concepts bundle listed)
      (distinct.directories bundle listed) (distinct.conceptSegments bundle listed)
      (distinct.directorySegments bundle listed)
  · refine (List.pairwise_map.mp distinct.bundles).imp ?_
    intro first second different address left right
    have left := (bundleAddress_of_mem left).below
    have right := (bundleAddress_of_mem right).below
    have same := List.prefix_of_prefix_length_le left right (by simp)
    simp only [List.cons_prefix_cons, List.nil_prefix, and_true, true_and] at same
    exact different same

-----------------------------------------------------------------------------------------
-- Pages below the file of a page
-----------------------------------------------------------------------------------------

/-- In one bundle a page is below the file of another only along the paths of its documents. -/
theorem BundleAddress.clear {bundle : Bundle} (clear : ClearOfPages bundle)
    {above below : List String} (first : BundleAddress bundle above)
    (second : BundleAddress bundle below)
    : ¬above ++ ["index.html"] <+: below := by
  intro under
  -- the segment after the bundle's is not `index.html`, so both pages are of one family
  cases first with
  | bundle =>
      cases second with
      | once listed =>
          simp only [bundlePageNames, List.mem_cons, List.not_mem_nil, or_false] at listed
          rcases listed with rfl | rfl | rfl | rfl <;> simp at under
      | _ => simp_all [directoryAddress, conceptAddress]
  | directory listed inner =>
      cases second with
      | directory listed' inner' =>
          refine clear.directories _ listed _ listed' inner ?_
          rwa [directoryAddress, directoryAddress, List.append_assoc,
            List.prefix_append_right_inj] at under
      | _ => simp_all [directoryAddress, conceptAddress]
  | concept listed =>
      cases second with
      | concept listed' =>
          refine clear.concepts _ listed _ listed' ?_
          rwa [conceptAddress, conceptAddress, List.append_assoc,
            List.prefix_append_right_inj] at under
      | _ => simp_all [directoryAddress, conceptAddress]
  | type value => cases second <;> simp_all [directoryAddress, conceptAddress]
  | tag value => cases second <;> simp_all [directoryAddress, conceptAddress]
  | once listed =>
      simp only [bundlePageNames, List.mem_cons, List.not_mem_nil, or_false] at listed
      cases second <;> rcases listed with rfl | rfl | rfl | rfl <;>
        simp_all [directoryAddress, conceptAddress]

/-- What the output paths of a site have after the base path. -/
def fileTails (projection : WikiProjection) : List (List String) :=
  (siteAddresses projection).map (· ++ ["index.html"]) ++ [stylesheetAddress, routeManifestAddress]

theorem siteAddress_cases {projection : WikiProjection} {address : List String}
    (inside : address ∈ siteAddresses projection)
    : address = [] ∨ ∃ bundle ∈ projection.bundles, BundleAddress bundle address := by
  rcases List.mem_cons.mp inside with home | inside
  · exact Or.inl home
  · obtain ⟨bundle, listed, page⟩ := List.mem_flatMap.mp inside
    exact Or.inr ⟨bundle, listed, bundleAddress_of_mem page⟩

/-- No page lies in the directory of an asset, nor an asset in that of a page. -/
theorem pageTail_head {projection : WikiProjection} {address : List String}
    (inside : address ∈ siteAddresses projection)
    : (address ++ ["index.html"]).head? = some "index.html"
      ∨ (address ++ ["index.html"]).head? = some "b" := by
  rcases siteAddress_cases inside with rfl | ⟨bundle, -, page⟩
  · exact Or.inl rfl
  · obtain ⟨rest, rfl⟩ := page.below
    exact Or.inr rfl

theorem head?_of_prefix {first second : List String} (below : first <+: second)
    (filled : first ≠ [])
    : first.head? = second.head? := by
  obtain ⟨rest, rfl⟩ := below
  rw [List.head?_append_of_ne_nil _ filled]

theorem asset_head {tail : List String} (asset : tail ∈ [stylesheetAddress, routeManifestAddress])
    : tail.head? = some "assets" ∨ tail.head? = some "_k-wiki" := by
  simp only [List.mem_cons, List.not_mem_nil, or_false] at asset
  rcases asset with rfl | rfl
  · exact Or.inl rfl
  · exact Or.inr rfl

theorem fileTails_nodup {projection : WikiProjection} (distinct : projection.Distinct)
    : (fileTails projection).Nodup := by
  refine List.nodup_append.mpr ⟨?_, by decide, ?_⟩
  · exact (siteAddresses_nodup distinct).map (fun first second => List.append_cancel_right)
  · intro page inside asset listed same
    obtain ⟨address, member, rfl⟩ := List.mem_map.mp inside
    subst same
    rcases pageTail_head member with head | head <;>
      rcases asset_head listed with other | other <;> simp [head] at other

theorem fileTails_prefixFree {projection : WikiProjection} (distinct : projection.Distinct)
    (clear : ∀ bundle ∈ projection.bundles, ClearOfPages bundle)
    : ∀ first ∈ fileTails projection,
        ∀ second ∈ fileTails projection, first <+: second → first = second := by
  intro first here second there below
  rcases List.mem_append.mp here with page | asset
  · obtain ⟨above, inside, rfl⟩ := List.mem_map.mp page
    rcases List.mem_append.mp there with page' | asset'
    · obtain ⟨under, inside', rfl⟩ := List.mem_map.mp page'
      refine (List.prefix_concat_iff.mp below).resolve_right (fun nested => ?_)
      rcases siteAddress_cases inside with rfl | ⟨bundle, listed, first⟩
      · rcases siteAddress_cases inside' with rfl | ⟨bundle', -, second⟩
        · simp at nested
        · exact absurd ( head?_of_prefix nested (by simp))
            (by rw [← head?_of_prefix second.below (by simp)]; simp)
      · rcases siteAddress_cases inside' with rfl | ⟨bundle', listed', second⟩
        · simp at nested
        · have same : ["b", bundle.id] = ["b", bundle'.id] := by
            have left : ["b", bundle.id] <+: under :=
              (first.below.trans (List.prefix_append _ _)).trans nested
            exact (List.prefix_of_prefix_length_le left second.below (by simp)).eq_of_length rfl
          obtain rfl : bundle = bundle' :=
            List.inj_on_of_nodup_map distinct.bundles listed listed' (by simpa using same)
          exact first.clear (clear bundle listed) second nested
    · have heads := head?_of_prefix below (by simp)
      rcases pageTail_head inside with head | head <;>
        rcases asset_head asset' with other | other <;> simp [head, other] at heads
  · rcases List.mem_append.mp there with page' | asset'
    · obtain ⟨under, inside', rfl⟩ := List.mem_map.mp page'
      have filled : first ≠ [] := by rintro rfl; simpa using asset_head asset
      have heads := head?_of_prefix below filled
      rcases pageTail_head inside' with head | head <;>
        rcases asset_head asset with other | other <;> simp [head, other] at heads
    · simp only [List.mem_cons, List.not_mem_nil, or_false] at asset asset'
      rcases asset with rfl | rfl <;> rcases asset' with rfl | rfl <;>
        first | rfl | exact absurd below (by decide)

/-- A path through the page of another is a file below a file. -/
theorem nested_of_belowIndex {projection : WikiProjection} {above below : List String}
    (first : above ∈ siteAddresses projection) (second : below ∈ siteAddresses projection)
    (nested : above ++ ["index.html"] <+: below)
    : ∃ file ∈ fileTails projection,
        ∃ other ∈ fileTails projection, file <+: other ∧ file ≠ other := by
  refine ⟨_, List.mem_append_left _ (List.mem_map_of_mem first), _,
    List.mem_append_left _ (List.mem_map_of_mem second), nested.trans (List.prefix_append _ _), ?_⟩
  intro same
  have longer := nested.length_le
  have lengths := congrArg List.length same
  simp only [List.length_append, List.length_singleton] at longer lengths
  omega

theorem clear_of_prefixFree {projection : WikiProjection}
    (free
      : ∀ first ∈ fileTails projection,
          ∀ second ∈ fileTails projection, first <+: second → first = second)
    : ∀ bundle ∈ projection.bundles, ClearOfPages bundle := by
  intro bundle listed
  have apart {above below : List String} (first : above ∈ bundleAddresses bundle)
      (second : below ∈ bundleAddresses bundle)
      : ¬above ++ ["index.html"] <+: below := by
    intro nested
    have site {address : List String} (page : address ∈ bundleAddresses bundle)
        : address ∈ siteAddresses projection :=
      List.mem_cons_of_mem _ (List.mem_flatMap.mpr ⟨bundle, listed, page⟩)
    obtain ⟨file, here, other, there, below, different⟩ :=
      nested_of_belowIndex (site first) (site second) nested
    exact different (free file here other there below)
  constructor
  · intro above here below there nested
    have page {concept : Concept} (inside : concept ∈ bundle.concepts)
        : conceptAddress bundle.id concept.id ∈ bundleAddresses bundle := by
      simp only [bundleAddresses, List.mem_append, List.mem_map]
      exact Or.inl (Or.inl (Or.inl (Or.inr ⟨concept, inside, rfl⟩)))
    refine apart (page here) (page there) ?_
    rw [conceptAddress, conceptAddress, List.append_assoc, List.prefix_append_right_inj]
    exact nested
  · intro above here below there inner nested
    have page {directory : Directory} (inside : directory ∈ bundle.directories)
        (inner : directory.path ≠ "")
        : directoryAddress bundle.id directory.path ∈ bundleAddresses bundle := by
      simp only [bundleAddresses, List.mem_append, List.mem_map, List.mem_filter,
        decide_eq_true_eq]
      exact Or.inl (Or.inl (Or.inl (Or.inl (Or.inr ⟨directory, ⟨inside, inner⟩, rfl⟩))))
    -- nothing lies below a page of the root directory, whose path has no segments
    have named : below.path ≠ "" := by
      intro root
      rw [BelowIndex, root, show pathSegments "" = [] by decide] at nested
      simp at nested
    refine apart (page here inner) (page there named) ?_
    rw [directoryAddress, directoryAddress, List.append_assoc, List.prefix_append_right_inj]
    exact nested

-----------------------------------------------------------------------------------------
-- Routes and output paths
-----------------------------------------------------------------------------------------

/-- The segments of a path that encoding leaves nothing to escape in. -/
def PlainNames (names : List String) : Prop :=
  ∀ name ∈ names, name ≠ "" ∧ name ≠ "." ∧ name ≠ ".." ∧ '/' ∉ name.toList

/-- A route ends in a separator if and only if it is that of a page. -/
inductive TargetShape : RouteTarget → Prop where
  | page {segments : List String} (plain : PlainNames segments)
    : TargetShape ⟨joinWith '/' ("" :: segments ++ [""]), segments ++ ["index.html"]⟩
  | asset {segments : List String} (plain : PlainNames segments) (filled : segments ≠ [])
    : TargetShape ⟨joinWith '/' ("" :: segments), segments⟩

theorem TargetShape.outputPath_of_route {first second : RouteTarget} (left : TargetShape first)
    (right : TargetShape second) (same : first.route = second.route)
    : first.outputPath = second.outputPath := by
  have read {segments : List String} (plain : PlainNames segments) (ending : List String)
      (blank : ∀ name ∈ ending, name = "")
      : splitOn '/' (joinWith '/' ("" :: segments ++ ending)) = "" :: segments ++ ending := by
    refine splitOn_joinWith (by simp) (fun part inside => ?_)
    rcases List.mem_append.mp inside with inside | inside
    · rcases List.mem_cons.mp inside with rfl | inside
      · decide
      · exact (plain part inside).2.2.2
    · rw [blank part inside]
      decide
  have pageRead {segments : List String} (plain : PlainNames segments) :=
    read plain [""] (by simp)
  have assetRead {segments : List String} (plain : PlainNames segments) := by
    simpa using read plain [] (by simp)
  cases left with
  | page plain =>
      cases right with
      | page plain' =>
          have parts := congrArg (splitOn '/') same
          rw [pageRead plain, pageRead plain'] at parts
          have segments := List.append_cancel_right parts
          exact congrArg (· ++ ["index.html"]) (List.cons.inj segments).2
      | asset plain' filled' =>
          have parts := congrArg (splitOn '/') same
          rw [pageRead plain, assetRead plain'] at parts
          have segments := (List.cons.inj parts).2
          exact absurd rfl ( plain' "" (segments ▸ List.mem_append_right _ (by simp))).1
  | asset plain filled =>
      cases right with
      | page plain' =>
          have parts := congrArg (splitOn '/') same
          rw [assetRead plain, pageRead plain'] at parts
          have segments := (List.cons.inj parts).2
          exact absurd rfl (plain "" (segments ▸ List.mem_append_right _ (by simp))).1
      | asset plain' filled' =>
          have parts := congrArg (splitOn '/') same
          rw [assetRead plain, assetRead plain'] at parts
          exact (List.cons.inj parts).2

/-- A base path whose segments are encoded. -/
structure RouteHelper.Based (routes : RouteHelper) (names : List String) : Prop where
  valid : ∀ name ∈ names, ValidSegment name
  encoded : routes.baseSegments = names.map encodedText

theorem based_of_new {basePath : String} {renderer : Renderer}
    (created : Renderer.new basePath = .ok renderer)
    : ∃ names, renderer.routes.Based names := by
  obtain ⟨routes, found, returned⟩ := bind_eq_ok.mp created
  obtain ⟨segments, encodings, whole⟩ := bind_eq_ok.mp found
  obtain ⟨valid, rfl⟩ := mapM_encodeSegment_eq_ok.mp encodings
  obtain rfl := Except.ok.inj whole
  obtain rfl := Except.ok.inj returned
  exact ⟨_, valid, rfl⟩

theorem plainNames_encodedText {names : List String}
    (valid : ∀ name ∈ names, ValidSegment name)
    : PlainNames (names.map encodedText) := by
  intro text inside
  obtain ⟨name, listed, rfl⟩ := List.mem_map.mp inside
  obtain ⟨filled, dot, dots⟩ := encodedText_named (valid name listed)
  exact ⟨filled, dot, dots, slash_notMem_encodedText name⟩

section Based

variable {routes : RouteHelper} {base : List String}

theorem page_shape (based : routes.Based base) {address : List String}
    (valid : ∀ segment ∈ address, ValidSegment segment)
    : TargetShape (routes.page (address.map encodedText)) := by
  have plain := plainNames_encodedText (List.forall_mem_append.mpr ⟨based.valid, valid⟩)
  rw [List.map_append, ← based.encoded] at plain
  have target
      : routes.page (address.map encodedText)
        = ⟨joinWith '/' ("" :: (routes.baseSegments ++ address.map encodedText) ++ [""]),
            (routes.baseSegments ++ address.map encodedText) ++ ["index.html"]⟩ := by
    rw [RouteHelper.page, RouteHelper.pageOwnedWithFragment]
    congr 1
    split
    · next none => rw [none]; decide
    · next some =>
        rw [List.cons_append, joinWith_cons (by simp), joinWith_append some (by simp),
          joinWith_singleton, String.empty_append, String.append_empty, String.append_assoc]
        rfl
  rw [target]
  exact .page plain

theorem asset_shape (based : routes.Based base) {address : List String}
    (plain : PlainNames address) (filled : address ≠ [])
    : TargetShape (routes.assetOwned address) := by
  have whole : PlainNames (routes.baseSegments ++ address) := by
    rw [based.encoded]
    exact List.forall_mem_append.mpr ⟨plainNames_encodedText based.valid, plain⟩
  have target
      : routes.assetOwned address
        = ⟨joinWith '/' ("" :: (routes.baseSegments ++ address)),
            routes.baseSegments ++ address⟩ := by
    rw [RouteHelper.assetOwned]
    rw [if_neg (by simp [filled]), joinWith_cons (by simp [filled]), String.empty_append]
    rfl
  rw [target]
  exact .asset whole (by simp [filled])

theorem page_outputPath (based : routes.Based base) (address : List String)
    : (routes.page (address.map encodedText)).outputPath
      = (base ++ (address ++ ["index.html"])).map encodedText := by
  rw [RouteHelper.page, RouteHelper.pageOwnedWithFragment, based.encoded]
  have file : encodedText "index.html" = "index.html" := by decide
  simp only [List.map_append, List.map_cons, List.map_nil, file, List.append_assoc]

theorem asset_outputPath (based : routes.Based base) {address : List String}
    (plain : address.map encodedText = address)
    : (routes.assetOwned address).outputPath = (base ++ address).map encodedText := by
  rw [RouteHelper.assetOwned, List.map_append, plain, ← based.encoded]

variable {projection : WikiProjection} {site : RenderSite}

/-- The targets of a site, in the order of its addresses. -/
def expectedTargets (routes : RouteHelper) (projection : WikiProjection) : List RouteTarget :=
  (siteAddresses projection).map (fun address => routes.page (address.map encodedText))
    ++ [routes.assetOwned stylesheetAddress, routes.assetOwned routeManifestAddress]

theorem SiteAt.targets (placed : SiteAt routes projection site)
    : site.targets.Perm (expectedTargets routes projection) := by
  obtain ⟨pages, order, found⟩ := placed.pages
  refine List.Perm.append ((order.map _).trans (List.Perm.of_eq ?_)) placed.assets
  clear order
  generalize siteAddresses projection = addresses at found ⊢
  induction found with
  | nil => rfl
  | cons here _ ih => rw [List.map_cons, List.map_cons, ih, here.route, here.outputPath]

theorem expectedTargets_shape (based : routes.Based base)
    (valid : ∀ address ∈ siteAddresses projection, ∀ segment ∈ address, ValidSegment segment)
    : ∀ target ∈ expectedTargets routes projection, TargetShape target := by
  intro target inside
  rcases List.mem_append.mp inside with page | asset
  · obtain ⟨address, member, rfl⟩ := List.mem_map.mp page
    exact page_shape based (valid address member)
  · simp only [List.mem_cons, List.not_mem_nil, or_false] at asset
    rcases asset with rfl | rfl
    · exact asset_shape based (by unfold PlainNames; decide) (by decide)
    · exact asset_shape based (by unfold PlainNames; decide) (by decide)

theorem expectedTargets_outputs (based : routes.Based base)
    : (expectedTargets routes projection).map RouteTarget.outputPath
      = (fileTails projection).map (fun tail => (base ++ tail).map encodedText) := by
  have stylesheet
      : (routes.assetOwned stylesheetAddress).outputPath
        = (base ++ stylesheetAddress).map encodedText :=
    asset_outputPath based (by decide)
  have manifest
      : (routes.assetOwned routeManifestAddress).outputPath
        = (base ++ routeManifestAddress).map encodedText :=
    asset_outputPath based (by decide)
  rw [expectedTargets, fileTails, List.map_append, List.map_append, List.map_map, List.map_map]
  simp only [List.map_cons, List.map_nil, stylesheet, manifest]
  congr 1
  exact List.map_congr_left (fun address _ => page_outputPath based address)

/-- The output paths of a site are one below another as the tails of its addresses are. -/
theorem outputs_prefix {first second : List String}
    : (base ++ first).map encodedText <+: (base ++ second).map encodedText ↔ first <+: second := by
  rw [List.prefix_map_iff_of_injective (fun _ _ => encodedText_inj), List.prefix_append_right_inj]

theorem outputs_inj {first second : List String}
    (same : (base ++ first).map encodedText = (base ++ second).map encodedText)
    : first = second :=
  List.append_cancel_left (List.map_injective_iff.mpr (fun _ _ => encodedText_inj) same)

/-- A site whose addresses are clear of each other's pages can be written out. -/
theorem SiteAt.apart (placed : SiteAt routes projection site) (based : routes.Based base)
    (distinct : projection.Distinct)
    (free
      : ∀ first ∈ fileTails projection,
          ∀ second ∈ fileTails projection, first <+: second → first = second)
    : site.Apart := by
  have order := placed.targets
  have shapes := expectedTargets_shape based placed.valid
  have outputs : ((expectedTargets routes projection).map RouteTarget.outputPath).Nodup := by
    rw [expectedTargets_outputs based]
    exact (fileTails_nodup distinct).map (fun _ _ => outputs_inj)
  refine ⟨?_, ?_, ?_, ?_⟩
  · refine (order.map _).nodup_iff.mpr (List.pairwise_map.mpr ?_)
    refine (List.pairwise_map.mp outputs).imp_of_mem (fun {first second} here there different same => ?_)
    exact different ((shapes first here).outputPath_of_route (shapes second there) same)
  · exact (order.map _).nodup_iff.mpr outputs
  · intro target inside
    have shape := shapes target (order.mem_iff.mp inside)
    cases shape with
    | page plain =>
        refine ⟨by simp, List.forall_mem_append.mpr ⟨plain, by decide⟩⟩
    | asset plain filled => exact ⟨filled, plain⟩
  · have tails {target : RouteTarget} (inside : target ∈ site.targets)
        : ∃ tail ∈ fileTails projection, (base ++ tail).map encodedText = target.outputPath := by
      have listed := List.mem_map_of_mem (f := RouteTarget.outputPath) (order.mem_iff.mp inside)
      rwa [expectedTargets_outputs based, List.mem_map] at listed
    intro first here second there below
    obtain ⟨tail, listed, path⟩ := tails here
    obtain ⟨tail', listed', path'⟩ := tails there
    rw [← path, ← path'] at below ⊢
    rw [free tail listed tail' listed' ( outputs_prefix.mp below)]

theorem SiteAt.prefixFree (placed : SiteAt routes projection site) (based : routes.Based base)
    (apart : site.Apart)
    : ∀ first ∈ fileTails projection,
        ∀ second ∈ fileTails projection, first <+: second → first = second := by
  have targets {tail : List String} (listed : tail ∈ fileTails projection)
      : ∃ target ∈ site.targets, target.outputPath = (base ++ tail).map encodedText := by
    have path := List.mem_map_of_mem (f := fun tail => (base ++ tail).map encodedText) listed
    rw [← expectedTargets_outputs based, List.mem_map] at path
    obtain ⟨target, inside, same⟩ := path
    exact ⟨target, placed.targets.mem_iff.mpr inside, same⟩
  intro first here second there below
  obtain ⟨target, inside, path⟩ := targets here
  obtain ⟨target', inside', path'⟩ := targets there
  have same := apart.prefixFree target inside target' inside'
    (by rw [path, path']; exact outputs_prefix.mpr below)
  rw [path, path'] at same
  exact outputs_inj same

end Based

-- Routes are reversible and apart

/-- Encoding is reversible, and the files of a site are apart unless the path of a concept or of
a directory goes through the page of another.
-/
theorem siteFiles_apart_iff {basePath : String} {renderer : Renderer} {libraries : RenderLibraries}
    {projection : WikiProjection} {context : RenderContext} {site : RenderSite}
    (created : Renderer.new basePath = .ok renderer) (distinct : projection.Distinct)
    (rendered : renderer.renderSite libraries projection context = .ok site)
    : ((∀ segment encoded,
          encodeSegment segment = .ok encoded → decodeSegment encoded = .ok segment)
        ∧ site.Apart)
      ↔ ∀ bundle ∈ projection.bundles, ClearOfPages bundle := by
  obtain ⟨base, based⟩ := based_of_new created
  have placed := renderSite_at projection site rendered
  constructor
  · rintro ⟨-, apart⟩
    exact clear_of_prefixFree (placed.prefixFree based apart)
  · intro clear
    refine ⟨?_, placed.apart based distinct (fileTails_prefixFree distinct clear)⟩
    intro segment encoded taken
    obtain ⟨valid, rfl⟩ := encodeSegment_eq_ok.mp taken
    exact decodeSegment_encodedText valid

/-- A bundle with a concept for each of the identities and no other directory than the root. -/
def namedConcepts (ids : List String) : Bundle where
  id := "wiki"
  rootPath := "wiki"
  okfVersion := "0.1"
  title := "Wiki"
  sourceRevision := none
  directories := [⟨"", "Wiki", none, .synthetic, "", [], ids, []⟩]
  concepts :=
    ids.map
      (fun id =>
        {
          id, bundleId := "wiki", sourcePath := id ++ ".md", conceptType := "note",
          bodyMarkdown := ""
        })

def projectionOf (bundle : Bundle) : WikiProjection where
  schemaVersion := 1
  generatedAt := "2026-01-01T00:00:00Z"
  sourceRevision := none
  bundles := [bundle]

theorem distinct_namedConcepts {ids : List String} (distinct : ids.Nodup)
    (filled : ∀ id ∈ ids, "" ∉ splitOn '/' id)
    : (projectionOf (namedConcepts ids)).Distinct := by
  have same : (namedConcepts ids).concepts.map Concept.id = ids := by
    rw [namedConcepts, List.map_map]
    exact List.map_id ids
  constructor <;> simp only [projectionOf, List.map_singleton, List.forall_mem_singleton]
  · exact List.nodup_singleton _
  · rwa [same]
  · exact List.nodup_singleton _
  · intro concept listed
    exact filled concept.id (same ▸ List.mem_map_of_mem listed)
  · intro directory listed inner
    exact absurd (congrArg Directory.path (List.mem_singleton.mp listed)) inner

theorem completes_namedConcepts {ids : List String}
    (routable : ∀ id ∈ ids, RoutablePath id) (renderer : Renderer) (context : RenderContext)
    : Completes
        (renderer.renderSite textlessLibraries (projectionOf (namedConcepts ids)) context) := by
  have root : RoutablePath "" := fun segment inside => absurd inside (by decide +revert)
  refine completes_renderSite (List.forall_mem_singleton.mpr ?_)
  constructor <;>
    simp only [namedConcepts, List.forall_mem_map, List.forall_mem_singleton, List.not_mem_nil,
      false_implies, implies_true]
  · decide
  · exact routable
  · exact fun _ _ => (by decide : ValidSegment "note")
  · exact root

theorem siteFiles_apart_one
    : ∃ site,
        (⟨"", ⟨[]⟩⟩ : Renderer).renderSite textlessLibraries (projectionOf (namedConcepts ["a"])) {}
          = .ok site
        ∧ (((∀ segment encoded,
                encodeSegment segment = .ok encoded → decodeSegment encoded = .ok segment)
              ∧ site.Apart)
            ↔ ∀ bundle ∈ (projectionOf (namedConcepts ["a"])).bundles, ClearOfPages bundle) := by
  have routable : ∀ id ∈ ["a"], RoutablePath id := by
    unfold RoutablePath
    decide
  obtain ⟨site, rendered⟩ := completes_namedConcepts routable ⟨"", ⟨[]⟩⟩ {}
  have created : Renderer.new "" = .ok ⟨"", ⟨[]⟩⟩ := by rfl
  exact ⟨site, rendered,
    siteFiles_apart_iff created (distinct_namedConcepts (by decide) (by decide)) rendered⟩

/-- The pages `a.md` and `a/index.html.md`: the second is written below the file of the first. -/
theorem siteFiles_nested
    : Renderer.new "" = .ok ⟨"", ⟨[]⟩⟩
      ∧ (projectionOf (namedConcepts ["a", "a/index.html"])).Distinct
      ∧ ∃ site,
          (⟨"", ⟨[]⟩⟩ : Renderer).renderSite textlessLibraries
              (projectionOf (namedConcepts ["a", "a/index.html"])) {}
            = .ok site
          ∧ ¬site.Apart := by
  have created : Renderer.new "" = .ok ⟨"", ⟨[]⟩⟩ := by rfl
  obtain ⟨base, based⟩ := based_of_new created
  have routable : ∀ id ∈ ["a", "a/index.html"], RoutablePath id := by
    unfold RoutablePath
    decide
  obtain ⟨site, rendered⟩ := completes_namedConcepts routable ⟨"", ⟨[]⟩⟩ {}
  refine ⟨created, distinct_namedConcepts (by decide) (by decide), site, rendered, ?_⟩
  intro apart
  have placed := renderSite_at _ site rendered
  have clear := clear_of_prefixFree (placed.prefixFree based apart) _ (List.mem_singleton_self _)
  refine clear.concepts _ (List.mem_map_of_mem List.mem_cons_self) _
    (List.mem_map_of_mem (List.mem_cons_of_mem _ List.mem_cons_self)) ?_
  unfold BelowIndex
  decide

end CodebaseGraph.Wiki.Render
