import CodebaseGraph.Collections.Substitution
import CodebaseGraph.Wiki.Render.Html

/-! The pages of the rendered site (`crates/k-wiki/src/render/mod.rs`). -/

namespace CodebaseGraph.Wiki.Render

open CodebaseGraph.Collections CodebaseGraph.Sorting

-----------------------------------------------------------------------------------------
-- The index of a bundle
-----------------------------------------------------------------------------------------

structure ChangeEntry where
  sortKey : String
  date : String
  title : String
  summary : String
  href : Option String
deriving DecidableEq, Repr

structure BundleIndex where
  directories : SortedMap String Directory := .empty
  concepts : SortedMap String Concept := .empty
  sortedConcepts : List Concept
  conceptsByType : SortedMap String (List Concept) := .empty
  conceptsByTag : SortedMap String (List Concept) := .empty
  types : SortedSet String := .empty
  tags : SortedSet String := .empty
  changeEntries : List ChangeEntry := []
  derivedDiagnostics : List RenderedDiagnostic := []

/-- The change of a concept with a timestamp. -/
def conceptChange (concept : Concept) : Option ChangeEntry :=
  concept.timestamp.map
    (fun timestamp =>
      {
        sortKey := timestamp,
        date := timestamp,
        title := concept.displayTitle,
        summary := concept.description.getD "Concept timestamp",
        href := none
      })

/-- The diagnostic of a link that leads nowhere. -/
def derivedDiagnostic (concept : Concept) (link : Link) : Option RenderedDiagnostic :=
  if link.status = .broken ∨ link.status = .rejected then
    some
      {
        anchor := brokenLinkAnchor concept.id link.rawHref,
        severity := .warning,
        code := if link.status = .broken then "broken_link" else "rejected_link",
        sourcePath := concept.sourcePath,
        line := none,
        message :=
          diagnosticLabel link.status ++ " from " ++ concept.id ++ ": " ++ link.rawHref
      }
  else none

/-- The change that a log entry of a directory reports. -/
def logChange (entry : LogEntry) : ChangeEntry :=
  {
    sortKey := entry.date,
    date := entry.date,
    title := entry.category ++ ": " ++ displayDirectoryPath entry.scopePath,
    summary := entry.text,
    href := none
  }

namespace BundleIndex

def addConcept (index : BundleIndex) (concept : Concept) : BundleIndex :=
  {
    index with
    concepts := index.concepts.insert concept.id concept,
    conceptsByType := index.conceptsByType.update concept.conceptType [] (· ++ [concept]),
    types := index.types.insert concept.conceptType (),
    conceptsByTag :=
      concept.tags.foldl (fun map tag => map.update tag [] (· ++ [concept])) index.conceptsByTag,
    tags := concept.tags.foldl (fun set tag => set.insert tag ()) index.tags,
    changeEntries := index.changeEntries ++ (conceptChange concept).toList,
    derivedDiagnostics :=
      index.derivedDiagnostics ++ concept.outboundLinks.filterMap (derivedDiagnostic concept)
  }

def new (bundle : Bundle) : BundleIndex :=
  let start : BundleIndex :=
    {
      directories :=
        bundle.directories.foldl (fun map directory => map.insert directory.path directory) .empty,
      sortedConcepts := sortBy Concept.id bundle.concepts
    }
  let index := bundle.concepts.foldl addConcept start
  {
    index with
    conceptsByType := index.conceptsByType.mapValues (fun _ => sortBy Concept.id),
    conceptsByTag := index.conceptsByTag.mapValues (fun _ => sortBy Concept.id),
    changeEntries :=
      index.changeEntries
        ++ bundle.directories.flatMap (fun directory => directory.logEntries.map logChange)
  }

def rootDirectory (index : BundleIndex) : Option Directory := index.directories.get? ""

end BundleIndex

-- The layout of a page

/-- `str::replace`, for a pattern that is not empty. -/
def replaceText (pattern replacement text : String) : String :=
  String.ofList (replaceAll pattern.toList replacement.toList text.toList)

def pageTemplate : String :=
  "<!DOCTYPE html>\n<html lang=\"en\">\n<head>\n  <meta charset=\"utf-8\">\n  "
    ++ "<meta name=\"viewport\" content=\"width=device-width, initial-scale=1\">\n  "
    ++ "<meta name=\"description\" content=\""
    ++ "__META_DESCRIPTION__"
    ++ "\">\n  <meta name=\"generator\" content=\"k-wiki\">\n  <title>"
    ++ "__PAGE_TITLE__"
    ++ "</title>\n  <link rel=\"stylesheet\" href=\""
    ++ "__STYLESHEET_HREF__"
    ++ "\">\n</head>\n<body>\n  <a class=\"skip-link\" href=\"#main-content\">"
    ++ "Skip to content</a>\n  <header class=\"site-shell\">\n    "
    ++ "__BREADCRUMBS__" ++ "\n    " ++ "__PAGE_NAV__"
    ++ "\n  </header>\n  <div class=\"site-layout\">\n    "
    ++ "<main id=\"main-content\" tabindex=\"-1\">\n      "
    ++ "__MAIN_CONTENT__" ++ "\n    </main>\n    <aside class=\"sidebar\">\n      "
    ++ "__SIDEBAR__"
    ++ "\n    </aside>\n  </div>\n  <footer class=\"site-footer\">\n    <p>"
    ++ "__FOOTER__" ++ "</p>\n  </footer>\n</body>\n</html>\n"

structure RenderedPage where
  kind : RouteKind
  title : String
  route : String
  outputPath : List String
  html : String

structure RenderLayout where
  kind : RouteKind
  route : RouteTarget
  stylesheetHref : String
  title : String
  description : String
  breadcrumbs : List Breadcrumb
  pageNav : List LinkItem
  main : String
  sidebar : String
  footer : String

structure Renderer where
  basePath : String
  routes : RouteHelper

def Renderer.new (basePath : String) : Except RenderError Renderer := do
  return { basePath, routes := ← RouteHelper.new basePath }

namespace Renderer

variable (renderer : Renderer)

def layoutTitle (layout : RenderLayout) : String :=
  if renderer.basePath = "" then layout.title
  else layout.title ++ " | " ++ trimOf (· = '/') renderer.basePath

def renderLayout (layout : RenderLayout) : RenderedPage :=
  let title := renderer.layoutTitle layout
  let body := replaceText "__PAGE_TITLE__" (escapeHtml title) pageTemplate
  let body := replaceText "__META_DESCRIPTION__" (escapeAttribute layout.description) body
  let body := replaceText "__STYLESHEET_HREF__" (escapeAttribute layout.stylesheetHref) body
  let body := replaceText "__BREADCRUMBS__" (renderBreadcrumbs layout.breadcrumbs) body
  let body :=
    replaceText "__PAGE_NAV__" (renderLinkListNav "Page navigation" layout.pageNav) body
  let body := replaceText "__MAIN_CONTENT__" layout.main body
  let body := replaceText "__SIDEBAR__" layout.sidebar body
  let body := replaceText "__FOOTER__" (escapeHtml layout.footer) body
  {
    kind := layout.kind,
    title := layout.title,
    route := layout.route.route,
    outputPath := layout.route.outputPath,
    html := body
  }

-----------------------------------------------------------------------------------------
-- Parts of pages
-----------------------------------------------------------------------------------------

def bundleNavigation (bundle : Bundle) : Except RenderError (List LinkItem) := do
  return [
    ⟨"Overview", (← renderer.routes.bundle bundle.id).route⟩,
    ⟨"Search", (← renderer.routes.search bundle.id).route⟩,
    ⟨"Graph neighborhood", (← renderer.routes.graph bundle.id).route⟩,
    ⟨"Changes", (← renderer.routes.changes bundle.id).route⟩,
    ⟨"Diagnostics", (← renderer.routes.diagnostics bundle.id none).route⟩
  ]

def bundleTopConcepts (bundle : Bundle) (index : BundleIndex)
    : Except RenderError (List LinkItem) :=
  (index.sortedConcepts.take 6).mapM
    (fun concept => do
      return ⟨concept.displayTitle, (← renderer.routes.concept bundle.id concept.id none).route⟩)

/-- The crumbs of the segments of a path, each with the path down to it. -/
def segmentCrumbs (bundle : Bundle) : List String → List String → Except RenderError (List Breadcrumb)
  | _, [] => .ok []
  | _, [segment] => .ok [.current segment]
  | above, segment :: rest => do
      let joined := joinWith '/' (above ++ [segment])
      let crumb := Breadcrumb.link segment (← renderer.routes.directory bundle.id joined).route
      return crumb :: (← segmentCrumbs bundle (above ++ [segment]) rest)

def directoryBreadcrumbs (bundle : Bundle) (directory : Directory)
    : Except RenderError (List Breadcrumb) := do
  let bundleRoute ← renderer.routes.bundle bundle.id
  let segments ← splitLogicalPath directory.path
  return [.link "Home" renderer.routes.home.route, .link bundle.title bundleRoute.route]
    ++ (← renderer.segmentCrumbs bundle [] segments)

def conceptBreadcrumbs (bundle : Bundle) (concept : Concept)
    : Except RenderError (List Breadcrumb) := do
  let bundleRoute ← renderer.routes.bundle bundle.id
  let parent := conceptParentPath concept.id
  let above ←
    if parent = "" then pure []
    else do
      let route ← renderer.routes.directory bundle.id parent
      pure [Breadcrumb.link (displayDirectoryPath parent) route.route]
  return [.link "Home" renderer.routes.home.route, .link bundle.title bundleRoute.route]
    ++ above ++ [.current concept.displayTitle]

/-- The crumbs of a page below the page of its bundle. -/
def pageBreadcrumbs (bundle : Bundle) (current : String)
    : Except RenderError (List Breadcrumb) := do
  return [
    .link "Home" renderer.routes.home.route,
    .link bundle.title (← renderer.routes.bundle bundle.id).route,
    .current current
  ]

def renderFacetPanel (bundle : Bundle) (title kind : String) (values : List String)
    : Except RenderError String := do
  let items ←
    values.mapM
      (fun value => do return ⟨value, (← renderer.routes.facet kind bundle.id value).route⟩)
  return renderLinkListPanel title items

def renderBacklinks (bundle : Bundle) (index : BundleIndex) (concept : Concept)
    : Except RenderError String := do
  if concept.backlinks = [] then
    return ""
  let items ←
    concept.backlinks.mapM
      (fun backlink => do
        let title :=
          match index.concepts.get? backlink.sourceId with
          | some source => source.displayTitle
          | none => backlink.sourceId
        let href ← renderer.routes.concept bundle.id backlink.sourceId backlink.fragment
        return "<li><a href=\"" ++ escapeHtml href.route ++ "\">" ++ escapeHtml title
          ++ "</a><p class=\"muted\">"
          ++ escapeHtml (backlink.context.getD "Referenced concept") ++ "</p></li>")
  return "<section aria-labelledby=\"backlinks\"><h2 id=\"backlinks\">Backlinks</h2>"
    ++ "<ul class=\"link-list\">" ++ String.join items ++ "</ul></section>"

def renderConceptDiagnostics (bundle : Bundle) (index : BundleIndex) (concept : Concept)
    : Except RenderError String := do
  let diagnostics :=
    index.derivedDiagnostics.filter (fun diagnostic => diagnostic.sourcePath = concept.sourcePath)
  if diagnostics = [] then
    return ""
  let route := (← renderer.routes.diagnostics bundle.id none).route
  let items :=
    diagnostics.map
      (fun diagnostic =>
        "<li><a href=\"" ++ escapeHtml route ++ "#" ++ escapeHtml diagnostic.anchor ++ "\">"
          ++ escapeHtml diagnostic.code ++ "</a>: " ++ escapeHtml diagnostic.message ++ "</li>")
  return "<section aria-labelledby=\"concept-diagnostics\"><h2 id=\"concept-diagnostics\">"
    ++ "Diagnostics</h2><ul class=\"link-list\">" ++ String.join items ++ "</ul></section>"

/-- A normalised target is looked up as the identity of a concept, which no route is. -/
def resolveInternalLink (bundle : Bundle) (index : BundleIndex) (concept : Concept) (link : Link)
    : Except RenderError String := do
  match link.normalizedTargetId with
  | none => return (← renderer.routes.concept bundle.id concept.id link.fragment).route
  | some targetId =>
      let diagnosticsRoute ← renderer.routes.diagnostics bundle.id none
      let broken := diagnosticsRoute.route ++ "#" ++ brokenLinkAnchor concept.id link.rawHref
      match index.concepts.get? targetId with
      | none => return broken
      | some target =>
          if link.fragment.any
              (fun fragment => !target.headings.any (fun heading => heading.id = fragment)) then
            return broken
          else return (← renderer.routes.concept bundle.id targetId link.fragment).route

def linkTarget (bundle : Bundle) (index : BundleIndex) (concept : Concept)
    (diagnosticsRoute : RouteTarget) (link : Link)
    : Except RenderError String :=
  match link.status with
  | .external => .ok link.rawHref
  | .resolved => renderer.resolveInternalLink bundle index concept link
  | .broken | .rejected =>
      .ok (diagnosticsRoute.route ++ "#" ++ brokenLinkAnchor concept.id link.rawHref)

def renderConceptBody (libraries : RenderLibraries) (bundle : Bundle) (index : BundleIndex)
    (concept : Concept)
    : Except RenderError String := do
  let diagnosticsRoute ← renderer.routes.diagnostics bundle.id none
  let targets ←
    concept.outboundLinks.mapM
      (fun link => do
        return (link.rawHref, ← renderer.linkTarget bundle index concept diagnosticsRoute link))
  return sanitizeMarkdown libraries concept.bodyMarkdown (SortedMap.empty.insertAll targets)
    concept.headings

def childLink (bundle : Bundle) (index : BundleIndex) (child : String)
    : Except RenderError LinkItem := do
  let route ← renderer.routes.directory bundle.id child
  let label :=
    match index.directories.get? child with
    | some directory => if directory.title = "" then child else directory.title
    | none => child
  return ⟨label, route.route⟩

def renderDirectoryBody (libraries : RenderLibraries) (bundle : Bundle) (index : BundleIndex)
    (directory : Directory)
    : Except RenderError String := do
  let body := sanitizeMarkdown libraries directory.bodyMarkdown .empty []
  let childLinks ← directory.childDirectories.mapM (renderer.childLink bundle index)
  let concepts := directory.conceptIds.filterMap index.concepts.get?
  let cards ← renderConceptCards bundle concepts renderer.routes
  let logEntries ←
    if directory.logEntries = [] then pure ""
    else renderDirectoryLogEntries directory.logEntries renderer.routes bundle
  return "<section aria-labelledby=\"directory-body\"><h2 id=\"directory-body\">Overview</h2>"
    ++ "<div class=\"prose\">" ++ body ++ "</div></section>"
    ++ renderLinkListPanel "Child directories" childLinks ++ cards ++ logEntries

-----------------------------------------------------------------------------------------
-- Pages
-----------------------------------------------------------------------------------------

def heroSection (eyebrow title text : String) : String :=
  "<section class=\"hero\"><p class=\"eyebrow\">" ++ eyebrow ++ "</p><h1>" ++ title
    ++ "</h1><p>" ++ text ++ "</p></section>"

def metadataRow (term value : String) : String :=
  "<div><dt>" ++ term ++ "</dt><dd>" ++ value ++ "</dd></div>"

def bundleCard (bundle : Bundle) : Except RenderError String := do
  let href ← renderer.routes.bundle bundle.id
  return "<article class=\"panel\"><h2><a href=\"" ++ escapeHtml href.route ++ "\">"
    ++ escapeHtml bundle.title ++ "</a></h2><p class=\"muted\">OKF "
    ++ escapeHtml bundle.okfVersion ++ "</p><ul class=\"meta-list\"><li>"
    ++ toString bundle.directories.length ++ " directories</li><li>"
    ++ toString bundle.concepts.length ++ " concepts</li><li>"
    ++ toString bundle.diagnostics.length ++ " diagnostics</li></ul></article>"

end Renderer

structure WikiProjection where
  schemaVersion : Nat
  generatedAt : String
  sourceRevision : Option String
  bundles : List Bundle

namespace Renderer

variable (renderer : Renderer)

def renderHomePage (projection : WikiProjection) (stylesheetHref : String)
    : Except RenderError RenderedPage := do
  let bundleCards ← projection.bundles.mapM renderer.bundleCard
  let main :=
    heroSection "Knowledge Wiki" "Repository bundles"
        ("Published from normalized OKF projections with stable routes, sanitized content, and "
          ++ "package-owned assets.")
      ++ "<section aria-labelledby=\"bundle-listing\"><h2 id=\"bundle-listing\">Available bundles"
      ++ "</h2><div class=\"panel-grid\">" ++ String.join bundleCards ++ "</div></section>"
  let sidebar :=
    "<section class=\"panel\"><h2>Publication</h2><dl class=\"metadata\">"
      ++ metadataRow "Schema" (toString projection.schemaVersion)
      ++ metadataRow "Generated" (escapeHtml projection.generatedAt)
      ++ metadataRow "Source revision"
        (escapeHtml (projection.sourceRevision.getD "unavailable"))
      ++ "</dl></section>"
  return renderer.renderLayout {
    kind := .home,
    route := renderer.routes.home,
    stylesheetHref,
    title := "Knowledge Wiki",
    description := "Published OKF bundle index",
    breadcrumbs := [.current "Home"],
    pageNav := [],
    main,
    sidebar,
    footer := "Static routes and assets are generated without client-side code."
  }

def renderBundlePage (libraries : RenderLibraries) (bundle : Bundle) (index : BundleIndex)
    (context : RenderContext) (stylesheetHref : String)
    : Except RenderError RenderedPage := do
  let route ← renderer.routes.bundle bundle.id
  let rootBody ←
    match index.rootDirectory with
    | some directory => renderer.renderDirectoryBody libraries bundle index directory
    | none => pure ""
  let typePanel ← renderer.renderFacetPanel bundle "Types" "type" index.types.keys
  let tagPanel ← renderer.renderFacetPanel bundle "Tags" "tag" index.tags.keys
  let description :=
    (index.rootDirectory.bind Directory.description).getD
      "Bundle overview and stable navigation."
  let main :=
    heroSection "Bundle" (escapeHtml bundle.title) (escapeHtml description)
      ++ "<section aria-labelledby=\"bundle-summary\"><h2 id=\"bundle-summary\">Summary</h2>"
      ++ "<dl class=\"metadata\">"
      ++ metadataRow "Bundle id" ("<code>" ++ escapeHtml bundle.id ++ "</code>")
      ++ metadataRow "Root path" ("<code>" ++ escapeHtml bundle.rootPath ++ "</code>")
      ++ metadataRow "OKF version" (escapeHtml bundle.okfVersion)
      ++ metadataRow "Source revision" (escapeHtml (bundle.sourceRevision.getD "unavailable"))
      ++ "</dl></section>" ++ rootBody
      ++ "<section aria-labelledby=\"bundle-facets\"><h2 id=\"bundle-facets\">Browse by facet"
      ++ "</h2><div class=\"panel-grid\">" ++ typePanel ++ tagPanel ++ "</div></section>"
  let navigation ← renderer.bundleNavigation bundle
  let topConcepts ← renderer.bundleTopConcepts bundle index
  let sidebar :=
    renderLinkListPanel "Primary routes" navigation
      ++ renderRelatedContextPanel "Related graph context" (context.bundleItems bundle.id)
      ++ renderLinkListPanel "Top concepts" topConcepts
  return renderer.renderLayout {
    kind := .bundle,
    route,
    stylesheetHref,
    title := bundle.title,
    description := "Bundle overview for " ++ bundle.title,
    breadcrumbs := [.link "Home" renderer.routes.home.route, .current bundle.title],
    pageNav := navigation,
    main,
    sidebar,
    footer := "Core reading and navigation stay available without JavaScript."
  }

def renderDirectoryPage (libraries : RenderLibraries) (bundle : Bundle) (index : BundleIndex)
    (context : RenderContext) (stylesheetHref : String) (directory : Directory)
    : Except RenderError RenderedPage := do
  let route ← renderer.routes.directory bundle.id directory.path
  let main ← renderer.renderDirectoryBody libraries bundle index directory
  let navigation ← renderer.bundleNavigation bundle
  let sidebar :=
    renderLinkListPanel "Bundle routes" navigation
      ++ renderRelatedContextPanel "Related graph context" (context.bundleItems bundle.id)
  let breadcrumbs ← renderer.directoryBreadcrumbs bundle directory
  return renderer.renderLayout {
    kind := .directory,
    route,
    stylesheetHref,
    title := if directory.title = "" then directory.path else directory.title,
    description := directory.description.getD ("Directory view for " ++ directory.path),
    breadcrumbs,
    pageNav := navigation,
    main,
    sidebar,
    footer :=
      "Directory pages expose authored or synthetic indexes with deterministic hierarchy ordering."
  }

def renderConceptPage (libraries : RenderLibraries) (bundle : Bundle) (index : BundleIndex)
    (context : RenderContext) (stylesheetHref : String) (concept : Concept)
    : Except RenderError RenderedPage := do
  let route ← renderer.routes.concept bundle.id concept.id none
  let body ← renderer.renderConceptBody libraries bundle index concept
  let backlinks ← renderer.renderBacklinks bundle index concept
  let sourceDirectory ← renderer.routes.conceptSourceDirectory bundle.id concept.id
  let sourceContext :=
    "<section aria-labelledby=\"source-context\"><h2 id=\"source-context\">Source context</h2>"
      ++ "<dl class=\"metadata\">"
      ++ metadataRow "Source path" ("<code>" ++ escapeHtml concept.sourcePath ++ "</code>")
      ++ metadataRow "Browse directory"
        ("<a href=\"" ++ escapeHtml sourceDirectory.route ++ "\">"
          ++ escapeHtml (displayDirectoryPath (conceptParentPath concept.id)) ++ "</a>")
      ++ "</dl></section>"
  let diagnostics ← renderer.renderConceptDiagnostics bundle index concept
  let main :=
    "<article><header class=\"hero\"><p class=\"eyebrow\">" ++ escapeHtml concept.conceptType
      ++ "</p><h1>" ++ escapeHtml concept.displayTitle ++ "</h1><p>"
      ++ escapeHtml (concept.description.getD "Published concept page.") ++ "</p></header>"
      ++ renderConceptMetadata libraries concept
      ++ "<section aria-labelledby=\"concept-body\"><h2 id=\"concept-body\">Body</h2>"
      ++ "<div class=\"prose\">" ++ body ++ "</div></section>"
      ++ renderCitations concept.citations ++ backlinks ++ sourceContext ++ diagnostics
      ++ "</article>"
  let navigation ← renderer.bundleNavigation bundle
  let sidebar :=
    renderTableOfContents concept.headings ++ renderLinkListPanel "Bundle routes" navigation
      ++ renderRelatedContextPanel "Related graph context"
        (context.conceptItems bundle.id concept.id)
  let breadcrumbs ← renderer.conceptBreadcrumbs bundle concept
  return renderer.renderLayout {
    kind := .concept,
    route,
    stylesheetHref,
    title := concept.displayTitle,
    description := concept.description.getD ("Concept page for " ++ concept.id),
    breadcrumbs,
    pageNav := navigation,
    main,
    sidebar,
    footer :=
      "Concept pages surface backlinks, citations, diagnostics, and related graph context without "
        ++ "inline scripts."
  }

/-- The words that the pages of a facet differ by. -/
structure FacetTexts where
  kind : RouteKind
  segment : String
  eyebrow : String
  noun : String
  title : String → String
  description : String → String → String
  footer : String

def renderFacetPage (texts : FacetTexts) (grouped : SortedMap String (List Concept))
    (bundle : Bundle) (context : RenderContext) (stylesheetHref value : String)
    : Except RenderError RenderedPage := do
  let route ← renderer.routes.facet texts.segment bundle.id value
  let concepts := (grouped.get? value).getD []
  let list ← renderConceptCards bundle concepts renderer.routes
  let main :=
    heroSection texts.eyebrow (escapeHtml value)
      (toString concepts.length ++ " concepts tagged with this " ++ texts.noun ++ ".")
      ++ list
  let navigation ← renderer.bundleNavigation bundle
  let sidebar :=
    renderLinkListPanel "Bundle routes" navigation
      ++ renderRelatedContextPanel "Related graph context" (context.bundleItems bundle.id)
  let breadcrumbs ← renderer.pageBreadcrumbs bundle value
  return renderer.renderLayout {
    kind := texts.kind,
    route,
    stylesheetHref,
    title := texts.title value,
    description := texts.description value bundle.title,
    breadcrumbs,
    pageNav := navigation,
    main,
    sidebar,
    footer := texts.footer
  }

def typeTexts : FacetTexts where
  kind := .typeFacet
  segment := "type"
  eyebrow := "Type"
  noun := "type"
  title value := "Type: " ++ value
  description value bundleTitle := "Browse " ++ value ++ " concepts in " ++ bundleTitle
  footer := "Facet pages keep deterministic concept ordering and stable routes."

def tagTexts : FacetTexts where
  kind := .tagFacet
  segment := "tag"
  eyebrow := "Tag"
  noun := "keyword"
  title value := "Tag: " ++ value
  description value bundleTitle := "Browse #" ++ value ++ " concepts in " ++ bundleTitle
  footer := "Tag routes stay reversible through centralized segment encoding."

def renderTypePage (bundle : Bundle) (index : BundleIndex) (context : RenderContext)
    (stylesheetHref conceptType : String)
    : Except RenderError RenderedPage :=
  renderer.renderFacetPage typeTexts index.conceptsByType bundle context stylesheetHref conceptType

def renderTagPage (bundle : Bundle) (index : BundleIndex) (context : RenderContext)
    (stylesheetHref tag : String)
    : Except RenderError RenderedPage :=
  renderer.renderFacetPage tagTexts index.conceptsByTag bundle context stylesheetHref tag

def renderSearchPage (bundle : Bundle) (index : BundleIndex) (stylesheetHref : String)
    : Except RenderError RenderedPage := do
  let route ← renderer.routes.search bundle.id
  let list ← renderConceptCards bundle index.sortedConcepts renderer.routes
  let main :=
    heroSection "Search" ("Search " ++ escapeHtml bundle.title)
        "Server-rendered concept inventory for keyboard-first browsing."
      ++ "<section aria-labelledby=\"search-form\"><h2 id=\"search-form\">Search form</h2>"
      ++ "<form class=\"search-form\" action=\"" ++ escapeHtml route.route
      ++ "\" method=\"get\"><label for=\"query\">Query</label><input id=\"query\" name=\"q\" "
      ++ "type=\"search\" autocomplete=\"off\" "
      ++ "placeholder=\"Search title, id, tags, and headings\">"
      ++ "<button type=\"submit\">Search</button></form></section>" ++ list
  let navigation ← renderer.bundleNavigation bundle
  let breadcrumbs ← renderer.pageBreadcrumbs bundle "Search"
  return renderer.renderLayout {
    kind := .search,
    route,
    stylesheetHref,
    title := "Search " ++ bundle.title,
    description := "Search index for " ++ bundle.title,
    breadcrumbs,
    pageNav := navigation,
    main,
    sidebar := renderLinkListPanel "Bundle routes" navigation,
    footer :=
      "The search route works as server-rendered navigation even when enhancements are unavailable."
  }

def graphRow (bundle : Bundle) (context : RenderContext) (concept : Concept)
    : Except RenderError String := do
  let href ← renderer.routes.concept bundle.id concept.id none
  return "<article class=\"panel\"><h2><a href=\"" ++ escapeHtml href.route ++ "\">"
    ++ escapeHtml concept.displayTitle ++ "</a></h2><p class=\"muted\">"
    ++ escapeHtml concept.conceptType ++ "</p><p>"
    ++ escapeHtml (concept.description.getD "No description.") ++ "</p>"
    ++ renderRelatedContextInline (context.conceptItems bundle.id concept.id) ++ "</article>"

def renderGraphPage (bundle : Bundle) (index : BundleIndex) (context : RenderContext)
    (stylesheetHref : String)
    : Except RenderError RenderedPage := do
  let route ← renderer.routes.graph bundle.id
  let graphRows ← index.sortedConcepts.mapM (renderer.graphRow bundle context)
  let main :=
    heroSection "Graph neighborhood" (escapeHtml bundle.title)
        "Related graph context is optional and never blocks core wiki reading."
      ++ "<section aria-labelledby=\"graph-listing\"><h2 id=\"graph-listing\">"
      ++ "Concept neighborhoods</h2><div class=\"panel-grid\">" ++ String.join graphRows
      ++ "</div></section>"
  let navigation ← renderer.bundleNavigation bundle
  let sidebar :=
    renderLinkListPanel "Bundle routes" navigation
      ++ renderRelatedContextPanel "Bundle-level context" (context.bundleItems bundle.id)
  let breadcrumbs ← renderer.pageBreadcrumbs bundle "Graph neighborhood"
  return renderer.renderLayout {
    kind := .graph,
    route,
    stylesheetHref,
    title := "Graph neighborhood for " ++ bundle.title,
    description := "Optional graph context for " ++ bundle.title,
    breadcrumbs,
    pageNav := navigation,
    main,
    sidebar,
    footer := "Graph context stays explicitly bounded and degradable."
  }

def changeRow (item : ChangeEntry) : String :=
  let link :=
    match item.href with
    | some href => "<p><a href=\"" ++ escapeHtml href ++ "\">Open</a></p>"
    | none => ""
  "<li><article><h2>" ++ escapeHtml item.title ++ "</h2><p class=\"muted\">"
    ++ escapeHtml item.date ++ "</p><p>" ++ escapeHtml item.summary ++ "</p>" ++ link
    ++ "</article></li>"

/-- The changes in the order of the page: a stable sort, newest first. -/
def sortedChanges (index : BundleIndex) : List ChangeEntry :=
  sortBy (fun item : ChangeEntry => OrderDual.toDual item.sortKey) index.changeEntries

def renderChangesPage (bundle : Bundle) (index : BundleIndex) (stylesheetHref : String)
    : Except RenderError RenderedPage := do
  let route ← renderer.routes.changes bundle.id
  let rows := (sortedChanges index).map changeRow
  let main :=
    heroSection "Recent changes" (escapeHtml bundle.title)
        "Scoped log entries and timestamped concepts sorted newest first."
      ++ "<section aria-labelledby=\"change-list\"><h2 id=\"change-list\">Published activity</h2>"
      ++ "<ol class=\"timeline\">" ++ String.join rows ++ "</ol></section>"
  let navigation ← renderer.bundleNavigation bundle
  let breadcrumbs ← renderer.pageBreadcrumbs bundle "Changes"
  return renderer.renderLayout {
    kind := .changes,
    route,
    stylesheetHref,
    title := "Changes for " ++ bundle.title,
    description := "Recent changes for " ++ bundle.title,
    breadcrumbs,
    pageNav := navigation,
    main,
    sidebar := renderLinkListPanel "Bundle routes" navigation,
    footer :=
      "Change aggregation stays deterministic across authored logs and timestamped concepts."
  }

def renderDiagnosticsPage (bundle : Bundle) (index : BundleIndex) (stylesheetHref : String)
    : Except RenderError RenderedPage := do
  let route ← renderer.routes.diagnostics bundle.id none
  let diagnostics := renderBundleDiagnostics bundle index.derivedDiagnostics
  let main :=
    heroSection "Diagnostics" (escapeHtml bundle.title)
        "Broken links and validation messages remain visible instead of silently failing."
      ++ renderDiagnosticsTable diagnostics
  let navigation ← renderer.bundleNavigation bundle
  let breadcrumbs ← renderer.pageBreadcrumbs bundle "Diagnostics"
  return renderer.renderLayout {
    kind := .diagnostics,
    route,
    stylesheetHref,
    title := "Diagnostics for " ++ bundle.title,
    description := "Diagnostics and broken links for " ++ bundle.title,
    breadcrumbs,
    pageNav := navigation,
    main,
    sidebar := renderLinkListPanel "Bundle routes" navigation,
    footer := "Unsafe or unresolved links point here through stable diagnostic anchors."
  }

end Renderer

-- The site

structure RenderedAsset where
  route : String
  outputPath : List String
  contentType : String
  bytes : List UInt8

structure RenderSite where
  pages : List RenderedPage
  assets : List RenderedAsset
  manifest : List ManifestEntry

def stylesheetPath : String := "assets/wiki.css"

def routeManifestPath : String := "_k-wiki/routes.json"

/-- `to_string_lossy` of an output path. -/
def pathText (outputPath : List String) : String := joinWith '/' outputPath

def RenderedPage.manifestEntry (page : RenderedPage) : ManifestEntry :=
  {
    kind := page.kind,
    route := page.route,
    outputPath := pathText page.outputPath,
    title := page.title
  }

namespace Renderer

variable (renderer : Renderer)

/-- The pages of one bundle. -/
def renderBundle (libraries : RenderLibraries) (context : RenderContext) (stylesheetHref : String)
    (bundle : Bundle)
    : Except RenderError (List RenderedPage) := do
  let index := BundleIndex.new bundle
  let bundlePage ← renderer.renderBundlePage libraries bundle index context stylesheetHref
  let directoryPages ←
    (bundle.directories.filter (fun directory => directory.path ≠ "")).mapM
      (renderer.renderDirectoryPage libraries bundle index context stylesheetHref)
  let conceptPages ←
    bundle.concepts.mapM (renderer.renderConceptPage libraries bundle index context stylesheetHref)
  let typePages ←
    index.types.keys.mapM (renderer.renderTypePage bundle index context stylesheetHref)
  let tagPages ← index.tags.keys.mapM (renderer.renderTagPage bundle index context stylesheetHref)
  let searchPage ← renderer.renderSearchPage bundle index stylesheetHref
  let graphPage ← renderer.renderGraphPage bundle index context stylesheetHref
  let changesPage ← renderer.renderChangesPage bundle index stylesheetHref
  let diagnosticsPage ← renderer.renderDiagnosticsPage bundle index stylesheetHref
  return [bundlePage] ++ directoryPages ++ conceptPages ++ typePages ++ tagPages
    ++ [searchPage, graphPage, changesPage, diagnosticsPage]

def renderSite (libraries : RenderLibraries) (projection : WikiProjection)
    (context : RenderContext)
    : Except RenderError RenderSite := do
  let stylesheet ← renderer.routes.asset stylesheetPath
  let homePage ← renderer.renderHomePage projection stylesheet.route
  let bundlePages ←
    projection.bundles.mapM (renderer.renderBundle libraries context stylesheet.route)
  let pages := sortBy RenderedPage.route (homePage :: bundlePages.flatten)
  let manifestRoute ← renderer.routes.asset routeManifestPath
  let manifest :=
    pages.map RenderedPage.manifestEntry
      ++ [{
        kind := .manifest,
        route := manifestRoute.route,
        outputPath := pathText manifestRoute.outputPath,
        title := "Route manifest"
      }]
  let assets : List RenderedAsset :=
    [
      {
        route := stylesheet.route,
        outputPath := stylesheet.outputPath,
        contentType := "text/css; charset=utf-8",
        bytes := libraries.stylesheet
      },
      {
        route := manifestRoute.route,
        outputPath := manifestRoute.outputPath,
        contentType := "application/json",
        bytes := libraries.manifestBytes manifest
      }
    ]
  return { pages, assets := sortBy RenderedAsset.route assets, manifest }

end Renderer

end CodebaseGraph.Wiki.Render
