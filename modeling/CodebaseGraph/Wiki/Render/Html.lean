import CodebaseGraph.Wiki.Compiler
import CodebaseGraph.Wiki.Render.Routes

/-! The HTML fragments that the pages of the site are put together from
(`crates/k-wiki/src/render/mod.rs`). The Markdown parser with the renderer's options, the HTML
writer, the sanitizer and the JSON writers are parameters.
-/

namespace CodebaseGraph.Wiki.Render

open CodebaseGraph.Collections CodebaseGraph.Sorting

-- Markdown

/-- The events of the Markdown parser that the renderer reads or passes on. -/
inductive HtmlEvent where
  | startHeading (level : Nat) (id : Option String) (classes : List String)
      (attrs : List (String × Option String))
  | endHeading
  | startLink (linkType destUrl title id : String)
  | endLink
  | html (text : String)
  | inlineHtml (text : String)
  | text (text : String)
  | code (text : String)
  | softBreak
  | hardBreak
  | other (name : String)
deriving DecidableEq, Repr

structure RenderLibraries where
  markdownEvents : String → List HtmlEvent
  pushHtml : List HtmlEvent → String
  clean : String → String
  jsonText : Syntax.Value → String
  manifestBytes : List ManifestEntry → List UInt8
  stylesheet : List UInt8

/-- One event with its rewritten heading or link; `index` counts the headings so far. -/
def rewriteEvents (linkTargets : SortedMap String String) (headings : List Heading)
    : Nat → List HtmlEvent → List HtmlEvent
  | _, [] => []
  | index, .startHeading level _ classes attrs :: rest =>
      .startHeading level (headings[index]?.map Heading.id) classes attrs
        :: rewriteEvents linkTargets headings (index + 1) rest
  | index, .startLink linkType destUrl title id :: rest =>
      .startLink linkType ((linkTargets.get? destUrl).getD destUrl) title id
        :: rewriteEvents linkTargets headings index rest
  | index, .inlineHtml text :: rest => .html text :: rewriteEvents linkTargets headings index rest
  | index, event :: rest => event :: rewriteEvents linkTargets headings index rest

def sanitizeMarkdown (libraries : RenderLibraries) (markdown : String)
    (linkTargets : SortedMap String String) (headings : List Heading)
    : String :=
  libraries.clean
    (libraries.pushHtml
      (rewriteEvents linkTargets headings 0 (libraries.markdownEvents markdown)))

-- Lists of links

structure Breadcrumb where
  label : String
  href : Option String
deriving DecidableEq, Repr

def Breadcrumb.link (label href : String) : Breadcrumb := { label, href := some href }

def Breadcrumb.current (label : String) : Breadcrumb := { label, href := none }

structure LinkItem where
  label : String
  href : String
deriving DecidableEq, Repr

structure RelatedContextItem where
  kind : String
  title : String
  summary : String
  href : Option String

structure RenderContext where
  bundleContext : SortedMap String (List RelatedContextItem) := .empty
  conceptContext : SortedMap String (SortedMap String (List RelatedContextItem)) := .empty

def RenderContext.bundleItems (context : RenderContext) (bundleId : String)
    : List RelatedContextItem :=
  (context.bundleContext.get? bundleId).getD []

def RenderContext.conceptItems (context : RenderContext) (bundleId conceptId : String)
    : List RelatedContextItem :=
  ((context.conceptContext.get? bundleId).bind (·.get? conceptId)).getD []

def renderLinkItem (item : LinkItem) : String :=
  "<li><a href=\"" ++ escapeHtml item.href ++ "\">" ++ escapeHtml item.label ++ "</a></li>"

def renderLinkListPanel (title : String) (items : List LinkItem) : String :=
  if items = [] then ""
  else
    "<section class=\"panel\"><h2>" ++ escapeHtml title ++ "</h2><ul class=\"link-list\">"
      ++ String.join (items.map renderLinkItem) ++ "</ul></section>"

def renderLinkListNav (title : String) (items : List LinkItem) : String :=
  if items = [] then ""
  else
    "<nav aria-label=\"" ++ escapeAttribute title ++ "\"><ul class=\"page-nav\">"
      ++ String.join (items.map renderLinkItem) ++ "</ul></nav>"

def renderRelatedContextPanel (title : String) (items : List RelatedContextItem) : String :=
  if items.isEmpty then ""
  else
    let body :=
      items.map
        (fun item =>
          let link :=
            match item.href with
            | some href => " <a href=\"" ++ escapeHtml href ++ "\">Open</a>"
            | none => ""
          "<li><strong>" ++ escapeHtml item.kind ++ "</strong> " ++ escapeHtml item.title ++ "<p>"
            ++ escapeHtml item.summary ++ "</p>" ++ link ++ "</li>")
    "<section class=\"panel\"><h2>" ++ escapeHtml title ++ "</h2><ul class=\"context-list\">"
      ++ String.join body ++ "</ul></section>"

def renderRelatedContextInline (items : List RelatedContextItem) : String :=
  if items.isEmpty then ""
  else
    let body :=
      items.map
        (fun item =>
          match item.href with
          | some href =>
              "<li><a href=\"" ++ escapeHtml href ++ "\">" ++ escapeHtml item.title ++ "</a></li>"
          | none => "<li>" ++ escapeHtml item.title ++ "</li>")
    "<ul class=\"inline-list\">" ++ String.join body ++ "</ul>"

def renderBreadcrumbs (items : List Breadcrumb) : String :=
  let body :=
    items.map
      (fun item =>
        match item.href with
        | some href =>
            "<li><a href=\"" ++ escapeHtml href ++ "\">" ++ escapeHtml item.label ++ "</a></li>"
        | none => "<li><span aria-current=\"page\">" ++ escapeHtml item.label ++ "</span></li>")
  "<nav class=\"breadcrumbs\" aria-label=\"Breadcrumbs\"><ol>" ++ String.join body ++ "</ol></nav>"

-- Concepts

def renderMetadataSection (title : String) (rows : List (String × String)) : String :=
  let body :=
    rows.map
      (fun (term, value) => "<div><dt>" ++ escapeHtml term ++ "</dt><dd>" ++ value ++ "</dd></div>")
  "<section aria-labelledby=\"metadata-heading\"><h2 id=\"metadata-heading\">" ++ escapeHtml title
    ++ "</h2><dl class=\"metadata\">" ++ String.join body ++ "</dl></section>"

def renderConceptMetadata (libraries : RenderLibraries) (concept : Concept) : String :=
  let tags :=
    if concept.tags = [] then []
    else
      [("Tags", " ".intercalate (concept.tags.map (fun tag => "<code>" ++ escapeHtml tag ++ "</code>")))]
  let extensions :=
    if concept.extensions.entries.isEmpty then []
    else
      let items :=
        concept.extensions.entries.map
          (fun (key, value) =>
            "<li><code>" ++ escapeHtml key ++ "</code>: " ++ escapeHtml (libraries.jsonText value)
              ++ "</li>")
      [("Extensions", "<ul class=\"extension-list\">" ++ String.join items ++ "</ul>")]
  renderMetadataSection "Metadata"
    ([("Concept id", "<code>" ++ escapeHtml concept.id ++ "</code>"),
        ("Type", escapeHtml concept.conceptType)]
      ++ tags
      ++ (concept.timestamp.map (fun timestamp => ("Timestamp", escapeHtml timestamp))).toList
      ++ (concept.resource.map (fun resource => ("Resource", escapeHtml resource))).toList
      ++ extensions)

def renderCitations (citations : List Citation) : String :=
  if citations = [] then ""
  else
    let items :=
      citations.map
        (fun citation =>
          let link :=
            match citation.href with
            | some href => " <a href=\"" ++ escapeHtml href ++ "\">Source</a>"
            | none => ""
          "<li><strong>[" ++ toString citation.number ++ "]</strong> " ++ escapeHtml citation.text
            ++ link ++ "</li>")
    "<section aria-labelledby=\"citations\"><h2 id=\"citations\">Citations</h2>"
      ++ "<ol class=\"citation-list\">" ++ String.join items ++ "</ol></section>"

def renderTableOfContents (headings : List Heading) : String :=
  let items :=
    String.join
      ((headings.filter (fun heading => heading.level > 1)).map
        (fun heading =>
          "<li class=\"toc-level-" ++ toString heading.level ++ "\"><a href=\"#"
            ++ escapeHtml heading.id ++ "\">" ++ escapeHtml heading.text ++ "</a></li>"))
  if headings = [] ∨ items = "" then ""
  else
    "<nav class=\"panel\" aria-labelledby=\"toc-heading\"><h2 id=\"toc-heading\">"
      ++ "Table of contents</h2><ol class=\"toc-list\">" ++ items ++ "</ol></nav>"

def renderConceptCard (routes : RouteHelper) (bundle : Bundle) (concept : Concept)
    : Except RenderError String := do
  let href ← routes.concept bundle.id concept.id none
  return "<article class=\"panel\"><h2><a href=\"" ++ escapeHtml href.route ++ "\">"
    ++ escapeHtml concept.displayTitle ++ "</a></h2><p class=\"muted\">"
    ++ escapeHtml concept.conceptType ++ "</p><p>"
    ++ escapeHtml (concept.description.getD "No description.") ++ "</p></article>"

def renderConceptCards (bundle : Bundle) (concepts : List Concept) (routes : RouteHelper)
    : Except RenderError String := do
  if concepts.isEmpty then
    return "<section class=\"panel\"><h2>Concepts</h2><p>No concepts published.</p></section>"
  let cards ← concepts.mapM (renderConceptCard routes bundle)
  return "<section aria-labelledby=\"concept-listing\"><h2 id=\"concept-listing\">Concepts</h2>"
    ++ "<div class=\"panel-grid\">" ++ String.join cards ++ "</div></section>"

-- Logs and diagnostics

def renderLogEntry (routes : RouteHelper) (bundle : Bundle) (entry : LogEntry)
    : Except RenderError String := do
  let href ←
    if entry.scopePath = "" then routes.bundle bundle.id
    else routes.directory bundle.id entry.scopePath
  return "<li><article><h3><a href=\"" ++ escapeHtml href.route ++ "\">"
    ++ escapeHtml entry.category ++ "</a></h3><p class=\"muted\">" ++ escapeHtml entry.date
    ++ "</p><p>" ++ escapeHtml entry.text ++ "</p></article></li>"

def renderDirectoryLogEntries (entries : List LogEntry) (routes : RouteHelper) (bundle : Bundle)
    : Except RenderError String := do
  let rows ← entries.mapM (renderLogEntry routes bundle)
  return "<section aria-labelledby=\"directory-log\"><h2 id=\"directory-log\">Log entries</h2>"
    ++ "<ol class=\"timeline\">" ++ String.join rows ++ "</ol></section>"

structure RenderedDiagnostic where
  anchor : String
  severity : DiagnosticSeverity
  code : String
  sourcePath : String
  line : Option Nat
  message : String
deriving DecidableEq, Repr

def severityText : DiagnosticSeverity → String
  | .error => "error"
  | .warning => "warning"
  | .info => "info"

def diagnosticLabel : LinkStatus → String
  | .broken => "Broken internal link"
  | .rejected => "Rejected unsafe link"
  | .external => "External link"
  | .resolved => "Resolved link"

/-- The FNV-1a hash of the two texts, on 64 bits. -/
def brokenLinkAnchor (conceptId rawHref : String) : String :=
  let hash :=
    (bytesOf conceptId ++ bytesOf rawHref).foldl
      (fun hash byte => (hash ^^^ byte.toNat) * 0x100000001b3 % 2 ^ 64) 0xcbf29ce484222325
  "diag-" ++ lowerHex 16 hash

def renderExternalDiagnostic (diagnostic : Diagnostic) : RenderedDiagnostic :=
  {
    anchor := brokenLinkAnchor diagnostic.sourcePath diagnostic.message,
    severity := diagnostic.severity,
    code := diagnostic.code,
    sourcePath := diagnostic.sourcePath,
    line := diagnostic.line,
    message := diagnostic.message
  }

def RenderedDiagnostic.key (diagnostic : RenderedDiagnostic)
    : String ×ₗ String ×ₗ String ×ₗ String ×ₗ WithBot Nat :=
  toLex
    (
      diagnostic.sourcePath,
      toLex
        (
          diagnostic.code,
          toLex (diagnostic.message, toLex (diagnostic.anchor, absentFirst diagnostic.line))
        )
    )

def renderBundleDiagnostics (bundle : Bundle) (derived : List RenderedDiagnostic)
    : List RenderedDiagnostic :=
  sortBy RenderedDiagnostic.key (bundle.diagnostics.map renderExternalDiagnostic ++ derived)

def renderDiagnosticsTable (diagnostics : List RenderedDiagnostic) : String :=
  if diagnostics = [] then
    "<section class=\"panel\"><h2>Diagnostics</h2><p>No diagnostics published.</p></section>"
  else
    let rows :=
      diagnostics.map
        (fun diagnostic =>
          let line :=
            match diagnostic.line with
            | some line => toString line
            | none => "n/a"
          "<tr id=\"" ++ escapeHtml diagnostic.anchor ++ "\"><th scope=\"row\">"
            ++ escapeHtml (severityText diagnostic.severity) ++ "</th><td><code>"
            ++ escapeHtml diagnostic.code ++ "</code></td><td><code>"
            ++ escapeHtml diagnostic.sourcePath ++ "</code></td><td>" ++ escapeHtml line
            ++ "</td><td>" ++ escapeHtml diagnostic.message ++ "</td></tr>")
    "<section aria-labelledby=\"diagnostic-table\"><h2 id=\"diagnostic-table\">Diagnostics</h2>"
      ++ "<div class=\"table-wrap\"><table><thead><tr><th scope=\"col\">Severity</th>"
      ++ "<th scope=\"col\">Code</th><th scope=\"col\">Source</th><th scope=\"col\">Line</th>"
      ++ "<th scope=\"col\">Message</th></tr></thead><tbody>" ++ String.join rows
      ++ "</tbody></table></div></section>"

end CodebaseGraph.Wiki.Render
