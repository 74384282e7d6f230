import CodebaseGraph.Wiki.Model
import CodebaseGraph.Wiki.Text

/-! Compilation of a bundle's documents into its concepts, directories and links
(`crates/k-wiki/src/compiler/mod.rs`). The Markdown parser and the Unicode tables are
parameters.
-/

namespace CodebaseGraph.Wiki

open CodebaseGraph.Collections CodebaseGraph.Sorting

-- Sources

inductive SourceDocumentKind where
  | concept
  | index
  | log
deriving DecidableEq, Repr

structure SourceDocument where
  path : String
  kind : SourceDocumentKind := .concept
  title : Option String := none
  description : Option String := none
  conceptType : Option String := none
  resource : Option String := none
  tags : List String := []
  timestamp : Option String := none
  extensions : SortedMap String Syntax.Value := .empty
  bodyMarkdown : String

structure SourceBundle where
  id : String
  rootPath : String
  okfVersion : String
  title : String
  sourceRevision : Option String := none
  documents : List SourceDocument

/-- The events of the Markdown parser that the compiler reads. -/
inductive MarkdownEvent where
  | startHeading (level : Nat)
  | endHeading
  | startLink (destUrl : String)
  | endLink
  | text (text : String)
  | code (text : String)
  | softBreak
  | hardBreak
  | other
deriving DecidableEq

/-- The Markdown parser, which reports each event with the byte it starts at, and the Unicode
case tables.
-/
structure TextLibraries where
  markdownEvents : String → List (MarkdownEvent × Nat)
  toLowercase : Char → List Char
  toUppercase : Char → List Char
  lowercaseText : String → String
  isAlphanumeric : Char → Bool

-- Paths and routes

def conceptRouteId (bundleId conceptId : String) : String :=
  "bundle:" ++ bundleId ++ ":concept:" ++ conceptId

def directoryRouteId (bundleId directoryPath : String) : String :=
  if directoryPath = "" then "bundle:" ++ bundleId ++ ":directory:/"
  else "bundle:" ++ bundleId ++ ":directory:" ++ directoryPath

def directoryPathFromRoute (routeId : String) : Option String :=
  (splitOnceAt ":directory:" routeId).map
    (fun (_, path) => if path = "/" then "" else path)

def normalizeSourcePath (path : String) : String :=
  joinWith '/' ((splitOn '/' (replaceChar '\\' '/' path)).filter (fun part => part ≠ "" ∧ part ≠ "."))

def conceptIdFromSourcePath (path : String) : String := (stripSuffix path ".md").getD path

def parentDirectory (path : String) : String :=
  match rsplitOnce '/' path with
  | some (parent, _) => parent
  | none => ""

def parentDirectoryFromDirectory (path : String) : String :=
  match rsplitOnce '/' path with
  | some (parent, _) => parent
  | none => ""

def reservedDocumentDirectory (path : String) : String :=
  match rsplitOnce '/' (normalizeSourcePath path) with
  | some (parent, _) => parent
  | none => ""

/-- A directory and those above it, innermost first; each is shorter than the one before, so
the length of the path is enough fuel.
-/
def enclosingScopes : Nat → String → List String
  | 0, scope => [scope]
  | fuel + 1, scope =>
      if scope = "" then [scope]
      else scope :: enclosingScopes fuel (parentDirectoryFromDirectory scope)

def ancestorDirectories (path : String) : List String :=
  (enclosingScopes path.length path).reverse

inductive ResolvedTarget where
  | concept (conceptId routeId : String)
  | directory (routeId : String)
deriving DecidableEq, Repr

def ResolvedTarget.routeId : ResolvedTarget → String
  | .concept _ routeId | .directory routeId => routeId

inductive ResolvePathError where
  | traversal
  | broken (target : Option ResolvedTarget) (message : String)
deriving DecidableEq, Repr

/-- The segments of a path added to those it starts from. -/
def walkSegments : List String → List String → Option (List String)
  | parts, [] => some parts
  | parts, part :: rest =>
      if part = "" ∨ part = "." then walkSegments parts rest
      else if part = ".." then
        if parts = [] then none else walkSegments parts.dropLast rest
      else walkSegments (parts ++ [part]) rest

def normalizeLinkPath (baseDirectory rawPath : String) : Except ResolvePathError String :=
  let cleaned := replaceChar '\\' '/' rawPath
  let parts :=
    if startsWith cleaned "/" || baseDirectory = "" then []
    else (splitOn '/' baseDirectory).filter (· ≠ "")
  match walkSegments parts (splitOn '/' cleaned) with
  | some parts => .ok (joinWith '/' parts)
  | none => .error .traversal

def resolveTargetPath (bundleId sourceDirectory rawPath : String)
    (conceptIds directoryPaths : SortedSet String)
    : Except ResolvePathError ResolvedTarget := do
  let isAbsolute := startsWith rawPath "/"
  let hasTrailingSlash := endsWith rawPath "/"
  let baseDirectory := if isAbsolute then "" else sourceDirectory
  let normalized ← normalizeLinkPath baseDirectory rawPath
  if normalized = "" then
    return .directory (directoryRouteId bundleId "")
  if endsWith normalized "/index.md" || normalized = "index.md" then
    return .directory (directoryRouteId bundleId (reservedDocumentDirectory normalized))
  if endsWith normalized "/log.md" || normalized = "log.md" then
    return .directory (directoryRouteId bundleId (reservedDocumentDirectory normalized))
  if let some conceptId := stripSuffix normalized ".md" then
    if conceptIds.contains conceptId then
      return .concept conceptId (conceptRouteId bundleId conceptId)
    else
      throw
        (.broken (some (.concept conceptId (conceptRouteId bundleId conceptId)))
          ("link `" ++ rawPath ++ "` points to missing concept `" ++ conceptId ++ "`"))
  if conceptIds.contains normalized then
    return .concept normalized (conceptRouteId bundleId normalized)
  if directoryPaths.contains normalized || hasTrailingSlash then
    if directoryPaths.contains normalized then
      return .directory (directoryRouteId bundleId normalized)
    else
      throw
        (.broken (some (.directory (directoryRouteId bundleId normalized)))
          ("link `" ++ rawPath ++ "` points to missing directory `" ++ normalized ++ "`"))
  throw
    (.broken (some (.concept normalized (conceptRouteId bundleId normalized)))
      ("link `" ++ rawPath ++ "` points to missing target `" ++ normalized ++ "`"))

-----------------------------------------------------------------------------------------
-- Markdown
-----------------------------------------------------------------------------------------

structure ParsedLink where
  rawHref : String
  fragment : Option String
  context : Option String
  line : Option Nat
deriving DecidableEq, Repr

structure ParsedMarkdown where
  headings : List Heading
  fragments : SortedSet String
  links : List ParsedLink
  citations : List Citation

structure LinkCapture where
  rawHref : String
  context : String
  line : Option Nat

def splitFragment (href : String) : String × Option String :=
  match splitOnce '#' href with
  | some (path, fragment) => (path, some fragment)
  | none => (href, none)

/-- Runs of other characters become one dash each, none of them at an end. -/
def slugifyFragment (libraries : TextLibraries) (text : String) : String :=
  let step : List Char × Bool → Char → List Char × Bool :=
    fun (slug, lastWasDash) character =>
      if libraries.isAlphanumeric character then (slug ++ [character], false)
      else if !lastWasDash then (slug ++ ['-'], true)
      else (slug, lastWasDash)
  let (slug, _) := (text.toList.flatMap libraries.toLowercase).foldl step ([], false)
  trimOf (· = '-') (String.ofList slug)

def uniqueSlug (libraries : TextLibraries) (text : String) (counts : SortedMap String Nat)
    : String × SortedMap String Nat :=
  let base := slugifyFragment libraries text
  let count := (counts.get? base).getD 0 + 1
  (if count = 1 then base else base ++ "-" ++ toString count, counts.insert base count)

def lineNumber (text : String) (offset : Nat) : Nat :=
  (text.toUTF8.data.toList.take offset).countP (· = 10) + 1

def normalizeContext (context : String) : Option String :=
  let collapsed := joinWith ' ' (splitWhitespace context)
  if collapsed = "" then none else some collapsed

structure MarkdownState where
  headings : List Heading := []
  headingCounts : SortedMap String Nat := .empty
  fragments : SortedSet String := .empty
  links : List ParsedLink := []
  currentHeading : Option (Nat × String) := none
  currentLink : Option LinkCapture := none

/-- Text belongs to the heading and to the link that are open. -/
def MarkdownState.push (state : MarkdownState) (text : String) : MarkdownState :=
  {
    state with
    currentHeading := state.currentHeading.map (fun (level, current) => (level, current ++ text)),
    currentLink :=
      state.currentLink.map (fun link => { link with context := link.context ++ text })
  }

def MarkdownState.read (libraries : TextLibraries) (body : String) (state : MarkdownState)
    : MarkdownEvent × Nat → MarkdownState
  | (.startHeading level, _) => { state with currentHeading := some (level, "") }
  | (.endHeading, _) =>
      match state.currentHeading with
      | none => state
      | some (level, text) =>
          let state := { state with currentHeading := none }
          let text := trim text
          if text = "" then state
          else
            let (slug, headingCounts) := uniqueSlug libraries text state.headingCounts
            {
              state with
              headingCounts,
              fragments := state.fragments.insert slug (),
              headings := state.headings ++ [{ level, id := slug, text }]
            }
  | (.startLink destUrl, start) =>
      {
        state with
        currentLink :=
          some { rawHref := destUrl, context := "", line := some (lineNumber body start) }
      }
  | (.endLink, _) =>
      match state.currentLink with
      | none => state
      | some link =>
          let fragment :=
            ((splitFragment link.rawHref).2.filter (· ≠ "")).map (slugifyFragment libraries)
          {
            state with
            currentLink := none,
            links :=
              state.links
                ++ [{
                  rawHref := link.rawHref, fragment, context := normalizeContext link.context,
                  line := link.line
                }]
          }
  | (.text text, _) | (.code text, _) => state.push text
  | (.softBreak, _) | (.hardBreak, _) => state.push " "
  | (.other, _) => state

def parseListMarker (line : String) : Option (Nat × String) :=
  match stripPrefix line "- " with
  | some rest => some (1, rest)
  | none =>
      match stripPrefix line "* " with
      | some rest => some (1, rest)
      | none =>
          let marker := line.toList.takeWhile Char.isDigit
          if marker = [] then none
          else
            match stripPrefix (String.ofList (line.toList.drop marker.length)) ". " with
            | none => none
            | some rest =>
                let number := marker.foldl (fun value digit => value * 10 + (digit.toNat - 48)) 0
                -- `u32` numbers: a larger one does not parse
                if number < 2 ^ 32 then some (number, rest) else none

def parseHeadingLine (line : String) : Option (Nat × String) :=
  let hashes := (line.toList.takeWhile (· = '#')).length
  if hashes = 0 then none
  else
    let text := trim (String.ofList (line.toList.drop hashes))
    if text = "" then none else some (hashes, text)

/-- The indented lines that continue a list item. -/
def continuation : List String → List String
  | [] => []
  | next :: rest =>
      let trimmed := trimEndOf isWhitespace next
      if trim trimmed = "" then []
      else if (parseHeadingLine (trim trimmed)).isSome
          || (parseListMarker (trimStartOf isWhitespace trimmed)).isSome then []
      else if startsWith next " " || startsWith next "\t" then
        trim trimmed :: continuation rest
      else []

def parseListItem : List String → Option (Nat × String × Nat)
  | [] => none
  | first :: rest =>
      match parseListMarker (trimStartOf isWhitespace (trimEndOf isWhitespace first)) with
      | none => none
      | some (number, content) =>
          let more := continuation rest
          some (number, joinWith ' ' (trim content :: more), 1 + more.length)

/-- The targets between `](` and the next closing bracket. -/
def hrefsIn : Nat → List Char → List String
  | 0, _ => []
  | fuel + 1, ']' :: '(' :: candidate =>
      match candidate.dropWhile (· ≠ ')') with
      | [] => []
      | _ :: remaining =>
          String.ofList (candidate.takeWhile (· ≠ ')')) :: hrefsIn fuel remaining
  | fuel + 1, _ :: rest => hrefsIn fuel rest
  | _ + 1, [] => []

def extractAllHrefs (text : String) : List String := hrefsIn text.length text.toList

def extractFirstHref (text : String) : Option String := (extractAllHrefs text).head?

def eqIgnoreAsciiCase (first second : String) : Bool :=
  first.toList.map Char.toLower = second.toList.map Char.toLower

/-- Reads the list items below a heading `Citations`, up to the next heading of its level. -/
def citationsIn : Nat → Option Nat → List String → List Citation
  | 0, _, _ => []
  | _ + 1, _, [] => []
  | fuel + 1, level, line :: rest =>
      let item (level : Option Nat) : List Citation :=
        match level with
        | none => citationsIn fuel none rest
        | some _ =>
            match parseListItem (line :: rest) with
            | some (number, text, consumed) =>
                { number, href := extractFirstHref text, text }
                  :: citationsIn fuel level ((line :: rest).drop consumed)
            | none => citationsIn fuel level rest
      match parseHeadingLine (trim line) with
      | none => item level
      | some (found, heading) =>
          if eqIgnoreAsciiCase heading "citations" then citationsIn fuel (some found) rest
          else if level.any (found ≤ ·) then []
          else item level

def extractCitations (body : String) : List Citation :=
  let all := lines body
  citationsIn all.length none all

def parseMarkdown (libraries : TextLibraries) (body : String) : ParsedMarkdown :=
  let read := (libraries.markdownEvents body).foldl (MarkdownState.read libraries body) {}
  {
    headings := read.headings, fragments := read.fragments, links := read.links,
    citations := extractCitations body
  }

-----------------------------------------------------------------------------------------
-- Directories and logs
-----------------------------------------------------------------------------------------

structure DirectoryDraft where
  title : Option String := none
  description : Option String := none
  indexSource : IndexSource := .synthetic
  bodyMarkdown : String := ""
  childDirectories : SortedSet String := .empty
  conceptIds : SortedSet String := .empty
  logEntries : List LogEntry := []

def DirectoryDraft.intoDirectory (draft : DirectoryDraft) (path : String) : Directory :=
  {
    path,
    title := draft.title.getD "",
    description := draft.description,
    indexSource := draft.indexSource,
    bodyMarkdown := draft.bodyMarkdown,
    childDirectories := draft.childDirectories.keys,
    conceptIds := draft.conceptIds.keys,
    logEntries := draft.logEntries
  }

abbrev Directories := SortedMap String DirectoryDraft

def ensureDirectoryChain (path : String) (directories : Directories) : Directories :=
  (ancestorDirectories path).foldl (fun map scope => map.update scope {} id) directories

def addDirectoryHierarchy (directories : Directories) : Directories :=
  directories.keys.foldl
    (fun map path =>
      if path = "" then map
      else
        map.modify (parentDirectoryFromDirectory path)
          (fun entry =>
            { entry with childDirectories := entry.childDirectories.insert path () }))
    directories

def titleCaseWord (libraries : TextLibraries) (word : String) : String :=
  match word.toList with
  | [] => ""
  | first :: rest =>
      String.ofList (libraries.toUppercase first) ++ libraries.lowercaseText (String.ofList rest)

def defaultDirectoryTitle (libraries : TextLibraries) (path bundleTitle : String) : String :=
  if path = "" then bundleTitle
  else
    let name := ((splitOn '/' path).getLast?.getD path).toList
    let words := (name.splitOnP (fun character => character = '-' || character = '_')).filter (· ≠ [])
    joinWith ' ' (words.map (fun word => titleCaseWord libraries (String.ofList word)))

def synthesizeDirectoryBody (path : String) (draft : DirectoryDraft)
    (conceptTitles : SortedMap String String)
    : String :=
  let heading := "# " ++ draft.title.getD "" ++ "\n"
  let children :=
    if draft.childDirectories.keys = [] then ""
    else
      "\n## Directories\n"
        ++ String.join (draft.childDirectories.keys.map (fun child => "- `" ++ child ++ "`\n"))
  let concepts :=
    if draft.conceptIds.keys = [] then ""
    else
      "\n## Concepts\n"
        ++ String.join
          (draft.conceptIds.keys.map
            (fun conceptId =>
              let named :=
                match conceptTitles.get? conceptId with
                | some title => if title ≠ conceptId then " — " ++ title else ""
                | none => ""
              "- `" ++ conceptId ++ "`" ++ named ++ "\n"))
  let blank :=
    if path = "" ∧ draft.childDirectories.keys = [] ∧ draft.conceptIds.keys = [] then "\n" else ""
  heading ++ children ++ concepts ++ blank

def finalizeDirectories (libraries : TextLibraries) (bundleTitle : String)
    (concepts : List Concept) (directories : Directories)
    : Directories :=
  let conceptTitles : SortedMap String String :=
    concepts.foldl (fun map concept => map.insert concept.id concept.displayTitle) .empty
  directories.mapValues
    (fun path draft =>
      let draft :=
        if draft.title = none then
          { draft with title := some (defaultDirectoryTitle libraries path bundleTitle) }
        else draft
      if draft.indexSource = .synthetic then
        { draft with bodyMarkdown := synthesizeDirectoryBody path draft conceptTitles }
      else draft)

def buildDirectoryFragments (libraries : TextLibraries) (directories : Directories)
    : SortedMap String (SortedSet String) :=
  directories.mapValues (fun _ draft => (parseMarkdown libraries draft.bodyMarkdown).fragments)

structure LogSource where
  scopePath : String
  sourcePath : String
  bodyMarkdown : String

def isIsoDate (text : String) : Bool :=
  let bytes := text.toUTF8.data.toList
  bytes.length = 10
    && (bytes.zipIdx.all
      (fun (byte, index) =>
        if index = 4 ∨ index = 7 then byte = 45 else 48 ≤ byte && byte ≤ 57))

/-- Reads the entries of a log from line `index + 1` on, under the last date and category. -/
def logEntriesIn (log : LogSource)
    : Nat → Nat → Option String → String → List String → List LogEntry × List Diagnostic
  | 0, _, _, _, _ => ([], [])
  | _ + 1, _, _, _, [] => ([], [])
  | fuel + 1, index, date, category, line :: rest =>
      match parseHeadingLine (trim line) with
      | some (_, heading) =>
          if isIsoDate heading then logEntriesIn log fuel (index + 1) (some heading) "update" rest
          else
            logEntriesIn log fuel (index + 1) date (if date.isSome then heading else category) rest
      | none =>
          match parseListItem (line :: rest) with
          | none => logEntriesIn log fuel (index + 1) date category rest
          | some (_, text, consumed) =>
              let (entries, diagnostics) :=
                logEntriesIn log fuel (index + consumed) date category
                  ((line :: rest).drop consumed)
              match date with
              | some date =>
                  (
                    {
                      scopePath := log.scopePath, date, category, text,
                      links := extractAllHrefs text
                    } :: entries,
                    diagnostics
                  )
              | none =>
                  (
                    entries,
                    .warning "invalid_log_entry" log.sourcePath (some (index + 1))
                      "log entries must appear under an ISO date heading" :: diagnostics
                  )

def parseLogEntries (log : LogSource) : List LogEntry × List Diagnostic :=
  let all := lines log.bodyMarkdown
  logEntriesIn log all.length 0 none "update" all

/-- Each entry is added to the directory of its log and to all above it. -/
def aggregateLogs (diagnostics : List Diagnostic) (logs : List LogSource)
    (directories : Directories)
    : List Diagnostic × Directories :=
  logs.foldl
    (fun (diagnostics, directories) log =>
      let (entries, found) := parseLogEntries log
      (
        diagnostics ++ found,
        entries.foldl
          (fun map entry =>
            (ancestorDirectories log.scopePath).foldl
              (fun map scope =>
                map.modify scope
                  (fun directory => { directory with logEntries := directory.logEntries ++ [entry] }))
              map)
          directories
      ))
    (diagnostics, directories)

-----------------------------------------------------------------------------------------
-- Links
-----------------------------------------------------------------------------------------

inductive LinkResolution where
  | resolved (target : ResolvedTarget)
  | broken (target : Option ResolvedTarget) (message : String)
  | rejected (message : String)
  | external
deriving DecidableEq, Repr

structure LinkIndex where
  bundleId : String
  conceptIds : SortedSet String
  directoryPaths : SortedSet String
  conceptFragments : SortedMap String (SortedSet String)
  directoryFragments : SortedMap String (SortedSet String)

/-- The text before a colon that only scheme characters precede. -/
def linkScheme (href : String) : Option String :=
  go href.toList []
where
  go : List Char → List Char → Option String
    | [], _ => none
    | character :: rest, scheme =>
        if character = ':' then some (String.ofList scheme.reverse)
        else if character = '/' ∨ character = '#' ∨ character = '?' then none
        else if character.isAlphanum ∨ character = '+' ∨ character = '-' ∨ character = '.' then
          go rest (character :: scheme)
        else none

def isSafeExternalScheme (scheme : String) : Bool :=
  ["http", "https", "mailto", "tel"].contains (String.ofList (scheme.toList.map Char.toLower))

/-- Whether the target has the heading; an unknown concept is the page of the link itself. -/
def LinkIndex.hasFragment (index : LinkIndex) (sourceFragments : SortedSet String)
    (target : ResolvedTarget) (fragment : String)
    : Bool :=
  match target with
  | .concept conceptId _ =>
      match index.conceptFragments.get? conceptId with
      | some fragments => fragments.contains fragment
      | none => sourceFragments.contains fragment
  | .directory routeId =>
      match (directoryPathFromRoute routeId).bind index.directoryFragments.get? with
      | some fragments => fragments.contains fragment
      | none => false

def resolveLink (libraries : TextLibraries) (index : LinkIndex)
    (currentConceptId sourceDirectory : String) (sourceFragments : SortedSet String)
    (link : ParsedLink)
    : LinkResolution :=
  let href := trim link.rawHref
  if href = "" then .rejected "link target is empty"
  else if startsWith href "//" then .external
  else
    match linkScheme href with
    | some scheme =>
        if isSafeExternalScheme scheme then .external
        else .rejected ("link `" ++ href ++ "` uses rejected scheme `" ++ scheme ++ "`")
    | none =>
        let (pathPart, fragment) := splitFragment href
        let normalizedFragment := (fragment.filter (· ≠ "")).map (slugifyFragment libraries)
        let target :=
          if pathPart = "" then
            .ok (.concept currentConceptId (conceptRouteId index.bundleId currentConceptId))
          else
            resolveTargetPath index.bundleId sourceDirectory pathPart index.conceptIds
              index.directoryPaths
        match target with
        | .error .traversal => .rejected ("link `" ++ href ++ "` escapes the bundle root")
        | .error (.broken target message) => .broken target message
        | .ok target =>
            match normalizedFragment with
            | none => .resolved target
            | some fragment =>
                if index.hasFragment sourceFragments target fragment then .resolved target
                else
                  .broken (some target)
                    ("link `" ++ href ++ "` points to missing fragment `" ++ fragment ++ "`")

/-- What a link of a concept's page becomes: the compiled link, the concept it is a backlink
of, and the diagnostic about it.
-/
structure CompiledLink where
  link : Link
  backlink : Option (String × Link)
  diagnostic : Option Diagnostic

def compileLink (concept : Concept) (parsed : ParsedLink) (resolution : LinkResolution)
    : CompiledLink :=
  let link (status : LinkStatus) (normalizedTargetId : Option String) : Link :=
    {
      sourceId := concept.id, rawHref := parsed.rawHref, normalizedTargetId,
      fragment := parsed.fragment, status, context := parsed.context
    }
  match resolution with
  | .resolved target =>
      {
        link := link .resolved (some target.routeId)
        backlink :=
          match target with
          | .concept targetId routeId => some (targetId, link .resolved (some routeId))
          | .directory _ => none
        diagnostic := none
      }
  | .broken target message =>
      {
        link := link .broken (target.map ResolvedTarget.routeId)
        backlink := none
        diagnostic :=
          some (.warning "broken_link" concept.sourcePath parsed.line message)
      }
  | .rejected message =>
      {
        link := link .rejected none
        backlink := none
        diagnostic :=
          some (.warning "rejected_link" concept.sourcePath parsed.line message)
      }
  | .external => { link := link .external none, backlink := none, diagnostic := none }

structure LinkPass where
  concepts : List Concept := []
  backlinks : SortedMap String (List Link) := .empty
  diagnostics : List Diagnostic

/-- Records one compiled link of the concept at hand. -/
def LinkPass.record (pass : LinkPass × List Link) (compiled : CompiledLink)
    : LinkPass × List Link :=
  (
    {
      pass.1 with
      backlinks :=
        match compiled.backlink with
        | some (targetId, link) => pass.1.backlinks.update targetId [] (· ++ [link])
        | none => pass.1.backlinks,
      diagnostics := pass.1.diagnostics ++ compiled.diagnostic.toList
    },
    pass.2 ++ [compiled.link]
  )

/-- The compiled links of one concept, in the order of its page. -/
def compiledLinks (libraries : TextLibraries) (index : LinkIndex)
    (parsedLinks : SortedMap String (List ParsedLink)) (concept : Concept)
    : List CompiledLink :=
  let sourceDirectory := parentDirectory concept.sourcePath
  let sourceFragments := (index.conceptFragments.get? concept.id).getD .empty
  ((parsedLinks.get? concept.id).getD []).map
    (fun parsed =>
      compileLink concept parsed
        (resolveLink libraries index concept.id sourceDirectory sourceFragments parsed))

def LinkPass.addConcept (libraries : TextLibraries) (index : LinkIndex)
    (parsedLinks : SortedMap String (List ParsedLink)) (pass : LinkPass) (concept : Concept)
    : LinkPass :=
  let (pass, outbound) :=
    (compiledLinks libraries index parsedLinks concept).foldl LinkPass.record
      (pass, concept.outboundLinks)
  {
    pass with
    concepts := pass.concepts ++ [{ concept with outboundLinks := sortDedup outbound }]
  }

/-- Each concept takes its backlinks out of the map. -/
def attachBacklinks : SortedMap String (List Link) → List Concept → List Concept
  | _, [] => []
  | backlinks, concept :: rest =>
      { concept with backlinks := sortDedup ((backlinks.get? concept.id).getD []) }
        :: attachBacklinks (backlinks.remove concept.id) rest

def resolveBundleLinks (libraries : TextLibraries) (bundleId : String)
    (concepts : List Concept) (diagnostics : List Diagnostic) (directories : Directories)
    (parsedLinks : SortedMap String (List ParsedLink))
    (conceptFragments directoryFragments : SortedMap String (SortedSet String))
    : List Concept × List Diagnostic :=
  let index : LinkIndex :=
    {
      bundleId,
      conceptIds := concepts.foldl (fun set concept => set.insert concept.id ()) .empty,
      directoryPaths := directories.mapValues (fun _ _ => ()),
      conceptFragments,
      directoryFragments
    }
  let pass := concepts.foldl (LinkPass.addConcept libraries index parsedLinks) { diagnostics }
  (attachBacklinks pass.backlinks pass.concepts, pass.diagnostics)

-- The compiler

structure CompileDraft where
  concepts : List Concept := []
  diagnostics : List Diagnostic := []
  directories : Directories
  conceptLinks : SortedMap String (List ParsedLink) := .empty
  conceptFragments : SortedMap String (SortedSet String) := .empty
  logs : List LogSource := []

/-- The concept a document makes, before its links are resolved. -/
def conceptOf (libraries : TextLibraries) (bundleId : String) (document : SourceDocument)
    : Concept :=
  let path := normalizeSourcePath document.path
  let parsed := parseMarkdown libraries document.bodyMarkdown
  {
    id := conceptIdFromSourcePath path, bundleId, sourcePath := path,
    conceptType := document.conceptType.getD "concept",
    title := document.title, description := document.description,
    resource := document.resource, tags := document.tags, timestamp := document.timestamp,
    extensions := document.extensions, bodyMarkdown := document.bodyMarkdown,
    headings := parsed.headings, citations := parsed.citations
  }

def CompileDraft.addConcept (libraries : TextLibraries) (bundleId : String)
    (draft : CompileDraft) (document : SourceDocument)
    : CompileDraft :=
  let path := normalizeSourcePath document.path
  let conceptId := conceptIdFromSourcePath path
  let directoryPath := parentDirectory path
  let directories :=
    (ensureDirectoryChain directoryPath draft.directories).update directoryPath {}
      (fun entry => { entry with conceptIds := entry.conceptIds.insert conceptId () })
  if draft.concepts.any (fun concept => concept.id = conceptId) then
    {
      draft with
      directories,
      diagnostics :=
        draft.diagnostics
          ++ [.warning "duplicate_concept_id" path none
            ("concept id `" ++ conceptId ++ "` is defined more than once")]
    }
  else
    let parsed := parseMarkdown libraries document.bodyMarkdown
    {
      draft with
      directories,
      conceptFragments := draft.conceptFragments.insert conceptId parsed.fragments,
      conceptLinks := draft.conceptLinks.insert conceptId parsed.links,
      concepts := draft.concepts ++ [conceptOf libraries bundleId document]
    }

def CompileDraft.addIndex (draft : CompileDraft) (document : SourceDocument) : CompileDraft :=
  let directoryPath := reservedDocumentDirectory (normalizeSourcePath document.path)
  {
    draft with
    directories :=
      (ensureDirectoryChain directoryPath draft.directories).update directoryPath {}
        (fun entry =>
          {
            entry with
            indexSource := .authored, title := document.title,
            description := document.description, bodyMarkdown := document.bodyMarkdown
          })
  }

def CompileDraft.addLog (draft : CompileDraft) (document : SourceDocument) : CompileDraft :=
  let path := normalizeSourcePath document.path
  let scopePath := reservedDocumentDirectory path
  {
    draft with
    directories := ensureDirectoryChain scopePath draft.directories,
    logs :=
      draft.logs ++ [{ scopePath, sourcePath := path, bodyMarkdown := document.bodyMarkdown }]
  }

def CompileDraft.addDocument (libraries : TextLibraries) (bundleId : String)
    (draft : CompileDraft) (document : SourceDocument)
    : CompileDraft :=
  match document.kind with
  | .concept => draft.addConcept libraries bundleId document
  | .index => draft.addIndex document
  | .log => draft.addLog document

/-- The draft before any document: the root directory alone. -/
def CompileDraft.start : CompileDraft :=
  { directories := SortedMap.empty.insert "" {} }

def CompileDraft.ofDocuments (libraries : TextLibraries) (source : SourceBundle)
    : CompileDraft :=
  source.documents.foldl (CompileDraft.addDocument libraries source.id) .start

/-- The directories with their children, titles and bodies. -/
def CompileDraft.hierarchy (libraries : TextLibraries) (title : String) (draft : CompileDraft)
    : Directories :=
  finalizeDirectories libraries title draft.concepts (addDirectoryHierarchy draft.directories)

def compileBundle (libraries : TextLibraries) (source : SourceBundle) : Bundle :=
  let draft := CompileDraft.ofDocuments libraries source
  let directories := draft.hierarchy libraries source.title
  let directoryFragments := buildDirectoryFragments libraries directories
  let (diagnostics, directories) := aggregateLogs draft.diagnostics draft.logs directories
  let (concepts, diagnostics) :=
    resolveBundleLinks libraries source.id draft.concepts diagnostics directories
      draft.conceptLinks draft.conceptFragments directoryFragments
  Bundle.normalize
    {
      id := source.id, rootPath := source.rootPath, okfVersion := source.okfVersion,
      title := source.title, sourceRevision := source.sourceRevision,
      directories := directories.entries.map (fun (path, draft) => draft.intoDirectory path),
      concepts, diagnostics
    }

end CodebaseGraph.Wiki
