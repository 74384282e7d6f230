import Mathlib.Data.List.MinMax
import Mathlib.Data.List.ReduceOption
import CodebaseGraph.Collections.Occurrences
import CodebaseGraph.Collections.Offsets
import CodebaseGraph.Wiki.Model
import CodebaseGraph.Wiki.Text
import Mathlib.Data.UInt
import Mathlib.Algebra.Ring.Nat

/-! Concept-aware search (`crates/k-wiki/src/search/mod.rs`). Positions in a text count the bytes
of its UTF-8 form, and a slice that does not lie between characters panics.
-/

namespace CodebaseGraph.Wiki.Search

open CodebaseGraph.Collections CodebaseGraph.Sorting

def exactConceptIdBoost : UInt32 := 1000
def exactTitleBoost : UInt32 := 980
def prefixConceptIdBoost : UInt32 := 760
def prefixTitleBoost : UInt32 := 740
def titleTermBoost : UInt32 := 520
def typeTermBoost : UInt32 := 460
def tagTermBoost : UInt32 := 430
def descriptionTermBoost : UInt32 := 260
def headingTermBoost : UInt32 := 230
def extensionTermBoost : UInt32 := 210
def citationTermBoost : UInt32 := 180
def bodyTermBoost : UInt32 := 140
def maxSnippetLen : Nat := 160
def snippetRadius : Nat := 48

structure SearchDocument where
  bundleId : String
  conceptId : String
  conceptType : String
  title : String
  description : Option String := none
  tags : List String := []
  sourcePath : String
  headings : List Heading := []
  bodyMarkdown : String
  citations : List Citation := []
  scalarExtensions : List String := []

structure SearchIndex where
  documents : List SearchDocument

structure SearchQuery where
  text : String
  bundle : Option String := none
  conceptType : Option String := none
  tags : List String := []
  limit : Nat := 20

structure SearchResult where
  bundleId : String
  conceptId : String
  conceptType : String
  title : String
  score : UInt32
  matchedFields : List String
  snippet : Option String
deriving DecidableEq, Repr

-- Texts and their bytes

/-- The bounds of a slice that does not lie between characters. -/
structure SlicePanic where
  start : Nat
  stop : Nat
deriving DecidableEq, Repr

def byteLength (text : String) : Nat := extent Char.utf8Size text.toList

def slice (text : String) (start stop : Nat) : Except SlicePanic String :=
  match sliceAt Char.utf8Size text.toList start stop with
  | some part => .ok (String.ofList part)
  | none => .error { start, stop }

/-- The byte at which the first occurrence of a text starts. -/
def find (text part : String) : Option Nat :=
  (indexOfPart part.toList text.toList).map
    (fun index => extent Char.utf8Size (text.toList.take index))

def contains (text part : String) : Bool := (indexOfPart part.toList text.toList).isSome

def toAsciiLowercase (text : String) : String := String.ofList (text.toList.map Char.toLower)

def normalizeText (text : String) : String := toAsciiLowercase (trim text)

/-- The alphanumeric runs of a text, each at its first place. -/
def tokenize (isAlphanumeric : Char → Bool) (text : String) : List String :=
  ((text.toList.splitOnP (fun character => !isAlphanumeric character)).filter (· ≠ [])
    |>.map (fun token => normalizeText (String.ofList token))).eraseDups

def escapeCharacter (character : Char) : List Char :=
  if character = '&' then "&amp;".toList
  else if character = '<' then "&lt;".toList
  else if character = '>' then "&gt;".toList
  else if character = '"' then "&quot;".toList
  else if character = '\'' then "&#39;".toList
  else [character]

def escapeHtml (text : String) : String := String.ofList (text.toList.flatMap escapeCharacter)

def citationText (citation : Citation) : String :=
  match citation.href with
  | some href => citation.text ++ " " ++ href
  | none => citation.text

-- Snippets

def snippetCandidates (document : SearchDocument) : List String :=
  [document.title] ++ document.description.toList ++ document.headings.map Heading.text
    ++ document.scalarExtensions ++ document.citations.map citationText
    ++ [document.bodyMarkdown]

def highlightMatch (value normalizedQuery : String) (tokens : List String)
    : Except SlicePanic (Option String) := do
  let lower := toAsciiLowercase value
  let places :=
    (normalizedQuery :: tokens).filterMap
      (fun part => (find lower part).map (fun position => (position, byteLength part)))
  match places.argmin Prod.fst with
  | none => return none
  | some (position, length) =>
      let start := floorBoundary Char.utf8Size value.toList (position - snippetRadius)
      let bound := min (byteLength value) (position + length + snippetRadius)
      let stop := ceilBoundary Char.utf8Size value.toList (byteLength value - bound) bound
      let before ← slice value start position
      let matched ← slice value position (position + length)
      let after ← slice value (position + length) stop
      return some
        (escapeHtml before ++ "<mark>" ++ escapeHtml matched ++ "</mark>" ++ escapeHtml after)

def truncateSnippet (snippet : String) : String :=
  String.ofList (snippet.toList.take maxSnippetLen)

def buildSnippet (document : SearchDocument) (normalizedQuery : String) (tokens : List String)
    : Except SlicePanic (Option String) :=
  (snippetCandidates document).findSomeM?
    (fun value => do
      let snippet ← highlightMatch value normalizedQuery tokens
      return snippet.map truncateSnippet)

-- Scores

/-- The boosts of the texts that identify a document. -/
def identityBoosts (document : SearchDocument) (normalizedQuery : String)
    : List (UInt32 × String) :=
  let conceptId := normalizeText document.conceptId
  let title := normalizeText document.title
  [
    (decide (conceptId = normalizedQuery), exactConceptIdBoost, "concept_id"),
    (decide (title = normalizedQuery), exactTitleBoost, "title"),
    (
      startsWith conceptId normalizedQuery && decide (conceptId ≠ normalizedQuery),
      prefixConceptIdBoost, "concept_id"
    ),
    (
      startsWith title normalizedQuery && decide (title ≠ normalizedQuery),
      prefixTitleBoost, "title"
    )
  ].filterMap (fun (applies, boost) => if applies then some boost else none)

/-- The boosts of the fields that a token occurs in. -/
def tokenBoosts (document : SearchDocument) (token : String) : List (UInt32 × String) :=
  let occurs (text : String) := contains (normalizeText text) token
  let description := (document.description.map normalizeText).getD ""
  [
    (occurs document.title, titleTermBoost, "title"),
    (occurs document.conceptType, typeTermBoost, "type"),
    (document.tags.any occurs, tagTermBoost, "tag"),
    (
      decide (description ≠ "") && contains description token,
      descriptionTermBoost, "description"
    ),
    (document.headings.any (fun heading => occurs heading.text), headingTermBoost, "heading"),
    (document.scalarExtensions.any occurs, extensionTermBoost, "extension"),
    (
      document.citations.any (fun citation => occurs (citationText citation)),
      citationTermBoost, "citation"
    ),
    (occurs document.bodyMarkdown, bodyTermBoost, "body")
  ].filterMap (fun (applies, boost) => if applies then some boost else none)

def scoreDocument (document : SearchDocument) (normalizedQuery : String) (tokens : List String)
    : Except SlicePanic (Option SearchResult) := do
  let boosts := identityBoosts document normalizedQuery ++ tokens.flatMap (tokenBoosts document)
  let score := (boosts.map Prod.fst).sum
  if score = 0 then
    return none
  else
    let snippet ← buildSnippet document normalizedQuery tokens
    return some
      {
        bundleId := document.bundleId,
        conceptId := document.conceptId,
        conceptType := document.conceptType,
        title := document.title,
        score,
        matchedFields := sortDedup (boosts.map Prod.snd),
        snippet
      }

-- Search

structure SearchFilters where
  bundle : Option String
  conceptType : Option String
  tags : List String

def SearchFilters.fromQuery (query : SearchQuery) : SearchFilters where
  bundle := query.bundle.map normalizeText
  conceptType := query.conceptType.map normalizeText
  tags := query.tags.map normalizeText

def SearchFilters.matches (filters : SearchFilters) (document : SearchDocument) : Bool :=
  filters.bundle.all (· = normalizeText document.bundleId)
    && filters.conceptType.all (· = normalizeText document.conceptType)
    && filters.tags.all (· ∈ document.tags.map normalizeText)

/-- The best score comes first. -/
def SearchResult.key (result : SearchResult) : Natᵒᵈ ×ₗ String ×ₗ String ×ₗ String :=
  toLex
    (
      OrderDual.toDual result.score.toNat,
      toLex (result.bundleId, toLex (result.conceptId, result.title))
    )

def SearchIndex.search (isAlphanumeric : Char → Bool) (index : SearchIndex) (query : SearchQuery)
    : Except SlicePanic (List SearchResult) := do
  let normalizedQuery := normalizeText query.text
  if normalizedQuery = "" then
    return []
  else
    let filters := SearchFilters.fromQuery query
    let tokens := tokenize isAlphanumeric query.text
    let limit := if query.limit = 0 then 20 else query.limit
    let scored ←
      (index.documents.filter filters.matches).mapM
        (fun document => scoreDocument document normalizedQuery tokens)
    return (sortBy SearchResult.key scored.reduceOption).take limit

end CodebaseGraph.Wiki.Search
