import CodebaseGraph.Transition.Fallible
import CodebaseGraph.Wiki.Search.SearchIndex

/-! What a snippet shows. The first of the sought texts splits a field in three parts, and a
window of whole characters is kept around it, so no slice of a field panics.
-/

namespace CodebaseGraph.Wiki.Search

open CodebaseGraph.Collections CodebaseGraph.Transition

/-- A text in three parts, of which the middle one is marked. -/
structure Excerpt where
  before : List Char
  matched : List Char
  after : List Char
deriving DecidableEq

def escaped (text : List Char) : List Char := text.flatMap escapeCharacter

namespace Excerpt

def text (excerpt : Excerpt) : List Char := excerpt.before ++ excerpt.matched ++ excerpt.after

/-- The context that a snippet keeps. -/
def window (excerpt : Excerpt) : Excerpt where
  before := roomyBack Char.utf8Size snippetRadius excerpt.before
  matched := excerpt.matched
  after := roomyFront Char.utf8Size snippetRadius excerpt.after

def html (excerpt : Excerpt) : List Char :=
  escaped excerpt.before ++ "<mark>".toList ++ escaped excerpt.matched ++ "</mark>".toList
    ++ escaped excerpt.after

/-- The bytes before and in the marked part. -/
def place (excerpt : Excerpt) : Nat × Nat :=
  (extent Char.utf8Size excerpt.before, extent Char.utf8Size excerpt.matched)

end Excerpt

/-- The text around a number of its characters. -/
def excerptAt (value : List Char) (index count : Nat) : Excerpt where
  before := value.take index
  matched := (value.drop index).take count
  after := (value.drop index).drop count

/-- The first occurrence of a text in the lower-case form of another. -/
def occurrence (value part : List Char) : Option Excerpt :=
  (indexOfPart part (value.map Char.toLower)).map
    (fun index => excerptAt value index part.length)

/-- The occurrence of one of the texts that begins first. -/
def firstOccurrence (parts : List String) (value : String) : Option Excerpt :=
  (parts.filterMap (fun part => occurrence value.toList part.toList)).argmin
    (fun excerpt => excerpt.place.1)

/-- The window around the first occurrence in the first field that has one. -/
def shownText (parts : List String) (document : SearchDocument) : Option Excerpt :=
  ((snippetCandidates document).findSome? (firstOccurrence parts)).map Excerpt.window

-- Occurrences

theorem utf8Size_toLower (character : Char) : character.toLower.utf8Size = character.utf8Size := by
  unfold Char.toLower
  split
  case isTrue upper =>
      have most : character.val.toNat ≤ 90 := UInt32.le_iff_toNat_le.mp upper.2
      have small : character.utf8Size = 1 := by
        exact Char.utf8Size_eq_one_iff.mpr (UInt32.le_iff_toNat_le.mpr (most.trans (by decide)))
      refine Eq.trans (Char.utf8Size_eq_one_iff.mpr (UInt32.le_iff_toNat_le.mpr ?_)) small.symm
      rw [UInt32.toNat_add]
      exact (Nat.mod_le _ _).trans ((Nat.add_le_add_right most 32).trans (by decide))
  case isFalse => rfl

theorem extent_toLower (text : List Char)
    : extent Char.utf8Size (text.map Char.toLower) = extent Char.utf8Size text := by
  simp [extent, Function.comp_def, utf8Size_toLower]

theorem occurrence_eq_some {value part : List Char} {excerpt : Excerpt}
    (found : occurrence value part = some excerpt)
    : excerpt.text = value ∧ excerpt.matched.map Char.toLower = part := by
  obtain ⟨index, indexed, rfl⟩ := Option.map_eq_some_iff.mp found
  obtain ⟨before, after, whole, rfl⟩ := indexOfPart_splits indexed
  refine ⟨by simp [Excerpt.text, excerptAt], ?_⟩
  rw [excerptAt, List.map_take, List.map_drop, whole, List.append_assoc, List.drop_left, List.take_left]

/-- The bytes of a search are those of the occurrence. -/
theorem find_toAsciiLowercase (value part : String)
    : (find (toAsciiLowercase value) part).map (fun position => (position, byteLength part))
      = (occurrence value.toList part.toList).map Excerpt.place := by
  have spelled : (toAsciiLowercase value).toList = value.toList.map Char.toLower := by
    rw [toAsciiLowercase, String.toList_ofList]
  rw [find, occurrence, spelled, Option.map_map, Option.map_map]
  refine Option.map_congr (fun index indexed => ?_)
  obtain ⟨before, after, whole, rfl⟩ := indexOfPart_splits indexed
  have found : occurrence value.toList part.toList
      = some (excerptAt value.toList before.length part.toList.length) := by
    rw [occurrence, indexed]
    rfl
  have matched := (occurrence_eq_some found).2
  refine Prod.ext ?_ ?_
  · exact (congrArg _ List.map_take.symm).trans (extent_toLower _)
  · exact (congrArg _ matched.symm).trans (extent_toLower _)

theorem argmin_map {α β : Type} (key : β → Nat) (view : α → β) (items : List α)
    : (items.map view).argmin key = (items.argmin (key ∘ view)).map view := by
  induction items using List.reverseRecOn with
  | nil => rfl
  | append_singleton items item ih =>
      rw [List.map_append, List.map_singleton, List.argmin_concat, List.argmin_concat, ih]
      cases items.argmin (key ∘ view) with
      | none => rfl
      | some least =>
          simp only [Option.map_some, Function.comp_apply]
          split <;> rfl

theorem firstOccurrence_eq_some {parts : List String} {value : String} {excerpt : Excerpt}
    (found : firstOccurrence parts value = some excerpt)
    : excerpt.text = value.toList
      ∧ ∃ part ∈ parts, excerpt.matched.map Char.toLower = part.toList := by
  obtain ⟨part, sought, occurs⟩ := List.mem_filterMap.mp (List.argmin_mem found)
  obtain ⟨whole, same⟩ := occurrence_eq_some occurs
  exact ⟨whole, part, sought, same⟩

-----------------------------------------------------------------------------------------
-- Slices
-----------------------------------------------------------------------------------------

theorem slice_extent {value : String} {before middle after : List Char}
    (whole : before ++ middle ++ after = value.toList)
    : slice value (extent Char.utf8Size before)
          (extent Char.utf8Size before + extent Char.utf8Size middle)
      = .ok (String.ofList middle) := by
  rw [slice, ← whole, sliceAt_extent Char.utf8Size_pos]

/-- The context before a place, with the room that a snippet has for it. -/
theorem slice_before {value : String} {before rest : List Char}
    (whole : before ++ rest = value.toList)
    : slice value
          (floorBoundary Char.utf8Size value.toList (extent Char.utf8Size before - snippetRadius))
          (extent Char.utf8Size before)
      = .ok (String.ofList (roomyBack Char.utf8Size snippetRadius before)) := by
  obtain ⟨front, fronts⟩ := roomyBack_suffix Char.utf8Size snippetRadius before
  have start := floorBoundary_roomyBack Char.utf8Size_pos before rest snippetRadius
  have total : extent Char.utf8Size before = extent Char.utf8Size front
      + extent Char.utf8Size (roomyBack Char.utf8Size snippetRadius before) := by
    rw [← extent_append, fronts]
  have left : extent Char.utf8Size before
        - extent Char.utf8Size (roomyBack Char.utf8Size snippetRadius before)
      = extent Char.utf8Size front := by
    omega
  rw [← whole, start, left, total]
  exact slice_extent (by rw [fronts, whole])

/-- The context behind a place. -/
theorem slice_after {value : String} {front after : List Char}
    (whole : front ++ after = value.toList)
    : slice value (extent Char.utf8Size front)
          (ceilBoundary Char.utf8Size value.toList
            (byteLength value - min (byteLength value) (extent Char.utf8Size front + snippetRadius))
            (min (byteLength value) (extent Char.utf8Size front + snippetRadius)))
      = .ok (String.ofList (roomyFront Char.utf8Size snippetRadius after)) := by
  obtain ⟨back, backs⟩ := roomyFront_isPrefix Char.utf8Size snippetRadius after
  rw [byteLength, ← whole, ceilBoundary_roomyFront Char.utf8Size_pos]
  exact slice_extent (by rw [List.append_assoc, backs, whole])

theorem toList_escapeHtml (text : List Char)
    : (escapeHtml (String.ofList text)).toList = escaped text := by
  simp [escapeHtml, escaped]

/-- A highlight never slices inside a character, and shows the window. -/
theorem highlightMatch_eq (value normalizedQuery : String) (tokens : List String)
    : highlightMatch value normalizedQuery tokens
      = .ok
          ((firstOccurrence (normalizedQuery :: tokens) value).map
            (fun excerpt => String.ofList excerpt.window.html)) := by
  have places
      : ((normalizedQuery :: tokens).filterMap
            (fun part =>
              (find (toAsciiLowercase value) part).map
                (fun position => (position, byteLength part)))).argmin
            Prod.fst
        = (firstOccurrence (normalizedQuery :: tokens) value).map Excerpt.place := by
    simp only [find_toAsciiLowercase, firstOccurrence]
    rw [← List.map_filterMap, argmin_map]
    rfl
  simp only [highlightMatch, places]
  cases found : firstOccurrence (normalizedQuery :: tokens) value with
  | none => rfl
  | some excerpt =>
      obtain ⟨whole, -⟩ := firstOccurrence_eq_some found
      obtain ⟨before, matched, after⟩ := excerpt
      have parts : before ++ matched ++ after = value.toList := whole
      have first := slice_before ((List.append_assoc before matched after).symm.trans parts)
      have second := slice_extent parts
      have third := slice_after parts
      rw [extent_append] at third
      simp only [Option.map_some, Excerpt.place, first, second, third]
      refine congrArg (fun text => Except.ok (some text)) (String.toList_injective ?_)
      simp only [String.toList_append, toList_escapeHtml, String.toList_ofList, Excerpt.html,
        Excerpt.window]

/-- The snippet of a document is cut from its excerpt. -/
theorem buildSnippet_eq (document : SearchDocument) (normalizedQuery : String)
    (tokens : List String)
    : buildSnippet document normalizedQuery tokens
      = .ok
          ((shownText (normalizedQuery :: tokens) document).map
            (fun excerpt => String.ofList (excerpt.html.take maxSnippetLen))) := by
  have pure
      : (fun value : String => do
          let snippet ← highlightMatch value normalizedQuery tokens
          return snippet.map truncateSnippet)
        = (fun value =>
            (Except.ok
              ((firstOccurrence (normalizedQuery :: tokens) value).map
                (fun excerpt => String.ofList (excerpt.window.html.take maxSnippetLen)))
              : Except SlicePanic (Option String))) := by
    funext value
    rw [highlightMatch_eq]
    refine congrArg Except.ok ?_
    rw [Option.map_map]
    refine Option.map_congr (fun excerpt _ => ?_)
    simp [truncateSnippet]
  rw [buildSnippet, pure]
  refine (List.findSomeM?_pure (m := Except SlicePanic)).trans (congrArg Except.ok ?_)
  rw [shownText, Option.map_map, List.map_findSome?]
  rfl

theorem completes_scoreDocument (document : SearchDocument) (normalizedQuery : String)
    (tokens : List String)
    : Completes (scoreDocument document normalizedQuery tokens) := by
  rw [scoreDocument]
  split
  case isTrue => exact .ok none
  case isFalse =>
      rw [buildSnippet_eq]
      exact .ok _

end CodebaseGraph.Wiki.Search

/-! When a snippet is well formed. It is cut after a number of characters of the escaped text, so
the cut must fall behind the marked part and between the characters of the field.
-/

namespace CodebaseGraph.Wiki.Search

open CodebaseGraph.Collections CodebaseGraph.Sorting CodebaseGraph.Transition

-- Escapes

/-- The text that an escaped text stands for, if every `&` begins a whole entity. -/
def unescapeHtml : List Char → Option (List Char)
  | [] => some []
  | '&' :: 'a' :: 'm' :: 'p' :: ';' :: rest => (unescapeHtml rest).map ('&' :: ·)
  | '&' :: 'l' :: 't' :: ';' :: rest => (unescapeHtml rest).map ('<' :: ·)
  | '&' :: 'g' :: 't' :: ';' :: rest => (unescapeHtml rest).map ('>' :: ·)
  | '&' :: 'q' :: 'u' :: 'o' :: 't' :: ';' :: rest => (unescapeHtml rest).map ('"' :: ·)
  | '&' :: '#' :: '3' :: '9' :: ';' :: rest => (unescapeHtml rest).map ('\'' :: ·)
  | '&' :: _ => none
  | character :: rest => (unescapeHtml rest).map (character :: ·)

theorem escapeCharacter_cases (character : Char)
    : character ∈ ['&', '<', '>', '"', '\'']
      ∨ (character ≠ '&' ∧ character ≠ '<' ∧ escapeCharacter character = [character]) := by
  unfold escapeCharacter
  split_ifs <;> simp_all

theorem unescapeHtml_escapeCharacter (character : Char) (rest : List Char)
    : unescapeHtml (escapeCharacter character ++ rest)
      = (unescapeHtml rest).map (character :: ·) := by
  rcases escapeCharacter_cases character with special | ⟨plain, -, same⟩
  · simp only [List.mem_cons, List.not_mem_nil, or_false] at special
    rcases special with rfl | rfl | rfl | rfl | rfl <;> rfl
  · rw [same, List.singleton_append, unescapeHtml]
    all_goals simp [plain]

/-- An entity that is cut is none. -/
theorem unescapeHtml_cut {character : Char} {cut : List Char}
    (inside : cut <+: escapeCharacter character) (filled : cut ≠ [])
    (shorter : cut ≠ escapeCharacter character)
    : unescapeHtml cut = none := by
  have cuts
      : ∀ cut ∈ (escapeCharacter character).inits,
          cut = [] ∨ cut = escapeCharacter character ∨ unescapeHtml cut = none := by
    rcases escapeCharacter_cases character with special | ⟨-, -, same⟩
    · simp only [List.mem_cons, List.not_mem_nil, or_false] at special
      rcases special with rfl | rfl | rfl | rfl | rfl <;> decide
    · simp [same]
  rcases cuts cut ((List.mem_inits _ _).mpr inside) with empty | whole | none
  · exact absurd empty filled
  · exact absurd whole shorter
  · exact none

theorem unescapeHtml_escaped (text : List Char) : unescapeHtml (escaped text) = some text := by
  induction text with
  | nil => rfl
  | cons character rest ih =>
      rw [escaped, List.flatMap_cons, unescapeHtml_escapeCharacter, ← escaped, ih]
      rfl

/-- What is left of an escaped text can be read if it is the escape of what is left of the text. -/
theorem unescapeHtml_initial {text cut kept : List Char} (inside : cut <+: escaped text)
    (reads : unescapeHtml cut = some kept)
    : kept <+: text ∧ escaped kept = cut := by
  induction text generalizing cut kept with
  | nil =>
      obtain rfl := List.prefix_nil.mp inside
      obtain rfl := Option.some.inj reads
      exact ⟨List.nil_prefix, rfl⟩
  | cons character rest ih =>
      rw [escaped, List.flatMap_cons, ← escaped] at inside
      by_cases whole : escapeCharacter character <+: cut
      · obtain ⟨later, rfl⟩ := whole
        rw [unescapeHtml_escapeCharacter] at reads
        obtain ⟨others, same, rfl⟩ := Option.map_eq_some_iff.mp reads
        obtain ⟨inner, spelled⟩ := ih ((List.prefix_append_right_inj _).mp inside) same
        refine ⟨List.cons_prefix_cons.mpr ⟨rfl, inner⟩, ?_⟩
        rw [escaped, List.flatMap_cons, ← escaped, spelled]
      · have short : cut <+: escapeCharacter character := by
          refine (List.prefix_or_prefix_of_prefix inside (List.prefix_append _ _)).resolve_right ?_
          exact whole
        by_cases empty : cut = []
        · subst empty
          obtain rfl := Option.some.inj reads
          exact ⟨List.nil_prefix, rfl⟩
        · rw [unescapeHtml_cut short empty (fun same => whole (same ▸ List.prefix_refl _))] at reads
          cases reads

theorem not_mem_escaped (text : List Char) : '<' ∉ escaped text := by
  intro inside
  obtain ⟨character, -, found⟩ := List.mem_flatMap.mp inside
  revert found
  rcases escapeCharacter_cases character with special | ⟨-, other, same⟩
  · simp only [List.mem_cons, List.not_mem_nil, or_false] at special
    rcases special with rfl | rfl | rfl | rfl | rfl <;> decide
  · rw [same, List.mem_singleton]
    exact other.symm

-----------------------------------------------------------------------------------------
-- Well-formed snippets
-----------------------------------------------------------------------------------------

def openingTag : List Char := "<mark>".toList

def closingTag : List Char := "</mark>".toList

theorem openingTag_append (rest : List Char)
    : openingTag ++ rest = '<' :: (openingTag.tail ++ rest) := rfl

theorem closingTag_append (rest : List Char)
    : closingTag ++ rest = '<' :: (closingTag.tail ++ rest) := rfl

/-- One part of the text between tags, and no other `<`. -/
structure Marked (text before matched after : List Char) : Prop where
  whole : text = before ++ openingTag ++ matched ++ closingTag ++ after
  beforePlain : '<' ∉ before
  matchedPlain : '<' ∉ matched
  afterPlain : '<' ∉ after

/-- What a snippet of a document for the sought texts has to be. -/
structure WellFormed (document : SearchDocument) (parts : List String) (snippet : String)
    : Prop where
  bounded : snippet.length ≤ maxSnippetLen
  marked
    : ∃ (before matched after : List Char) (excerpt : Excerpt),
        Marked snippet.toList before matched after
        ∧ unescapeHtml before = some excerpt.before
        ∧ unescapeHtml matched = some excerpt.matched
        ∧ unescapeHtml after = some excerpt.after
        ∧ (∃ field ∈ snippetCandidates document, excerpt.text <:+: field.toList)
        ∧ ∃ part ∈ parts, excerpt.matched.map Char.toLower = part.toList

/-- The characters of a snippet up to the closing tag. -/
def Excerpt.markedLength (excerpt : Excerpt) : Nat :=
  (escaped excerpt.before).length + (escaped excerpt.matched).length + openingTag.length
    + closingTag.length

/-- There is room for the marked part, and the cut is not inside the escape of a character. -/
structure Excerpt.Fits (excerpt : Excerpt) : Prop where
  room : excerpt.markedLength ≤ maxSnippetLen
  uncut
    : ∃ kept,
        kept <+: excerpt.after
        ∧ escaped kept = (escaped excerpt.after).take (maxSnippetLen - excerpt.markedLength)

/-- Two texts with the same part up to the first `<`. -/
theorem split_tag {before before' rest rest' : List Char} (plain : '<' ∉ before)
    (plain' : '<' ∉ before') (inside : before ++ '<' :: rest <+: before' ++ '<' :: rest')
    : before = before' ∧ rest <+: rest' := by
  induction before generalizing before' with
  | nil =>
      cases before' with
      | nil => exact ⟨rfl, (List.cons_prefix_cons.mp inside).2⟩
      | cons first others =>
          exact absurd (List.cons_prefix_cons.mp inside).1 (List.ne_of_not_mem_cons plain')
  | cons item others ih =>
      cases before' with
      | nil =>
          exact absurd (List.cons_prefix_cons.mp inside).1.symm (List.ne_of_not_mem_cons plain)
      | cons first others' =>
          obtain ⟨rfl, later⟩ := List.cons_prefix_cons.mp inside
          obtain ⟨rfl, remaining⟩ :=
            ih (List.not_mem_of_not_mem_cons plain) (List.not_mem_of_not_mem_cons plain') later
          exact ⟨rfl, remaining⟩

/-- The texts that a query seeks. -/
def soughtTexts (isAlphanumeric : Char → Bool) (query : SearchQuery) : List String :=
  normalizeText query.text :: tokenize isAlphanumeric query.text

theorem shownText_eq_some {parts : List String} {document : SearchDocument} {excerpt : Excerpt}
    (shown : shownText parts document = some excerpt)
    : (∃ field ∈ snippetCandidates document, excerpt.text <:+: field.toList)
      ∧ ∃ part ∈ parts, excerpt.matched.map Char.toLower = part.toList := by
  obtain ⟨found, first, rfl⟩ := Option.map_eq_some_iff.mp shown
  obtain ⟨field, listed, occurs⟩ := List.exists_of_findSome?_eq_some first
  obtain ⟨whole, sought⟩ := firstOccurrence_eq_some occurs
  refine ⟨⟨field, listed, ?_⟩, sought⟩
  obtain ⟨front, fronts⟩ := roomyBack_suffix Char.utf8Size snippetRadius found.before
  obtain ⟨back, backs⟩ := roomyFront_isPrefix Char.utf8Size snippetRadius found.after
  refine ⟨front, back, ?_⟩
  calc front ++ found.window.text ++ back
      = (front ++ roomyBack Char.utf8Size snippetRadius found.before) ++ found.matched
          ++ (roomyFront Char.utf8Size snippetRadius found.after ++ back) := by
        simp only [Excerpt.text, Excerpt.window, List.append_assoc]
    _ = found.text := by rw [fronts, backs, Excerpt.text]
    _ = field.toList := whole

namespace Excerpt

/-- The snippet up to the closing tag. -/
def lead (excerpt : Excerpt) : List Char :=
  escaped excerpt.before ++ openingTag ++ escaped excerpt.matched ++ closingTag

theorem html_eq (excerpt : Excerpt) : excerpt.html = excerpt.lead ++ escaped excerpt.after := rfl

theorem lead_length (excerpt : Excerpt) : excerpt.lead.length = excerpt.markedLength := by
  simp only [lead, markedLength, List.length_append]
  omega

end Excerpt

theorem wellFormed_of_fits {document : SearchDocument} {parts : List String} {excerpt : Excerpt}
    (shown : shownText parts document = some excerpt) (fits : excerpt.Fits)
    : WellFormed document parts (String.ofList (excerpt.html.take maxSnippetLen)) := by
  obtain ⟨⟨field, listed, inside⟩, sought⟩ := shownText_eq_some shown
  obtain ⟨room, kept, inner, same⟩ := fits
  have cut : excerpt.html.take maxSnippetLen = excerpt.lead ++ escaped kept := by
    rw [Excerpt.html_eq, List.take_append, excerpt.lead_length, same,
      List.take_of_length_le (excerpt.lead_length ▸ room)]
  refine ⟨?_, escaped excerpt.before, escaped excerpt.matched, escaped kept,
    { excerpt with after := kept }, ⟨?_, ?_, ?_, ?_⟩, ?_, ?_, ?_, ⟨field, listed, ?_⟩, sought⟩
  · rw [String.length_ofList]
    exact List.length_take_le _ _
  · rw [String.toList_ofList, cut, Excerpt.lead]
  · exact not_mem_escaped _
  · exact not_mem_escaped _
  · exact not_mem_escaped _
  · exact unescapeHtml_escaped _
  · exact unescapeHtml_escaped _
  · exact unescapeHtml_escaped _
  · exact ((List.prefix_append_right_inj _).mpr inner).isInfix.trans inside

theorem fits_of_wellFormed {document : SearchDocument} {parts : List String} {excerpt : Excerpt}
    (formed : WellFormed document parts (String.ofList (excerpt.html.take maxSnippetLen)))
    : excerpt.Fits := by
  obtain ⟨-, before, matched, after, read, ⟨whole, plain, plain', -⟩, -, -, reads, -⟩ := formed
  rw [String.toList_ofList] at whole
  have inside : excerpt.html.take maxSnippetLen <+: excerpt.html := List.take_prefix _ _
  rw [whole, Excerpt.html_eq, Excerpt.lead] at inside
  simp only [List.append_assoc, openingTag_append, closingTag_append] at inside
  obtain ⟨rfl, behind⟩ := split_tag plain (not_mem_escaped _) inside
  have tagged {text : List Char} (plain : '<' ∉ text) : '<' ∉ openingTag.tail ++ text := by
    rw [List.mem_append, not_or]
    exact ⟨by decide, plain⟩
  obtain ⟨same, remaining⟩ :=
    split_tag (tagged plain') (tagged (not_mem_escaped excerpt.matched)) behind
  obtain rfl := List.append_cancel_left same
  have left := (List.prefix_append_right_inj closingTag.tail).mp remaining
  have cut : excerpt.html.take maxSnippetLen = excerpt.lead ++ after := whole
  have bound : (excerpt.lead ++ after).length ≤ maxSnippetLen :=
    cut ▸ List.length_take_le _ _
  rw [List.length_append, excerpt.lead_length] at bound
  have room : excerpt.markedLength ≤ maxSnippetLen := by omega
  refine ⟨room, ?_⟩
  obtain ⟨inner, spelled⟩ := unescapeHtml_initial left reads
  refine ⟨read.after, inner, ?_⟩
  rw [Excerpt.html_eq, List.take_append, excerpt.lead_length,
    List.take_of_length_le (excerpt.lead_length ▸ room)] at cut
  rw [spelled, List.append_cancel_left cut]

theorem wellFormed_iff {document : SearchDocument} {parts : List String} {excerpt : Excerpt}
    (shown : shownText parts document = some excerpt)
    : WellFormed document parts (String.ofList (excerpt.html.take maxSnippetLen))
      ↔ excerpt.Fits :=
  ⟨fits_of_wellFormed, wellFormed_of_fits shown⟩

-- Searches

/-- What a document that is found has for snippet. -/
theorem scoreDocument_snippet {document : SearchDocument} {normalizedQuery snippet : String}
    {tokens : List String} {result : SearchResult}
    (scored : scoreDocument document normalizedQuery tokens = .ok (some result))
    (shows : snippet ∈ result.snippet)
    : ∃ excerpt ∈ shownText (normalizedQuery :: tokens) document,
        snippet = String.ofList (excerpt.html.take maxSnippetLen) := by
  rw [scoreDocument] at scored
  split at scored
  case isTrue => cases scored
  case isFalse =>
      rw [buildSnippet_eq] at scored
      obtain rfl := Option.some.inj (Except.ok.inj scored)
      obtain ⟨excerpt, shown, rfl⟩ := Option.map_eq_some_iff.mp shows
      exact ⟨excerpt, shown, rfl⟩

/-- A search never slices inside a character, and the snippet of a result is well formed exactly
if it has room for the marked part and is not cut inside an entity.
-/
theorem search_snippets (isAlphanumeric : Char → Bool) (index : SearchIndex) (query : SearchQuery)
    : ∃ results,
        index.search isAlphanumeric query = .ok results
        ∧ ∀ result ∈ results,
            ∃ document ∈ index.documents,
              scoreDocument document (normalizeText query.text)
                  (tokenize isAlphanumeric query.text)
                = .ok (some result)
              ∧ ∀ snippet ∈ result.snippet,
                  WellFormed document (soughtTexts isAlphanumeric query) snippet
                  ↔ ∃ excerpt ∈ shownText (soughtTexts isAlphanumeric query) document,
                      excerpt.Fits := by
  rw [SearchIndex.search]
  split
  case isTrue => exact ⟨[], rfl, List.forall_mem_nil _⟩
  case isFalse =>
      obtain ⟨scored, returned⟩
          : Completes
              ((index.documents.filter (SearchFilters.fromQuery query).matches).mapM
                (fun document =>
                  scoreDocument document (normalizeText query.text)
                    (tokenize isAlphanumeric query.text))) :=
        completes_mapM.mpr (fun document _ => completes_scoreDocument document _ _)
      simp only [returned]
      refine ⟨_, rfl, fun result listed => ?_⟩
      have found := (sortBy_perm SearchResult.key _).subset (List.mem_of_mem_take listed)
      have kept : some result ∈ scored := List.reduceOption_mem_iff.mp found
      obtain ⟨place, bound, here⟩ := List.getElem_of_mem kept
      have each := mapM_eq_ok.mp returned
      have bound' := each.length_eq ▸ bound
      have hit := each.get bound' bound
      rw [List.get_eq_getElem, List.get_eq_getElem, here] at hit
      refine ⟨_, List.mem_of_mem_filter (List.getElem_mem bound'), hit, ?_⟩
      intro snippet shows
      obtain ⟨excerpt, shown, rfl⟩ := scoreDocument_snippet hit shows
      refine (wellFormed_iff shown).trans ⟨fun fits => ⟨excerpt, shown, fits⟩, ?_⟩
      rintro ⟨other, same, fits⟩
      exact Option.some.inj (shown.symm.trans same) ▸ fits

/-- A page with many quotation marks before a word. -/
def quotedDocument : SearchDocument where
  bundleId := "notes"
  conceptId := "quoted"
  conceptType := "note"
  title := "Quoted"
  sourcePath := "quoted.md"
  bodyMarkdown := String.ofList (List.replicate 48 '"') ++ "needle"

/-- The escapes of the quotation marks leave no room for the word, and the last one is cut. -/
theorem search_cuts_snippet
    : ∃ result snippet,
        SearchIndex.search Char.isAlphanum ⟨[quotedDocument]⟩ { text := "needle" } = .ok [result]
        ∧ snippet ∈ result.snippet
        ∧ ¬WellFormed quotedDocument (soughtTexts Char.isAlphanum { text := "needle" }) snippet := by
  have normal : normalizeText "needle" = "needle" := by decide
  have tokens : tokenize Char.isAlphanum "needle" = ["needle"] := by decide
  have shown
      : shownText ["needle", "needle"] quotedDocument
        = some ⟨List.replicate 48 '"', "needle".toList, []⟩ := by
    decide
  have boosted
      : ((identityBoosts quotedDocument "needle"
            ++ ["needle"].flatMap (tokenBoosts quotedDocument)).map Prod.fst).sum ≠ 0 := by
    decide
  obtain ⟨result, scored, shows⟩
      : ∃ result,
          scoreDocument quotedDocument "needle" ["needle"] = .ok (some result)
          ∧ result.snippet = some _ := by
    rw [scoreDocument, if_neg boosted, buildSnippet_eq, shown]
    exact ⟨_, rfl, rfl⟩
  refine ⟨result, _, ?_, shows, fun formed => ?_⟩
  · have kept : (SearchFilters.fromQuery { text := "needle" }).matches quotedDocument = true := rfl
    have filled : "needle" ≠ "" := by decide
    have filtered
        : [quotedDocument].filter (SearchFilters.fromQuery { text := "needle" }).matches
          = [quotedDocument] := by
      rw [List.filter_cons_of_pos kept, List.filter_nil]
    rw [SearchIndex.search, normal, tokens, if_neg filled]
    simp only [filtered, List.mapM_cons, List.mapM_nil, scored]
    rfl
  · exact absurd (fits_of_wellFormed formed).room (by decide +kernel)

end CodebaseGraph.Wiki.Search
