import Mathlib.Data.List.ReduceOption
import CodebaseGraph.Wiki.LinkTargets
import CodebaseGraph.Wiki.Render.Html

/-! The anchors of a rendered page. The compiler numbers the headings with text in the order of
the page and stores them in the order of their identities; the renderer hands the stored
identities out by position, to every heading.
-/

namespace CodebaseGraph.Wiki.Render

open CodebaseGraph.Collections CodebaseGraph.Sorting

-- The headings of a page

/-- What the compiler reads of an event. -/
def HtmlEvent.read : HtmlEvent → MarkdownEvent
  | .startHeading level _ _ _ => .startHeading level
  | .endHeading => .endHeading
  | .startLink _ destUrl _ _ => .startLink destUrl
  | .endLink => .endLink
  | .text content => .text content
  | .code content => .code content
  | .softBreak => .softBreak
  | .hardBreak => .hardBreak
  | .html _ | .inlineHtml _ | .other _ => .other

def isHeadingEvent : MarkdownEvent → Bool
  | .startHeading _ | .endHeading => true
  | _ => false

/-- The text that an event adds to the heading around it. -/
def eventText : MarkdownEvent → String
  | .text text | .code text => text
  | .softBreak | .hardBreak => " "
  | _ => ""

/-- The events of a page whose headings, each closed before the next, have the given levels and
texts.
-/
inductive HasHeadings : List MarkdownEvent → List (Nat × String) → Prop where
  | nil : HasHeadings [] []
  | other {event : MarkdownEvent} {events : List MarkdownEvent} {headings : List (Nat × String)}
      (plain : isHeadingEvent event = false) (rest : HasHeadings events headings)
      : HasHeadings (event :: events) headings
  | heading {level : Nat} {inner events : List MarkdownEvent} {headings : List (Nat × String)}
      (plain : ∀ event ∈ inner, isHeadingEvent event = false)
      (rest : HasHeadings events headings)
      : HasHeadings (.startHeading level :: (inner ++ .endHeading :: events))
          ((level, String.join (inner.map eventText)) :: headings)

-----------------------------------------------------------------------------------------
-- The compiled headings
-----------------------------------------------------------------------------------------

/-- The headings as the compiler numbers them; a heading without text gets no identity. -/
def numberedHeadings (libraries : TextLibraries)
    : SortedMap String Nat → List (Nat × String) → List (Option Heading)
  | _, [] => []
  | counts, (level, text) :: rest =>
      if trim text = "" then none :: numberedHeadings libraries counts rest
      else
        let (slug, counts) := uniqueSlug libraries (trim text) counts
        some { level, id := slug, text := trim text } :: numberedHeadings libraries counts rest

section Compiled

variable (libraries : TextLibraries) (body : String)

/-- Events between a heading's start and its end add to its text. -/
theorem foldl_read_inner {inner : List (MarkdownEvent × Nat)}
    (plain : ∀ event ∈ inner.map Prod.fst, isHeadingEvent event = false) (state : MarkdownState)
    {level : Nat} {text : String} (opened : state.currentHeading = some (level, text))
    : let read := inner.foldl (MarkdownState.read libraries body) state
      read.currentHeading = some (level, text ++ String.join ((inner.map Prod.fst).map eventText))
      ∧ read.headings = state.headings
      ∧ read.headingCounts = state.headingCounts := by
  induction inner generalizing state text with
  | nil => simp [opened]
  | cons event rest ih =>
      obtain ⟨event, start⟩ := event
      have step
          : (state.read libraries body (event, start)).currentHeading
              = some (level, text ++ eventText event)
            ∧ (state.read libraries body (event, start)).headings = state.headings
            ∧ (state.read libraries body (event, start)).headingCounts = state.headingCounts := by
        have ordinary := plain event (by simp)
        cases event with
        | startHeading | endHeading => cases ordinary
        | endLink =>
            simp only [MarkdownState.read]
            split <;> simp [opened, eventText]
        | _ => simp [MarkdownState.read, MarkdownState.push, opened, eventText]
      obtain ⟨current, headings, counts⟩ :=
        ih (fun event inside => plain event (by simp [inside])) _ step.1
      refine ⟨?_, headings.trans step.2.1, counts.trans step.2.2⟩
      simpa [String.append_assoc] using current

/-- An event outside of headings leaves them alone. -/
theorem read_plain {event : MarkdownEvent} (plain : isHeadingEvent event = false) (start : Nat)
    (state : MarkdownState) (closed : state.currentHeading = none)
    : (state.read libraries body (event, start)).currentHeading = none
      ∧ (state.read libraries body (event, start)).headings = state.headings
      ∧ (state.read libraries body (event, start)).headingCounts = state.headingCounts := by
  cases event with
  | startHeading | endHeading => cases plain
  | endLink =>
      simp only [MarkdownState.read]
      split <;> simp [closed]
  | _ => simp [MarkdownState.read, MarkdownState.push, closed]

/-- The compiler collects the numbered headings, by induction on the headings of the page. -/
theorem foldl_read_headings {events : List (MarkdownEvent × Nat)}
    {headings : List (Nat × String)} (has : HasHeadings (events.map Prod.fst) headings)
    (state : MarkdownState) (closed : state.currentHeading = none)
    : (events.foldl (MarkdownState.read libraries body) state).headings
      = state.headings ++ (numberedHeadings libraries state.headingCounts headings).reduceOption := by
  generalize kinds : events.map Prod.fst = read at has
  induction has generalizing events state with
  | nil =>
      rw [List.map_eq_nil_iff.mp kinds]
      simp [numberedHeadings]
  | other plain rest ih =>
      obtain ⟨⟨event, start⟩, events, rfl, rfl, tail⟩ := List.map_eq_cons_iff.mp kinds
      obtain ⟨still, same, counts⟩ := read_plain libraries body plain start state closed
      rw [List.foldl_cons, ih _ still tail, same, counts]
  | @heading level inner events' headings' plain rest ih =>
      obtain ⟨⟨_, start⟩, others, rfl, rfl, whole⟩ := List.map_eq_cons_iff.mp kinds
      obtain ⟨within, closing, rfl, rfl, ends⟩ := List.map_eq_append_iff.mp whole
      obtain ⟨⟨_, stop⟩, after, rfl, rfl, tail⟩ := List.map_eq_cons_iff.mp ends
      obtain ⟨current, same, counts⟩ := foldl_read_inner libraries body plain
        (state.read libraries body (.startHeading level, start)) rfl
      rw [List.foldl_cons, List.foldl_append, List.foldl_cons]
      generalize within.foldl (MarkdownState.read libraries body) _ = read at current same counts
      rw [String.empty_append] at current
      have before : (state.read libraries body (.startHeading level, start)).headings
          = state.headings := rfl
      have countsBefore : (state.read libraries body (.startHeading level, start)).headingCounts
          = state.headingCounts := rfl
      rw [before] at same
      rw [countsBefore] at counts
      rw [numberedHeadings, ih _ ?_ tail]
      · simp only [MarkdownState.read, current]
        split
        · rw [same, counts, List.reduceOption_cons_of_none]
        · simp only [same, counts]
          rw [List.append_assoc, List.reduceOption_cons_of_some]
          rfl
      · simp only [MarkdownState.read, current]
        split <;> rfl

theorem parseMarkdown_headings {headings : List (Nat × String)}
    (has : HasHeadings ((libraries.markdownEvents body).map Prod.fst) headings)
    : (parseMarkdown libraries body).headings
      = (numberedHeadings libraries .empty headings).reduceOption := by
  simpa [parseMarkdown] using foldl_read_headings libraries body has {} rfl

theorem length_numberedHeadings (counts : SortedMap String Nat) (headings : List (Nat × String))
    : (numberedHeadings libraries counts headings).length = headings.length := by
  induction headings generalizing counts with
  | nil => rfl
  | cons heading rest ih =>
      obtain ⟨level, text⟩ := heading
      rw [numberedHeadings]
      split <;> simp [ih]

end Compiled

-- The rendered headings

/-- The identity that a heading is rendered with. -/
def renderedId : HtmlEvent → Option (Option String)
  | .startHeading _ id _ _ => some id
  | _ => none

/-- The identities of the rendered headings, in the order of the page. -/
def renderedIds (events : List HtmlEvent) : List (Option String) := events.filterMap renderedId

theorem renderedId_of_plain {event : HtmlEvent} (plain : isHeadingEvent event.read = false)
    : renderedId event = none := by
  cases event with
  | startHeading => cases plain
  | _ => rfl

theorem startHeading_of_read {event : HtmlEvent} {level : Nat}
    (opens : event.read = .startHeading level)
    : ∃ id classes attrs, event = .startHeading level id classes attrs := by
  cases event with
  | startHeading found id classes attrs =>
      obtain rfl : found = level := MarkdownEvent.startHeading.inj opens
      exact ⟨id, classes, attrs, rfl⟩
  | _ => cases opens

theorem length_renderedIds {events : List HtmlEvent} {headings : List (Nat × String)}
    (has : HasHeadings (events.map HtmlEvent.read) headings)
    : (events.filterMap renderedId).length = headings.length := by
  generalize kinds : events.map HtmlEvent.read = read at has
  induction has generalizing events with
  | nil =>
      rw [List.map_eq_nil_iff.mp kinds]
      rfl
  | other plain rest ih =>
      obtain ⟨event, others, rfl, rfl, tail⟩ := List.map_eq_cons_iff.mp kinds
      rw [List.filterMap_cons_none (renderedId_of_plain plain)]
      exact ih tail
  | heading plain rest ih =>
      obtain ⟨first, others, rfl, opens, whole⟩ := List.map_eq_cons_iff.mp kinds
      obtain ⟨within, closing, rfl, rfl, ends⟩ := List.map_eq_append_iff.mp whole
      obtain ⟨last, after, rfl, closes, tail⟩ := List.map_eq_cons_iff.mp ends
      obtain ⟨id, classes, attrs, rfl⟩ := startHeading_of_read opens
      have silent : within.filterMap renderedId = [] :=
        List.filterMap_eq_nil_iff.mpr (fun event inside =>
          renderedId_of_plain (plain _ (List.mem_map_of_mem inside)))
      have quiet : renderedId last = none := by
        cases last <;> first | rfl | cases closes
      have named (level : Nat) : renderedId (.startHeading level id classes attrs) = some id := rfl
      rw [List.filterMap_cons_some (named _), List.filterMap_append, silent, List.nil_append,
        List.filterMap_cons_none quiet, List.length_cons, List.length_cons, ih tail]

/-- The renderer hands out the stored identities by position, by induction on the events. -/
theorem renderedIds_rewriteEvents (linkTargets : SortedMap String String)
    (stored : List Heading) (events : List HtmlEvent) (index : Nat)
    : renderedIds (rewriteEvents linkTargets stored index events)
      = (List.range' index ((events.filterMap renderedId).length)).map
          (fun position => stored[position]?.map Heading.id) := by
  induction events generalizing index with
  | nil => rfl
  | cons event rest ih =>
      cases event with
      | startHeading level id classes attrs =>
          simp only [rewriteEvents, renderedIds, List.filterMap_cons, renderedId,
            List.length_cons, List.range'_succ, List.map_cons]
          exact congrArg _ (ih (index + 1))
      | _ => exact ih index

/-- Positions behind the stored headings get no identity. -/
theorem byPosition_eq {stored : List Heading} {count : Nat} (enough : stored.length ≤ count)
    : (List.range' 0 count).map (fun position => stored[position]?.map Heading.id)
      = (stored.map Heading.id).map some ++ List.replicate (count - stored.length) none := by
  refine List.ext_getElem? (fun position => ?_)
  rw [List.getElem?_map, List.getElem?_append, List.length_map, List.length_map]
  by_cases inside : position < stored.length
  · rw [List.getElem?_range' (by omega), if_pos inside]
    simp [inside]
  · rw [if_neg inside, List.getElem?_replicate]
    by_cases within : position < count
    · rw [List.getElem?_range' within, if_pos (by omega)]
      simp [inside]
    · rw [List.getElem?_eq_none (by simpa using within), if_neg (by omega)]
      rfl

-----------------------------------------------------------------------------------------
-- Anchors that land
-----------------------------------------------------------------------------------------

/-- The identities that the compiler gives to the headings with text, in the order of the page. -/
def headingSlugs (libraries : TextLibraries) (headings : List (Nat × String)) : List String :=
  (numberedHeadings libraries .empty headings).reduceOption.map Heading.id

/-- The identities of a page's headings in its order: those of the compiler for the headings with
text, and none for the others.
-/
def expectedIds : List (Nat × String) → List Heading → List (Option String)
  | [], _ => []
  | (_, text) :: rest, computed =>
      if trim text = "" then none :: expectedIds rest computed
      else computed.head?.map Heading.id :: expectedIds rest computed.tail

theorem expectedIds_eq (libraries : TextLibraries) (counts : SortedMap String Nat)
    (headings : List (Nat × String))
    : expectedIds headings (numberedHeadings libraries counts headings).reduceOption
      = (numberedHeadings libraries counts headings).map (Option.map Heading.id) := by
  induction headings generalizing counts with
  | nil => rfl
  | cons heading rest ih =>
      obtain ⟨level, text⟩ := heading
      rw [expectedIds, numberedHeadings]
      split
      · rw [List.reduceOption_cons_of_none, ih]
        rfl
      · rw [List.reduceOption_cons_of_some, List.tail_cons, ih]
        rfl

/-- Every rendered heading has the identity that the compiler computed for it, and that identity
is what a route writes for the fragment.
-/
structure AnchorsLand (libraries : TextLibraries) (concept : Concept)
    (headings : List (Nat × String)) (rendered : List (Option String))
    : Prop where
  landed
    : rendered = expectedIds headings (parseMarkdown libraries concept.bodyMarkdown).headings
  routed : ∀ heading ∈ concept.headings, escapeFragmentIdentifier heading.id = heading.id

theorem isFragmentCharacter_toDigits (value : Nat)
    : ∀ character ∈ Nat.toDigits 16 value, isFragmentCharacter character = true := by
  have digits : ∀ digit < 16, isFragmentCharacter (Nat.digitChar digit) = true := by decide
  induction value using Nat.strongRecOn with
  | ind value ih =>
      intro character inside
      by_cases small : value < 16
      · rw [Nat.toDigits_of_lt_base small] at inside
        rw [List.mem_singleton.mp inside]
        exact digits value small
      · rw [Nat.toDigits_of_base_le (by decide) (by omega), List.mem_append,
          List.mem_singleton] at inside
        rcases inside with inside | rfl
        · exact ih (value / 16) (by omega) character inside
        · exact digits _ (Nat.mod_lt _ (by decide))

theorem isFragmentCharacter_lowerHex (width value : Nat)
    : ∀ character ∈ (lowerHex width value).toList, isFragmentCharacter character = true := by
  intro character inside
  rw [lowerHex, String.toList_ofList, List.mem_append] at inside
  rcases inside with padding | digit
  · rw [List.eq_of_mem_replicate padding]
    decide
  · exact isFragmentCharacter_toDigits value character digit

/-- A route writes a fragment unchanged exactly if it escapes none of its characters. -/
theorem escapeFragmentIdentifier_eq_iff (fragment : String)
    : escapeFragmentIdentifier fragment = fragment
      ↔ ∀ character ∈ fragment.toList, isFragmentCharacter character = true := by
  constructor
  · intro unchanged character inside
    rw [← unchanged, escapeFragmentIdentifier, String.toList_join, List.mem_flatMap] at inside
    obtain ⟨piece, written, inside⟩ := inside
    obtain ⟨read, _, rfl⟩ := List.mem_map.mp written
    split at inside
    case isTrue kept =>
        rw [String.toList_singleton, List.mem_singleton] at inside
        rwa [inside]
    case isFalse => exact isFragmentCharacter_lowerHex _ _ character inside
  · intro allowed
    refine String.toList_injective ?_
    rw [escapeFragmentIdentifier, String.toList_join]
    generalize fragment.toList = characters at allowed
    induction characters with
    | nil => rfl
    | cons character rest ih =>
        have tail := ih (fun character inside => allowed character (List.mem_cons_of_mem _ inside))
        rw [List.map_cons, List.flatMap_cons, tail, if_pos (allowed character (by simp)),
          String.toList_singleton, List.singleton_append]

theorem reduceOption_map_some {α : Type} (list : List α)
    : (list.map some).reduceOption = list := by
  induction list with
  | nil => rfl
  | cons item rest ih => rw [List.map_cons, List.reduceOption_cons_of_some, ih]

/-- The list is a run of present values and then only absent ones. -/
theorem eq_some_append_none_iff {α : Type} (list : List (Option α))
    : list.reduceOption.map some ++ List.replicate (list.length - list.reduceOption.length) none
        = list
      ↔ list.Pairwise (fun first second => first = none → second = none) := by
  induction list with
  | nil => simp
  | cons item rest ih =>
      rw [List.pairwise_cons]
      cases item with
      | some value =>
          rw [← ih, List.reduceOption_cons_of_some, List.map_cons, List.length_cons,
            List.length_cons, Nat.add_sub_add_right, List.cons_append]
          simp
      | none =>
          rw [List.reduceOption_cons_of_none]
          constructor
          · intro same
            have empty : rest.reduceOption = [] := by
              cases present : rest.reduceOption with
              | nil => rfl
              | cons value others =>
                  rw [present] at same
                  cases same
            obtain ⟨count, blank⟩ := (List.reduceOption_eq_nil_iff rest).mp empty
            rw [blank]
            exact ⟨fun item inside _ => List.eq_of_mem_replicate inside,
              List.pairwise_replicate.mpr (.inr id)⟩
          · rintro ⟨absent, _⟩
            have all : rest = List.replicate rest.length none :=
              List.eq_replicate_length.mpr (fun item inside => absent item inside rfl)
            rw [all, List.reduceOption_replicate_none]
            simp [List.replicate_succ]

theorem numberedHeadings_pairwise_iff (libraries : TextLibraries) (counts : SortedMap String Nat)
    (headings : List (Nat × String))
    : (numberedHeadings libraries counts headings).Pairwise
        (fun first second => first = none → second = none)
      ↔ headings.Pairwise (fun first second => trim first.2 = "" → trim second.2 = "") := by
  have same (counts : SortedMap String Nat)
      : (numberedHeadings libraries counts headings).map (fun numbered => numbered = none)
        = headings.map (fun heading => trim heading.2 = "") := by
    induction headings generalizing counts with
    | nil => rfl
    | cons heading rest ih =>
        obtain ⟨level, text⟩ := heading
        rw [numberedHeadings]
        split
        case isTrue blank => simp [ih, blank]
        case isFalse written => simp [ih, written]
  rw [← List.pairwise_map (R := fun first second : Prop => first → second), same,
    List.pairwise_map]

/-- Anchors land exactly if the headings without text come last, the identities of the others
increase along the page, and no identity has a character that routes escape. Witness:
`headingAnchors_land_sorted`.
-/
theorem headingAnchors_land_iff (libraries : TextLibraries) {source : SourceBundle}
    {concept : Concept} (inside : concept ∈ (compileBundle libraries source).concepts)
    {headings : List (Nat × String)} {events : List HtmlEvent}
    (compiled
      : HasHeadings ((libraries.markdownEvents concept.bodyMarkdown).map Prod.fst) headings)
    (parsed : HasHeadings (events.map HtmlEvent.read) headings)
    (linkTargets : SortedMap String String)
    : AnchorsLand libraries concept headings
        (renderedIds (rewriteEvents linkTargets concept.headings 0 events))
      ↔ headings.Pairwise (fun first second => trim first.2 = "" → trim second.2 = "")
        ∧ (headingSlugs libraries headings).Pairwise (· ≤ ·)
        ∧ ∀ slug ∈ headingSlugs libraries headings,
            ∀ character ∈ slug.toList, isFragmentCharacter character = true := by
  set numbered := numberedHeadings libraries .empty headings with numbering
  have read := parseMarkdown_headings libraries concept.bodyMarkdown compiled
  have slugs : headingSlugs libraries headings = numbered.reduceOption.map Heading.id := rfl
  have stored := compiled_headings inside
  rw [read, ← numbering] at stored
  have same : (concept.headings.map Heading.id).Perm (headingSlugs libraries headings) := by
    rw [slugs, stored]
    exact (sortBy_perm _ _).map _
  have increasing : (concept.headings.map Heading.id).Pairwise (· ≤ ·) := by
    rw [stored, List.pairwise_map]
    refine List.Pairwise.imp ?_
      (sortBy_sorted (fun heading : Heading => toLex (heading.id, heading.level)) _)
    exact fun before => Prod.Lex.monotone_fst _ _ before
  have count : (numbered.map (Option.map Heading.id)).length = headings.length := by
    rw [List.length_map, length_numberedHeadings]
  have present
      : (numbered.map (Option.map Heading.id)).reduceOption = headingSlugs libraries headings :=
    List.reduceOption_map
  have rendered
      : renderedIds (rewriteEvents linkTargets concept.headings 0 events)
        = (concept.headings.map Heading.id).map some
          ++ List.replicate (headings.length - (headingSlugs libraries headings).length) none := by
    have length : concept.headings.length = (headingSlugs libraries headings).length := by
      rw [← same.length_eq, List.length_map]
    rw [renderedIds_rewriteEvents, length_renderedIds parsed, ← length]
    refine byPosition_eq ?_
    rw [length, ← present, ← count]
    exact List.reduceOption_length_le _
  have expected
      : expectedIds headings (parseMarkdown libraries concept.bodyMarkdown).headings
        = numbered.map (Option.map Heading.id) := by
    rw [read, numbering, expectedIds_eq]
  have blanks
      : (numbered.map (Option.map Heading.id)).Pairwise
          (fun first second => first = none → second = none)
        ↔ headings.Pairwise (fun first second => trim first.2 = "" → trim second.2 = "") := by
    rw [← numberedHeadings_pairwise_iff libraries .empty, List.pairwise_map]
    simp only [Option.map_eq_none_iff, ← numbering]
  have packed := eq_some_append_none_iff (numbered.map (Option.map Heading.id))
  rw [present, count, blanks] at packed
  constructor
  · rintro ⟨landed, routed⟩
    rw [rendered, expected] at landed
    have ordered : concept.headings.map Heading.id = headingSlugs libraries headings := by
      rw [← present, ← landed, List.reduceOption_append, List.reduceOption_replicate_none,
        List.append_nil]
      exact (reduceOption_map_some _).symm
    refine ⟨packed.mp ?_, ordered ▸ increasing, fun slug named => ?_⟩
    · rw [← landed, ordered]
    · rw [← ordered] at named
      obtain ⟨heading, listed, rfl⟩ := List.mem_map.mp named
      exact (escapeFragmentIdentifier_eq_iff _).mp (routed heading listed)
  · rintro ⟨last, sorted, allowed⟩
    have ordered : concept.headings.map Heading.id = headingSlugs libraries headings :=
      same.eq_of_pairwise' increasing sorted
    refine ⟨?_, fun heading listed => ?_⟩
    · rw [rendered, expected, ordered]
      exact packed.mpr last
    · exact (escapeFragmentIdentifier_eq_iff _).mpr
        (allowed _ (ordered ▸ List.mem_map_of_mem listed))

/-- A guide with its headings in order, and a page with them the other way round. -/
def headedPages : SourceBundle where
  id := "wiki"
  rootPath := "/wiki"
  okfVersion := "1"
  title := "Wiki"
  documents :=
    [{ path := "guide.md", bodyMarkdown := "# alpha\n# zeta\n" },
      { path := "notes.md", bodyMarkdown := "# zeta\n# alpha\n" }]

/-- The events of a page of two headings. -/
def twoHeadings (first second : String) : List HtmlEvent :=
  [.startHeading 1 none [] [], .text first, .endHeading,
    .startHeading 1 none [] [], .text second, .endHeading]

theorem twoHeadings_has (first second : String)
    : HasHeadings ((twoHeadings first second).map HtmlEvent.read)
        [(1, String.join [first]), (1, String.join [second])] := by
  refine @HasHeadings.heading 1 [.text first] _ _ (by simp [isHeadingEvent]) ?_
  exact @HasHeadings.heading 1 [.text second] _ _ (by simp [isHeadingEvent]) .nil

/-- The anchors of the guide land. -/
theorem headingAnchors_land_sorted
    : ∃ concept ∈ (compileBundle linkPages headedPages).concepts,
        concept.id = "guide"
        ∧ AnchorsLand linkPages concept [(1, "alpha"), (1, "zeta")]
            (renderedIds
              (rewriteEvents .empty concept.headings 0 (twoHeadings "alpha" "zeta"))) := by
  have listed : 0 < (compileBundle linkPages headedPages).concepts.length := by decide
  have body
      : (linkPages.markdownEvents
          (compileBundle linkPages headedPages).concepts[0].bodyMarkdown).map Prod.fst
        = (twoHeadings "alpha" "zeta").map HtmlEvent.read := by
    decide +revert
  have has := twoHeadings_has "alpha" "zeta"
  have fragments
      : ∀ slug ∈ headingSlugs linkPages [(1, String.join ["alpha"]), (1, String.join ["zeta"])],
          slug.toList.all isFragmentCharacter = true := by
    decide
  refine ⟨_, List.getElem_mem listed, by decide +revert, ?_⟩
  refine (headingAnchors_land_iff linkPages (List.getElem_mem listed) (body ▸ has) has
    .empty).mpr ⟨?_, ?_, fun slug slugged => List.all_eq_true.mp (fragments slug slugged)⟩
  all_goals decide

/-- The headings of the page get each other's identity. -/
theorem headingAnchors_swapped
    : ∃ concept ∈ (compileBundle linkPages headedPages).concepts,
        (linkPages.markdownEvents concept.bodyMarkdown).map Prod.fst
          = (twoHeadings "zeta" "alpha").map HtmlEvent.read
        ∧ HasHeadings ((twoHeadings "zeta" "alpha").map HtmlEvent.read)
            [(1, "zeta"), (1, "alpha")]
        ∧ ¬AnchorsLand linkPages concept [(1, "zeta"), (1, "alpha")]
            (renderedIds
              (rewriteEvents .empty concept.headings 0 (twoHeadings "zeta" "alpha"))) := by
  have listed : 1 < (compileBundle linkPages headedPages).concepts.length := by decide
  have swapped
      : renderedIds (rewriteEvents .empty
            (compileBundle linkPages headedPages).concepts[1].headings 0
            (twoHeadings "zeta" "alpha"))
          = [some "alpha", some "zeta"]
        ∧ expectedIds [(1, "zeta"), (1, "alpha")]
            (parseMarkdown linkPages
              (compileBundle linkPages headedPages).concepts[1].bodyMarkdown).headings
          = [some "zeta", some "alpha"] := by
    decide +revert
  refine ⟨(compileBundle linkPages headedPages).concepts[1], List.getElem_mem listed,
    ?_, twoHeadings_has "zeta" "alpha", fun land => ?_⟩
  · clear swapped
    decide +revert
  have landed := land.landed
  rw [swapped.1, swapped.2] at landed
  revert landed
  decide

end CodebaseGraph.Wiki.Render
