import CodebaseGraph.Collections.Offsets
import CodebaseGraph.Collections.SortedMap
import CodebaseGraph.Protocol.Request
import CodebaseGraph.Syntax.Arena
import CodebaseGraph.Wiki.Text

/-! The sections of Markdown files (`src/parser/markdown.rs`): ranges of lines that begin at the
headings. What stands before the first heading is in none of them.
-/

namespace CodebaseGraph.Parser

open CodebaseGraph.Collections
open CodebaseGraph.Protocol (CaptureMapping LanguageProfile)
open CodebaseGraph.Syntax (SyntaxNode Value)
open CodebaseGraph.Wiki (isWhitespace joinWith lines trim trimStartOf)

-- Sections

structure MarkdownSection where
  heading : String
  lineStart : Nat
  lineEnd : Nat
  text : String
deriving DecidableEq, Repr

/-- The text of a heading: up to six marks, and white space behind them. -/
def headingOf (line : String) : Option String :=
  let trimmed := trimStartOf isWhitespace line
  let level := (trimmed.toList.takeWhile (· = '#')).length
  if (1 ≤ level ∧ level ≤ 6) ∧ trimmed.toList[level]?.any isWhitespace = true then
    some (trim (String.ofList (trimmed.toList.drop level)))
  else none

/-- The headings with the numbers of their lines. -/
def headings (lines : List String) : List (Nat × String) :=
  lines.zipIdx.filterMap
    (fun entry => (headingOf entry.1).map (fun heading => (entry.2 + 1, heading)))

/-- The text from a line to another one. -/
def textBetween (lines : List String) (lineStart lineEnd : Nat) : String :=
  trim (joinWith '\n' ((lines.take lineEnd).drop (lineStart - 1)))

/-- The section of a heading, up to the line before the next one. -/
def sectionAt (lines : List String) (headings : List (Nat × String))
    (entry : (Nat × String) × Nat)
    : MarkdownSection :=
  let lineEnd :=
    match headings[entry.2 + 1]? with
    | some next => next.1 - 1
    | none => lines.length
  {
    heading := entry.1.2
    lineStart := entry.1.1
    lineEnd
    text := textBetween lines entry.1.1 lineEnd
  }

def markdownSections (source : String) : List MarkdownSection :=
  let lines := lines source
  let headings := headings lines
  if headings.isEmpty then
    let text := trim source
    if text = "" then []
    else [{ heading := "", lineStart := 1, lineEnd := max lines.length 1, text }]
  else
    (headings.zipIdx.map (sectionAt lines headings)).filter
      (fun section_ => section_.text ≠ "")

-- Captures

def summary (text : String) : String := String.ofList ((trim text).toList.take 2000)

def mappingForCaptureName (mappings : List CaptureMapping) (captureName : String)
    : Option CaptureMapping :=
  mappings.find? (fun mapping => mapping.captureName = captureName)

def pushMarkdownCapture (profile : LanguageProfile) (captureName : String)
    (node root : SyntaxNode)
    : SyntaxNode :=
  match mappingForCaptureName profile.captureMappings captureName with
  | none => root
  | some mapping =>
      { root with children := root.children ++ [{ node with captureName := mapping.captureName }] }

def markdownNode (nodeType text : String) (lineStart lineEnd : Nat) (byteStart byteEnd : Nat)
    (values : List (String × String))
    : SyntaxNode where
  nodeType
  text
  lineStart := some lineStart
  lineEnd := some lineEnd
  byteStart := if byteEnd = 0 then none else some byteStart
  byteEnd := if byteEnd = 0 then none else some byteEnd
  fields :=
    ((SortedMap.empty (κ := String) (β := Value)).insertAll
      ((values.filter (fun entry => entry.2 ≠ "")).map
        (fun entry => (entry.1, .string entry.2)))).entries

/-- The node of a section. -/
def documentationChunk (section_ : MarkdownSection) : SyntaxNode :=
  let heading := if section_.heading = "" then "section" else section_.heading
  markdownNode "DocumentationChunk" section_.text section_.lineStart section_.lineEnd 0 0
    [("name", heading), ("heading", section_.heading), ("text", summary section_.text)]

/-- The node of the whole text. -/
def documentationSource (source : String) : SyntaxNode :=
  markdownNode "DocumentationSource" source 1 (max (lines source).length 1) 0 source.utf8ByteSize
    [("name", ""), ("text", summary source)]

def parseMarkdownSource (source : String) (profile : LanguageProfile) : SyntaxNode :=
  let root : SyntaxNode := { nodeType := "Module" }
  (markdownSections source).foldl
    (fun root section_ =>
      pushMarkdownCapture profile "doc.chunk" (documentationChunk section_) root)
    (pushMarkdownCapture profile "doc.source" (documentationSource source) root)

theorem children_foldl_pushMarkdownCapture {profile : LanguageProfile} {captureName : String}
    {mapping : CaptureMapping}
    (mapped : mappingForCaptureName profile.captureMappings captureName = some mapping)
    {β : Type} (node : β → SyntaxNode) (items : List β) (root : SyntaxNode)
    : (items.foldl (fun root item => pushMarkdownCapture profile captureName (node item) root)
        root).children
      = root.children ++ items.map (fun item => { node item with captureName }) := by
  have same : mapping.captureName = captureName := by
    simpa using List.find?_some mapped
  induction items generalizing root with
  | nil => rw [List.foldl_nil, List.map_nil, List.append_nil]
  | cons item rest ih =>
      rw [List.foldl_cons, ih]
      simp [pushMarkdownCapture, mapped, same]

/-- The nodes of a file are one for its text and one for each section, in their order. -/
theorem parseMarkdownSource_children {profile : LanguageProfile} {whole chunk : CaptureMapping}
    (mapped : mappingForCaptureName profile.captureMappings "doc.source" = some whole)
    (mapped' : mappingForCaptureName profile.captureMappings "doc.chunk" = some chunk)
    (source : String)
    : (parseMarkdownSource source profile).children
      = { documentationSource source with captureName := "doc.source" }
        :: (markdownSections source).map
            (fun section_ => { documentationChunk section_ with captureName := "doc.chunk" }) := by
  have same : whole.captureName = "doc.source" := by
    simpa using List.find?_some mapped
  rw [parseMarkdownSource, children_foldl_pushMarkdownCapture mapped']
  simp [pushMarkdownCapture, mapped, same]

-----------------------------------------------------------------------------------------
-- Ranges of the sections
-----------------------------------------------------------------------------------------

theorem mem_headings {lines : List String} {place : Nat} {heading : String}
    : (place, heading) ∈ headings lines
      ↔ ∃ index line,
          lines[index]? = some line ∧ headingOf line = some heading ∧ place = index + 1 := by
  unfold headings
  rw [List.mem_filterMap]
  constructor
  · rintro ⟨⟨line, index⟩, listed, found⟩
    obtain ⟨heading', titled, same⟩ := Option.map_eq_some_iff.mp found
    obtain ⟨rfl, rfl⟩ := Prod.mk.inj same
    exact ⟨index, line, List.mk_mem_zipIdx_iff_getElem?.mp listed, titled, rfl⟩
  · rintro ⟨index, line, found, titled, rfl⟩
    exact ⟨(line, index), List.mk_mem_zipIdx_iff_getElem?.mpr found, by simp [titled]⟩

theorem headings_increasing (lines : List String)
    : ((headings lines).map Prod.fst).Pairwise (· < ·) := by
  have places : lines.zipIdx.Pairwise (fun first second => first.2 < second.2) := by
    have numbers : (lines.zipIdx.map Prod.snd).Pairwise (· < ·) := by
      rw [List.zipIdx_map_snd]
      exact List.pairwise_lt_range'
    exact List.pairwise_map.mp numbers
  refine List.pairwise_map.mpr (List.Pairwise.filterMap _ ?_ places)
  intro first second before entry found other found'
  obtain ⟨_, -, rfl⟩ := Option.map_eq_some_iff.mp found
  obtain ⟨_, -, rfl⟩ := Option.map_eq_some_iff.mp found'
  exact Nat.succ_lt_succ before

theorem headings_bounded (lines : List String)
    : ∀ place ∈ (headings lines).map Prod.fst, 1 ≤ place ∧ place ≤ lines.length := by
  intro place listed
  obtain ⟨⟨_, heading⟩, member, rfl⟩ := List.mem_map.mp listed
  obtain ⟨index, line, found, -, rfl⟩ := mem_headings.mp member
  exact ⟨Nat.le_add_left 1 index, (List.getElem?_eq_some_iff.mp found).1⟩

theorem headings_eq_nil_iff {lines : List String}
    : headings lines = [] ↔ ∀ line ∈ lines, headingOf line = none := by
  constructor
  · intro none line listed
    obtain ⟨index, found⟩ := List.mem_iff_getElem?.mp listed
    cases titled : headingOf line with
    | none => rfl
    | some heading =>
        have member := mem_headings.mpr ⟨index, line, found, titled, rfl⟩
        rw [none] at member
        cases member
  · intro untitled
    refine List.eq_nil_iff_forall_not_mem.mpr ?_
    rintro ⟨place, heading⟩ member
    obtain ⟨index, line, found, titled, -⟩ := mem_headings.mp member
    rw [untitled line (List.mem_of_getElem? found)] at titled
    cases titled

/-- A heading is not blank. -/
theorem trim_ne_of_headingOf {line heading : String} (titled : headingOf line = some heading)
    : trim line ≠ "" := by
  intro blank
  have white := Wiki.whitespace_of_trim_eq_empty blank
  have nothing : trimStartOf isWhitespace line = "" := by
    rw [trimStartOf, List.dropWhile_eq_nil_iff.mpr white, String.ofList_nil]
  unfold headingOf at titled
  simp [nothing] at titled

/-- The text of a range holds what its lines say. -/
theorem trim_infix_textBetween {lines : List String} {index lineStart lineEnd : Nat}
    {line : String} (found : lines[index]? = some line) (after : lineStart ≤ index + 1)
    (before : index + 1 ≤ lineEnd)
    : (trim line).toList <:+: (textBetween lines lineStart lineEnd).toList := by
  refine Wiki.trim_infix ?_
  rw [Wiki.toList_joinWith]
  refine Wiki.infix_intercalate (List.mem_map_of_mem ?_)
  refine List.mem_iff_getElem?.mpr ⟨index - (lineStart - 1), ?_⟩
  rw [List.getElem?_drop, List.getElem?_take_of_lt (by omega)]
  rwa [Nat.add_sub_cancel' (by omega)]

theorem ne_empty_of_part {part text : String} (filled : part ≠ "")
    (inside : part.toList <:+: text.toList)
    : text ≠ "" := by
  rintro rfl
  exact filled (String.toList_injective (List.infix_nil.mp inside))

/-- The ranges of the sections are cut at the headings, and no section is left out. -/
theorem markdownSections_cuts {source : String} (titled : headings (lines source) ≠ [])
    : (markdownSections source).map (fun section_ => (section_.lineStart, section_.lineEnd))
        = cuts (lines source).length ((headings (lines source)).map Prod.fst)
      ∧ ∀ section_ ∈ markdownSections source,
          section_.text = textBetween (lines source) section_.lineStart section_.lineEnd := by
  have ranges
      : ((headings (lines source)).zipIdx.map
            (sectionAt (lines source) (headings (lines source)))).map
            (fun section_ => (section_.lineStart, section_.lineEnd))
        = cuts (lines source).length ((headings (lines source)).map Prod.fst) := by
    rw [← map_zipIdx_eq_cuts Prod.fst (lines source).length [] (headings (lines source)),
      List.map_map]
    refine List.map_congr_left ?_
    intro entry _
    simp only [Function.comp_apply, sectionAt, List.nil_append]
    cases (headings (lines source))[entry.2 + 1]? <;> rfl
  have bounded :=
    cuts_bounded (headings_increasing (lines source))
      (fun place listed => (headings_bounded (lines source) place listed).2)
  rw [← ranges] at bounded
  have filled
      : ∀ entry ∈ (headings (lines source)).zipIdx,
          (sectionAt (lines source) (headings (lines source)) entry).text ≠ "" := by
    rintro ⟨⟨place, heading⟩, index⟩ inside
    obtain ⟨-, upto, -⟩ := bounded _ (List.mem_map_of_mem (List.mem_map_of_mem inside))
    have listed : (place, heading) ∈ headings (lines source) :=
      List.mem_of_getElem? (List.mk_mem_zipIdx_iff_getElem?.mp inside)
    obtain ⟨before, line, found, titled, rfl⟩ := mem_headings.mp listed
    have shown := trim_infix_textBetween found (Nat.le_refl _) upto
    exact ne_empty_of_part (trim_ne_of_headingOf titled) shown
  have whole
      : markdownSections source
        = (headings (lines source)).zipIdx.map
            (sectionAt (lines source) (headings (lines source))) := by
    unfold markdownSections
    dsimp only
    rw [if_neg (by simpa using titled), List.filter_eq_self]
    intro section_ listed
    obtain ⟨entry, inside, rfl⟩ := List.mem_map.mp listed
    simpa using filled entry inside
  rw [whole]
  refine ⟨ranges, ?_⟩
  intro section_ listed
  obtain ⟨entry, -, rfl⟩ := List.mem_map.mp listed
  rfl

theorem eq_empty_of_lines {text : String} (none : lines text = []) : text = "" := by
  unfold lines at none
  obtain ⟨ended, last⟩ := List.append_eq_nil_iff.mp (List.map_eq_nil_iff.mp none)
  have parts := List.splitOn_ne_nil '\n' text.toList
  have alone := List.dropLast_concat_getLast parts
  rw [List.map_eq_nil_iff.mp ended, List.nil_append] at alone
  rw [List.getLast?_eq_some_getLast parts, Option.toList_some, List.filter_cons] at last
  have joined : ['\n'].intercalate (text.toList.splitOn '\n') = text.toList :=
    List.intercalate_splitOn '\n'
  rw [← alone, List.intercalate_singleton] at joined
  apply String.toList_injective
  rw [← joined]
  by_contra filled
  rw [if_pos (by simpa using filled)] at last
  cases last

/-- The first heading begins the first range. -/
theorem headings_head? {before after : List String} {line heading : String}
    (untitled : ∀ other ∈ before, headingOf other = none) (titled : headingOf line = some heading)
    : ((headings (before ++ line :: after)).map Prod.fst).head? = some (before.length + 1) := by
  have none : headings before = [] := headings_eq_nil_iff.mpr untitled
  unfold headings at none ⊢
  rw [List.zipIdx_append, List.filterMap_append, none, List.nil_append, List.zipIdx_cons,
    List.filterMap_cons]
  simp [titled]

-----------------------------------------------------------------------------------------
-- Lossless sections
-----------------------------------------------------------------------------------------

def MarkdownSection.Covers (section_ : MarkdownSection) (place : Nat) : Prop :=
  section_.lineStart ≤ place ∧ place ≤ section_.lineEnd

/-- The sections are ranges of lines in their order, and every line that is not blank lies in one of
them, which has its text.
-/
structure Lossless (source : String) : Prop where
  bounded
    : ∀ section_ ∈ markdownSections source,
        1 ≤ section_.lineStart ∧ section_.lineStart ≤ section_.lineEnd
        ∧ section_.lineEnd ≤ (lines source).length
  ordered
    : (markdownSections source).Pairwise (fun first second => first.lineEnd < second.lineStart)
  kept
    : ∀ index line, (lines source)[index]? = some line → trim line ≠ "" →
        ∃ section_ ∈ markdownSections source,
          section_.Covers (index + 1)
          ∧ (trim line).toList <:+: section_.text.toList
          ∧ ∀ other ∈ markdownSections source, other.Covers (index + 1) → other = section_

theorem eq_of_covers {sections : List MarkdownSection}
    (ordered : sections.Pairwise (fun first second => first.lineEnd < second.lineStart))
    (place : Nat)
    : ∀ first ∈ sections, ∀ second ∈ sections,
        first.Covers place → second.Covers place → first = second := by
  have apart (first second : MarkdownSection) (before : first.lineEnd < second.lineStart)
      (covers : first.Covers place)
      : ¬second.Covers place := by
    intro covers'
    exact absurd (Nat.lt_of_le_of_lt covers.2 (Nat.lt_of_lt_of_le before covers'.1))
      (Nat.lt_irrefl _)
  intro first listed second listed' covers covers'
  refine (ordered.imp (fun before => ?_)).forall_of_forall_of_flip
    (R := fun first second => first.Covers place → second.Covers place → first = second)
    (fun _ _ _ _ => rfl) (ordered.imp (fun before => ?_)) listed listed' covers covers'
  · exact fun covers covers' => absurd covers' (apart _ _ before covers)
  · exact fun covers covers' => absurd covers (apart _ _ before covers')

/-- Without headings, the whole text is one section. -/
theorem lossless_of_untitled {source : String} (untitled : headings (lines source) = [])
    : Lossless source := by
  have sections
      : markdownSections source
        = if trim source = "" then []
          else
            [{
              heading := ""
              lineStart := 1
              lineEnd := max (lines source).length 1
              text := trim source
            }] := by
    unfold markdownSections
    dsimp only
    rw [if_pos (List.isEmpty_iff.mpr untitled)]
  by_cases blank : trim source = ""
  · rw [if_pos blank] at sections
    refine ⟨by simp [sections], by simp [sections], ?_⟩
    intro index line found filled
    have inside := Wiki.trim_infix (Wiki.infix_of_mem_lines (List.mem_of_getElem? found))
    exact absurd blank (ne_empty_of_part filled inside)
  · rw [if_neg blank] at sections
    have some_ : 1 ≤ (lines source).length := by
      refine List.length_pos_iff.mpr ?_
      intro none
      rw [eq_empty_of_lines none] at blank
      exact blank (by decide)
    refine ⟨by simpa [sections] using some_, by simp [sections], ?_⟩
    intro index line found filled
    have inside := Wiki.trim_infix (Wiki.infix_of_mem_lines (List.mem_of_getElem? found))
    have place : index < (lines source).length := (List.getElem?_eq_some_iff.mp found).1
    rw [sections]
    refine ⟨_, List.mem_singleton_self _, ⟨Nat.le_add_left 1 index, ?_⟩, inside, ?_⟩
    · exact Nat.le_trans place (Nat.le_max_left _ _)
    · exact fun other listed _ => List.mem_singleton.mp listed

/-- With headings, the sections begin at the first one. -/
theorem lossless_iff_of_titled {source : String} {before after : List String}
    {line heading : String} (split : lines source = before ++ line :: after)
    (untitled : ∀ other ∈ before, headingOf other = none) (titled : headingOf line = some heading)
    : Lossless source ↔ ∀ other ∈ before, trim other = "" := by
  have first
      : ((headings (before ++ line :: after)).map Prod.fst).head? = some (before.length + 1) :=
    headings_head? untitled titled
  rw [← split] at first
  have some_ : headings (lines source) ≠ [] := by
    intro none
    rw [none] at first
    cases first
  obtain ⟨ranges, texts⟩ := markdownSections_cuts some_
  have increasing := headings_increasing (lines source)
  have inside := headings_bounded (lines source)
  have bounded
      : ∀ section_ ∈ markdownSections source,
          section_.lineStart ∈ (headings (lines source)).map Prod.fst
          ∧ section_.lineStart ≤ section_.lineEnd
          ∧ section_.lineEnd ≤ (lines source).length := by
    intro section_ listed
    refine cuts_bounded increasing (fun place member => (inside place member).2)
      (section_.lineStart, section_.lineEnd) ?_
    rw [← ranges]
    exact List.mem_map.mpr ⟨section_, listed, rfl⟩
  constructor
  · intro lossless other listed
    by_contra filled
    obtain ⟨index, found⟩ := List.mem_iff_getElem?.mp listed
    have early : index < before.length := (List.getElem?_eq_some_iff.mp found).1
    obtain ⟨section_, member, covers, -⟩ :=
      lossless.kept index other (by rw [split, List.getElem?_append_left early, found]) filled
    obtain ⟨start, -⟩ := bounded section_ member
    obtain ⟨rest, starts⟩ := List.head?_eq_some_iff.mp first
    rw [starts] at start increasing
    have late : before.length + 1 ≤ section_.lineStart := by
      rcases List.mem_cons.mp start with same | later
      · exact Nat.le_of_eq same.symm
      · exact Nat.le_of_lt ((List.pairwise_cons.mp increasing).1 _ later)
    exact absurd (Nat.le_trans late covers.1) (by omega)
  · intro blank
    have ordered
        : (markdownSections source).Pairwise
            (fun first second => first.lineEnd < second.lineStart) := by
      have apart
          : (cuts (lines source).length ((headings (lines source)).map Prod.fst)).Pairwise
              (fun first second => first.2 < second.1) :=
        cuts_pairwise increasing
      rw [← ranges] at apart
      exact List.pairwise_map.mp apart
    refine ⟨?_, ordered, ?_⟩
    · intro section_ member
      obtain ⟨start, rest⟩ := bounded section_ member
      exact ⟨(inside _ start).1, rest⟩
    · intro index other found filled
      have late : before.length + 1 ≤ index + 1 := by
        by_contra early
        rw [split, List.getElem?_append_left (by omega)] at found
        exact filled (blank other (List.mem_of_getElem? found))
      obtain ⟨cut, listed, covered⟩ :=
        cuts_cover first late (List.getElem?_eq_some_iff.mp found).1
      rw [← ranges] at listed
      obtain ⟨section_, member, rfl⟩ := List.mem_map.mp listed
      refine ⟨section_, member, covered, ?_, ?_⟩
      · rw [texts section_ member]
        exact trim_infix_textBetween found covered.1 covered.2
      · intro another member' covers
        exact eq_of_covers ordered _ another member' section_ member covers covered

/-- The sections lose nothing exactly if there is no heading, or nothing but blank lines before the
first one.
-/
theorem markdownSections_lossless_iff (source : String)
    : Lossless source
      ↔ (∀ line ∈ lines source, headingOf line = none)
        ∨ ∀ line ∈ (lines source).takeWhile (fun line => (headingOf line).isNone),
            trim line = "" := by
  by_cases untitled : ∀ line ∈ lines source, headingOf line = none
  · exact iff_of_true (lossless_of_untitled (headings_eq_nil_iff.mpr untitled)) (Or.inl untitled)
  · rw [or_iff_right untitled]
    cases rest : (lines source).dropWhile (fun line => (headingOf line).isNone) with
    | nil =>
        refine absurd ?_ untitled
        intro line listed
        simpa using List.dropWhile_eq_nil_iff.mp rest line listed
    | cons line after =>
        have split := List.takeWhile_append_dropWhile
          (p := fun line => (headingOf line).isNone) (l := lines source)
        rw [rest] at split
        have head := List.head_dropWhile_not (fun line => (headingOf line).isNone)
          (l := lines source) (by simp [rest])
        simp only [rest, List.head_cons] at head
        obtain ⟨heading, titled⟩ := Option.isSome_iff_exists.mp (by simpa using head)
        refine lossless_iff_of_titled split.symm ?_ titled
        intro other listed
        simpa using List.mem_takeWhile_imp listed

/-- What stands before the heading is in no section. -/
theorem markdownSections_drops_preamble : ¬∀ source, Lossless source := by
  intro lossless
  obtain ⟨section_, member, covers, -⟩ :=
    (lossless "intro\n# A").kept 0 "intro" (by decide) (by decide)
  have sections
      : markdownSections "intro\n# A"
        = [{ heading := "A", lineStart := 2, lineEnd := 2, text := "# A" }] := by
    decide
  rw [sections] at member
  obtain rfl := List.mem_singleton.mp member
  exact absurd covers.1 (by decide)

end CodebaseGraph.Parser
