import CodebaseGraph.Wiki.Render.Site

/-! The slots of a page. The layout replaces the placeholders of the page template one after the
other, each in the whole text that the steps before have left.
-/

namespace CodebaseGraph.Wiki.Render

open CodebaseGraph.Collections

-----------------------------------------------------------------------------------------
-- The page template
-----------------------------------------------------------------------------------------

inductive PageSlot where
  | title
  | description
  | stylesheet
  | breadcrumbs
  | pageNav
  | main
  | sidebar
  | footer
deriving DecidableEq

namespace PageSlot

/-- The slots in the order in which they are filled. -/
def all : List PageSlot :=
  [.title, .description, .stylesheet, .breadcrumbs, .pageNav, .main, .sidebar, .footer]

def placeholder : PageSlot → String
  | .title => "__PAGE_TITLE__"
  | .description => "__META_DESCRIPTION__"
  | .stylesheet => "__STYLESHEET_HREF__"
  | .breadcrumbs => "__BREADCRUMBS__"
  | .pageNav => "__PAGE_NAV__"
  | .main => "__MAIN_CONTENT__"
  | .sidebar => "__SIDEBAR__"
  | .footer => "__FOOTER__"

/-- The value that a layout gives to a slot. -/
def value (renderer : Renderer) (layout : RenderLayout) : PageSlot → String
  | .title => escapeHtml (renderer.layoutTitle layout)
  | .description => escapeAttribute layout.description
  | .stylesheet => escapeAttribute layout.stylesheetHref
  | .breadcrumbs => renderBreadcrumbs layout.breadcrumbs
  | .pageNav => renderLinkListNav "Page navigation" layout.pageNav
  | .main => layout.main
  | .sidebar => layout.sidebar
  | .footer => escapeHtml layout.footer

def placeholderText (slot : PageSlot) : List Char := slot.placeholder.toList

def valueText (renderer : Renderer) (layout : RenderLayout) (slot : PageSlot) : List Char :=
  (slot.value renderer layout).toList

end PageSlot

/-- The texts of the page template between its placeholders. -/
def pageParts : Template Char PageSlot where
  head :=
    "<!DOCTYPE html>\n<html lang=\"en\">\n<head>\n  <meta charset=\"utf-8\">\n  ".toList
      ++ "<meta name=\"viewport\" content=\"width=device-width, initial-scale=1\">\n  ".toList
      ++ "<meta name=\"description\" content=\"".toList
  tail :=
    [
      (.description, "\">\n  <meta name=\"generator\" content=\"k-wiki\">\n  <title>".toList),
      (.title, "</title>\n  <link rel=\"stylesheet\" href=\"".toList),
      (
        .stylesheet,
        "\">\n</head>\n<body>\n  <a class=\"skip-link\" href=\"#main-content\">".toList
          ++ "Skip to content</a>\n  <header class=\"site-shell\">\n    ".toList
      ),
      (.breadcrumbs, "\n    ".toList),
      (
        .pageNav,
        "\n  </header>\n  <div class=\"site-layout\">\n    ".toList
          ++ "<main id=\"main-content\" tabindex=\"-1\">\n      ".toList
      ),
      (.main, "\n    </main>\n    <aside class=\"sidebar\">\n      ".toList),
      (
        .sidebar,
        "\n    </aside>\n  </div>\n  <footer class=\"site-footer\">\n    <p>".toList
      ),
      (.footer, "</p>\n  </footer>\n</body>\n</html>\n".toList)
    ]

/-- The page template with a text in each slot. -/
def filledPage (value : PageSlot → List Char) : String := String.ofList (pageParts.fill value)

theorem pageTemplate_parts : pageTemplate.toList = pageParts.fill PageSlot.placeholderText := by
  unfold pageTemplate pageParts Template.fill
  simp only [String.toList_append, List.flatMap_cons, List.flatMap_nil, List.append_nil,
    List.append_assoc, PageSlot.placeholderText, PageSlot.placeholder]

/-- The characters of placeholders. -/
def isPlaceholderCharacter (character : Char) : Bool := character.isUpper || character = '_'

theorem isPlaceholderCharacter_placeholder (slot : PageSlot)
    : slot.placeholderText.all isPlaceholderCharacter = true := by
  cases slot <;> decide

theorem underscore_mem_placeholder (slot : PageSlot) : '_' ∈ slot.placeholderText := by
  cases slot <;> decide

/-- A text with other characters at its ends and without an underscore. -/
structure PlainPart (text : List Char) : Prop where
  first : ∃ character ∈ text.head?, isPlaceholderCharacter character = false
  last : ∃ character ∈ text.getLast?, isPlaceholderCharacter character = false
  plain : text.all (· ≠ '_') = true

instance (text : List Char) : Decidable (PlainPart text) :=
  decidable_of_iff
    (text.head?.any (fun character => !isPlaceholderCharacter character) = true
      ∧ text.getLast?.any (fun character => !isPlaceholderCharacter character) = true
      ∧ text.all (· ≠ '_') = true)
    (by
      simp only [Option.any_eq_true, Bool.not_eq_true']
      exact ⟨fun ⟨first, last, plain⟩ => ⟨first, last, plain⟩,
        fun ⟨first, last, plain⟩ => ⟨first, last, plain⟩⟩)

theorem PlainPart.barrier {text : List Char} (part : PlainPart text) (slot : PageSlot)
    : Barrier slot.placeholderText text := by
  have outside {character : Char} (other : isPlaceholderCharacter character = false)
      : character ∉ slot.placeholderText := fun inside => by
    rw [List.all_eq_true.mp (isPlaceholderCharacter_placeholder slot) character inside] at other
    cases other
  obtain ⟨⟨first, starts, other⟩, ⟨last, ends, another⟩, plain⟩ := part
  refine ⟨⟨first, starts, outside other⟩, ⟨last, ends, outside another⟩, fun inside => ?_⟩
  have underscore := List.all_eq_true.mp plain '_' (inside.subset (underscore_mem_placeholder slot))
  exact absurd underscore (by decide)

/-- The characters of a text of ASCII characters, read from its bytes. -/
def asciiCharacters (text : String) : List Char :=
  (bytesOf text).map (fun byte => Char.ofNat byte.toNat)

theorem plainPart_of_bytes {text : String} (ascii : text = String.ofList (asciiCharacters text))
    (plain : PlainPart (asciiCharacters text))
    : PlainPart text.toList := by
  rw [ascii, String.toList_ofList]
  exact plain

theorem pageParts_plain
    : PlainPart pageParts.head ∧ ∀ place ∈ pageParts.tail, PlainPart place.2 := by
  unfold pageParts
  simp only [List.forall_mem_cons, List.not_mem_nil, false_implies, implies_true, and_true,
    ← String.toList_append]
  refine ⟨?_, ?_, ?_, ?_, ?_, ?_, ?_, ?_, ?_⟩
  all_goals exact plainPart_of_bytes (by decide +kernel) (by decide +kernel)

theorem pagePlaceholders : Placeholders pageParts PageSlot.placeholderText PageSlot.all where
  filled slot := List.ne_nil_of_mem (underscore_mem_placeholder slot)
  apart first second inside := by
    cases first <;> cases second <;> first | rfl | (revert inside; decide)
  divided slot := ⟨pageParts_plain.1.barrier slot, fun place inside =>
    (pageParts_plain.2 place inside).barrier slot⟩
  listed slot := by cases slot <;> decide
  distinct := by decide

theorem foldl_replaceText (renderer : Renderer) (layout : RenderLayout) (slots : List PageSlot)
    (text : String)
    : slots.foldl
        (fun text slot => replaceText slot.placeholder (slot.value renderer layout) text) text
      = String.ofList
          (replaceInTurn PageSlot.placeholderText (PageSlot.valueText renderer layout) slots
            text.toList) := by
  induction slots generalizing text with
  | nil => exact String.ofList_toList.symm
  | cons slot rest ih =>
      rw [List.foldl_cons, ih, replaceText, String.toList_ofList]
      rfl

/-- The layout replaces the placeholders in turn. -/
theorem renderLayout_html (renderer : Renderer) (layout : RenderLayout)
    : (renderer.renderLayout layout).html
      = String.ofList
          (replaceInTurn PageSlot.placeholderText (PageSlot.valueText renderer layout)
            PageSlot.all (pageParts.fill PageSlot.placeholderText)) := by
  rw [← pageTemplate_parts, ← foldl_replaceText]
  rfl

-----------------------------------------------------------------------------------------
-- Slots that are kept apart
-----------------------------------------------------------------------------------------

/-- No placeholder is in the text. -/
def NoPlaceholder (text : List Char) : Prop := ∀ slot : PageSlot, ¬slot.placeholderText <:+: text

/-- The page is the template with each value in its slot, and stays so with any value without
placeholders in place of one.
-/
structure SlotsApart (renderer : Renderer) (layout : RenderLayout) : Prop where
  filled
    : (renderer.renderLayout layout).html = filledPage (PageSlot.valueText renderer layout)
  independent
    : ∀ (slot : PageSlot) (other : RenderLayout),
        (∀ kept, kept ≠ slot → kept.valueText renderer other = kept.valueText renderer layout)
        → NoPlaceholder (slot.valueText renderer other)
        → (renderer.renderLayout other).html = filledPage (PageSlot.valueText renderer other)

/-- The layout with a text in one slot. -/
def RenderLayout.put (layout : RenderLayout) (text : String) : PageSlot → RenderLayout
  | .title => { layout with title := text }
  | .description => { layout with description := text }
  | .stylesheet => { layout with stylesheetHref := text }
  | .breadcrumbs => { layout with breadcrumbs := [.current text] }
  | .pageNav => { layout with pageNav := [⟨text, ""⟩] }
  | .main => { layout with main := text }
  | .sidebar => { layout with sidebar := text }
  | .footer => { layout with footer := text }

theorem value_put_other (renderer : Renderer) (layout : RenderLayout) (text : String)
    {slot kept : PageSlot} (different : kept ≠ slot)
    : kept.value renderer (layout.put text slot) = kept.value renderer layout := by
  cases slot <;> cases kept <;> first | exact absurd rfl different | rfl

theorem plain_text {text : String} (ascii : text = String.ofList (asciiCharacters text))
    (plain : (asciiCharacters text).all (· ≠ '_') = true)
    : '_' ∉ text.toList := by
  rw [ascii, String.toList_ofList]
  exact fun inside => absurd (List.all_eq_true.mp plain '_' inside) (by decide)

theorem underscore_of_escapeHtml {text : String} (inside : '_' ∈ (escapeHtml text).toList)
    : '_' ∈ text.toList := by
  have back {old : Char} {new text : String} (harmless : '_' ∉ new.toList)
      (inside : '_' ∈ (replaceCharacter old new text).toList)
      : '_' ∈ text.toList := by
    rw [replaceCharacter, String.toList_ofList, List.mem_flatMap] at inside
    obtain ⟨character, member, inside⟩ := inside
    split at inside
    · exact absurd inside harmless
    · rwa [List.mem_singleton.mp inside]
  exact back (by decide) (back (by decide) (back (by decide)
    (back (by decide) (back (by decide) inside))))

theorem join_single (first before middle after last : String)
    : first ++ String.join [before ++ middle ++ after] ++ last
      = first ++ before ++ middle ++ (after ++ last) := by
  simp [String.join, String.append_assoc]

theorem plain_append {first second : String} (plain : '_' ∉ first.toList)
    (also : '_' ∉ second.toList)
    : '_' ∉ (first ++ second).toList := by
  rw [String.toList_append, List.mem_append]
  exact fun either => either.elim plain also

/-- A text that is put in a slot other than the title stands between texts without underscores. -/
theorem value_put {slot : PageSlot} (behind : slot ≠ .title)
    : ∃ front back : String,
        '_' ∉ front.toList
        ∧ '_' ∉ back.toList
        ∧ ∀ (renderer : Renderer) (layout : RenderLayout) (text : String),
            escapeHtml text = text
            → slot.value renderer (layout.put text slot) = front ++ text ++ back := by
  have here {slot : PageSlot}
      (own : ∀ (renderer : Renderer) (layout : RenderLayout) (text : String),
        escapeHtml text = text → slot.value renderer (layout.put text slot) = text)
      : ∃ front back : String,
          '_' ∉ front.toList
          ∧ '_' ∉ back.toList
          ∧ ∀ (renderer : Renderer) (layout : RenderLayout) (text : String),
              escapeHtml text = text
              → slot.value renderer (layout.put text slot) = front ++ text ++ back := by
    refine ⟨"", "", List.not_mem_nil, List.not_mem_nil, fun renderer layout text plain => ?_⟩
    rw [own renderer layout text plain, String.empty_append, String.append_empty]
  cases slot with
  | title => exact absurd rfl behind
  | description | stylesheet | footer => exact here (fun renderer layout text plain => plain)
  | main | sidebar => exact here (fun renderer layout text plain => rfl)
  | breadcrumbs =>
      refine ⟨"<nav class=\"breadcrumbs\" aria-label=\"Breadcrumbs\"><ol>"
        ++ "<li><span aria-current=\"page\">", "</span></li>" ++ "</ol></nav>", ?_, ?_,
        fun renderer layout text plain => ?_⟩
      · exact plain_append (plain_text (by decide) (by decide))
          (plain_text (by decide) (by decide))
      · exact plain_append (plain_text (by decide) (by decide))
          (plain_text (by decide) (by decide))
      · have shown : PageSlot.value renderer (layout.put text .breadcrumbs) .breadcrumbs
            = _ ++ String.join ["<li><span aria-current=\"page\">" ++ escapeHtml text
              ++ "</span></li>"] ++ _ :=
          rfl
        rw [shown, plain]
        exact join_single _ _ _ _ _
  | pageNav =>
      refine ⟨"<nav aria-label=\"" ++ escapeAttribute "Page navigation"
          ++ "\"><ul class=\"page-nav\">" ++ ("<li><a href=\"" ++ escapeHtml "" ++ "\">"),
        "</a></li>" ++ "</ul></nav>", ?_, ?_, fun renderer layout text plain => ?_⟩
      · refine plain_append (plain_append (plain_append ?_ ?_) ?_)
          (plain_append (plain_append ?_ ?_) ?_)
        · exact plain_text (by decide) (by decide)
        · exact mt underscore_of_escapeHtml (plain_text (by decide) (by decide))
        · exact plain_text (by decide) (by decide)
        · exact plain_text (by decide) (by decide)
        · exact mt underscore_of_escapeHtml List.not_mem_nil
        · exact plain_text (by decide) (by decide)
      · exact plain_append (plain_text (by decide) (by decide))
          (plain_text (by decide) (by decide))
      · have shown : PageSlot.value renderer (layout.put text .pageNav) .pageNav
            = _ ++ String.join ["<li><a href=\"" ++ escapeHtml "" ++ "\">" ++ escapeHtml text
              ++ "</a></li>"] ++ _ :=
          rfl
        rw [shown, plain]
        exact join_single _ _ _ _ _

/-- Slots are kept apart only for values without the placeholders of later slots. -/
theorem SlotsApart.absent {renderer : Renderer} {layout : RenderLayout}
    (apart : SlotsApart renderer layout) (slot : PageSlot)
    : ∀ later ∈ namesBehind PageSlot.all slot,
        ¬later.placeholderText <:+: slot.valueText renderer layout := by
  intro later behind inside
  cases first : (namesBehind PageSlot.all slot).find?
      (fun step => step.placeholderText <:+: slot.valueText renderer layout) with
  | none =>
      have none := List.find?_eq_none.mp first later behind
      exact none (by simpa using inside)
  | some name =>
      have listed : name ∈ namesBehind PageSlot.all slot := List.mem_of_find?_eq_some first
      obtain ⟨different, behindTitle⟩ : slot ≠ name ∧ name ≠ .title := by
        revert listed
        cases slot <;> cases name <;> decide
      obtain ⟨front, back, plainFront, plainBack, shown⟩ := value_put behindTitle
      have plainMark (text : String) (plain : '_' ∉ text.toList) (same : escapeHtml text = text)
          : NoPlaceholder (name.valueText renderer (layout.put text name)) := by
        intro other inside
        have underscore := inside.subset (underscore_mem_placeholder other)
        rw [PageSlot.valueText, shown renderer layout text same, String.toList_append,
          String.toList_append, List.mem_append, List.mem_append] at underscore
        exact underscore.elim (fun either => either.elim plainFront plain) plainBack
      have once := plainMark "x" (by decide) (by decide)
      have twice := plainMark "xx" (by decide) (by decide)
      have others (text : String) {kept : PageSlot} (elsewhere : kept ≠ name)
          : kept.valueText renderer (layout.put text name) = kept.valueText renderer layout :=
        congrArg String.toList (value_put_other renderer layout text elsewhere)
      have fills (text : String)
          (plain : NoPlaceholder (name.valueText renderer (layout.put text name)))
          : replaceInTurn PageSlot.placeholderText
                (PageSlot.valueText renderer (layout.put text name)) PageSlot.all
                (pageParts.fill PageSlot.placeholderText)
              = pageParts.fill (PageSlot.valueText renderer (layout.put text name)) := by
        have page := apart.independent name (layout.put text name)
          (fun kept elsewhere => others text elsewhere) plain
        rw [renderLayout_html, filledPage] at page
        exact String.ofList_injective page
      have own (text : String) (same : escapeHtml text = text)
          : name.valueText renderer (layout.put text name)
            = front.toList ++ (text.toList ++ back.toList) := by
        rw [PageSlot.valueText, shown renderer layout text same, String.toList_append,
          String.toList_append, List.append_assoc]
      have marked : name.valueText renderer (layout.put "x" name)
          = front.toList ++ 'x' :: back.toList := by
        rw [own "x" (by decide), show "x".toList = ['x'] by decide,
          List.singleton_append]
      have doubled : name.valueText renderer (layout.put "xx" name)
          = front.toList ++ 'x' :: 'x' :: back.toList := by
        rw [own "xx" (by decide), show "xx".toList = ['x', 'x'] by decide,
          List.cons_append, List.singleton_append]
      have outside (slot : PageSlot) : 'x' ∉ slot.placeholderText := fun inside =>
        absurd (List.all_eq_true.mp (isPlaceholderCharacter_placeholder slot) _ inside) (by decide)
      have placed : slot ∈ pageParts.tail.map Prod.fst := by
        unfold pageParts
        simp only [List.map_cons, List.map_nil]
        cases slot <;> decide
      refine pagePlaceholders.not_brought outside
        (fun other elsewhere => (others "xx" elsewhere).trans (others "x" elsewhere).symm)
        marked doubled (fun other => ⟨once other, twice other⟩) (fills "x" once)
        (fills "xx" twice) different placed ?_
      rw [others "x" different]
      exact first

/-- The page keeps its slots apart exactly if no value has the placeholder of a later slot in
it.
-/
theorem slotsApart_iff (renderer : Renderer) (layout : RenderLayout)
    : SlotsApart renderer layout
      ↔ ∀ slot, ∀ later ∈ namesBehind PageSlot.all slot,
          ¬later.placeholderText <:+: slot.valueText renderer layout := by
  refine ⟨fun apart => apart.absent, fun absent => ⟨?_, ?_⟩⟩
  · rw [renderLayout_html, filledPage, pagePlaceholders.fill_of_absent absent]
  · intro slot other same plain
    rw [renderLayout_html, filledPage, pagePlaceholders.fill_of_absent]
    intro name later behind
    by_cases here : name = slot
    · rw [here]
      exact plain later
    · rw [same name here]
      exact absent name later behind

/-- A page whose description is the placeholder of its main content. -/
def quotedLayout : RenderLayout where
  kind := .concept
  route := ⟨"/b/wiki/c/guide/", ["b", "wiki", "c", "guide", "index.html"]⟩
  stylesheetHref := "/assets/wiki.css"
  title := "Guide"
  description := "__MAIN_CONTENT__"
  breadcrumbs := []
  pageNav := []
  main := "<article onclick=\"open()\">Guide</article>"
  sidebar := ""
  footer := ""

/-- The main content of that page stands in an attribute. -/
theorem slotsApart_quoted : ¬SlotsApart ⟨"", ⟨[]⟩⟩ quotedLayout := by
  intro apart
  refine apart.absent .description .main (by decide) ?_
  decide

end CodebaseGraph.Wiki.Render
