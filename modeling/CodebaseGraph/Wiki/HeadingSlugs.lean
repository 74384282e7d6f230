import CodebaseGraph.Collections.NumberedNames
import CodebaseGraph.Wiki.LinkTargets
import Mathlib.Data.List.Chain

/-! The ids of a page's headings: slugs of their texts, where a repeated slug is followed by the number
of its occurrence.
-/

namespace CodebaseGraph.Wiki

open CodebaseGraph.Collections CodebaseGraph.Sorting

variable {libraries : TextLibraries}

-----------------------------------------------------------------------------------------
-- Slugs
-----------------------------------------------------------------------------------------

/-- What is known of the tables of Unicode: lower case has no further lower case, digits are
alphanumeric and have no case, and a dash is not alphanumeric.
-/
structure UnicodeCase (libraries : TextLibraries) : Prop where
  lowered
    : ∀ character, ∀ lower ∈ libraries.toLowercase character, libraries.toLowercase lower = [lower]
  digits
    : ∀ digit : Char,
        digit.isDigit = true →
        libraries.isAlphanumeric digit = true ∧ libraries.toLowercase digit = [digit]
  dash : libraries.isAlphanumeric '-' = false ∧ libraries.toLowercase '-' = ['-']

/-- The loop of `slugify_fragment`, told whether a dash was the last it has written. -/
def dashed (libraries : TextLibraries) : Bool → List Char → List Char
  | _, [] => []
  | lastWasDash, letter :: rest =>
      if libraries.isAlphanumeric letter then letter :: dashed libraries false rest
      else if lastWasDash then dashed libraries true rest
      else '-' :: dashed libraries true rest

theorem slugifyFragment_eq (libraries : TextLibraries) (text : String)
    : slugifyFragment libraries text
      = trimOf (· = '-')
          (String.ofList (dashed libraries false (text.toList.flatMap libraries.toLowercase))) := by
  have loop (letters slug : List Char) (lastWasDash : Bool)
      : (letters.foldl
          (fun (state : List Char × Bool) character =>
            if libraries.isAlphanumeric character then (state.1 ++ [character], false)
            else if !state.2 then (state.1 ++ ['-'], true)
            else (state.1, state.2))
          (slug, lastWasDash)).1
        = slug ++ dashed libraries lastWasDash letters := by
    induction letters generalizing slug lastWasDash with
    | nil => simp [dashed]
    | cons letter rest ih =>
        rw [List.foldl_cons, dashed]
        split
        · rw [ih, List.append_assoc, List.singleton_append]
        · cases lastWasDash with
          | false =>
              rw [Bool.not_false, if_pos rfl, ih, List.append_assoc]
              rfl
          | true =>
              rw [Bool.not_true, if_neg Bool.false_ne_true, ih]
              rfl
  exact congrArg (fun letters => trimOf (· = '-') (String.ofList letters)) (loop _ [] false)

/-- The letters of a slug: in lower case, with single dashes between them. -/
structure Slugged (libraries : TextLibraries) (letters : List Char) : Prop where
  lowered
    : ∀ letter ∈ letters,
        letter = '-'
        ∨ (libraries.isAlphanumeric letter = true ∧ libraries.toLowercase letter = [letter])
  single : letters.IsChain (fun first second => first = '-' → second ≠ '-')

theorem Slugged.part {part letters : List Char} (slugged : Slugged libraries letters)
    (inside : part <:+: letters)
    : Slugged libraries part :=
  ⟨fun letter member => slugged.lowered letter (inside.subset member), slugged.single.infix inside⟩

theorem dashed_slugged (tables : UnicodeCase libraries) {letters : List Char}
    (lowered : ∀ letter ∈ letters, libraries.toLowercase letter = [letter]) (lastWasDash : Bool)
    : Slugged libraries (dashed libraries lastWasDash letters)
      ∧ (lastWasDash = true → ∀ first ∈ (dashed libraries lastWasDash letters).head?, first ≠ '-')
    := by
  induction letters generalizing lastWasDash with
  | nil => exact ⟨⟨by simp [dashed], List.isChain_nil⟩, by simp [dashed]⟩
  | cons letter rest ih =>
      have later := ih (fun other inside => lowered other (List.mem_cons_of_mem _ inside))
      rw [dashed]
      split
      next alphanumeric =>
          have plain : letter ≠ '-' := by
            rintro rfl
            rw [tables.dash.1] at alphanumeric
            cases alphanumeric
          refine ⟨⟨?_, ?_⟩, ?_⟩
          · intro other inside
            rcases List.mem_cons.mp inside with rfl | further
            · exact Or.inr ⟨alphanumeric, lowered other List.mem_cons_self⟩
            · exact (later false).1.lowered other further
          · exact List.isChain_cons.mpr
              ⟨fun _ _ isDash => absurd isDash plain, (later false).1.single⟩
          · intro _ first isFirst
            exact Option.some.inj isFirst ▸ plain
      next =>
          cases lastWasDash with
          | true => simpa using later true
          | false =>
              rw [if_neg Bool.false_ne_true]
              refine ⟨⟨?_, ?_⟩, fun isTrue => absurd isTrue Bool.false_ne_true⟩
              · intro other inside
                rcases List.mem_cons.mp inside with rfl | further
                · exact Or.inl rfl
                · exact (later true).1.lowered other further
              · exact List.isChain_cons.mpr
                  ⟨fun first isFirst _ => (later true).2 rfl first isFirst, (later true).1.single⟩

/-- The letters of a slug pass through the loop as they are. -/
theorem Slugged.dashed_eq (tables : UnicodeCase libraries) {letters : List Char}
    (slugged : Slugged libraries letters) (lastWasDash : Bool)
    (apart : lastWasDash = true → ∀ first ∈ letters.head?, first ≠ '-')
    : dashed libraries lastWasDash letters = letters := by
  induction letters generalizing lastWasDash with
  | nil => rfl
  | cons letter rest ih =>
      have single := List.isChain_cons.mp slugged.single
      have later : Slugged libraries rest :=
        ⟨fun other inside => slugged.lowered other (List.mem_cons_of_mem _ inside), single.2⟩
      rw [dashed]
      rcases slugged.lowered letter List.mem_cons_self with rfl | ⟨alphanumeric, -⟩
      · have fresh : lastWasDash = false :=
          Bool.eq_false_iff.mpr (fun dashBefore => apart dashBefore '-' rfl rfl)
        subst fresh
        rw [tables.dash.1, if_neg Bool.false_ne_true, if_neg Bool.false_ne_true,
          ih later true (fun _ first isFirst => single.1 first isFirst rfl)]
      · rw [if_pos alphanumeric, ih later false (fun isTrue => absurd isTrue Bool.false_ne_true)]

/-- A slug neither begins nor ends with a dash. -/
structure IsSlug (libraries : TextLibraries) (text : String) : Prop where
  slugged : Slugged libraries text.toList
  first : ∀ letter ∈ text.toList.head?, letter ≠ '-'
  last : ∀ letter ∈ text.toList.getLast?, letter ≠ '-'

theorem slugifyFragment_isSlug (tables : UnicodeCase libraries) (text : String)
    : IsSlug libraries (slugifyFragment libraries text) := by
  have lowered
      : ∀ letter ∈ text.toList.flatMap libraries.toLowercase,
          libraries.toLowercase letter = [letter] := by
    intro letter inside
    obtain ⟨source, -, lower⟩ := List.mem_flatMap.mp inside
    exact tables.lowered source letter lower
  have ends := ends_trimOf (· = '-')
    (String.ofList (dashed libraries false (text.toList.flatMap libraries.toLowercase)))
  rw [slugifyFragment_eq]
  refine ⟨?_, ?_, ?_⟩
  · rw [toList_trimOf, String.toList_ofList]
    exact (dashed_slugged tables lowered false).1.part
      ((List.rdropWhile_prefix _ _).isInfix.trans (List.dropWhile_suffix _).isInfix)
  · intro letter isFirst
    simpa using ends.1 letter isFirst
  · intro letter isLast
    simpa using ends.2 letter isLast

/-- A slug is its own slug. -/
theorem IsSlug.slugifyFragment_eq (tables : UnicodeCase libraries) {text : String}
    (isSlug : IsSlug libraries text)
    : slugifyFragment libraries text = text := by
  have same : text.toList.flatMap libraries.toLowercase = text.toList := by
    have kept (letters : List Char)
        (lowered : ∀ letter ∈ letters, libraries.toLowercase letter = [letter])
        : letters.flatMap libraries.toLowercase = letters := by
      induction letters with
      | nil => rfl
      | cons letter rest ih =>
          rw [List.flatMap_cons, lowered letter List.mem_cons_self,
            ih (fun other inside => lowered other (List.mem_cons_of_mem _ inside))]
          rfl
    apply kept
    intro letter inside
    rcases isSlug.slugged.lowered letter inside with rfl | ⟨-, lower⟩
    · exact tables.dash.2
    · exact lower
  rw [Wiki.slugifyFragment_eq, same,
    isSlug.slugged.dashed_eq tables false (fun isTrue => absurd isTrue Bool.false_ne_true),
    String.ofList_toList]
  apply trimOf_of_ends
  · intro letter isFirst
    simpa using isSlug.first letter isFirst
  · intro letter isLast
    simpa using isSlug.last letter isLast

-----------------------------------------------------------------------------------------
-- Ids
-----------------------------------------------------------------------------------------

/-- A slug with the number of its occurrence. -/
def numberSlug (slug : String) (number : Nat) : String := slug ++ "-" ++ toString number

theorem toList_numberSlug (slug : String) (number : Nat)
    : (numberSlug slug number).toList = slug.toList ++ '-' :: Nat.toDigits 10 number := by
  rw [numberSlug, Nat.toString_eq_ofList_toDigits]
  simp

theorem isDigit_of_mem_toDigits {number : Nat} {digit : Char}
    (inside : digit ∈ Nat.toDigits 10 number)
    : digit.isDigit = true :=
  Nat.isDigit_of_mem_toDigits (by decide) (by decide) inside

theorem dash_not_mem_toDigits (number : Nat) : '-' ∉ Nat.toDigits 10 number := by
  intro inside
  exact absurd (isDigit_of_mem_toDigits inside) (by decide)

/-- What stands before the last dash, and after it. -/
theorem numberSlug_inj {slug slug' : String} {number number' : Nat}
    (same : numberSlug slug number = numberSlug slug' number')
    : slug = slug' ∧ number = number' := by
  have letters := congrArg (fun text : String => text.toList.reverse) same
  simp only [toList_numberSlug, List.reverse_append, List.reverse_cons, List.append_assoc,
    List.singleton_append] at letters
  have digits (number : Nat) : ∀ digit ∈ (Nat.toDigits 10 number).reverse, digit ≠ '-' := by
    intro digit inside isDash
    rw [List.mem_reverse, isDash] at inside
    exact dash_not_mem_toDigits number inside
  have start {number : Nat} (rest : List Char)
      : ((Nat.toDigits 10 number).reverse ++ '-' :: rest).takeWhile (· ≠ '-')
        = (Nat.toDigits 10 number).reverse := by
    rw [List.takeWhile_append_of_pos (by simpa using digits number)]
    simp
  have ends := congrArg (List.takeWhile (· ≠ '-')) letters
  rw [start, start] at ends
  rw [ends] at letters
  have before := (List.cons.inj (List.append_cancel_left letters)).2
  refine ⟨String.toList_inj.mp (List.reverse_inj.mp before), ?_⟩
  have numbers := congrArg (fun digits => Nat.ofDigitChars 10 digits 0) (List.reverse_inj.mp ends)
  simpa only [Nat.ofDigitChars_ten_toDigits] using numbers

/-- A slug that is not empty stays one behind a number. -/
theorem IsSlug.numberSlug (tables : UnicodeCase libraries) {slug : String}
    (isSlug : IsSlug libraries slug) (filled : slug ≠ "") (number : Nat)
    : IsSlug libraries (numberSlug slug number) := by
  have written : slug.toList ≠ [] := fun empty => filled (String.toList_inj.mp empty)
  have digit {letter : Char} (inside : letter ∈ Nat.toDigits 10 number) : letter ≠ '-' := by
    rintro rfl
    exact dash_not_mem_toDigits number inside
  have numberLast
      : ∀ letter ∈ ('-' :: Nat.toDigits 10 number).getLast?, letter ∈ Nat.toDigits 10 number := by
    intro letter isLast
    rw [List.getLast?_cons_of_ne_nil Nat.toDigits_ne_nil] at isLast
    exact List.mem_of_getLast? isLast
  have isolated
      : (Nat.toDigits 10 number).IsChain (fun first second => first = '-' → second ≠ '-') := by
    apply List.IsChain.imp_of_mem_imp _ (List.isChain_isInfix _)
    intro first second firstIn _ _ isDash
    exact absurd isDash (digit firstIn)
  refine ⟨⟨?_, ?_⟩, ?_, ?_⟩
  · intro letter inside
    rw [toList_numberSlug, List.mem_append, List.mem_cons] at inside
    rcases inside with before | rfl | after
    · exact isSlug.slugged.lowered letter before
    · exact Or.inl rfl
    · exact Or.inr (tables.digits letter (isDigit_of_mem_toDigits after))
  · rw [toList_numberSlug]
    refine List.isChain_append.mpr ⟨isSlug.slugged.single, List.isChain_cons.mpr ⟨?_, isolated⟩, ?_⟩
    · intro first isFirst _
      exact digit (List.mem_of_mem_head? isFirst)
    · intro last isLast first isFirst isDash
      exact absurd isDash (isSlug.last last isLast)
  · intro letter isFirst
    rw [toList_numberSlug, List.head?_append_of_ne_nil _ written] at isFirst
    exact isSlug.first letter isFirst
  · intro letter isLast
    rw [toList_numberSlug, List.getLast?_append_of_ne_nil _ (List.cons_ne_nil _ _)] at isLast
    exact digit (numberLast letter isLast)

/-- The ids that are given to headings of these texts, one after the other. -/
def assignedIds (libraries : TextLibraries) : SortedMap String Nat → List String → List String
  | _, [] => []
  | counts, text :: rest =>
      let (slug, counts) := uniqueSlug libraries text counts
      slug :: assignedIds libraries counts rest

/-- The ids are the slugs, where later occurrences of a slug are numbered. -/
theorem assignedIds_eq (libraries : TextLibraries) (texts : List String)
    : assignedIds libraries .empty texts
      = (countedNames [] (texts.map (slugifyFragment libraries))).map (numbered numberSlug) := by
  have onwards (counts : SortedMap String Nat) (given : List String)
      (counted : ∀ slug, (counts.get? slug).getD 0 = given.count slug)
      : assignedIds libraries counts texts
        = (countedNames given (texts.map (slugifyFragment libraries))).map (numbered numberSlug) := by
    induction texts generalizing counts given with
    | nil => rfl
    | cons text rest ih =>
        rw [assignedIds, List.map_cons, countedNames, List.map_cons]
        refine congrArg₂ List.cons ?_ (ih _ _ ?_)
        · simp only [counted]
          rfl
        · intro slug
          rw [SortedMap.get?_insert, List.count_append, List.count_singleton, counted]
          by_cases same : slug = slugifyFragment libraries text
          · subst same
            simp
          · simp [same, Ne.symm same, counted]
  exact onwards .empty [] (by simp [SortedMap.get?_empty])

/-- The headings that were read have the ids they are given one after the other, and the counts tell
how often each slug was given.
-/
structure Numbering (libraries : TextLibraries) (headings : List Heading)
    (counts : SortedMap String Nat)
    : Prop where
  ids : headings.map Heading.id = assignedIds libraries .empty (headings.map Heading.text)
  counts : ∀ slug,
    (counts.get? slug).getD 0
      = (headings.map (fun heading => slugifyFragment libraries heading.text)).count slug

theorem uniqueSlug_eq (libraries : TextLibraries) (text : String) (counts : SortedMap String Nat)
    : let slug := slugifyFragment libraries text
      let number := (counts.get? slug).getD 0 + 1
      uniqueSlug libraries text counts
        = (numbered numberSlug (slug, number), counts.insert slug number) :=
  rfl

theorem Numbering.add {headings : List Heading} {counts : SortedMap String Nat}
    (numbering : Numbering libraries headings counts) (level : Nat) (text : String)
    : Numbering libraries
        (headings ++ [{ level, id := (uniqueSlug libraries text counts).1, text }])
        (uniqueSlug libraries text counts).2 := by
  have before := numbering.counts (slugifyFragment libraries text)
  have ids := numbering.ids
  rw [assignedIds_eq] at ids
  constructor
  · rw [assignedIds_eq, List.map_append, List.map_append, List.map_append, countedNames_append,
      List.map_append, ids, List.nil_append]
    refine congrArg _ ?_
    rw [uniqueSlug_eq, before, List.map_map]
    rfl
  · intro slug
    rw [uniqueSlug_eq, before, SortedMap.get?_insert, List.map_append, List.count_append,
      List.map_singleton, List.count_singleton]
    by_cases same : slug = slugifyFragment libraries text
    · rw [if_pos same, same, if_pos (beq_self_eq_true _), Option.getD_some]
    · rw [if_neg same, if_neg (by simpa using Ne.symm same), numbering.counts, Nat.add_zero]

theorem Numbering.read {body : String} {state : MarkdownState}
    (numbering : Numbering libraries state.headings state.headingCounts)
    (event : MarkdownEvent × Nat)
    : Numbering libraries (state.read libraries body event).headings
        (state.read libraries body event).headingCounts := by
  obtain ⟨event, start⟩ := event
  cases event with
  | endHeading =>
      rw [MarkdownState.read]
      split
      · exact numbering
      · next level text _ =>
          dsimp only
          split
          · exact numbering
          · exact numbering.add level (trim text)
  | endLink =>
      rw [MarkdownState.read]
      split <;> exact numbering
  | _ => exact numbering

/-- The ids of a page are those that its headings are given one after the other. -/
theorem parseMarkdown_ids (libraries : TextLibraries) (body : String)
    : (parseMarkdown libraries body).headings.map Heading.id
      = assignedIds libraries .empty ((parseMarkdown libraries body).headings.map Heading.text) := by
  have read (events : List (MarkdownEvent × Nat)) (state : MarkdownState)
      (numbering : Numbering libraries state.headings state.headingCounts)
      : Numbering libraries (events.foldl (MarkdownState.read libraries body) state).headings
          (events.foldl (MarkdownState.read libraries body) state).headingCounts := by
    induction events generalizing state with
    | nil => exact numbering
    | cons event rest ih => exact ih _ (numbering.read event)
  exact (read _ {} ⟨rfl, fun slug => rfl⟩).ids

/-- Ids by which a fragment finds one heading: those of slugs that are not empty differ, the first
heading of a slug has the slug itself, and an id is its own slug.
-/
structure Addressable (libraries : TextLibraries) (texts ids : List String) : Prop where
  distinct
    : ((((texts.map (slugifyFragment libraries)).zip ids).filter (fun named => named.1 ≠ "")).map
        Prod.snd).Nodup
  first : ∀ before text after,
    texts = before ++ text :: after →
    slugifyFragment libraries text ∉ before.map (slugifyFragment libraries) →
    ids[before.length]? = some (slugifyFragment libraries text)
  fixed : ∀ id ∈ ids, slugifyFragment libraries id = id
  addressed : ∀ fragment, ids.count (slugifyFragment libraries fragment) ≤ 1

/-- At most one slug is empty, and no slug is what an occurrence of another one is renamed to. -/
def Unambiguous (slugs : List String) : Prop :=
  slugs.count "" ≤ 1
  ∧ ∀ slug ∈ slugs, slug ≠ "" →
      ∀ number, 2 ≤ number → number ≤ slugs.count slug → numberSlug slug number ∉ slugs

theorem numberSlug_ne_empty (slug : String) (number : Nat) : numberSlug slug number ≠ "" := by
  intro empty
  have letters := congrArg String.toList empty
  rw [toList_numberSlug] at letters
  exact List.append_ne_nil_of_right_ne_nil _ (List.cons_ne_nil _ _) letters

section Texts

variable (texts : List String)

theorem zip_assignedIds
    : (texts.map (slugifyFragment libraries)).zip (assignedIds libraries .empty texts)
      = (countedNames [] (texts.map (slugifyFragment libraries))).map
          (fun occurrence => (occurrence.1, numbered numberSlug occurrence)) := by
  rw [assignedIds_eq]
  conv =>
    lhs
    arg 1
    rw [← map_fst_countedNames [] (texts.map (slugifyFragment libraries))]
  exact List.zip_map'

/-- The ids of slugs that are not empty differ if no slug is what another one is renamed to. -/
theorem nodup_ids_iff
    : ((((texts.map (slugifyFragment libraries)).zip (assignedIds libraries .empty texts)).filter
          (fun named => named.1 ≠ "")).map Prod.snd).Nodup
      ↔ ∀ slug ∈ texts.map (slugifyFragment libraries),
          slug ≠ "" →
          ∀ number, 2 ≤ number →
          number ≤ (texts.map (slugifyFragment libraries)).count slug →
          numberSlug slug number ∉ texts.map (slugifyFragment libraries) := by
  rw [zip_assignedIds, List.filter_map, List.map_map]
  refine (nodup_numbered_iff (fun _ _ _ _ _ _ same => numberSlug_inj same)
    (fun slug : String => slug ≠ "") _).trans ?_
  refine forall₃_congr fun slug _ _ => forall₃_congr fun number _ _ => ?_
  exact ⟨fun clear renamed => clear renamed (numberSlug_ne_empty slug number),
    fun clear renamed => absurd renamed clear⟩

variable {texts}

theorem nodup_assignedIds (unambiguous : Unambiguous (texts.map (slugifyFragment libraries)))
    : (assignedIds libraries .empty texts).Nodup := by
  have all
      : (countedNames [] (texts.map (slugifyFragment libraries))).filter
          (fun occurrence => decide ((fun _ : String => True) occurrence.1))
        = countedNames [] (texts.map (slugifyFragment libraries)) := by
    simp
  rw [assignedIds_eq, ← all]
  refine
    (nodup_numbered_iff (fun _ _ _ _ _ _ same => numberSlug_inj same)
      (fun _ : String => True) _).mpr ?_
  intro slug given _ number many few renamed _
  by_cases empty : slug = ""
  · subst empty
    have once := unambiguous.1
    omega
  · exact unambiguous.2 slug given empty number many few renamed

/-- The first heading of a slug keeps it. -/
theorem assignedIds_first {before after : List String} {text : String}
    (whole : texts = before ++ text :: after)
    (first : slugifyFragment libraries text ∉ before.map (slugifyFragment libraries))
    : (assignedIds libraries .empty texts)[before.length]?
      = some (slugifyFragment libraries text) := by
  have length (given names : List String) : (countedNames given names).length = names.length := by
    conv =>
      rhs
      rw [← map_fst_countedNames given names]
    rw [List.length_map]
  rw [whole, assignedIds_eq, List.map_append, List.map_cons, countedNames_append, countedNames,
    List.map_append, List.map_cons, List.getElem?_append_right (by simp [length])]
  simp only [List.length_map, length, Nat.sub_self, List.nil_append, List.getElem?_cons_zero,
    List.count_eq_zero.mpr first]
  rfl

/-- An id is its own slug, unless an empty slug is numbered. -/
theorem assignedIds_fixed (tables : UnicodeCase libraries)
    (single : (texts.map (slugifyFragment libraries)).count "" ≤ 1)
    : ∀ id ∈ assignedIds libraries .empty texts, slugifyFragment libraries id = id := by
  intro id assigned
  rw [assignedIds_eq] at assigned
  obtain ⟨⟨slug, number⟩, counted, rfl⟩ := List.mem_map.mp assigned
  obtain ⟨positive, few⟩ := mem_countedNames.mp counted
  dsimp only at positive few
  rw [List.count_nil] at positive few
  have given : slug ∈ texts.map (slugifyFragment libraries) := List.count_pos_iff.mp (by omega)
  obtain ⟨text, -, rfl⟩ := List.mem_map.mp given
  have isSlug := slugifyFragment_isSlug tables text
  rw [numbered]
  split
  · exact isSlug.slugifyFragment_eq tables
  · next later =>
      dsimp only at later
      apply (isSlug.numberSlug tables ?_ number).slugifyFragment_eq tables
      intro empty
      rw [empty] at few
      omega

/-- A numbered empty slug begins with a dash, which no slug does. -/
theorem count_empty_le_one (tables : UnicodeCase libraries)
    (fixed : ∀ id ∈ assignedIds libraries .empty texts, slugifyFragment libraries id = id)
    : (texts.map (slugifyFragment libraries)).count "" ≤ 1 := by
  by_contra many
  have counted : ("", 2) ∈ countedNames [] (texts.map (slugifyFragment libraries)) := by
    rw [mem_countedNames]
    dsimp only
    rw [List.count_nil]
    omega
  have same := fixed "-2" (by
    rw [assignedIds_eq]
    exact List.mem_map.mpr ⟨_, counted, by decide⟩)
  have isSlug := slugifyFragment_isSlug tables "-2"
  rw [same] at isSlug
  exact isSlug.first '-' (by decide) rfl

end Texts

/-- Fragments find the headings of a page exactly if the slugs of its headings are unambiguous. -/
theorem headingIds_addressable_iff (tables : UnicodeCase libraries)
    : (∀ texts,
        Addressable libraries texts (assignedIds libraries .empty texts)
          ↔ Unambiguous (texts.map (slugifyFragment libraries)))
      ∧ ∀ body,
          let headings := (parseMarkdown libraries body).headings
          Addressable libraries (headings.map Heading.text) (headings.map Heading.id)
            ↔ Unambiguous ((headings.map Heading.text).map (slugifyFragment libraries)) := by
  have lists (texts : List String)
      : Addressable libraries texts (assignedIds libraries .empty texts)
          ↔ Unambiguous (texts.map (slugifyFragment libraries)) := by
    constructor
    · intro addressable
      exact ⟨count_empty_le_one tables addressable.fixed,
        (nodup_ids_iff texts).mp addressable.distinct⟩
    · intro unambiguous
      exact
        {
          distinct := (nodup_ids_iff texts).mpr unambiguous.2
          first := fun before text after whole first => assignedIds_first whole first
          fixed := assignedIds_fixed tables unambiguous.1
          addressed := fun fragment =>
            List.nodup_iff_count_le_one.mp (nodup_assignedIds unambiguous) _
        }
  refine ⟨lists, fun body => ?_⟩
  dsimp only
  rw [parseMarkdown_ids]
  exact lists _

-- Pages

/-- A reader of pages in lower case. -/
def lowercasePages : TextLibraries := { linkPages with toLowercase := fun letter => [letter] }

theorem lowercasePages_tables : UnicodeCase lowercasePages where
  lowered _ _ _ := rfl
  digits digit isDigit := ⟨by simp [lowercasePages, linkPages, Char.isAlphanum, isDigit], rfl⟩
  dash := by decide

theorem headingIds_addressable_iff_guide
    : Addressable lowercasePages ["guide", "guide"]
        (assignedIds lowercasePages .empty ["guide", "guide"]) := by
  refine ((headingIds_addressable_iff lowercasePages_tables).1 ["guide", "guide"]).mpr ⟨?_, ?_⟩
  · decide
  · intro slug given filled number many few
    have slugs : ["guide", "guide"].map (slugifyFragment lowercasePages) = ["guide", "guide"] := by
      decide
    rw [slugs] at given few ⊢
    have same : slug = "guide" := by simpa using given
    subst same
    obtain rfl : number = 2 := by
      have most : ["guide", "guide"].count "guide" = 2 := by decide
      omega
    decide

/-- The second heading has the id of the third. -/
theorem headingIds_repeated
    : let headings := (parseMarkdown lowercasePages "# foo\n# foo\n# foo 2\n").headings
      headings.map Heading.id = ["foo", "foo-2", "foo-2"]
      ∧ ¬ Addressable lowercasePages (headings.map Heading.text) (headings.map Heading.id) := by
  have ids
      : (parseMarkdown lowercasePages "# foo\n# foo\n# foo 2\n").headings.map Heading.id
        = ["foo", "foo-2", "foo-2"] := by
    decide +kernel
  exact ⟨ids, fun addressable => absurd addressable.distinct (by decide +kernel)⟩

end CodebaseGraph.Wiki
