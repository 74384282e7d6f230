import Mathlib.Data.List.DropRight
import Mathlib.Data.String.Basic

/-! The string operations the wiki is written with, on the characters of a string. -/

namespace CodebaseGraph.Wiki

/-- The characters with the Unicode property `White_Space`. -/
def isWhitespace (character : Char) : Bool :=
  let code := character.toNat
  (9 ≤ code && code ≤ 13) || code == 0x20 || code == 0x85 || code == 0xA0 || code == 0x1680
    || (0x2000 ≤ code && code ≤ 0x200A) || code == 0x2028 || code == 0x2029 || code == 0x202F
    || code == 0x205F || code == 0x3000

def trimStartOf (drop : Char → Bool) (text : String) : String :=
  String.ofList (text.toList.dropWhile drop)

def trimEndOf (drop : Char → Bool) (text : String) : String :=
  String.ofList (text.toList.rdropWhile drop)

def trimOf (drop : Char → Bool) (text : String) : String :=
  trimEndOf drop (trimStartOf drop text)

def trim (text : String) : String := trimOf isWhitespace text

def startsWith (text start : String) : Bool := start.toList.isPrefixOf text.toList

def endsWith (text ending : String) : Bool := ending.toList.isSuffixOf text.toList

def stripPrefix (text start : String) : Option String :=
  if startsWith text start then some (String.ofList (text.toList.drop start.length)) else none

def stripSuffix (text ending : String) : Option String :=
  if endsWith text ending then
    some (String.ofList (text.toList.take (text.length - ending.length)))
  else
    none

def splitOn (separator : Char) (text : String) : List String :=
  (text.toList.splitOn separator).map String.ofList

def joinWith (separator : Char) (parts : List String) : String :=
  String.ofList (List.intercalate [separator] (parts.map String.toList))

/-- The text before and after the first separator. -/
def splitOnce (separator : Char) (text : String) : Option (String × String) :=
  match text.toList.dropWhile (· ≠ separator) with
  | [] => none
  | _ :: after =>
      some (String.ofList (text.toList.takeWhile (· ≠ separator)), String.ofList after)

/-- The text before and after the last separator. -/
def rsplitOnce (separator : Char) (text : String) : Option (String × String) :=
  match text.toList.reverse.dropWhile (· ≠ separator) with
  | [] => none
  | _ :: before =>
      some
        (
          String.ofList before.reverse,
          String.ofList (text.toList.reverse.takeWhile (· ≠ separator)).reverse
        )

/-- The text before and after the first occurrence of a text. -/
def splitOnceAt (separator : String) (text : String) : Option (String × String) :=
  go text.toList []
where
  go : List Char → List Char → Option (String × String)
    | [], before =>
        if separator = "" then some (String.ofList before.reverse, "") else none
    | character :: rest, before =>
        if separator.toList.isPrefixOf (character :: rest) then
          some
            (
              String.ofList before.reverse,
              String.ofList ((character :: rest).drop separator.length)
            )
        else
          go rest (character :: before)

def replaceChar (old new : Char) (text : String) : String :=
  String.ofList (text.toList.map (fun character => if character = old then new else character))

/-- A line that a line feed ends, without the carriage return before it. -/
def withoutReturn (line : List Char) : List Char :=
  if line.getLast? = some '\r' then line.dropLast else line

/-- The lines of a text, without their ends and without an empty last one. -/
def lines (text : String) : List String :=
  let parts := text.toList.splitOn '\n'
  let last := parts.getLast?.toList.filter (· ≠ [])
  (parts.dropLast.map withoutReturn ++ last).map String.ofList

/-- The words of a text, separated by white space. -/
def splitWhitespace (text : String) : List String :=
  (text.toList.splitOnP isWhitespace).filter (· ≠ []) |>.map String.ofList

theorem toList_replaceChar (old new : Char) (text : String)
    : (replaceChar old new text).toList
      = text.toList.map (fun character => if character = old then new else character) := by
  simp [replaceChar]

/-- The name of an ending is no part of the directory it stands in. -/
theorem rsplitOnce_append {separator : Char} (text : String) {ending : String}
    (plain : separator ∉ ending.toList)
    : (rsplitOnce separator (text ++ ending)).map Prod.fst
      = (rsplitOnce separator text).map Prod.fst := by
  have skipped
      : (text ++ ending).toList.reverse.dropWhile (· ≠ separator)
        = text.toList.reverse.dropWhile (· ≠ separator) := by
    rw [String.toList_append, List.reverse_append]
    apply List.dropWhile_append_of_pos
    intro character inside
    have other : character ≠ separator := by
      rintro rfl
      exact plain (List.mem_reverse.mp inside)
    simpa using other
  simp only [rsplitOnce, skipped]
  cases text.toList.reverse.dropWhile (· ≠ separator) <;> rfl

/-- A text that is trimmed to nothing is white. -/
theorem whitespace_of_trim_eq_empty {text : String} (blank : trim text = "")
    : ∀ character ∈ text.toList, isWhitespace character = true := by
  have none : ((text.toList.dropWhile isWhitespace).rdropWhile isWhitespace) = [] := by
    have empty := congrArg String.toList blank
    simpa [trim, trimOf, trimEndOf, trimStartOf] using empty
  rw [List.rdropWhile_eq_nil_iff] at none
  have dropped : text.toList.dropWhile isWhitespace = [] := by
    cases rest : text.toList.dropWhile isWhitespace with
    | nil => rfl
    | cons first others =>
        have kept := List.head_dropWhile_not isWhitespace (l := text.toList) (by simp [rest])
        simp only [rest, List.head_cons] at kept
        rw [none first (by simp [rest])] at kept
        cases kept
  exact List.dropWhile_eq_nil_iff.mp dropped

theorem toList_trimOf (drop : Char → Bool) (text : String)
    : (trimOf drop text).toList = (text.toList.dropWhile drop).rdropWhile drop := by
  simp [trimOf, trimEndOf, trimStartOf]

theorem toList_trim (text : String)
    : (trim text).toList = (text.toList.dropWhile isWhitespace).rdropWhile isWhitespace :=
  toList_trimOf isWhitespace text

/-- A trimmed text neither begins nor ends with what is trimmed. -/
theorem ends_trimOf (drop : Char → Bool) (text : String)
    : (∀ first ∈ (trimOf drop text).toList.head?, drop first = false)
      ∧ ∀ last ∈ (trimOf drop text).toList.getLast?, drop last = false := by
  rw [toList_trimOf]
  constructor
  · intro first member
    obtain ⟨rest, whole⟩ := List.head?_eq_some_iff.mp member
    have first_prefix := List.rdropWhile_prefix drop (text.toList.dropWhile drop)
    rw [whole] at first_prefix
    obtain ⟨after, same⟩ := first_prefix
    have head := List.head_dropWhile_not drop (l := text.toList) (by simp [← same])
    simpa [← same] using head
  · intro last member
    have inhabited : (text.toList.dropWhile drop).rdropWhile drop ≠ [] := by
      rintro empty
      simp [empty] at member
    have visible := List.rdropWhile_last_not drop _ inhabited
    rw [List.getLast?_eq_some_getLast inhabited] at member
    obtain rfl := Option.some.inj member
    simpa using visible

theorem ends_trim (text : String)
    : (∀ first ∈ (trim text).toList.head?, isWhitespace first = false)
      ∧ ∀ last ∈ (trim text).toList.getLast?, isWhitespace last = false :=
  ends_trimOf isWhitespace text

theorem dropWhile_of_head {drop : Char → Bool} {text : List Char}
    (kept : ∀ first ∈ text.head?, drop first = false)
    : text.dropWhile drop = text := by
  cases text with
  | nil => rfl
  | cons first rest => rw [List.dropWhile_cons_of_neg (by simp [kept first rfl])]

theorem rdropWhile_of_last {drop : Char → Bool} {text : List Char}
    (kept : ∀ last ∈ text.getLast?, drop last = false)
    : text.rdropWhile drop = text := by
  rw [List.rdropWhile, dropWhile_of_head (by simpa using kept), List.reverse_reverse]

theorem trimOf_of_ends {drop : Char → Bool} {text : String}
    (first : ∀ c ∈ text.toList.head?, drop c = false)
    (last : ∀ c ∈ text.toList.getLast?, drop c = false)
    : trimOf drop text = text := by
  rw [trimOf, trimEndOf, trimStartOf, dropWhile_of_head first, String.ofList_toList,
    rdropWhile_of_last last, String.ofList_toList]

/-- A trimmed text has nothing left to trim. -/
theorem trim_trim (text : String) : trim (trim text) = trim text :=
  trimOf_of_ends (ends_trim text).1 (ends_trim text).2

theorem dropWhile_append_infix {drop : Char → Bool} (before : List Char) {middle : List Char}
    (after : List Char) (first : ∀ c ∈ middle.head?, drop c = false) (filled : middle ≠ [])
    : (before ++ middle ++ after).dropWhile drop = before.dropWhile drop ++ middle ++ after := by
  have kept : (middle ++ after).dropWhile drop = middle ++ after :=
    dropWhile_of_head (by rwa [List.head?_append_of_ne_nil _ filled])
  rw [List.append_assoc, List.dropWhile_append]
  split
  · next dropped =>
      rw [kept, List.isEmpty_iff.mp dropped]
      rfl
  · rw [List.append_assoc]

/-- What is trimmed out of a part of a text is a part of the trimmed text. -/
theorem trim_infix {part text : String} (inside : part.toList <:+: text.toList)
    : (trim part).toList <:+: (trim text).toList := by
  by_cases filled : (trim part).toList = []
  · rw [filled]
    exact List.nil_infix
  · have trimmed : (trim part).toList <:+: part.toList := by
      rw [toList_trim]
      exact (List.rdropWhile_prefix _ _).isInfix.trans (List.dropWhile_suffix _).isInfix
    obtain ⟨first, last⟩ := ends_trim part
    obtain ⟨before, after, whole⟩ := trimmed.trans inside
    rw [toList_trim text, ← whole, dropWhile_append_infix _ _ first filled, List.rdropWhile]
    have reversed
        : (before.dropWhile isWhitespace ++ (trim part).toList ++ after).reverse
          = after.reverse ++ (trim part).toList.reverse
            ++ (before.dropWhile isWhitespace).reverse := by
      simp
    rw [reversed, dropWhile_append_infix _ _ (by simpa using last) (by simpa using filled)]
    refine ⟨before.dropWhile isWhitespace, (after.reverse.dropWhile isWhitespace).reverse, ?_⟩
    simp

/-- What is joined is part of the whole. -/
theorem infix_intercalate {separator part : List Char} {parts : List (List Char)}
    (listed : part ∈ parts)
    : part <:+: List.intercalate separator parts := by
  obtain ⟨index, found⟩ := List.mem_iff_getElem?.mp listed
  refine List.infix_of_mem_flatten (List.mem_iff_getElem?.mpr ⟨2 * index, ?_⟩)
  rw [List.getElem?_intersperse_two_mul, found]

/-- The lines of a text are parts of it. -/
theorem infix_of_mem_lines {text line : String} (listed : line ∈ lines text)
    : line.toList <:+: text.toList := by
  have shorter (part : List Char) : withoutReturn part <+: part := by
    unfold withoutReturn
    split
    · exact List.dropLast_prefix _
    · exact List.prefix_refl _
  have between {part : List Char} (member : part ∈ text.toList.splitOn '\n')
      : part <:+: text.toList := by
    have joined : ['\n'].intercalate (text.toList.splitOn '\n') = text.toList :=
      List.intercalate_splitOn '\n'
    rw [← joined]
    exact infix_intercalate member
  obtain ⟨characters, member, rfl⟩ := List.mem_map.mp listed
  rw [String.toList_ofList]
  rcases List.mem_append.mp member with ended | last
  · obtain ⟨part, inside, rfl⟩ := List.mem_map.mp ended
    exact (shorter part).isInfix.trans (between (List.dropLast_subset _ inside))
  · obtain ⟨inside, -⟩ := List.mem_filter.mp last
    exact between (List.mem_of_getLast? (Option.mem_toList.mp inside))

theorem toList_joinWith (separator : Char) (parts : List String)
    : (joinWith separator parts).toList
      = List.intercalate [separator] (parts.map String.toList) := by
  rw [joinWith, String.toList_ofList]

/-- Parts without the separator are found again. -/
theorem splitOn_joinWith {separator : Char} {parts : List String} (filled : parts ≠ [])
    (plain : ∀ part ∈ parts, separator ∉ part.toList)
    : splitOn separator (joinWith separator parts) = parts := by
  rw [splitOn, toList_joinWith, List.splitOn_intercalate separator _ (by simpa using filled)]
  · rw [List.map_map]
    exact (List.map_congr_left (fun part _ => String.ofList_toList)).trans (List.map_id parts)
  · intro text listed
    obtain ⟨part, inside, rfl⟩ := List.mem_map.mp listed
    exact plain part inside

theorem joinWith_splitOn (separator : Char) (text : String)
    : joinWith separator (splitOn separator text) = text := by
  apply String.toList_injective
  have parts (texts : List (List Char)) : (texts.map String.ofList).map String.toList = texts := by
    rw [List.map_map]
    exact (List.map_congr_left (fun text _ => String.toList_ofList)).trans (List.map_id texts)
  rw [toList_joinWith, splitOn, parts, List.intercalate_splitOn]

theorem joinWith_singleton (separator : Char) (part : String)
    : joinWith separator [part] = part :=
  String.toList_injective (by rw [toList_joinWith]; simp)

theorem joinWith_cons {separator : Char} {part : String} {parts : List String} (more : parts ≠ [])
    : joinWith separator (part :: parts)
      = part ++ String.singleton separator ++ joinWith separator parts := by
  apply String.toList_injective
  rw [toList_joinWith, List.map_cons, List.intercalate_cons_of_ne_nil (by simpa using more),
    String.toList_append, String.toList_append, toList_joinWith, String.toList_singleton]

theorem joinWith_append {separator : Char} {parts more : List String} (first : parts ≠ [])
    (last : more ≠ [])
    : joinWith separator (parts ++ more)
      = joinWith separator parts ++ String.singleton separator ++ joinWith separator more := by
  induction parts with
  | nil => exact absurd rfl first
  | cons part parts ih =>
      rw [List.cons_append]
      by_cases alone : parts = []
      · subst alone
        rw [List.nil_append, joinWith_cons last, joinWith_singleton]
      · rw [joinWith_cons (by simp [alone]), ih alone, joinWith_cons alone]
        simp only [String.append_assoc]

theorem startsWith_iff {text start : String}
    : startsWith text start = true ↔ start.toList <+: text.toList :=
  List.isPrefixOf_iff_prefix

theorem toList_trimEndOf (drop : Char → Bool) (text : String)
    : (trimEndOf drop text).toList = text.toList.rdropWhile drop := by
  simp [trimEndOf]

/-- What stands before the last separator is shorter than the text. -/
theorem rsplitOnce_length {separator : Char} {text before after : String}
    (split : rsplitOnce separator text = some (before, after))
    : before.length < text.length := by
  rw [rsplitOnce] at split
  cases found : text.toList.reverse.dropWhile (· ≠ separator) with
  | nil =>
      simp only [found] at split
      exact nomatch split
  | cons character rest =>
      simp only [found, Option.some.injEq, Prod.mk.injEq] at split
      have shorter := (List.dropWhile_sublist (l := text.toList.reverse) (· ≠ separator)).length_le
      simp only [found, List.length_cons, List.length_reverse] at shorter
      rw [← split.1]
      simp only [String.length_ofList, List.length_reverse]
      rw [← String.length_toList (s := text)]
      omega

theorem append_of_stripSuffix {text ending stem : String}
    (stripped : stripSuffix text ending = some stem)
    : text = stem ++ ending := by
  rw [stripSuffix] at stripped
  split at stripped
  · next ends =>
      obtain ⟨before, split⟩ := List.isSuffixOf_iff_suffix.mp ends
      obtain rfl := Option.some.inj stripped
      have lengths := congrArg List.length split
      rw [List.length_append, String.length_toList, String.length_toList] at lengths
      apply String.ext
      rw [String.toList_append, String.toList_ofList]
      conv_lhs => rw [← split]
      congr 1
      rw [← split, List.take_append_of_le_length (by omega), List.take_of_length_le (by omega)]
  · exact nomatch stripped

end CodebaseGraph.Wiki
