import Mathlib.Data.String.Basic
import Mathlib.Algebra.Ring.Nat

/-! The terms of texts (`src/search_index/build.rs`). Characters are chosen before they are put in
lower case, so a term can hold characters that no term is made of.
-/

namespace CodebaseGraph.Search

-- Terms

/-- The functions of Rust's standard library on characters that the tokeniser calls. -/
structure CharTables where
  isAlphanumeric : Char → Bool
  toLowercase : Char → List Char

def maxTermBytes : Nat := 256

/-- The length of characters in UTF-8. -/
def byteLength (characters : List Char) : Nat := (characters.map Char.utf8Size).sum

section Tokens

variable (tables : CharTables)

def isTermCharacter (character : Char) : Bool :=
  tables.isAlphanumeric character || character = '_'

/-- The characters that still fit are pushed onto the term. -/
def pushLowercase (term lowercase : List Char) : List Char :=
  lowercase.foldl
    (fun term character =>
      if byteLength term + character.utf8Size ≤ maxTermBytes then term ++ [character] else term)
    term

/-- The loop of `tokenize`, with the term that is being read. -/
def tokenizeLoop (term : List Char) : List Char → List (List Char)
  | [] => if term = [] then [] else [term]
  | character :: rest =>
      if isTermCharacter tables character then
        tokenizeLoop (pushLowercase term (tables.toLowercase character)) rest
      else if term = [] then tokenizeLoop [] rest
      else term :: tokenizeLoop [] rest

/-- The terms that `tokenize` emits. -/
def tokenize (text : String) : List String :=
  (tokenizeLoop tables [] text.toList).map String.ofList

-- Words

/-- The longest runs of term characters. -/
def words (text : List Char) : List (List Char) :=
  (text.splitOnP (fun character => !isTermCharacter tables character)).filter (· ≠ [])

/-- The characters that fit into a number of bytes, one after the other. -/
def fitting (room : Nat) : List Char → List Char
  | [] => []
  | character :: rest =>
      if character.utf8Size ≤ room then character :: fitting (room - character.utf8Size) rest
      else fitting room rest

/-- What is kept of a word. -/
def wordTerm (word : List Char) : List Char :=
  fitting maxTermBytes (word.flatMap tables.toLowercase)

/-- Putting a character that is in lower case in lower case changes nothing. -/
def Settled : Prop :=
  ∀ character lowercase, lowercase ∈ tables.toLowercase character →
    tables.toLowercase lowercase = [lowercase]

end Tokens

-- What fits

theorem byteLength_append (first second : List Char)
    : byteLength (first ++ second) = byteLength first + byteLength second := by
  rw [byteLength, List.map_append, List.sum_append]
  rfl

theorem byteLength_cons (character : Char) (rest : List Char)
    : byteLength (character :: rest) = character.utf8Size + byteLength rest := rfl

theorem byteLength_fitting (room : Nat) (characters : List Char)
    : byteLength (fitting room characters) ≤ room := by
  induction characters generalizing room with
  | nil => exact Nat.zero_le room
  | cons character rest ih =>
      rw [fitting]
      split
      · next fits =>
          have others := ih (room - character.utf8Size)
          rw [byteLength_cons]
          omega
      · exact ih room

theorem fitting_sublist (room : Nat) (characters : List Char)
    : (fitting room characters).Sublist characters := by
  induction characters generalizing room with
  | nil => exact List.Sublist.refl _
  | cons character rest ih =>
      rw [fitting]
      split
      · exact (ih _).cons_cons character
      · exact (ih _).cons character

theorem fitting_of_le {room : Nat} {characters : List Char} (fits : byteLength characters ≤ room)
    : fitting room characters = characters := by
  induction characters generalizing room with
  | nil => rfl
  | cons character rest ih =>
      rw [byteLength_cons] at fits
      rw [fitting, if_pos (by omega), ih (by omega)]

theorem pushLowercase_eq (term lowercase : List Char)
    : pushLowercase term lowercase
      = term ++ fitting (maxTermBytes - byteLength term) lowercase := by
  induction lowercase generalizing term with
  | nil => rw [fitting, List.append_nil, pushLowercase, List.foldl_nil]
  | cons character rest ih =>
      have positive := character.utf8Size_pos
      have loop
          : pushLowercase term (character :: rest)
            = pushLowercase
                (if byteLength term + character.utf8Size ≤ maxTermBytes then term ++ [character]
                  else term)
                rest := rfl
      rw [loop, fitting]
      by_cases fits : byteLength term + character.utf8Size ≤ maxTermBytes
      · rw [if_pos fits, if_pos (by omega), ih, byteLength_append, List.append_assoc,
          List.singleton_append, Nat.sub_sub]
        rfl
      · rw [if_neg fits, if_neg (by omega), ih]

-----------------------------------------------------------------------------------------
-- Terms of words
-----------------------------------------------------------------------------------------

section Tokens

variable {tables : CharTables}

theorem mem_words {text word : List Char} (listed : word ∈ words tables text)
    : ∀ character ∈ word, isTermCharacter tables character = true ∧ character ∈ text := by
  obtain ⟨part, -⟩ := List.mem_filter.mp listed
  clear listed
  induction text generalizing word with
  | nil =>
      rw [List.splitOnP_nil] at part
      rw [List.mem_singleton.mp part]
      nofun
  | cons first rest ih =>
      have later {word : List Char}
          (part : word ∈ rest.splitOnP (fun character => !isTermCharacter tables character))
          : ∀ character ∈ word,
              isTermCharacter tables character = true ∧ character ∈ first :: rest :=
        fun character inside => (ih part character inside).imp_right (List.mem_cons_of_mem _)
      rw [List.splitOnP_cons_eq_if_modifyHead] at part
      split at part
      · rcases List.mem_cons.mp part with rfl | part
        · nofun
        · exact later part
      · next chosen =>
          obtain ⟨head, tail, whole⟩ := List.exists_cons_of_ne_nil (List.splitOnP_ne_nil
            (fun character => !isTermCharacter tables character) rest)
          rw [whole, List.modifyHead_cons] at part
          rcases List.mem_cons.mp part with rfl | part
          · rintro character (_ | ⟨_, inside⟩)
            · exact ⟨by simpa using chosen, List.mem_cons_self⟩
            · exact later (by rw [whole]; exact List.mem_cons_self) character inside
          · exact later (by rw [whole]; exact List.mem_cons_of_mem _ part)

/-- The loop keeps what fits of every word. -/
theorem tokenizeLoop_eq (term text : List Char) {word : List Char} {others : List (List Char)}
    (split : text.splitOnP (fun character => !isTermCharacter tables character) = word :: others)
    : tokenizeLoop tables term text
      = (pushLowercase term (word.flatMap tables.toLowercase)
          :: others.map (wordTerm tables)).filter (· ≠ []) := by
  induction text generalizing term word others with
  | nil =>
      rw [List.splitOnP_nil] at split
      obtain ⟨rfl, rfl⟩ := List.cons.inj split
      rw [tokenizeLoop, List.flatMap_nil, pushLowercase, List.foldl_nil, List.map_nil]
      by_cases empty : term = [] <;> simp [empty]
  | cons character rest ih =>
      obtain ⟨head, tail, whole⟩ := List.exists_cons_of_ne_nil (List.splitOnP_ne_nil
        (fun character => !isTermCharacter tables character) rest)
      rw [List.splitOnP_cons_eq_if_modifyHead, whole] at split
      rw [tokenizeLoop]
      by_cases chosen : isTermCharacter tables character = true
      · rw [if_neg (by simp [chosen]), List.modifyHead_cons] at split
        obtain ⟨rfl, rfl⟩ := List.cons.inj split
        rw [if_pos chosen, ih _ whole, List.flatMap_cons]
        simp only [pushLowercase, List.foldl_append]
      · rw [if_pos (by simpa using chosen)] at split
        obtain ⟨rfl, rfl⟩ := List.cons.inj split
        have later
            : tokenizeLoop tables [] rest
              = ((head :: tail).map (wordTerm tables)).filter (· ≠ []) := by
          rw [ih [] whole, pushLowercase_eq]
          rfl
        rw [if_neg chosen, later, List.flatMap_nil, pushLowercase, List.foldl_nil]
        by_cases empty : term = [] <;> simp [empty]

theorem mem_tokenizeLoop {text term : List Char}
    : term ∈ tokenizeLoop tables [] text
      ↔ term ≠ [] ∧ ∃ word ∈ words tables text, wordTerm tables word = term := by
  obtain ⟨head, tail, whole⟩ := List.exists_cons_of_ne_nil (List.splitOnP_ne_nil
    (fun character => !isTermCharacter tables character) text)
  have loop
      : tokenizeLoop tables [] text
        = ((head :: tail).map (wordTerm tables)).filter (· ≠ []) := by
    rw [tokenizeLoop_eq [] text whole, pushLowercase_eq]
    rfl
  rw [loop, ← whole, List.mem_filter, List.mem_map, words]
  simp only [List.mem_filter, decide_eq_true_eq]
  constructor
  · rintro ⟨⟨word, part, rfl⟩, filled⟩
    refine ⟨filled, word, ⟨part, ?_⟩, rfl⟩
    rintro rfl
    exact filled rfl
  · rintro ⟨filled, word, ⟨part, -⟩, rfl⟩
    exact ⟨⟨word, part, rfl⟩, filled⟩

theorem mem_tokenize {text term : String}
    : term ∈ tokenize tables text
      ↔ term ≠ "" ∧ ∃ word ∈ words tables text.toList, wordTerm tables word = term.toList := by
  have filled : term ≠ "" ↔ term.toList ≠ [] := by simp
  rw [tokenize, List.mem_map, filled, ← mem_tokenizeLoop]
  constructor
  · rintro ⟨characters, listed, rfl⟩
    rwa [String.toList_ofList]
  · exact fun listed => ⟨term.toList, listed, String.ofList_toList⟩

/-- A word is all there is in itself. -/
theorem tokenize_word {text word : List Char} (listed : word ∈ words tables text)
    (filled : wordTerm tables word ≠ [])
    : tokenize tables (String.ofList word) = [String.ofList (wordTerm tables word)] := by
  have whole : word.splitOnP (fun character => !isTermCharacter tables character) = [word] := by
    refine List.splitOnP_eq_singleton ?_
    intro character inside
    simp [(mem_words listed character inside).1]
  rw [tokenize, String.toList_ofList, tokenizeLoop_eq [] word whole, pushLowercase_eq]
  have kept
      : [] ++ fitting (maxTermBytes - byteLength []) (word.flatMap tables.toLowercase)
        = wordTerm tables word := rfl
  rw [kept, List.map_nil, List.filter_singleton]
  simp [filled]

/-- The characters of a term are in lower case. -/
theorem lowercase_of_mem_wordTerm {word : List Char} {character : Char}
    (inside : character ∈ wordTerm tables word)
    : ∃ source ∈ word, character ∈ tables.toLowercase source :=
  List.mem_flatMap.mp ((fitting_sublist _ _).subset inside)

-- Terms that are tokenised again

/-- A term is found in itself exactly if it is made of term characters, and it is then all there is
in itself.
-/
theorem mem_tokenize_self_iff (settled : Settled tables) {text term : String}
    (emitted : term ∈ tokenize tables text)
    : (term ∈ tokenize tables term
        ↔ ∀ character ∈ term.toList, isTermCharacter tables character = true)
      ∧ (term ∈ tokenize tables term ↔ tokenize tables term = [term]) := by
  obtain ⟨filled, word, listed, whole⟩ := mem_tokenize.mp emitted
  have lower : ∀ character ∈ term.toList, tables.toLowercase character = [character] := by
    intro character inside
    rw [← whole] at inside
    obtain ⟨source, -, lowercase⟩ := lowercase_of_mem_wordTerm inside
    exact settled source character lowercase
  have made (again : term ∈ tokenize tables term)
      : ∀ character ∈ term.toList, isTermCharacter tables character = true := by
    obtain ⟨-, word', listed', whole'⟩ := mem_tokenize.mp again
    intro character inside
    rw [← whole'] at inside
    obtain ⟨source, inside', lowercase⟩ := lowercase_of_mem_wordTerm inside
    obtain ⟨chosen, part⟩ := mem_words listed' source inside'
    rw [lower source part, List.mem_singleton] at lowercase
    rwa [lowercase]
  have again (made : ∀ character ∈ term.toList, isTermCharacter tables character = true)
      : tokenize tables term = [term] := by
    have alone : term.toList ∈ words tables term.toList := by
      have whole
          : term.toList.splitOnP (fun character => !isTermCharacter tables character)
            = [term.toList] :=
        List.splitOnP_eq_singleton (fun character inside => by simp [made character inside])
      rw [words, whole]
      simpa using filled
    have lowered : term.toList.flatMap tables.toLowercase = term.toList := by
      rw [List.flatMap_congr lower]
      exact List.flatMap_singleton' _
    have kept : wordTerm tables term.toList = term.toList := by
      rw [wordTerm, lowered]
      refine fitting_of_le ?_
      rw [← whole]
      exact byteLength_fitting _ _
    have terms := tokenize_word alone (by rw [kept]; simpa using filled)
    rwa [kept, String.ofList_toList] at terms
  have stable (same : tokenize tables term = [term]) : term ∈ tokenize tables term := by
    rw [same]
    exact List.mem_singleton_self term
  exact ⟨⟨made, fun all => stable (again all)⟩, ⟨fun member => again (made member), stable⟩⟩

end Tokens

end CodebaseGraph.Search
