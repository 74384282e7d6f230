import Mathlib.Data.List.Basic
import Mathlib.Data.List.TakeWhile

/-! XML as a reader takes it apart: references to characters, and tags with the text that follows
each of them.
-/

namespace CodebaseGraph.Daemon

-- References

/-- The value of a digit in a base of at most sixteen. -/
def digitValue (base : Nat) (digit : Char) : Option Nat :=
  let value :=
    if digit.isDigit then digit.toNat - 48
    else if 'a' ≤ digit ∧ digit ≤ 'f' then digit.toNat - 87
    else if 'A' ≤ digit ∧ digit ≤ 'F' then digit.toNat - 55
    else 16
  if value < base then some value else none

/-- The character with a number, written in some base. -/
def numbered (base : Nat) (digits : List Char) : Option Char :=
  if digits.isEmpty then
    none
  else
    (digits.foldlM (fun number digit => (digitValue base digit).map (base * number + ·)) 0).bind
      (fun number => if number.isValidChar then some (Char.ofNat number) else none)

/-- The character a reference stands for. -/
def xmlReference : List Char → Option Char
  | ['a', 'm', 'p'] => some '&'
  | ['l', 't'] => some '<'
  | ['g', 't'] => some '>'
  | ['q', 'u', 'o', 't'] => some '"'
  | ['a', 'p', 'o', 's'] => some '\''
  | '#' :: 'x' :: digits => numbered 16 digits
  | '#' :: digits => numbered 10 digits
  | _ => none

/-- Text with its references replaced; a reference is read up to its semicolon. -/
def unescapeFrom : Option (List Char) → List Char → Option (List Char)
  | none, [] => some []
  | some _, [] => none
  | none, character :: rest =>
      if character = '&' then
        unescapeFrom (some []) rest
      else
        (unescapeFrom none rest).map (character :: ·)
  | some name, character :: rest =>
      if character = ';' then
        (xmlReference name).bind (fun found => (unescapeFrom none rest).map (found :: ·))
      else
        unescapeFrom (some (name ++ [character])) rest

def xmlUnescape (text : List Char) : Option (List Char) := unescapeFrom none text

def xmlEscapeCharacter (character : Char) : List Char :=
  if character = '&' then ['&', 'a', 'm', 'p', ';']
  else if character = '<' then ['&', 'l', 't', ';']
  else if character = '>' then ['&', 'g', 't', ';']
  else if character = '"' then ['&', 'q', 'u', 'o', 't', ';']
  else if character = '\'' then ['&', 'a', 'p', 'o', 's', ';']
  else [character]

theorem unescapeFrom_escaped (character : Char) (rest : List Char)
    : unescapeFrom none (xmlEscapeCharacter character ++ rest)
      = (unescapeFrom none rest).map (character :: ·) := by
  unfold xmlEscapeCharacter
  split
  case isTrue same =>
    subst same
    rfl
  case isFalse notAmp =>
    repeat
      split
      case isTrue same =>
        subst same
        rfl
    simp [unescapeFrom, notAmp]

/-- Escaped text is read as it was. -/
theorem xmlUnescape_escaped (text : List Char)
    : xmlUnescape (text.flatMap xmlEscapeCharacter) = some text := by
  induction text with
  | nil => rfl
  | cons character rest ih =>
      rw [xmlUnescape] at ih ⊢
      rw [List.flatMap_cons, unescapeFrom_escaped, ih]
      rfl

theorem escaped_no_tag (text : List Char) : '<' ∉ text.flatMap xmlEscapeCharacter := by
  intro found
  obtain ⟨character, -, inside⟩ := List.mem_flatMap.mp found
  unfold xmlEscapeCharacter at inside
  split at inside
  · simp at inside
  · split at inside
    · simp at inside
    · next other =>
        split at inside
        · simp at inside
        · split at inside
          · simp at inside
          · split at inside
            · simp at inside
            · exact other (List.mem_singleton.mp inside).symm

-----------------------------------------------------------------------------------------
-- Tags
-----------------------------------------------------------------------------------------

/-- A tag, with what stands between its brackets, and the text after it. -/
structure XmlToken where
  tag : List Char
  content : List Char
deriving DecidableEq, Repr

/-- The tag at the beginning of a text that follows its opening bracket. -/
def xmlToken (rest : List Char) : XmlToken :=
  let piece := rest.takeWhile (· ≠ '<')
  { tag := piece.takeWhile (· ≠ '>'), content := (piece.dropWhile (· ≠ '>')).drop 1 }

def xmlTokens : List Char → List XmlToken
  | [] => []
  | character :: rest =>
      if character = '<' then xmlToken rest :: xmlTokens rest else xmlTokens rest

/-- The tags before a bracket end at it. -/
theorem xmlTokens_append (first second : List Char)
    : xmlTokens (first ++ '<' :: second) = xmlTokens first ++ xmlTokens ('<' :: second) := by
  induction first with
  | nil => rfl
  | cons character rest ih =>
      have ended : xmlToken (rest ++ '<' :: second) = xmlToken rest := by
        have piece : (rest ++ '<' :: second).takeWhile (· ≠ '<') = rest.takeWhile (· ≠ '<') := by
          clear ih
          induction rest with
          | nil => simp
          | cons next rest ih =>
              simp only [List.cons_append, List.takeWhile_cons, ih]
        rw [xmlToken, xmlToken, piece]
      rw [List.cons_append, xmlTokens, xmlTokens, ih, ended]
      split <;> rfl

/-- Text without brackets has no tags. -/
theorem xmlTokens_text {text : List Char} (plain : '<' ∉ text) : xmlTokens text = [] := by
  induction text with
  | nil => rfl
  | cons character rest ih =>
      have other : character ≠ '<' := fun same => plain (same ▸ List.mem_cons_self)
      rw [xmlTokens, if_neg other]
      exact ih (fun found => plain (List.mem_cons_of_mem _ found))

/-- One tag and the text after it. -/
theorem xmlTokens_element {tag content : List Char} (name : '<' ∉ tag) (closed : '>' ∉ tag)
    (plain : '<' ∉ content)
    : xmlTokens ('<' :: (tag ++ '>' :: content)) = [⟨tag, content⟩] := by
  have whole : '<' ∉ tag ++ '>' :: content := by
    simp [name, plain]
  have piece : (tag ++ '>' :: content).takeWhile (· ≠ '<') = tag ++ '>' :: content := by
    apply List.takeWhile_eq_self_iff.mpr
    intro character found
    exact decide_eq_true (fun same => whole (same ▸ found))
  have inTag : ∀ character ∈ tag, decide (character ≠ '>') = true :=
    fun character found => decide_eq_true (fun same => closed (same ▸ found))
  rw [xmlTokens, if_pos rfl, xmlTokens_text whole, xmlToken]
  rw [piece, List.takeWhile_append_of_pos inTag, List.dropWhile_append_of_pos inTag]
  simp

/-! A command line as Windows splits it into arguments (`CommandLineToArgvW`): backslashes are
literal, except before a quotation mark.
-/

def backslashes (count : Nat) : List Char := List.replicate count '\\'

/-- What is left of a word at a place where it may end. -/
def endedWord (slashes : Nat) (word : Option (List Char)) : List (List Char) :=
  (word.map (· ++ backslashes slashes)).toList

inductive Quoting where
  | outside
  | inside
  /-- Right after a quotation mark that ends a quoted part; a second one stands for itself. -/
  | closing
deriving DecidableEq, Repr

/-- Splits what is left of a command line, after some backslashes that may yet stand before a
quotation mark.
-/
def splitArguments : Quoting → Nat → Option (List Char) → List Char → List (List Char)
  | _, slashes, word, [] => endedWord slashes word
  | quoting, slashes, word, character :: rest =>
      let begun := word.getD []
      let unquoted := if quoting = .closing then .outside else quoting
      if character = '\\' then
        splitArguments unquoted (slashes + 1) (some begun) rest
      else if character = '"' then
        let begun := begun ++ backslashes (slashes / 2)
        if slashes % 2 = 1 then
          splitArguments unquoted 0 (some (begun ++ ['"'])) rest
        else
          match quoting with
          | .outside => splitArguments .inside 0 (some begun) rest
          | .inside => splitArguments .closing 0 (some begun) rest
          | .closing => splitArguments .inside 0 (some (begun ++ ['"'])) rest
      else if (character = ' ' ∨ character = '\t') ∧ quoting ≠ .inside then
        endedWord slashes word ++ splitArguments .outside 0 none rest
      else
        splitArguments unquoted 0 (some (begun ++ backslashes slashes ++ [character])) rest

def commandLineToArgv (line : List Char) : List (List Char) := splitArguments .outside 0 none line

/-- How many backslashes stand at the end of some and a text. -/
def pending : Nat → List Char → Nat
  | slashes, [] => slashes
  | slashes, character :: rest =>
      if character = '\\' then pending (slashes + 1) rest else pending 0 rest

theorem pending_eq_zero_iff (slashes : Nat) (text : List Char)
    : pending slashes text = 0 ↔ text.getLast? ≠ some '\\' ∧ (text = [] → slashes = 0) := by
  induction text generalizing slashes with
  | nil => simp [pending]
  | cons character rest ih =>
      rw [pending]
      cases rest with
      | nil =>
          by_cases slash : character = '\\' <;> simp [pending, slash]
      | cons next rest =>
          split
          · rw [ih]
            simp
          · rw [ih]
            simp

theorem backslashes_succ (count : Nat) : backslashes (count + 1) = backslashes count ++ ['\\'] :=
  List.replicate_succ'

/-- Inside of quotation marks, text without any is taken as it is, up to backslashes at its end. -/
theorem splitArguments_inside (slashes : Nat) (word text rest : List Char) (plain : '"' ∉ text)
    : ∃ word',
        splitArguments .inside slashes (some word) (text ++ rest)
          = splitArguments .inside (pending slashes text) (some word') rest
        ∧ word' ++ backslashes (pending slashes text) = word ++ backslashes slashes ++ text := by
  induction text generalizing slashes word with
  | nil => exact ⟨word, rfl, by simp [pending]⟩
  | cons character text ih =>
      have noQuote : character ≠ '"' := fun same => plain (same ▸ List.mem_cons_self)
      have others := fun found => plain (List.mem_cons_of_mem character found)
      by_cases slash : character = '\\'
      · obtain ⟨word', read, kept⟩ := ih (slashes + 1) word others
        rw [pending, if_pos slash]
        refine ⟨word', ?_, ?_⟩
        · rw [List.cons_append, splitArguments]
          simp only [slash, if_true]
          exact read
        · rw [kept, backslashes_succ, slash]
          simp
      · obtain ⟨word', read, kept⟩ := ih 0 (word ++ backslashes slashes ++ [character]) others
        rw [pending, if_neg slash]
        refine ⟨word', ?_, ?_⟩
        · rw [List.cons_append, splitArguments]
          simp only [slash, noQuote, if_false]
          simpa using read
        · rw [kept]
          simp [backslashes]

/-- Text between quotation marks is one argument, if it does not end in a backslash. -/
theorem splitArguments_quoted (text rest : List Char) (plain : '"' ∉ text)
    (ended : text.getLast? ≠ some '\\')
    : splitArguments .outside 0 none ('"' :: (text ++ '"' :: rest))
      = splitArguments .closing 0 (some text) rest := by
  have absent : pending 0 text = 0 := (pending_eq_zero_iff 0 text).mpr ⟨ended, fun _ => rfl⟩
  obtain ⟨word', read, kept⟩ := splitArguments_inside 0 [] text ('"' :: rest) plain
  rw [absent] at read kept
  have same : word' = text := by simpa [backslashes] using kept
  have opened : splitArguments .outside 0 none ('"' :: (text ++ '"' :: rest))
      = splitArguments .inside 0 (some []) (text ++ '"' :: rest) := rfl
  rw [opened, read, same]
  simp [splitArguments, backslashes]

/-- Arguments between quotation marks, with a space between two of them. -/
def quotedLine : List (List Char) → List Char
  | [] => []
  | [text] => '"' :: (text ++ ['"'])
  | text :: next :: rest => '"' :: (text ++ '"' :: ' ' :: quotedLine (next :: rest))

theorem commandLineToArgv_cons (text next : List Char) (rest : List (List Char))
    (plain : '"' ∉ text) (ended : text.getLast? ≠ some '\\')
    : commandLineToArgv (quotedLine (text :: next :: rest))
      = text :: commandLineToArgv (quotedLine (next :: rest)) := by
  rw [quotedLine, commandLineToArgv, splitArguments_quoted text _ plain ended]
  simp [splitArguments, endedWord, backslashes, commandLineToArgv]

/-- Arguments that do not end in a backslash are found again. -/
theorem commandLineToArgv_quotedLine (arguments : List (List Char))
    (plain : ∀ text ∈ arguments, '"' ∉ text)
    (ended : ∀ text ∈ arguments, text.getLast? ≠ some '\\')
    : commandLineToArgv (quotedLine arguments) = arguments := by
  induction arguments with
  | nil => rfl
  | cons text rest ih =>
      obtain ⟨plainText, plainRest⟩ := List.forall_mem_cons.mp plain
      obtain ⟨endedText, endedRest⟩ := List.forall_mem_cons.mp ended
      cases rest with
      | nil =>
          rw [quotedLine, commandLineToArgv, splitArguments_quoted text [] plainText endedText]
          simp [splitArguments, endedWord, backslashes]
      | cons next rest =>
          rw [commandLineToArgv_cons text next rest plainText endedText, ih plainRest endedRest]

/-- A word that is begun is carried on by the first argument that is found. -/
theorem splitArguments_extends (quoting : Quoting) (slashes : Nat) (word text : List Char)
    : ∃ more rest, splitArguments quoting slashes (some word) text = (word ++ more) :: rest := by
  induction text generalizing quoting slashes word with
  | nil => exact ⟨backslashes slashes, [], rfl⟩
  | cons character text ih =>
      have further : ∀ quoting' slashes' more,
          ∃ more' rest,
            splitArguments quoting' slashes' (some (word ++ more)) text = (word ++ more') :: rest := by
        intro quoting' slashes' more
        obtain ⟨more', rest, found⟩ := ih quoting' slashes' (word ++ more)
        exact ⟨more ++ more', rest, by rw [found, List.append_assoc]⟩
      rw [splitArguments]
      dsimp only [Option.getD_some]
      split
      · simpa using further _ (slashes + 1) []
      · split
        · split
          · rw [List.append_assoc]
            exact further _ 0 _
          · cases quoting with
            | outside => exact further .inside 0 _
            | inside => exact further .closing 0 _
            | closing =>
                rw [List.append_assoc]
                exact further .inside 0 _
        · split
          · exact ⟨backslashes slashes, _, rfl⟩
          · rw [List.append_assoc]
            exact further _ 0 _

/-- An argument that ends in a backslash and is not the last one is not found. -/
theorem commandLineToArgv_slash (text next : List Char) (rest : List (List Char))
    (plain : '"' ∉ text) (slash : text.getLast? = some '\\')
    : (commandLineToArgv (quotedLine (text :: next :: rest))).head? ≠ some text := by
  obtain ⟨word, read, kept⟩ :=
    splitArguments_inside 0 [] text ('"' :: ' ' :: quotedLine (next :: rest)) plain
  have opened : commandLineToArgv (quotedLine (text :: next :: rest))
      = splitArguments .inside 0 (some [])
          (text ++ '"' :: ' ' :: quotedLine (next :: rest)) := rfl
  have present : pending 0 text ≠ 0 := fun absent =>
    ((pending_eq_zero_iff 0 text).mp absent).1 slash
  have whole : word ++ backslashes (pending 0 text) = text := by simpa [backslashes] using kept
  rw [opened, read]
  rcases Nat.mod_two_eq_zero_or_one (pending 0 text) with even | odd
  · -- half of the backslashes are left
    have found : splitArguments .inside (pending 0 text) (some word)
          ('"' :: ' ' :: quotedLine (next :: rest))
        = (word ++ backslashes (pending 0 text / 2)) :: commandLineToArgv (quotedLine (next :: rest))
        := by
      simp [splitArguments, even, endedWord, backslashes, commandLineToArgv]
    rw [found, List.head?_cons]
    intro same
    have lengths := congrArg List.length ((Option.some.inj same).trans whole.symm)
    simp only [List.length_append, backslashes, List.length_replicate] at lengths
    omega
  · -- the quotation mark belongs to the argument
    have found : splitArguments .inside (pending 0 text) (some word)
          ('"' :: ' ' :: quotedLine (next :: rest))
        = splitArguments .inside 0 (some (word ++ backslashes (pending 0 text / 2) ++ ['"']))
            (' ' :: quotedLine (next :: rest)) := by
      simp [splitArguments, odd]
    obtain ⟨more, others, extended⟩ := splitArguments_extends .inside 0
      (word ++ backslashes (pending 0 text / 2) ++ ['"']) (' ' :: quotedLine (next :: rest))
    rw [found, extended, List.head?_cons]
    intro same
    have inside : '"' ∈ word ++ backslashes (pending 0 text / 2) ++ ['"'] ++ more := by simp
    rw [Option.some.inj same] at inside
    exact plain inside

end CodebaseGraph.Daemon
