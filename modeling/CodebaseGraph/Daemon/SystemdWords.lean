import Mathlib.Data.List.Basic
import CodebaseGraph.Daemon.Readers
import Mathlib.Algebra.Ring.Nat

/-! The words of a command in a unit file, as systemd reads them: between white space, with quoted
parts and the escapes of C.
-/

namespace CodebaseGraph.Daemon

def isBlank (character : Char) : Bool :=
  character = ' ' || character = '\t' || character = '\n' || character = '\r'

/-- The character an escape of one letter stands for. -/
def letterEscape : Char → Option Char
  | 'a' => some (Char.ofNat 7)
  | 'b' => some (Char.ofNat 8)
  | 'f' => some (Char.ofNat 12)
  | 'n' => some '\n'
  | 'r' => some '\r'
  | 't' => some '\t'
  | 'v' => some (Char.ofNat 11)
  | 's' => some ' '
  | '\\' => some '\\'
  | '"' => some '"'
  | '\'' => some '\''
  | _ => none

/-- The digits a numeric escape begins with have to be followed by others: their base and
number.
-/
def numericEscape : Char → Option (Nat × Nat × List Char)
  | 'x' => some (16, 2, [])
  | 'u' => some (16, 4, [])
  | 'U' => some (16, 8, [])
  | character => if (digitValue 8 character).isSome then some (8, 2, [character]) else none

/-- What is being read: plain text, the character after a backslash, or the digits of an escape,
of which some are missing.
-/
inductive Escape where
  | plain
  | letter
  | digits (base missing : Nat) (found : List Char)
deriving DecidableEq, Repr

/-- The words in what is left of a command, in quotes or not, with the word that is begun. A quote
that is not closed and an escape that is none make the command invalid.
-/
def systemdWordsFrom
    : Escape → Option Char → Option (List Char) → List Char → Option (List (List Char))
  | .plain, none, word, [] => some word.toList
  | _, _, _, [] => none
  | .letter, quote, word, character :: rest =>
      match letterEscape character, numericEscape character with
      | some letter, _ => systemdWordsFrom .plain quote (some (word.getD [] ++ [letter])) rest
      | none, some (base, missing, found) =>
          systemdWordsFrom (.digits base missing found) quote word rest
      | none, none => none
  | .digits base missing found, quote, word, character :: rest =>
      let found := found ++ [character]
      if missing = 1 then
        (numbered base found).bind (fun number =>
          systemdWordsFrom .plain quote (some (word.getD [] ++ [number])) rest)
      else
        systemdWordsFrom (.digits base (missing - 1) found) quote word rest
  | .plain, some quote, word, character :: rest =>
      if character = '\\' then
        systemdWordsFrom .letter (some quote) (some (word.getD [])) rest
      else if character = quote then
        systemdWordsFrom .plain none (some (word.getD [])) rest
      else
        systemdWordsFrom .plain (some quote) (some (word.getD [] ++ [character])) rest
  | .plain, none, word, character :: rest =>
      if character = '\\' then
        systemdWordsFrom .letter none (some (word.getD [])) rest
      else if character = '"' ∨ character = '\'' then
        systemdWordsFrom .plain (some character) (some (word.getD [])) rest
      else if isBlank character then
        (systemdWordsFrom .plain none none rest).map (word.toList ++ ·)
      else
        systemdWordsFrom .plain none (some (word.getD [] ++ [character])) rest

def systemdWords (command : List Char) : Option (List (List Char)) :=
  systemdWordsFrom .plain none none command

def systemdEscapeCharacter (character : Char) : List Char :=
  if character = '\\' then ['\\', '\\']
  else if character = '"' then ['\\', '"']
  else [character]

def systemdQuoted (text : List Char) : List Char :=
  '"' :: (text.flatMap systemdEscapeCharacter ++ ['"'])

/-- In double quotes, escaped text is read as it was. -/
theorem systemdWordsFrom_escaped (word text rest : List Char)
    : systemdWordsFrom .plain (some '"') (some word) (text.flatMap systemdEscapeCharacter ++ rest)
      = systemdWordsFrom .plain (some '"') (some (word ++ text)) rest := by
  induction text generalizing word with
  | nil => simp
  | cons character text ih =>
      have read : systemdWordsFrom .plain (some '"') (some word)
            (systemdEscapeCharacter character ++ (text.flatMap systemdEscapeCharacter ++ rest))
          = systemdWordsFrom .plain (some '"') (some (word ++ [character]))
              (text.flatMap systemdEscapeCharacter ++ rest) := by
        unfold systemdEscapeCharacter
        split
        case isTrue same =>
          subst same
          rfl
        case isFalse notSlash =>
          split
          case isTrue same =>
            subst same
            rfl
          case isFalse notQuote => simp [systemdWordsFrom, notSlash, notQuote]
      rw [List.flatMap_cons, List.append_assoc, read, ih, List.append_assoc]
      rfl

/-- Quoted texts with a space between two of them. -/
def systemdLine : List (List Char) → List Char
  | [] => []
  | [text] => systemdQuoted text
  | text :: next :: rest => systemdQuoted text ++ ' ' :: systemdLine (next :: rest)

theorem systemdWordsFrom_quoted (text rest : List Char)
    : systemdWordsFrom .plain none none (systemdQuoted text ++ rest)
      = systemdWordsFrom .plain none (some text) rest := by
  have opened : systemdWordsFrom .plain none none (systemdQuoted text ++ rest)
      = systemdWordsFrom .plain (some '"') (some [])
          (text.flatMap systemdEscapeCharacter ++ '"' :: rest) := by
    simp [systemdQuoted, systemdWordsFrom]
  rw [opened, systemdWordsFrom_escaped]
  simp [systemdWordsFrom]

/-- Quoted words are found again. -/
theorem systemdWords_line (words : List (List Char)) : systemdWords (systemdLine words) = some words := by
  induction words with
  | nil => rfl
  | cons text rest ih =>
      cases rest with
      | nil =>
          have read := systemdWordsFrom_quoted text []
          rw [List.append_nil] at read
          rw [systemdLine, systemdWords, read]
          rfl
      | cons next rest =>
          rw [systemdLine, systemdWords, systemdWordsFrom_quoted]
          rw [systemdWords] at ih
          simp [systemdWordsFrom, isBlank, ih]

/-! What systemd expands in the words of a command: specifiers, written with a percent sign, and
then variables, written with a dollar sign. A literal percent or dollar sign is written twice.
-/

/-- What specifiers and variables stand for on a machine. A letter without a value is no
specifier.
-/
structure SystemdHost where
  specifier : Char → Option (List Char)
  valueOf : List Char → List Char

-- Specifiers

/-- Replaces every specifier, in a text that may follow a percent sign. -/
def expandSpecifiers (specifier : Char → Option (List Char)) : Bool → List Char → List Char
  | false, [] => []
  | true, [] => ['%']
  | false, character :: rest =>
      if character = '%' then
        expandSpecifiers specifier true rest
      else
        character :: expandSpecifiers specifier false rest
  | true, letter :: rest =>
      (if letter = '%' then ['%'] else (specifier letter).getD ['%', letter])
        ++ expandSpecifiers specifier false rest

/-- Whether there is a specifier, or a percent sign written twice. -/
def hasSpecifier (isSpecifier : Char → Bool) : Bool → List Char → Bool
  | _, [] => false
  | false, character :: rest => hasSpecifier isSpecifier (character = '%') rest
  | true, letter :: rest =>
      letter = '%' || isSpecifier letter || hasSpecifier isSpecifier false rest

-- Variables

/-- What is being read of a text with variables. -/
inductive Reference where
  | none
  | dollar
  | name (found : List Char)
deriving DecidableEq, Repr

/-- Replaces every variable in braces. A name with a colon is not replaced. -/
def expandReferences (valueOf : List Char → List Char) : Reference → List Char → List Char
  | .none, [] => []
  | .dollar, [] => ['$']
  | .name found, [] => '$' :: '{' :: found
  | .none, character :: rest =>
      if character = '$' then
        expandReferences valueOf .dollar rest
      else
        character :: expandReferences valueOf .none rest
  | .dollar, character :: rest =>
      if character = '{' then
        expandReferences valueOf (.name []) rest
      else if character = '$' then
        '$' :: expandReferences valueOf .none rest
      else
        '$' :: character :: expandReferences valueOf .none rest
  | .name found, character :: rest =>
      if character = '}' then
        valueOf found ++ expandReferences valueOf .none rest
      else if character = ':' then
        '$' :: '{' :: (found ++ ':' :: expandReferences valueOf .none rest)
      else
        expandReferences valueOf (.name (found ++ [character])) rest

/-- Whether there is a variable in braces, or a dollar sign written twice. -/
def hasReference : Reference → List Char → Bool
  | _, [] => false
  | .none, character :: rest => hasReference (if character = '$' then .dollar else .none) rest
  | .dollar, character :: rest =>
      if character = '{' then hasReference (.name []) rest
      else character = '$' || hasReference .none rest
  | .name found, character :: rest =>
      if character = '}' then true
      else if character = ':' then hasReference .none rest
      else hasReference (.name (found ++ [character])) rest

/-- The name of a variable that makes up a whole word. -/
def wordVariable : List Char → Option (List Char)
  | '$' :: rest => if rest.head? = some '{' ∨ rest.head? = some '$' then none else some rest
  | _ => none

def fields (value : List Char) : List (List Char) :=
  (value.splitOnP isBlank).filter (fun field => !field.isEmpty)

/-- The arguments a word of a command stands for. -/
def expandWord (host : SystemdHost) (word : List Char) : List (List Char) :=
  let text := expandSpecifiers host.specifier false word
  match wordVariable text with
  | some name => fields (host.valueOf name)
  | none => [expandReferences host.valueOf .none text]

/-- The arguments of a command. -/
def systemdArguments (host : SystemdHost) (command : List Char) : Option (List (List Char)) :=
  (systemdWords command).map (fun words => words.flatMap (expandWord host))

-----------------------------------------------------------------------------------------
-- Literal words
-----------------------------------------------------------------------------------------

/-- A word in which nothing is expanded. -/
def isLiteral (isSpecifier : Char → Bool) (word : List Char) : Bool :=
  !hasSpecifier isSpecifier false word && (wordVariable word).isNone && !hasReference .none word

section

variable {isSpecifier : Char → Bool} {specifier : Char → Option (List Char)}
  (letters : ∀ letter, (specifier letter).isSome = isSpecifier letter)

include letters in
theorem expandSpecifiers_of_literal {after : Bool} {text : List Char}
    (plain : hasSpecifier isSpecifier after text = false)
    : expandSpecifiers specifier after text = (if after then ['%'] else []) ++ text := by
  induction text generalizing after with
  | nil => cases after <;> rfl
  | cons character rest ih =>
      cases after with
      | false =>
          have further := ih plain
          rw [expandSpecifiers]
          split
          case isTrue same =>
            rw [decide_eq_true same] at further
            rw [further, same]
            rfl
          case isFalse other =>
            rw [decide_eq_false other] at further
            rw [further]
            rfl
      | true =>
          rw [hasSpecifier, Bool.or_eq_false_iff, Bool.or_eq_false_iff, decide_eq_false_iff_not]
            at plain
          have absent : specifier character = none := by
            rw [← Option.isNone_iff_eq_none, ← Option.not_isSome, letters, plain.1.2]
            rfl
          rw [expandSpecifiers, if_neg plain.1.1, absent, ih plain.2]
          rfl

end

/-- A machine on which every specifier and every variable is empty. -/
def emptyHost (isSpecifier : Char → Bool) : SystemdHost where
  specifier letter := if isSpecifier letter then some [] else none
  valueOf _ := []

theorem emptyHost_letters (isSpecifier : Char → Bool) (letter : Char)
    : ((emptyHost isSpecifier).specifier letter).isSome = isSpecifier letter := by
  cases known : isSpecifier letter <;> simp [emptyHost, known]

/-- Empty specifiers make a text shorter, if it has any. -/
theorem expandSpecifiers_shorter (isSpecifier : Char → Bool) (after : Bool) (text : List Char)
    : (expandSpecifiers (emptyHost isSpecifier).specifier after text).length
        + (if hasSpecifier isSpecifier after text then 1 else 0)
      ≤ text.length + (if after then 1 else 0) := by
  induction text generalizing after with
  | nil => cases after <;> simp [expandSpecifiers, hasSpecifier]
  | cons character rest ih =>
      cases after with
      | false =>
          rw [expandSpecifiers, hasSpecifier]
          have further := ih (decide (character = '%'))
          split
          case isTrue same =>
            simp only [same, decide_true, if_true, List.length_cons] at further ⊢
            simpa using further
          case isFalse other =>
            simp only [other, decide_false, List.length_cons] at further ⊢
            simp only [Bool.false_eq_true, if_false] at further ⊢
            omega
      | true =>
          have further := ih false
          rw [expandSpecifiers, hasSpecifier]
          by_cases percent : character = '%'
          · simp [percent] at further ⊢
            omega
          · cases known : isSpecifier character with
            | true =>
                simp [percent, known, emptyHost] at further ⊢
                omega
            | false =>
                simp [percent, known, emptyHost] at further ⊢
                omega

/-- The characters a reference has taken so far. -/
def Reference.taken : Reference → List Char
  | .none => []
  | .dollar => ['$']
  | .name found => '$' :: '{' :: found

theorem expandReferences_of_literal {valueOf : List Char → List Char} {reference : Reference}
    {text : List Char} (plain : hasReference reference text = false)
    : expandReferences valueOf reference text = reference.taken ++ text := by
  induction text generalizing reference with
  | nil => cases reference <;> simp [expandReferences, Reference.taken]
  | cons character rest ih =>
      cases reference with
      | none =>
          rw [hasReference] at plain
          rw [expandReferences]
          split
          case isTrue same =>
            rw [if_pos same] at plain
            rw [ih plain, same]
            rfl
          case isFalse other =>
            rw [if_neg other] at plain
            rw [ih plain]
            rfl
      | dollar =>
          rw [hasReference] at plain
          rw [expandReferences]
          split
          case isTrue same =>
            rw [if_pos same] at plain
            rw [ih plain, same]
            rfl
          case isFalse other =>
            rw [if_neg other, Bool.or_eq_false_iff, decide_eq_false_iff_not] at plain
            rw [if_neg plain.1, ih plain.2]
            rfl
      | name found =>
          rw [hasReference] at plain
          rw [expandReferences]
          split
          case isTrue same =>
            rw [if_pos same] at plain
            cases plain
          case isFalse other =>
            rw [if_neg other] at plain
            split
            case isTrue colon =>
              rw [if_pos colon] at plain
              rw [ih plain, colon]
              simp [Reference.taken]
            case isFalse noColon =>
              rw [if_neg noColon] at plain
              rw [ih plain]
              simp [Reference.taken]

/-- Empty variables make a text shorter, if it has any. -/
theorem expandReferences_shorter (reference : Reference) (text : List Char)
    : (expandReferences (fun _ => []) reference text).length
        + (if hasReference reference text then 1 else 0)
      ≤ text.length + reference.taken.length := by
  induction text generalizing reference with
  | nil => cases reference <;> simp [expandReferences, hasReference, Reference.taken]
  | cons character rest ih =>
      cases reference with
      | none =>
          rw [hasReference, expandReferences]
          split
          case isTrue same =>
            have further := ih .dollar
            simpa [Reference.taken] using further
          case isFalse other =>
            have further := ih .none
            simp only [Reference.taken, List.length_cons, List.length_nil] at further ⊢
            omega
      | dollar =>
          rw [hasReference, expandReferences]
          have plain := ih .none
          split
          case isTrue same =>
            have further := ih (.name [])
            simp only [Reference.taken, List.length_cons, List.length_nil] at further ⊢
            omega
          case isFalse other =>
            by_cases dollar : character = '$'
            · simp only [dollar, if_true, decide_true, Bool.true_or, Reference.taken,
                List.length_cons, List.length_nil] at plain ⊢
              omega
            · simp only [dollar, if_false, decide_false, Bool.false_or, Reference.taken,
                List.length_cons, List.length_nil] at plain ⊢
              omega
      | name found =>
          rw [hasReference, expandReferences]
          have plain := ih .none
          split
          case isTrue same =>
            simp only [if_true, Reference.taken, List.length_cons, List.length_nil,
              List.nil_append] at plain ⊢
            omega
          case isFalse other =>
            split
            case isTrue colon =>
              simp only [Reference.taken, List.length_cons, List.length_append,
                List.length_nil] at plain ⊢
              omega
            case isFalse noColon =>
              have further := ih (.name (found ++ [character]))
              simp only [Reference.taken, List.length_cons, List.length_append,
                List.length_nil] at further ⊢
              omega

-----------------------------------------------------------------------------------------
-- Commands
-----------------------------------------------------------------------------------------

section

variable {isSpecifier : Char → Bool}

theorem expandWord_of_literal {host : SystemdHost}
    (letters : ∀ letter, (host.specifier letter).isSome = isSpecifier letter) {word : List Char}
    (literal : isLiteral isSpecifier word) : expandWord host word = [word] := by
  simp only [isLiteral, Bool.and_eq_true, Bool.not_eq_true', Option.isNone_iff_eq_none] at literal
  obtain ⟨⟨noSpecifier, noVariable⟩, noReference⟩ := literal
  have text : expandSpecifiers host.specifier false word = word :=
    expandSpecifiers_of_literal letters noSpecifier
  have kept : expandReferences host.valueOf .none word = word :=
    expandReferences_of_literal noReference
  simp only [expandWord, text, noVariable, kept]

/-- The characters in all of some words. -/
def totalLength (words : List (List Char)) : Nat := (words.map List.length).sum

/-- On the machine where all is empty, a word that is not literal loses characters. -/
theorem expandWord_shorter (isSpecifier : Char → Bool) (word : List Char)
    : totalLength (expandWord (emptyHost isSpecifier) word)
        + (if isLiteral isSpecifier word then 0 else 1)
      ≤ word.length := by
  have letters := emptyHost_letters isSpecifier
  have shorter := expandSpecifiers_shorter isSpecifier false word
  simp only [Bool.false_eq_true, if_false, Nat.add_zero] at shorter
  cases specified : hasSpecifier isSpecifier false word with
  | true =>
      have notLiteral : isLiteral isSpecifier word = false := by simp [isLiteral, specified]
      simp only [specified, if_true] at shorter
      simp only [notLiteral, Bool.false_eq_true, if_false, expandWord]
      cases named : wordVariable (expandSpecifiers (emptyHost isSpecifier).specifier false word) with
      | some name =>
          simp only [totalLength, fields, emptyHost, List.splitOnP_nil, List.filter]
          simp
          omega
      | none =>
          have less := expandReferences_shorter .none
            (expandSpecifiers (emptyHost isSpecifier).specifier false word)
          simp only [Reference.taken, List.length_nil, Nat.add_zero] at less
          simp only [totalLength, emptyHost, List.map_cons, List.map_nil, List.sum_cons,
            List.sum_nil] at less shorter ⊢
          omega
  | false =>
      have text := expandSpecifiers_of_literal letters specified
      simp only [Bool.false_eq_true, if_false, List.nil_append] at text
      simp only [expandWord, text, isLiteral, specified]
      cases named : wordVariable word with
      | some name =>
          have filled : 0 < word.length := by
            cases word with
            | nil => cases named
            | cons character rest => exact Nat.succ_pos _
          simp only [totalLength, fields, emptyHost, List.splitOnP_nil, List.filter]
          simp
          omega
      | none =>
          have less := expandReferences_shorter .none word
          simp only [Reference.taken, List.length_nil, Nat.add_zero] at less
          simp only [totalLength, emptyHost, List.map_cons, List.map_nil, List.sum_cons,
            List.sum_nil, Bool.not_false, Bool.true_and, Option.isNone_none] at less ⊢
          cases referred : hasReference .none word with
          | true =>
              simp only [referred, if_true] at less
              simpa using less
          | false =>
              simp only [referred, Bool.false_eq_true, if_false] at less
              simpa using less

theorem flatMap_expandWord_shorter (isSpecifier : Char → Bool) (words : List (List Char))
    : totalLength (words.flatMap (expandWord (emptyHost isSpecifier)))
        + words.countP (fun word => !isLiteral isSpecifier word)
      ≤ totalLength words := by
  induction words with
  | nil => simp [totalLength]
  | cons word rest ih =>
      have first := expandWord_shorter isSpecifier word
      have parts : totalLength ((word :: rest).flatMap (expandWord (emptyHost isSpecifier)))
          = totalLength (expandWord (emptyHost isSpecifier) word)
            + totalLength (rest.flatMap (expandWord (emptyHost isSpecifier))) := by
        simp [totalLength]
      have whole : totalLength (word :: rest) = word.length + totalLength rest := by
        simp [totalLength]
      rw [parts, whole, List.countP_cons]
      cases literal : isLiteral isSpecifier word with
      | true =>
          simp only [literal, if_true] at first
          simp
          omega
      | false =>
          simp only [literal, Bool.false_eq_true, if_false] at first
          simp
          omega

/-- Quoted words are the arguments of a command on every machine exactly if all are literal. -/
theorem systemdArguments_line_iff (isSpecifier : Char → Bool) (words : List (List Char))
    : (∀ host : SystemdHost,
        (∀ letter, (host.specifier letter).isSome = isSpecifier letter) →
        systemdArguments host (systemdLine words) = some words)
      ↔ ∀ word ∈ words, isLiteral isSpecifier word := by
  constructor
  · intro everywhere
    have found := everywhere (emptyHost isSpecifier) (emptyHost_letters isSpecifier)
    rw [systemdArguments, systemdWords_line, Option.map_some, Option.some.injEq] at found
    have shorter := flatMap_expandWord_shorter isSpecifier words
    rw [found] at shorter
    have absent : words.countP (fun word => !isLiteral isSpecifier word) = 0 := by omega
    intro word inside
    simpa using List.countP_eq_zero.mp absent word inside
  · intro literal host letters
    rw [systemdArguments, systemdWords_line, Option.map_some]
    congr 1
    induction words with
    | nil => rfl
    | cons word rest ih =>
        obtain ⟨first, others⟩ := List.forall_mem_cons.mp literal
        rw [List.flatMap_cons, expandWord_of_literal letters first, ih others]
        rfl

end

end CodebaseGraph.Daemon
