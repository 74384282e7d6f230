import CodebaseGraph.Wiki.Text

/-! Which files and directories are looked at (`src/source_selection.rs`). -/

namespace CodebaseGraph.Refresh

open CodebaseGraph.Wiki

-- Wildcards

def utf8Bytes (text : String) : List UInt8 := text.toList.flatMap String.utf8EncodeChar

def star : UInt8 := 0x2A

def question : UInt8 := 0x3F

/-- The pattern after the last star, and the text where it was tried last. -/
abbrev StarState := Option (List UInt8 × List UInt8)

/-- The text that is left is part of what is left from the last star on. -/
def StarState.Covers (state : StarState) (text : List UInt8) : Prop :=
  ∀ last ∈ state, text.length ≤ last.2.length

/-- How much text can still be tried from a star. -/
def StarState.budget (state : StarState) (text : List UInt8) : Nat :=
  match state with
  | some last => last.2.length
  | none => text.length + 1

theorem StarState.covers_none (text : List UInt8) : StarState.Covers none text := nofun

theorem StarState.covers_last (retry text : List UInt8)
    : StarState.Covers (some (retry, text)) text := by
  rintro last ⟨⟩
  exact Nat.le_refl _

theorem StarState.Covers.tail {state : StarState} {byte : UInt8} {after : List UInt8}
    (covers : state.Covers (byte :: after))
    : state.Covers after :=
  fun last inside => Nat.le_of_succ_le (covers last inside)

theorem StarState.budget_cons (state : StarState) (byte : UInt8) (after : List UInt8)
    : state.budget after ≤ state.budget (byte :: after) := by
  cases state with
  | none => exact Nat.succ_le_succ (Nat.le_succ _)
  | some last => exact Nat.le_refl _

theorem StarState.Covers.length_le_budget {state : StarState} {text : List UInt8}
    (covers : state.Covers text)
    : text.length ≤ state.budget text := by
  cases state with
  | none => exact Nat.le_succ _
  | some last => exact covers last rfl

/-- The loops of `wildcard_match_bytes`, on what is left of the text and of the pattern. -/
def wildcardLoop (text pattern : List UInt8) (state : StarState) (covers : state.Covers text)
    : Bool :=
  match text, pattern with
  | [], pattern => pattern.all (· = star)
  | byte :: after, expected :: rest =>
      if expected = question ∨ expected = byte then
        wildcardLoop after rest state covers.tail
      else if expected = star then
        wildcardLoop (byte :: after) rest (some (rest, byte :: after)) (StarState.covers_last _ _)
      else
        match state with
        | some (retry, _ :: later) =>
            wildcardLoop later retry (some (retry, later)) (StarState.covers_last _ _)
        | _ => false
  | _ :: _, [] =>
      match state with
      | some (retry, _ :: later) =>
          wildcardLoop later retry (some (retry, later)) (StarState.covers_last _ _)
      | _ => false
termination_by (state.budget text, text.length, pattern.length)
decreasing_by
  · rcases Nat.lt_or_eq_of_le (state.budget_cons byte after) with less | same
    · exact Prod.Lex.left _ _ less
    · rw [same]
      exact Prod.Lex.right _ (Prod.Lex.left _ _ (Nat.lt_succ_self _))
  · rcases Nat.lt_or_eq_of_le covers.length_le_budget with less | same
    · exact Prod.Lex.left _ _ less
    · rw [← same]
      exact Prod.Lex.right _ (Prod.Lex.right _ (Nat.lt_succ_self _))
  · exact Prod.Lex.left _ _ (Nat.lt_succ_self _)
  · exact Prod.Lex.left _ _ (Nat.lt_succ_self _)

def wildcardMatch (text pattern : String) : Bool :=
  wildcardLoop (utf8Bytes text) (utf8Bytes pattern) none (StarState.covers_none _)

-- Patterns

/-- `trim_start_matches("./")`. -/
def trimStartDots : List Char → List Char
  | '.' :: '/' :: rest => trimStartDots rest
  | text => text

def normalizeRelativePattern (pattern : String) : String :=
  replaceChar '\\' '/' (String.ofList (trimStartDots (trim pattern).toList))

def normalizeRelativePath (path : String) : String :=
  trimOf (· = '/') (normalizeRelativePattern path)

/-- What follows the last separator. -/
def baseName (path : String) : String := String.ofList (path.toList.rtakeWhile (· ≠ '/'))

def globMatches (path pattern : String) : Bool :=
  let pattern := normalizeRelativePattern pattern
  if endsWith pattern "/" then
    let directory := trimEndOf (· = '/') pattern
    path = directory || startsWith path (directory ++ "/")
  else if !pattern.toList.contains '/' && wildcardMatch (baseName path) pattern then true
  else wildcardMatch path pattern

def matchesAnyPattern (path : String) (patterns : List String) : Bool :=
  ((patterns.map trim).filter (fun pattern => pattern ≠ "" && !startsWith pattern "#")).any
    (globMatches path)

def isWildcard (character : Char) : Bool := character = '*' || character = '?'

def patternMayMatchDescendant (directory pattern : String) : Bool :=
  let pattern := normalizeRelativePattern pattern
  if pattern = "" || startsWith pattern "#" then false
  else if endsWith pattern "/" then
    let base := trimEndOf (· = '/') pattern
    base = directory || startsWith base (directory ++ "/") || startsWith directory (base ++ "/")
  else if !pattern.toList.contains '/' then true
  else
    let literalPrefix := String.ofList (pattern.toList.takeWhile (fun c => !isWildcard c))
    if literalPrefix = "" then true
    else
      let start := trimEndOf (· = '/') literalPrefix
      if pattern.toList.any isWildcard && startsWith directory start then true
      else
        start = directory || startsWith start (directory ++ "/")
          || startsWith directory (start ++ "/")

def patternsProveDirectoryExcluded (directory : String) (patterns : List String) : Bool :=
  (patterns.map trim).any
    (fun pattern =>
      if pattern = "" || startsWith pattern "#" then false
      else
        let normalized := normalizeRelativePattern pattern
        if endsWith normalized "/" then directory = trimEndOf (· = '/') normalized
        else
          match stripSuffix normalized "/**" with
          | some base => directory = base
          | none => false)

-- Files and directories

def generatedParts : List String := [".astro", ".kwiki", ".scryer"]

def isGeneratedPath (relative : String) : Bool :=
  let parts := splitOn '/' relative
  parts.zipIdx.any
    (fun entry =>
      generatedParts.contains entry.1
        || (startsWith entry.1 "dist-" && entry.2 + 1 < parts.length))

def isGeneratedDirectory (relative : String) : Bool :=
  (splitOn '/' relative).any
    (fun part => generatedParts.contains part || startsWith part "dist-")

structure SourceSelection where
  excludedParts : List String
  includePatterns : List String
  excludePatterns : List String
  ignorePatterns : List String
deriving DecidableEq, Repr

namespace SourceSelection

variable (selection : SourceSelection)

def hasHardExcludedPart (relative : String) : Bool :=
  (splitOn '/' relative).any (fun part => selection.excludedParts.contains part)

def includesFile (relative : String) : Bool :=
  let relative := normalizeRelativePath relative
  if relative = "" || selection.hasHardExcludedPart relative then false
  else
    let explicitlyIncluded := matchesAnyPattern relative selection.includePatterns
    if !selection.includePatterns.isEmpty && !explicitlyIncluded then false
    else if isGeneratedPath relative && !explicitlyIncluded then false
    else
      !matchesAnyPattern relative selection.ignorePatterns
        && !matchesAnyPattern relative selection.excludePatterns

def shouldDescend (relative : String) : Bool :=
  let relative := normalizeRelativePath relative
  if relative = "" || selection.hasHardExcludedPart relative then false
  else if isGeneratedDirectory relative
      && (selection.includePatterns.isEmpty
        || !selection.includePatterns.any (patternMayMatchDescendant relative)) then false
  else if !selection.includePatterns.isEmpty
      && !selection.includePatterns.any (patternMayMatchDescendant relative) then false
  else if patternsProveDirectoryExcluded relative selection.ignorePatterns
      || patternsProveDirectoryExcluded relative selection.excludePatterns then false
  else true

end SourceSelection

-----------------------------------------------------------------------------------------
-- What a wildcard match says
-----------------------------------------------------------------------------------------

theorem utf8Bytes_append (first second : String)
    : utf8Bytes (first ++ second) = utf8Bytes first ++ utf8Bytes second := by
  simp [utf8Bytes]

/-- A character is known from the bytes that begin with it. -/
theorem utf8EncodeChar_append_inj {first second : Char} {rest others : List UInt8}
    (same : String.utf8EncodeChar first ++ rest = String.utf8EncodeChar second ++ others)
    : first = second := by
  have decoded (character : Char) (after : List UInt8)
      : ByteArray.utf8DecodeChar? (String.utf8EncodeChar character ++ after).toByteArray 0
        = some character := by
    rw [List.toByteArray_append]
    exact ByteArray.utf8DecodeChar?_utf8EncodeChar_append
  have found := decoded first rest
  rw [same, decoded second others] at found
  exact (Option.some.inj found).symm

/-- Texts begin with each other as their bytes do. -/
theorem prefix_of_utf8Bytes {start text : List Char}
    (bytes : start.flatMap String.utf8EncodeChar <+: text.flatMap String.utf8EncodeChar)
    : start <+: text := by
  induction start generalizing text with
  | nil => exact List.nil_prefix
  | cons character rest ih =>
      obtain ⟨after, same⟩ := bytes
      cases text with
      | nil =>
          have size := congrArg List.length same
          have positive := character.utf8Size_pos
          simp only [List.flatMap_cons, List.flatMap_nil, List.length_append,
            String.length_utf8EncodeChar, List.length_nil] at size
          omega
      | cons first others =>
          simp only [List.flatMap_cons, List.append_assoc] at same
          obtain rfl := utf8EncodeChar_append_inj same
          exact List.cons_prefix_cons.mpr ⟨rfl, ih ⟨after, List.append_cancel_left same⟩⟩

theorem wildcardLoop_nil (pattern : List UInt8) (state : StarState) (covers : state.Covers [])
    : wildcardLoop [] pattern state covers = pattern.all (· = star) := by
  rw [wildcardLoop.eq_def]

theorem wildcardLoop_same {byte expected : UInt8} (after rest : List UInt8) (state : StarState)
    (covers : state.Covers (byte :: after)) (same : expected = question ∨ expected = byte)
    : wildcardLoop (byte :: after) (expected :: rest) state covers
      = wildcardLoop after rest state covers.tail := by
  rw [wildcardLoop.eq_def]
  simp only [if_pos same]

theorem wildcardLoop_star {byte : UInt8} (after rest : List UInt8) (state : StarState)
    (covers : state.Covers (byte :: after)) (other : byte ≠ star)
    : wildcardLoop (byte :: after) (star :: rest) state covers
      = wildcardLoop (byte :: after) rest (some (rest, byte :: after))
          (StarState.covers_last _ _) := by
  have different : ¬(star = question ∨ star = byte) := by
    rintro (mark | same)
    · exact absurd mark (by decide)
    · exact other same.symm
  rw [wildcardLoop.eq_def]
  simp only [if_neg different, if_true]

theorem wildcardLoop_stuck {byte expected : UInt8} (after rest : List UInt8)
    (different : ¬(expected = question ∨ expected = byte)) (literal : expected ≠ star)
    : wildcardLoop (byte :: after) (expected :: rest) none (StarState.covers_none _) = false := by
  rw [wildcardLoop.eq_def]
  simp only [if_neg different, if_neg literal]

/-- Before the first wildcard of the pattern, the text has to be the pattern. -/
theorem wildcardLoop_literal {literal : List UInt8}
    (plain : ∀ byte ∈ literal, byte ≠ star ∧ byte ≠ question) {text rest : List UInt8}
    (matched : wildcardLoop text (literal ++ rest) none (StarState.covers_none _) = true)
    : ∃ after,
        text = literal ++ after
        ∧ wildcardLoop after rest none (StarState.covers_none _) = true := by
  induction literal generalizing text with
  | nil => exact ⟨text, rfl, matched⟩
  | cons byte others ih =>
      obtain ⟨notStar, notQuestion⟩ := plain byte (List.mem_cons_self ..)
      cases text with
      | nil =>
          rw [wildcardLoop_nil] at matched
          simp [notStar] at matched
      | cons first later =>
          rw [List.cons_append] at matched
          by_cases same : byte = question ∨ byte = first
          · rw [wildcardLoop_same _ _ _ _ same] at matched
            obtain rfl := same.resolve_left notQuestion
            obtain ⟨after, split, ended⟩ :=
              ih (fun other inside => plain other (List.mem_cons_of_mem _ inside)) matched
            exact ⟨after, by rw [split, List.cons_append], ended⟩
          · rw [wildcardLoop_stuck _ _ same notStar] at matched
            cases matched

theorem wildcardLoop_done {text : List UInt8}
    (matched : wildcardLoop text [] none (StarState.covers_none _) = true)
    : text = [] := by
  cases text with
  | nil => rfl
  | cons byte rest =>
      rw [wildcardLoop.eq_def] at matched
      cases matched

/-- What is literally the same is passed over. -/
theorem wildcardLoop_append_same (same text pattern : List UInt8)
    : wildcardLoop (same ++ text) (same ++ pattern) none (StarState.covers_none _)
      = wildcardLoop text pattern none (StarState.covers_none _) := by
  induction same with
  | nil => rfl
  | cons byte rest ih =>
      rw [List.cons_append, List.cons_append, wildcardLoop_same _ _ _ _ (Or.inr rfl)]
      exact ih

/-- A star at the end of the pattern takes whatever there is. -/
theorem wildcardLoop_trailing (text : List UInt8) (covers : StarState.Covers (some ([], text)) text)
    : wildcardLoop text [] (some ([], text)) covers = true := by
  induction text with
  | nil => exact wildcardLoop_nil [] _ covers
  | cons byte rest ih =>
      rw [wildcardLoop.eq_def]
      exact ih _

theorem wildcardLoop_star_trailing {text : List UInt8} (state : StarState)
    (covers : state.Covers text) (other : text.head? ≠ some star)
    : wildcardLoop text [star] state covers = true := by
  cases text with
  | nil => exact wildcardLoop_nil [star] state covers
  | cons byte rest =>
      rw [wildcardLoop_star _ _ _ _ (fun same => other (congrArg some same))]
      exact wildcardLoop_trailing _ _

/-- Two stars take every text that does not begin with two stars itself: the source compares a
star of the pattern with a star of the text before it lets it take anything.
-/
theorem wildcardLoop_stars {text : List UInt8} (plain : ¬[star, star] <+: text)
    : wildcardLoop text [star, star] none (StarState.covers_none _) = true := by
  cases text with
  | nil => exact wildcardLoop_nil [star, star] none _
  | cons byte rest =>
      by_cases same : byte = star
      · subst same
        rw [wildcardLoop_same _ _ _ _ (Or.inr rfl)]
        refine wildcardLoop_star_trailing none _ ?_
        intro head
        obtain ⟨others, rfl⟩ := List.head?_eq_some_iff.mp head
        exact plain ⟨others, rfl⟩
      · rw [wildcardLoop_star _ _ _ _ same]
        exact wildcardLoop_star_trailing _ _ (fun head => same (Option.some.inj head))

end CodebaseGraph.Refresh
