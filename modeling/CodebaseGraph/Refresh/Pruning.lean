import CodebaseGraph.Refresh.Descent

/-! Pruning: which directories of the files that are looked at are descended into
(`src/source_selection.rs`). Names whose ends are trimmed, patterns that are comments only once
they are normalised, and parts that begin with `**` are where a file is hidden.
-/

namespace CodebaseGraph.Refresh

open CodebaseGraph.Wiki

-----------------------------------------------------------------------------------------
-- Paths from their components
-----------------------------------------------------------------------------------------

/-- A component whose text the patterns leave as it is. -/
structure Ordinary (part : String) : Prop where
  inhabited : part ≠ ""
  separate : '/' ∉ part.toList
  forward : '\\' ∉ part.toList
  trimmed : trim part = part

theorem joinWith_ne_nil (separator : Char) {parts : List String} (more : parts ≠ [])
    (inhabited : ∀ part ∈ parts, part ≠ "")
    : (joinWith separator parts).toList ≠ [] := by
  obtain ⟨part, rest, rfl⟩ := List.exists_cons_of_ne_nil more
  have filled : part.toList ≠ [] := by simpa using inhabited part List.mem_cons_self
  by_cases alone : rest = []
  · rw [alone, joinWith_singleton]
    exact filled
  · rw [joinWith_cons alone]
    simp

/-- The first and the last character of a path are those of its components. -/
theorem ends_joinWith {separator : Char} {parts : List String}
    (inhabited : ∀ part ∈ parts, part ≠ "")
    : (∀ first ∈ (joinWith separator parts).toList.head?,
        ∃ part ∈ parts, first ∈ part.toList.head?)
      ∧ ∀ last ∈ (joinWith separator parts).toList.getLast?,
          ∃ part ∈ parts, last ∈ part.toList.getLast? := by
  induction parts with
  | nil => simp [toList_joinWith]
  | cons part parts ih =>
      have inhabited' : ∀ other ∈ parts, other ≠ "" :=
        fun other member => inhabited other (List.mem_cons_of_mem _ member)
      by_cases alone : parts = []
      · subst alone
        rw [joinWith_singleton]
        exact ⟨fun c member => ⟨part, List.mem_cons_self, member⟩,
          fun c member => ⟨part, List.mem_cons_self, member⟩⟩
      · have filled : part.toList ≠ [] := by simpa using inhabited part List.mem_cons_self
        have behind := joinWith_ne_nil separator alone inhabited'
        rw [joinWith_cons alone, String.toList_append, String.toList_append, List.append_assoc]
        constructor
        · intro first member
          rw [List.head?_append_of_ne_nil _ filled] at member
          exact ⟨part, List.mem_cons_self, member⟩
        · intro last member
          rw [List.getLast?_append_of_ne_nil _ (by simp), List.getLast?_append_of_ne_nil _ behind]
            at member
          obtain ⟨other, listed, ending⟩ := (ih inhabited').2 last member
          exact ⟨other, List.mem_cons_of_mem _ listed, ending⟩

theorem mem_joinWith {separator : Char} {parts : List String} {character : Char}
    (inside : character ∈ (joinWith separator parts).toList)
    : character = separator ∨ ∃ part ∈ parts, character ∈ part.toList := by
  induction parts with
  | nil => simp [toList_joinWith] at inside
  | cons part parts ih =>
      by_cases alone : parts = []
      · subst alone
        rw [joinWith_singleton] at inside
        exact Or.inr ⟨part, List.mem_cons_self, inside⟩
      · rw [joinWith_cons alone] at inside
        simp only [String.toList_append, String.toList_singleton, List.mem_append,
          List.mem_singleton] at inside
        rcases inside with (inside | mark) | behind
        · exact Or.inr ⟨part, List.mem_cons_self, inside⟩
        · exact Or.inl mark
        · rcases ih behind with mark | ⟨other, listed, inside⟩
          · exact Or.inl mark
          · exact Or.inr ⟨other, List.mem_cons_of_mem _ listed, inside⟩

theorem trimStartDots_of_dotless {text : List Char} (dotless : ¬['.', '/'] <+: text)
    : trimStartDots text = text := by
  unfold trimStartDots
  split
  · next rest => exact absurd ⟨rest, rfl⟩ dotless
  · rfl

/-- A path of ordinary components that does not begin with a dot of its own is normal. -/
theorem normalizeRelativePath_joinWith {parts : List String} (more : parts ≠ [])
    (ordinary : ∀ part ∈ parts, Ordinary part) (dotless : parts.head? ≠ some ".")
    : normalizeRelativePath (joinWith '/' parts) = joinWith '/' parts := by
  have ends
      : (∀ first ∈ (joinWith '/' parts).toList.head?,
          ∃ part ∈ parts, first ∈ part.toList.head?)
        ∧ ∀ last ∈ (joinWith '/' parts).toList.getLast?,
            ∃ part ∈ parts, last ∈ part.toList.getLast? :=
    ends_joinWith (fun part listed => (ordinary part listed).inhabited)
  obtain ⟨first, last⟩ := ends
  have undotted : ¬['.', '/'] <+: (joinWith '/' parts).toList := by
    rintro ⟨after, begins⟩
    obtain ⟨part, rest, rfl⟩ := List.exists_cons_of_ne_nil more
    have listed : part ∈ part :: rest := List.mem_cons_self
    have opened : part.toList <+: (joinWith '/' (part :: rest)).toList := by
      by_cases alone : rest = []
      · simp [alone, joinWith_singleton]
      · rw [joinWith_cons alone, String.append_assoc, String.toList_append]
        exact List.prefix_append _ _
    rw [← begins] at opened
    cases text : part.toList with
    | nil => exact (ordinary part listed).inhabited (String.toList_injective text)
    | cons character others =>
        rw [text, List.cons_append, List.singleton_append, List.cons_prefix_cons] at opened
        obtain ⟨rfl, opened⟩ := opened
        cases others with
        | nil => exact dotless (congrArg some (String.toList_injective text))
        | cons following others =>
            obtain ⟨rfl, -⟩ := List.cons_prefix_cons.mp opened
            exact (ordinary part listed).separate (by simp [text])
  have trimmed : trim (joinWith '/' parts) = joinWith '/' parts := by
    apply trimOf_of_ends
    · intro c member
      obtain ⟨part, listed, begins⟩ := first c member
      rw [← (ordinary part listed).trimmed] at begins
      exact (ends_trim part).1 c begins
    · intro c member
      obtain ⟨part, listed, ending⟩ := last c member
      rw [← (ordinary part listed).trimmed] at ending
      exact (ends_trim part).2 c ending
  have forward : replaceChar '\\' '/' (joinWith '/' parts) = joinWith '/' parts := by
    apply String.toList_injective
    rw [toList_replaceChar]
    refine (List.map_congr_left ?_).trans (List.map_id _)
    intro c inside
    refine if_neg ?_
    rintro rfl
    rcases mem_joinWith inside with mark | ⟨part, listed, inside⟩
    · cases mark
    · exact (ordinary part listed).forward inside
  rw [normalizeRelativePath, normalizeRelativePattern, trimmed,
    trimStartDots_of_dotless undotted, String.ofList_toList, forward]
  apply trimOf_of_ends
  · intro c member
    obtain ⟨part, listed, begins⟩ := first c member
    refine decide_eq_false ?_
    rintro rfl
    exact (ordinary part listed).separate (List.mem_of_mem_head? begins)
  · intro c member
    obtain ⟨part, listed, ending⟩ := last c member
    refine decide_eq_false ?_
    rintro rfl
    exact (ordinary part listed).separate (List.mem_of_mem_getLast? ending)

/-- Where all components are ordinary, the patterns see a file below its directories. -/
theorem standsBelow_of_ordinary {parts more : List String} (above : parts ≠ []) (below : more ≠ [])
    (ordinary : ∀ part ∈ parts ++ more, Ordinary part) (dotless : parts.head? ≠ some ".")
    : StandsBelow (normalizeRelativePath (joinWith '/' (parts ++ more)))
        (normalizeRelativePath (joinWith '/' parts)) (joinWith '/' more) := by
  have early : ∀ part ∈ parts, Ordinary part :=
    fun part listed => ordinary part (List.mem_append_left _ listed)
  have dotless' : (parts ++ more).head? ≠ some "." := by
    rwa [List.head?_append_of_ne_nil _ above]
  have directory := normalizeRelativePath_joinWith above early dotless
  have file := normalizeRelativePath_joinWith (by simp [above]) ordinary dotless'
  refine ⟨?_, ?_, rdropWhile_normalizeRelativePath _, rdropWhile_normalizeRelativePath _⟩
  · rw [directory, file, joinWith_append above below]
    rfl
  · rw [directory]
    intro empty
    exact joinWith_ne_nil '/' above (fun part listed => (early part listed).inhabited)
      (by rw [empty]; rfl)

-----------------------------------------------------------------------------------------
-- Directories that are pruned
-----------------------------------------------------------------------------------------

/-- A pattern that excludes what stands below a directory, by two stars behind it. -/
def ExcludesBelow (directory pattern : String) : Prop :=
  startsWith (trim pattern) "#" = false
  ∧ normalizeRelativePattern pattern = directory ++ "/**"

theorem normalizeRelativePattern_trim (pattern : String)
    : normalizeRelativePattern (trim pattern) = normalizeRelativePattern pattern := by
  unfold normalizeRelativePattern
  rw [trim_trim]

theorem stripSuffix_append (stem ending : String)
    : stripSuffix (stem ++ ending) ending = some stem := by
  have ends : endsWith (stem ++ ending) ending = true := by
    rw [endsWith, String.toList_append]
    exact List.isSuffixOf_iff_suffix.mpr (List.suffix_append _ _)
  rw [stripSuffix, if_pos ends, String.length_append, Nat.add_sub_cancel, String.toList_append,
    ← String.length_toList, List.take_left, String.ofList_toList]

/-- A file that the patterns do not match stands in a directory that they exclude exactly if one of
them has two stars behind the directory.
-/
theorem StandsBelow.excluded_iff {path directory rest : String}
    (below : StandsBelow path directory rest) {patterns : List String}
    (unmatched : Refresh.matchesAnyPattern path patterns = false)
    : patternsProveDirectoryExcluded directory patterns = true
      ↔ ∃ pattern ∈ patterns, ExcludesBelow directory pattern := by
  constructor
  · intro excluded
    obtain ⟨trimmed, listed, proves⟩ := List.any_eq_true.mp excluded
    obtain ⟨pattern, given, rfl⟩ := List.mem_map.mp listed
    split at proves
    · cases proves
    · next visible =>
      simp only [Bool.or_eq_true, decide_eq_true_eq, not_or, Bool.not_eq_true] at visible
      dsimp only at proves
      split at proves
      · next ends =>
        exfalso
        have matched : globMatches path (trim pattern) = true := by
          unfold globMatches
          dsimp only
          rw [if_pos ends, ← of_decide_eq_true proves]
          refine Bool.or_eq_true_iff.mpr (Or.inr (startsWith_iff.mpr ?_))
          exact ⟨rest.toList, by rw [below.joined]; exact (String.toList_append ..).symm⟩
        have found : Refresh.matchesAnyPattern path patterns = true :=
          List.any_eq_true.mpr ⟨trim pattern,
            List.mem_filter.mpr ⟨listed, by simp [visible.1, visible.2]⟩, matched⟩
        rw [unmatched] at found
        cases found
      · split at proves
        · next base stripped =>
          obtain rfl := of_decide_eq_true proves
          refine ⟨pattern, given, visible.2, ?_⟩
          rw [← normalizeRelativePattern_trim]
          exact append_of_stripSuffix stripped
        · cases proves
  · rintro ⟨pattern, given, visible, stars⟩
    refine List.any_eq_true.mpr ⟨trim pattern, List.mem_map_of_mem given, ?_⟩
    have filled : trim pattern ≠ "" := by
      intro empty
      rw [← normalizeRelativePattern_trim, empty] at stars
      have size := congrArg String.length stars
      rw [String.length_append] at size
      exact absurd size (by
        have none : (normalizeRelativePattern "").length = 0 := by decide
        have three : "/**".length = 3 := by decide
        omega)
    have open_ : ¬endsWith (directory ++ "/**") "/" = true := by
      intro ends
      obtain ⟨before, split⟩ := List.isSuffixOf_iff_suffix.mp ends
      have last := congrArg List.getLast? split
      rw [String.toList_append] at last
      simp at last
    rw [if_neg (by simp [filled, visible]), normalizeRelativePattern_trim, stars]
    dsimp only
    rw [if_neg open_, stripSuffix_append]
    exact decide_eq_true rfl

/-- The patterns of a selection that hide a file by its names: the ones that are comments only once
they are normalised.
-/
def TurnsIntoComment (pattern : String) : Prop :=
  startsWith (trim pattern) "#" = false
  ∧ startsWith (normalizeRelativePattern pattern) "#" = true

theorem patternsProveDirectoryExcluded_append (directory : String) (patterns others : List String)
    : patternsProveDirectoryExcluded directory (patterns ++ others)
      = (patternsProveDirectoryExcluded directory patterns
        || patternsProveDirectoryExcluded directory others) := by
  simp [patternsProveDirectoryExcluded]

theorem matchesAnyPattern_append (path : String) (patterns others : List String)
    : matchesAnyPattern path (patterns ++ others)
      = (matchesAnyPattern path patterns || matchesAnyPattern path others) := by
  simp [matchesAnyPattern]

/-- The directories of a file that is looked at are descended into exactly if an include pattern
admits them and no pattern excludes what stands below them by two stars. Only include patterns that
turn into comments fail to admit, and two stars exclude a file that they do not match only where
its path goes on with two stars. Paths of ordinary components stand below their directories.
-/
theorem pruning_exact (selection : SourceSelection)
    : (∀ file directory rest,
        StandsBelow (normalizeRelativePath file) (normalizeRelativePath directory) rest →
        selection.includesFile file = true →
        (selection.shouldDescend directory = true
          ↔ selection.Admits (normalizeRelativePath directory)
            ∧ ∀ pattern ∈ selection.ignorePatterns ++ selection.excludePatterns,
                ¬ExcludesBelow (normalizeRelativePath directory) pattern))
      ∧ (∀ file directory rest,
          StandsBelow (normalizeRelativePath file) (normalizeRelativePath directory) rest →
          selection.includesFile file = true →
          (∀ pattern ∈ selection.includePatterns,
            globMatches (normalizeRelativePath file) pattern = true →
            ¬TurnsIntoComment pattern) →
          startsWith rest "**" = false →
          selection.shouldDescend directory = true)
      ∧ ∀ parts more : List String,
          parts ≠ [] → more ≠ [] → (∀ part ∈ parts ++ more, Ordinary part) →
          parts.head? ≠ some "." →
          StandsBelow (normalizeRelativePath (joinWith '/' (parts ++ more)))
            (normalizeRelativePath (joinWith '/' parts)) (joinWith '/' more) := by
  refine ⟨?_, ?_, fun parts more => standsBelow_of_ordinary⟩
  · intro file directory rest below included
    obtain ⟨-, -, -, -, ignored, excluded⟩ := SourceSelection.includesFile_iff.mp included
    have unmatched
        : matchesAnyPattern (normalizeRelativePath file)
            (selection.ignorePatterns ++ selection.excludePatterns)
          = false := by
      rw [matchesAnyPattern_append, ignored, excluded]
      rfl
    have stars := below.excluded_iff unmatched
    rw [SourceSelection.shouldDescend_iff below included, ← Bool.or_eq_false_iff,
      ← patternsProveDirectoryExcluded_append, Bool.eq_false_iff, ne_eq, stars]
    simp only [not_exists, not_and]
  · intro file directory rest below included visible plain
    obtain ⟨-, -, explicit, -, ignored, excluded⟩ := SourceSelection.includesFile_iff.mp included
    have proves (patterns : List String)
        (unmatched : matchesAnyPattern (normalizeRelativePath file) patterns = false)
        : patternsProveDirectoryExcluded (normalizeRelativePath directory) patterns = false := by
      rw [Bool.eq_false_iff]
      intro proved
      rw [below.matchesAnyPattern plain proved] at unmatched
      cases unmatched
    have admits : selection.Admits (normalizeRelativePath directory) := by
      refine SourceSelection.admits_of_matches below ?_ explicit
      intro pattern given matched commented
      by_contra uncommented
      exact visible pattern given matched ⟨by simpa using uncommented, commented⟩
    exact (SourceSelection.shouldDescend_iff below included).mpr
      ⟨admits, proves _ ignored, proves _ excluded⟩

/-- The pattern `./#notes/` looks at the file `#notes/a.md`, but not into its directory. -/
theorem pruning_hides_commented
    : ¬∀ (selection : SourceSelection) (parts more : List String),
        parts ≠ [] → more ≠ [] → (∀ part ∈ parts ++ more, part ≠ "" ∧ '/' ∉ part.toList) →
        selection.includesFile (joinWith '/' (parts ++ more)) = true →
        selection.shouldDescend (joinWith '/' parts) = true := by
  intro descends
  have hidden := descends ⟨[], ["./#notes/"], [], []⟩ ["#notes"] ["a.md"] (by decide) (by decide)
    (by decide) (by decide)
  exact absurd hidden (by decide)

end CodebaseGraph.Refresh
