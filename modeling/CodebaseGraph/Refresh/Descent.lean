import CodebaseGraph.Refresh.SourceSelection

/-! The patterns that select files and the ones that prune directories agree: the directories of a
file that is looked at are descended into.
-/

namespace CodebaseGraph.Refresh

open CodebaseGraph.Wiki

-- Paths that stand below each other

/-- Two ways of cutting a path at a separator. -/
theorem separators_compare {first second rest others : List Char}
    (same : first ++ '/' :: rest = second ++ '/' :: others)
    : first = second ∨ second ++ ['/'] <+: first ∨ first ++ ['/'] <+: second := by
  rcases List.append_eq_append_iff.mp same with ⟨between, longer, cut⟩ | ⟨between, longer, cut⟩
  · cases between with
    | nil => exact Or.inl (by simpa using longer.symm)
    | cons character between =>
        obtain rfl : '/' = character := (List.cons.inj cut).1
        exact Or.inr (Or.inr ⟨between, by simp [longer]⟩)
  · cases between with
    | nil => exact Or.inl (by simpa using longer)
    | cons character between =>
        obtain rfl : '/' = character := (List.cons.inj cut).1
        exact Or.inr (Or.inl ⟨between, by simp [longer]⟩)

/-- Without the separators at its end, a text that goes on behind a directory is the directory or
still goes on behind it.
-/
theorem rdropWhile_below {directory : List Char} (rest : List Char)
    (plain : directory.rdropWhile (· = '/') = directory)
    : (directory ++ '/' :: rest).rdropWhile (· = '/') = directory
      ∨ directory ++ ['/'] <+: (directory ++ '/' :: rest).rdropWhile (· = '/') := by
  induction rest using List.reverseRecOn with
  | nil =>
      rw [List.rdropWhile_concat_pos _ _ _ (by simp)]
      exact Or.inl plain
  | append_singleton rest character ih =>
      have grouped
          : directory ++ '/' :: (rest ++ [character])
            = (directory ++ '/' :: rest) ++ [character] := by
        simp
      rw [grouped]
      by_cases slash : character = '/'
      · rw [List.rdropWhile_concat_pos _ _ _ (by simpa using slash)]
        exact ih
      · rw [List.rdropWhile_concat_neg _ _ _ (by simpa using slash)]
        exact Or.inr ⟨rest ++ [character], by simp⟩

/-- A path that stands below a directory, both of them normalised. -/
structure StandsBelow (path directory rest : String) : Prop where
  joined : path = directory ++ "/" ++ rest
  inhabited : directory ≠ ""
  plain : directory.toList.rdropWhile (· = '/') = directory.toList
  trimmed : path.toList.rdropWhile (· = '/') = path.toList

namespace StandsBelow

variable {path directory rest : String}

theorem toList (below : StandsBelow path directory rest)
    : path.toList = directory.toList ++ '/' :: rest.toList := by
  rw [below.joined]
  simp

theorem ne_empty (below : StandsBelow path directory rest) : path ≠ "" := by
  intro empty
  have none := below.toList
  simp [empty] at none

/-- The path has a last part. -/
theorem baseName_ne (below : StandsBelow path directory rest) : baseName path ≠ "" := by
  intro empty
  have none : path.toList.rtakeWhile (· ≠ '/') = [] := by
    have characters := congrArg String.toList empty
    simpa [baseName] using characters
  rw [List.rtakeWhile_eq_nil_iff] at none
  have inhabited : path.toList ≠ [] := by simp [below.toList]
  have last := List.rdropWhile_eq_self_iff.mp below.trimmed inhabited
  have slash := none inhabited
  exact last (by simpa using slash)

/-- What stands before the separator of another way of cutting the path. -/
theorem compare (below : StandsBelow path directory rest) {base : String}
    (start : startsWith path (base ++ "/") = true)
    : base = directory ∨ startsWith base (directory ++ "/") = true
      ∨ startsWith directory (base ++ "/") = true := by
  obtain ⟨after, cut⟩ := startsWith_iff.mp start
  rw [below.toList, String.toList_append, List.append_assoc] at cut
  rcases separators_compare cut with same | longer | longer
  · exact Or.inl (String.toList_injective same)
  · exact Or.inr (Or.inl (startsWith_iff.mpr (by rwa [String.toList_append])))
  · exact Or.inr (Or.inr (startsWith_iff.mpr (by rwa [String.toList_append])))

/-- A literal beginning of the path, without the separators at its end. -/
theorem compare_literal (below : StandsBelow path directory rest) {literal : List Char}
    (start : literal <+: path.toList)
    : literal <+: directory.toList
      ∨ literal.rdropWhile (· = '/') = directory.toList
      ∨ directory.toList ++ ['/'] <+: literal.rdropWhile (· = '/') := by
  rw [below.toList] at start
  rcases List.prefix_or_prefix_of_prefix start (List.prefix_append _ _) with short | long
  · exact Or.inl short
  · obtain ⟨more, rfl⟩ := long
    cases more with
    | nil => exact Or.inr (Or.inl (by simpa using below.plain))
    | cons character more =>
        obtain ⟨after, cut⟩ := start
        rw [List.append_assoc] at cut
        obtain rfl : character = '/' := (List.cons.inj (List.append_cancel_left cut)).1
        exact Or.inr (rdropWhile_below more below.plain)

end StandsBelow

-----------------------------------------------------------------------------------------
-- Patterns for a path and for its directories
-----------------------------------------------------------------------------------------

theorem eq_empty_of_wildcardMatch {text : String} (matched : wildcardMatch text "" = true)
    : text = "" := by
  have none : utf8Bytes text = [] := wildcardLoop_done matched
  have empty : text.toList <+: [] := by
    apply prefix_of_utf8Bytes
    rw [show text.toList.flatMap String.utf8EncodeChar = [] from none]
    exact List.nil_prefix
  exact String.toList_injective (List.prefix_nil.mp empty)

theorem utf8EncodeChar_bytes {character : Char} {byte : UInt8}
    (inside : byte ∈ String.utf8EncodeChar character)
    : byte.toNat = character.toNat ∨ 128 ≤ byte.toNat := by
  have small {value : Nat} (bound : value < 256) : (UInt8.ofNat value).toNat = value :=
    UInt8.toNat_ofNat_of_lt bound
  unfold String.utf8EncodeChar at inside
  dsimp only at inside
  split at inside
  · next ascii =>
      rw [List.mem_singleton.mp inside, small (by omega)]
      exact Or.inl rfl
  · right
    split at inside
    · simp only [List.mem_cons, List.not_mem_nil, or_false] at inside
      rcases inside with rfl | rfl <;> rw [small (by omega)] <;> omega
    · split at inside
      · simp only [List.mem_cons, List.not_mem_nil, or_false] at inside
        rcases inside with rfl | rfl | rfl <;> rw [small (by omega)] <;> omega
      · simp only [List.mem_cons, List.not_mem_nil, or_false] at inside
        rcases inside with rfl | rfl | rfl | rfl <;> rw [small (by omega)] <;> omega

/-- Only the wildcards themselves have their bytes. -/
theorem utf8EncodeChar_plain {character : Char} (plain : isWildcard character = false)
    : ∀ byte ∈ String.utf8EncodeChar character, byte ≠ star ∧ byte ≠ question := by
  have known {code : Nat} (wild : isWildcard (Char.ofNat code) = true)
      : character.toNat ≠ code := by
    rintro rfl
    rw [Char.ofNat_toNat, plain] at wild
    cases wild
  intro byte inside
  rcases utf8EncodeChar_bytes inside with same | large
  · constructor
    · rintro rfl
      exact known (by decide : isWildcard (Char.ofNat 42) = true) same.symm
    · rintro rfl
      exact known (by decide : isWildcard (Char.ofNat 63) = true) same.symm
  · constructor
    · rintro rfl
      exact absurd large (by decide)
    · rintro rfl
      exact absurd large (by decide)

/-- The text begins with what stands before the first wildcard, and is it if there is none. -/
theorem literal_of_wildcardMatch {text pattern : String}
    (matched : wildcardMatch text pattern = true)
    : pattern.toList.takeWhile (fun c => !isWildcard c) <+: text.toList
      ∧ (pattern.toList.any isWildcard = false → text = pattern) := by
  have plain
      : ∀ byte
            ∈ (pattern.toList.takeWhile (fun c => !isWildcard c)).flatMap String.utf8EncodeChar,
          byte ≠ star ∧ byte ≠ question := by
    intro byte inside
    obtain ⟨character, taken, inside⟩ := List.mem_flatMap.mp inside
    exact utf8EncodeChar_plain (by simpa using List.mem_takeWhile_imp taken) byte inside
  have split
      : utf8Bytes pattern
        = (pattern.toList.takeWhile (fun c => !isWildcard c)).flatMap String.utf8EncodeChar
          ++ (pattern.toList.dropWhile (fun c => !isWildcard c)).flatMap String.utf8EncodeChar := by
    rw [← List.flatMap_append, List.takeWhile_append_dropWhile]
    rfl
  unfold wildcardMatch at matched
  simp only [split] at matched
  obtain ⟨after, same, ended⟩ := wildcardLoop_literal plain matched
  refine ⟨prefix_of_utf8Bytes ⟨after, same.symm⟩, ?_⟩
  intro literal
  have none : ∀ c ∈ pattern.toList, (!isWildcard c) = true := by
    intro character inside
    simpa using List.any_eq_false.mp literal character inside
  rw [List.dropWhile_eq_nil_iff.mpr none] at ended
  have nothing : after = [] := wildcardLoop_done ended
  rw [nothing, List.append_nil, List.takeWhile_eq_self_iff.mpr none] at same
  have forward : text.toList <+: pattern.toList :=
    prefix_of_utf8Bytes ⟨[], by rw [List.append_nil]; exact same⟩
  have backward : pattern.toList <+: text.toList :=
    prefix_of_utf8Bytes ⟨[], by rw [List.append_nil]; exact same.symm⟩
  exact String.toList_injective (forward.eq_of_length_le backward.length_le)

/-- A pattern for a path may match below its directories. -/
theorem StandsBelow.patternMayMatchDescendant {path directory rest : String}
    (below : StandsBelow path directory rest) {pattern : String}
    (visible : startsWith (normalizeRelativePattern pattern) "#" = false)
    (matched : globMatches path pattern = true)
    : Refresh.patternMayMatchDescendant directory pattern = true := by
  unfold globMatches at matched
  unfold Refresh.patternMayMatchDescendant
  dsimp only at matched ⊢
  generalize normalizeRelativePattern pattern = normalized at visible matched
  have inhabited : normalized ≠ "" := by
    rintro rfl
    have neither : ¬endsWith "" "/" = true := by decide
    rw [if_neg neither] at matched
    split at matched
    · next both => exact below.baseName_ne (eq_empty_of_wildcardMatch (by simpa using both))
    · exact below.ne_empty (eq_empty_of_wildcardMatch matched)
  rw [if_neg (by simp [inhabited, visible])]
  split at matched
  · next ends =>
      rw [if_pos ends]
      simp only [Bool.or_eq_true, decide_eq_true_eq] at matched ⊢
      rcases matched with same | start
      · refine Or.inl (Or.inr (startsWith_iff.mpr ?_))
        rw [← same, below.toList, String.toList_append]
        exact ⟨rest.toList, by simp⟩
      · rcases below.compare start with same | longer | longer
        · exact Or.inl (Or.inl same)
        · exact Or.inl (Or.inr longer)
        · exact Or.inr longer
  · next open_ =>
      rw [if_neg open_]
      split
      · rfl
      · next separated =>
          have wild
              : ¬(!normalized.toList.contains '/' && wildcardMatch (baseName path) normalized)
                = true := by
            simp only [Bool.and_eq_true, not_and]
            exact fun plain => absurd plain separated
          rw [if_neg wild] at matched
          obtain ⟨start, whole⟩ := literal_of_wildcardMatch matched
          split
          · rfl
          · split
            · rfl
            · next unsure =>
                simp only [Bool.or_eq_true, decide_eq_true_eq, startsWith_iff, String.toList_append]
                rcases below.compare_literal start with short | same | longer
                · exfalso
                  cases wild : normalized.toList.any isWildcard with
                  | true =>
                      refine unsure (Bool.and_eq_true_iff.mpr ⟨wild, startsWith_iff.mpr ?_⟩)
                      rw [toList_trimEndOf, String.toList_ofList]
                      exact (List.rdropWhile_prefix _ _).trans short
                  | false =>
                      have all : ∀ c ∈ normalized.toList, (!isWildcard c) = true := by
                        intro character inside
                        simpa using List.any_eq_false.mp wild character inside
                      rw [List.takeWhile_eq_self_iff.mpr all, ← whole wild, below.toList] at short
                      have size := short.length_le
                      simp at size
                · refine Or.inl (Or.inl (String.toList_injective ?_))
                  rw [toList_trimEndOf, String.toList_ofList, same]
                · exact Or.inl (Or.inr (by simpa [toList_trimEndOf] using longer))

/-- A directory that the patterns exclude excludes what stands below it. -/
theorem StandsBelow.matchesAnyPattern {path directory rest : String}
    (below : StandsBelow path directory rest) (plain : startsWith rest "**" = false)
    {patterns : List String} (excluded : patternsProveDirectoryExcluded directory patterns = true)
    : Refresh.matchesAnyPattern path patterns = true := by
  obtain ⟨pattern, listed, proves⟩ := List.any_eq_true.mp excluded
  split at proves
  · cases proves
  · next visible =>
      refine List.any_eq_true.mpr ⟨pattern, List.mem_filter.mpr ⟨listed, ?_⟩, ?_⟩
      · simpa using visible
      · unfold globMatches
        dsimp only at proves ⊢
        split at proves
        · next ends =>
            rw [if_pos ends, ← of_decide_eq_true proves]
            refine Bool.or_eq_true_iff.mpr (Or.inr (startsWith_iff.mpr ?_))
            exact ⟨rest.toList, by rw [below.joined]; exact (String.toList_append ..).symm⟩
        · next ends =>
            rw [if_neg ends]
            split at proves
            · next base stripped =>
                obtain rfl := of_decide_eq_true proves
                have whole := append_of_stripSuffix stripped
                have separated : (normalizeRelativePattern pattern).toList.contains '/' = true := by
                  simp [whole]
                rw [if_neg (by simp only [separated]; simp)]
                have texts : utf8Bytes path = utf8Bytes (directory ++ "/") ++ utf8Bytes rest := by
                  rw [below.joined, utf8Bytes_append]
                have patterns
                    : utf8Bytes (normalizeRelativePattern pattern)
                      = utf8Bytes (directory ++ "/") ++ [star, star] := by
                  rw [whole, utf8Bytes_append, utf8Bytes_append, List.append_assoc]
                  rfl
                unfold wildcardMatch
                simp only [texts, patterns, wildcardLoop_append_same]
                refine wildcardLoop_stars ?_
                intro stars
                have begins : "**".toList <+: rest.toList := prefix_of_utf8Bytes stars
                rw [startsWith_iff.mpr begins] at plain
                cases plain
            · cases proves

namespace StandsBelow

variable {path directory rest : String}

theorem splitOn (below : StandsBelow path directory rest)
    : Wiki.splitOn '/' path = Wiki.splitOn '/' directory ++ Wiki.splitOn '/' rest := by
  unfold Wiki.splitOn
  rw [below.toList, List.splitOn_append_cons_self, List.map_append]

theorem hasHardExcludedPart (below : StandsBelow path directory rest)
    {selection : SourceSelection} (excluded : selection.hasHardExcludedPart directory = true)
    : selection.hasHardExcludedPart path = true := by
  unfold SourceSelection.hasHardExcludedPart at excluded ⊢
  rw [below.splitOn, List.any_append, excluded, Bool.true_or]

theorem isGeneratedPath (below : StandsBelow path directory rest)
    (generated : isGeneratedDirectory directory = true)
    : Refresh.isGeneratedPath path = true := by
  obtain ⟨part, inside, marked⟩ := List.any_eq_true.mp generated
  obtain ⟨index, found⟩ := List.mem_iff_getElem?.mp inside
  have bound : index < (Wiki.splitOn '/' directory).length := (List.getElem?_eq_some_iff.mp found).1
  have more : 0 < (Wiki.splitOn '/' rest).length := by
    rw [Wiki.splitOn, List.length_map]
    exact List.length_pos_of_ne_nil (List.splitOn_ne_nil _ _)
  refine List.any_eq_true.mpr ⟨(part, index), ?_, ?_⟩
  · rw [List.mk_mem_zipIdx_iff_getElem?, below.splitOn, List.getElem?_append_left bound]
    exact found
  · have inner : index + 1 < (Wiki.splitOn '/' path).length := by
      rw [below.splitOn, List.length_append]
      omega
    simpa [inner] using marked

end StandsBelow

-----------------------------------------------------------------------------------------
-- Directories of the files that are looked at
-----------------------------------------------------------------------------------------

theorem rdropWhile_normalizeRelativePath (path : String)
    : (normalizeRelativePath path).toList.rdropWhile (· = '/')
      = (normalizeRelativePath path).toList := by
  simp [normalizeRelativePath, trimOf, trimEndOf, List.rdropWhile_idempotent]

theorem globMatches_trim (path pattern : String)
    : globMatches path (trim pattern) = globMatches path pattern := by
  have same : normalizeRelativePattern (trim pattern) = normalizeRelativePattern pattern := by
    unfold normalizeRelativePattern
    rw [trim_trim]
  simp only [globMatches, same]

/-- What is said of a file that is looked at. -/
theorem SourceSelection.includesFile_iff {selection : SourceSelection} {file : String}
    : selection.includesFile file = true
      ↔ normalizeRelativePath file ≠ ""
        ∧ selection.hasHardExcludedPart (normalizeRelativePath file) = false
        ∧ (selection.includePatterns ≠ [] →
            matchesAnyPattern (normalizeRelativePath file) selection.includePatterns = true)
        ∧ (isGeneratedPath (normalizeRelativePath file) = true →
            matchesAnyPattern (normalizeRelativePath file) selection.includePatterns = true)
        ∧ matchesAnyPattern (normalizeRelativePath file) selection.ignorePatterns = false
        ∧ matchesAnyPattern (normalizeRelativePath file) selection.excludePatterns = false := by
  unfold includesFile
  dsimp only
  cases explicit
      : matchesAnyPattern (normalizeRelativePath file) selection.includePatterns <;>
    simp [and_assoc]

/-- An include pattern, if there are any, may match below the directory. -/
def SourceSelection.Admits (selection : SourceSelection) (directory : String) : Prop :=
  selection.includePatterns = []
  ∨ ∃ pattern ∈ selection.includePatterns, patternMayMatchDescendant directory pattern = true

/-- The directory of a file that is looked at is descended into exactly if the include patterns
admit it and no other pattern excludes it.
-/
theorem SourceSelection.shouldDescend_iff {selection : SourceSelection}
    {directory file rest : String}
    (below : StandsBelow (normalizeRelativePath file) (normalizeRelativePath directory) rest)
    (included : selection.includesFile file = true)
    : selection.shouldDescend directory = true
      ↔ selection.Admits (normalizeRelativePath directory)
        ∧ patternsProveDirectoryExcluded (normalizeRelativePath directory) selection.ignorePatterns
          = false
        ∧ patternsProveDirectoryExcluded (normalizeRelativePath directory)
            selection.excludePatterns
          = false := by
  obtain ⟨-, reachable, -, generated, -, -⟩ := includesFile_iff.mp included
  have reachable'
      : selection.hasHardExcludedPart (normalizeRelativePath directory) = false := by
    rw [Bool.eq_false_iff]
    intro excluded
    rw [below.hasHardExcludedPart excluded] at reachable
    cases reachable
  have asked : isGeneratedDirectory (normalizeRelativePath directory) = true →
      selection.includePatterns ≠ [] := by
    intro produced none
    have explicit := generated (below.isGeneratedPath produced)
    rw [none] at explicit
    cases explicit
  have admits
      : selection.Admits (normalizeRelativePath directory)
        ↔ selection.includePatterns.isEmpty = true
          ∨ selection.includePatterns.any
              (patternMayMatchDescendant (normalizeRelativePath directory))
            = true := by
    rw [Admits, List.isEmpty_iff, List.any_eq_true]
  rw [admits]
  unfold shouldDescend
  dsimp only
  rw [if_neg (by simp [below.inhabited, reachable'])]
  cases none : selection.includePatterns.isEmpty <;>
    cases any
        : selection.includePatterns.any
            (patternMayMatchDescendant (normalizeRelativePath directory)) <;>
    cases produced : isGeneratedDirectory (normalizeRelativePath directory) <;>
    simp_all

/-- A visible pattern that matches a file admits the directories of the file. -/
theorem SourceSelection.admits_of_matches {selection : SourceSelection}
    {path directory rest : String} (below : StandsBelow path directory rest)
    (visible
      : ∀ pattern ∈ selection.includePatterns,
          globMatches path pattern = true →
          startsWith (normalizeRelativePattern pattern) "#" = true →
          startsWith (trim pattern) "#" = true)
    (matched : selection.includePatterns ≠ [] →
      matchesAnyPattern path selection.includePatterns = true)
    : selection.Admits directory := by
  by_cases none : selection.includePatterns = []
  · exact Or.inl none
  · obtain ⟨trimmed, listed, matches_⟩ := List.any_eq_true.mp (matched none)
    obtain ⟨mapped, uncommented⟩ := List.mem_filter.mp listed
    obtain ⟨pattern, given, rfl⟩ := List.mem_map.mp mapped
    rw [globMatches_trim] at matches_
    refine Or.inr ⟨pattern, given, below.patternMayMatchDescendant ?_ matches_⟩
    cases commented : startsWith (normalizeRelativePattern pattern) "#" with
    | false => rfl
    | true => simp [visible pattern given matches_ commented] at uncommented

/-- The directories of a file that is looked at are descended into, as long as the texts stand below
each other once they are normalised, no pattern turns into a comment by that, and the rest of the
path does not begin with two stars.
-/
theorem SourceSelection.shouldDescend_of_includesFile {selection : SourceSelection}
    {directory file rest : String}
    (joined : normalizeRelativePath file = normalizeRelativePath directory ++ "/" ++ rest)
    (inhabited : normalizeRelativePath directory ≠ "")
    (visible
      : ∀ pattern ∈ selection.includePatterns,
          startsWith (normalizeRelativePattern pattern) "#" = true
          → startsWith (trim pattern) "#" = true)
    (plain : startsWith rest "**" = false)
    (included : selection.includesFile file = true)
    : selection.shouldDescend directory = true := by
  have below
      : StandsBelow (normalizeRelativePath file) (normalizeRelativePath directory) rest :=
    ⟨joined, inhabited, rdropWhile_normalizeRelativePath _, rdropWhile_normalizeRelativePath _⟩
  obtain ⟨-, -, explicit, -, ignored, excluded⟩ := includesFile_iff.mp included
  have proves (patterns : List String)
      (unmatched : matchesAnyPattern (normalizeRelativePath file) patterns = false)
      : patternsProveDirectoryExcluded (normalizeRelativePath directory) patterns = false := by
    rw [Bool.eq_false_iff]
    intro proved
    rw [below.matchesAnyPattern plain proved] at unmatched
    cases unmatched
  exact (shouldDescend_iff below included).mpr
    ⟨admits_of_matches below (fun pattern given _ => visible pattern given) explicit,
      proves _ ignored, proves _ excluded⟩

end CodebaseGraph.Refresh
