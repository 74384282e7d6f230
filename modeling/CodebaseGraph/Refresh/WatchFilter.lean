import CodebaseGraph.Protocol.Profiles
import CodebaseGraph.Refresh.BatchInvariant
import CodebaseGraph.Refresh.Descent

/-! The filter of the watch events as it is configured (`src/api/refresh.rs`), and when it notices
that a directory is gone. Paths are those of Unix.
-/

namespace CodebaseGraph.Refresh

open CodebaseGraph.Wiki CodebaseGraph.Protocol
open CodebaseGraph.Syntax (TextFunctions asciiText)

-- Paths

def isAbsolutePath (path : String) : Bool := startsWith path "/"

/-- A part between separators that is no component. -/
def isBlankPart (part : String) : Bool := part = "" || part = "."

def beginsWithDot (path : String) : Bool := (splitOn '/' path).head? = some "."

/-- `Path::components`: the root and a leading dot are components. -/
def pathComponents (path : String) : List String :=
  let front :=
    if isAbsolutePath path then ["/"] else if beginsWithDot path then ["."] else []
  front ++ (splitOn '/' path).filter (fun part => !isBlankPart part)

/-- `Path::starts_with`. -/
def pathStartsWith (path base : String) : Bool :=
  (pathComponents base).isPrefixOf (pathComponents path)

def dropComponents : Nat → List String → List String
  | 0, parts => parts
  | _ + 1, [] => []
  | count + 1, part :: rest =>
      if isBlankPart part then dropComponents (count + 1) rest else dropComponents count rest

/-- The text of a path behind some of its components. -/
def remainingPath (path : String) (taken : Nat) : String :=
  let parts := splitOn '/' path
  match taken with
  | 0 =>
      if isAbsolutePath path then "/" ++ joinWith '/' (parts.tail.rdropWhile isBlankPart)
      else if beginsWithDot path then joinWith '/' ("." :: parts.tail.rdropWhile isBlankPart)
      else joinWith '/' (parts.rdropWhile isBlankPart)
  | count + 1 =>
      let behind :=
        if isAbsolutePath path || beginsWithDot path then dropComponents count parts.tail
        else dropComponents (count + 1) parts
      joinWith '/' ((behind.dropWhile isBlankPart).rdropWhile isBlankPart)

/-- `Path::strip_prefix`. -/
def stripPathPrefix (path base : String) : Option String :=
  if pathStartsWith path base then some (remainingPath path (pathComponents base).length)
  else none

/-- `Path::join`. -/
def joinPath (base path : String) : String :=
  if isAbsolutePath path then path
  else if base = "" || endsWith base "/" then base ++ path
  else base ++ "/" ++ path

-- The filter

/-- The fields of the filter that its decisions on paths read. -/
structure WatchSettings where
  sourceRoot : String
  currentDir : String
  configPath : String
  excludedParts : List String
  includePatterns : List String
  excludePatterns : List String
  ignorePatterns : List String
  profiles : ProfileSet
  protectedRoots : List String

namespace WatchSettings

variable (settings : WatchSettings)

def sourceSelection : SourceSelection :=
  {
    excludedParts := settings.excludedParts,
    includePatterns := settings.includePatterns,
    excludePatterns := settings.excludePatterns,
    ignorePatterns := settings.ignorePatterns
  }

def absoluteEventPath (path : String) : String :=
  if isAbsolutePath path then path else joinPath settings.currentDir path

def relativeEventPath (path : String) : Option String :=
  match stripPathPrefix path settings.sourceRoot with
  | some relative => some relative
  | none =>
      if isAbsolutePath path then none
      else
        match stripPathPrefix (joinPath settings.currentDir path) settings.sourceRoot with
        | some relative => some relative
        | none => some path

def isConfigurationPath (path : String) : Bool :=
  let absolute := pathComponents (settings.absoluteEventPath path)
  absolute = pathComponents settings.configPath
    || absolute = pathComponents (joinPath settings.sourceRoot ".codebaseGraphignore")

def isProtectedPath (path : String) : Bool :=
  settings.protectedRoots.any (pathStartsWith (settings.absoluteEventPath path))

/-- What `directory_change_path` asks before it looks at the path itself. -/
def descends (path : String) : Bool :=
  if settings.isConfigurationPath path || settings.isProtectedPath path then false
  else
    match settings.relativeEventPath path with
    | none => false
    | some relative =>
        !(relative = "" || !settings.sourceSelection.shouldDescend relative)

def relevantPath (text : TextFunctions) (path : String) : Option String :=
  if settings.isConfigurationPath path then
    (settings.relativeEventPath path).map (replaceChar '\\' '/')
  else if settings.isProtectedPath path then none
  else
    match settings.relativeEventPath path with
    | none => none
    | some relative =>
        if relative = "" then none
        else
          let relative := replaceChar '\\' '/' relative
          if !settings.sourceSelection.includesFile relative
              || (settings.profiles.languageForPath text relative).isNone then none
          else some relative

def isUnderProbe (path : String) : Bool :=
  let directory := joinPath (joinPath settings.sourceRoot ".codebaseGraph") "watch-probe"
  pathStartsWith path directory
    || (!isAbsolutePath path
      && (pathStartsWith (joinPath settings.currentDir path) directory
        || pathStartsWith (joinPath settings.sourceRoot path) directory))

def filter (text : TextFunctions) : WatchEventFilter where
  relevantPath := settings.relevantPath text
  isConfigurationPath := settings.isConfigurationPath
  descends := settings.descends
  hasExtension path := (pathExtension path).isSome
  underProbe := settings.isUnderProbe

end WatchSettings

-----------------------------------------------------------------------------------------
-- Directories that are gone
-----------------------------------------------------------------------------------------

/-- One path is strictly below another one. -/
def StrictlyBelow (path base : String) : Prop :=
  ∃ more, more ≠ [] ∧ pathComponents path = pathComponents base ++ more

/-- The texts of a directory and of a file in it are read as such by the patterns: trimming them and
the comments among the patterns make no difference.
-/
structure WatchSettings.ReadsBelow (settings : WatchSettings) (file directory : String)
    : Prop where
  unprotected : settings.isProtectedPath directory = false
  source : settings.isConfigurationPath file = false
  texts
    : ∃ relative inner rest,
        settings.relativeEventPath directory = some relative
        ∧ settings.relativeEventPath file = some inner
        ∧ normalizeRelativePath relative ≠ ""
        ∧ normalizeRelativePath (replaceChar '\\' '/' inner)
          = normalizeRelativePath relative ++ "/" ++ rest
        ∧ startsWith rest "**" = false
  visible
    : ∀ pattern ∈ settings.includePatterns,
        startsWith (normalizeRelativePattern pattern) "#" = true
        → startsWith (trim pattern) "#" = true

variable {settings : WatchSettings} {text : TextFunctions}

/-- No pattern hides the directory of a relevant file. -/
theorem WatchSettings.ReadsBelow.descends {file directory : String}
    (reads : settings.ReadsBelow file directory)
    (relevant : (settings.relevantPath text file).isSome = true)
    (other : settings.isConfigurationPath directory = false)
    : settings.descends directory = true := by
  obtain ⟨relative, inner, rest, found, found', inhabited, joined, plain⟩ := reads.texts
  have included
      : settings.sourceSelection.includesFile (replaceChar '\\' '/' inner) = true := by
    unfold WatchSettings.relevantPath at relevant
    rw [reads.source, found'] at relevant
    simp only [Bool.false_eq_true, if_false] at relevant
    split at relevant
    · cases relevant
    · split at relevant
      · cases relevant
      · split at relevant
        · cases relevant
        · next kept =>
            cases includes
                : settings.sourceSelection.includesFile (replaceChar '\\' '/' inner) with
            | true => rfl
            | false => simp [includes] at kept
  have reached : settings.sourceSelection.shouldDescend relative = true :=
    SourceSelection.shouldDescend_of_includesFile joined inhabited reads.visible plain included
  have named : relative ≠ "" := by
    rintro rfl
    exact inhabited (by decide)
  unfold WatchSettings.descends
  rw [other, reads.unprotected, found]
  simp [named, reached]

theorem directoryRescanPathCount_pos {filter : WatchEventFilter} {directories : List String}
    {event : Event} (kind : event.kind = .remove ∨ event.kind = .modify true)
    : 0 < filter.directoryRescanPathCount directories event
      ↔ ∃ path ∈ event.paths, filter.directoryChangePath directories path = true := by
  have counted
      : filter.directoryRescanPathCount directories event
        = (event.paths.filter (filter.directoryChangePath directories)).length := by
    unfold WatchEventFilter.directoryRescanPathCount
    rcases kind with removed | renamed
    · rw [removed]
    · rw [renamed]
  rw [counted, List.length_filter_pos_iff]

/-- A removed or renamed directory with a relevant file in it is noticed exactly if the batch or
the event already asks for a full rescan, the configuration is among the paths, the paths do not fit
into the batch, or one of the paths is taken for a directory. That is so for every directory whose
text the patterns read as such, as long as it is still there or its name has no extension.
-/
theorem directoryRemoval_noticed (settings : WatchSettings) (text : TextFunctions)
    (directories : List String) {event : Event}
    (kind : event.kind = .remove ∨ event.kind = .modify true) {directory file : String}
    (listed : directory ∈ event.paths)
    (_inside : StrictlyBelow (settings.absoluteEventPath directory) settings.sourceRoot)
    (_below : StrictlyBelow file directory)
    (relevant : (settings.relevantPath text file).isSome = true)
    {passed : List String} {batch : WatchChangeBatch} (built : BuiltFrom {} passed batch)
    : ((applyEvent (settings.filter text) directories event batch).fullRescan = true
        ↔ batch.fullRescan = true
          ∨ event.needRescan = true
          ∨ (∃ path ∈ event.paths,
              settings.descends path = true
              ∧ (path ∈ directories ∨ pathExtension path = none))
          ∨ (∃ path ∈ event.paths, settings.isConfigurationPath path = true)
          ∨ ¬Fits (passed ++ (settings.filter text).relevantPaths event).toFinset)
      ∧ (settings.ReadsBelow file directory
        → (directory ∈ directories ∨ pathExtension directory = none)
        → (applyEvent (settings.filter text) directories event batch).fullRescan = true) := by
  have taken (path : String)
      : (settings.filter text).directoryChangePath directories path = true
        ↔ settings.descends path = true
          ∧ (path ∈ directories ∨ pathExtension path = none) := by
    simp [WatchEventFilter.directoryChangePath, WatchSettings.filter]
  have full
      : (applyEvent (settings.filter text) directories event batch).fullRescan = true ↔ _ :=
    built.remembers.applyEvent_full
  rw [directoryRescanPathCount_pos kind, List.any_eq_true] at full
  simp only [taken] at full
  refine ⟨full, ?_⟩
  intro reads directory_
  rw [full]
  cases other : settings.isConfigurationPath directory with
  | true => exact Or.inr (Or.inr (Or.inr (Or.inl ⟨directory, listed, other⟩)))
  | false =>
      have noticed := reads.descends relevant other
      exact Or.inr (Or.inr (Or.inl ⟨directory, listed, noticed, directory_⟩))

/-- The filter of a repository without patterns. -/
def sampleSettings : WatchSettings where
  sourceRoot := "/repo"
  currentDir := "/"
  configPath := "/repo/.codebaseGraph/config.json"
  excludedParts := [".codebaseGraph", ".git", "target"]
  includePatterns := []
  excludePatterns := []
  ignorePatterns := []
  profiles := ProfileSet.new asciiText []
  protectedRoots := ["/repo/.codebaseGraph"]

def removal (path : String) : Event := { kind := .remove, paths := [path] }

/-- A file of the removed directory is one that the graph may hold. -/
theorem relevantPath_sample
    : (sampleSettings.relevantPath asciiText "/repo/src/main.py").isSome = true
      ∧ (sampleSettings.relevantPath asciiText "/repo/pkg.v2/main.py").isSome = true := by
  decide +kernel

/-- Witness: the removal of a directory without an extension. -/
theorem directoryRemoval_noticed_sample
    : (applyEvent (sampleSettings.filter asciiText) [] (removal "/repo/src") {}).fullRescan
      = true := by
  refine
    (directoryRemoval_noticed sampleSettings asciiText [] (Or.inl rfl) (List.mem_singleton.mpr rfl)
      ⟨["src"], List.cons_ne_nil _ _, by decide +kernel⟩
      ⟨["main.py"], List.cons_ne_nil _ _, by decide +kernel⟩ relevantPath_sample.1
      (.start {})).2 ?_ (Or.inr (by decide +kernel))
  exact {
    unprotected := by decide +kernel,
    source := by decide +kernel,
    texts :=
      ⟨"src", "src/main.py", "main.py", by decide +kernel, by decide +kernel, by decide +kernel,
        by decide +kernel, by decide +kernel⟩,
    visible := nofun
  }

/-- A removed directory whose name has an extension is taken for a file. -/
theorem directoryRemoval_unnoticed
    : StrictlyBelow (sampleSettings.absoluteEventPath "/repo/pkg.v2") sampleSettings.sourceRoot
      ∧ StrictlyBelow "/repo/pkg.v2/main.py" "/repo/pkg.v2"
      ∧ (sampleSettings.relevantPath asciiText "/repo/pkg.v2/main.py").isSome = true
      ∧ (applyEvent (sampleSettings.filter asciiText) [] (removal "/repo/pkg.v2") {}).fullRescan
        = false := by
  refine ⟨⟨["pkg.v2"], List.cons_ne_nil _ _, by decide +kernel⟩,
    ⟨["main.py"], List.cons_ne_nil _ _, by decide +kernel⟩, relevantPath_sample.2, ?_⟩
  decide +kernel

end CodebaseGraph.Refresh
