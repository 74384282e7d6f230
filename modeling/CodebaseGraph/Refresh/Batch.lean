import CodebaseGraph.Basic
import Mathlib.Data.List.Dedup

/-! Watch events and the batches that collect them (`src/api/refresh.rs`). -/

namespace CodebaseGraph.Refresh

def maxPendingPaths : Nat := 4096

def maxPendingPathBytes : Nat := 1024 * 1024

/-- The kinds of events that the watch loops tell apart. -/
inductive EventKind where
  | any
  | access (closeWrite : Bool)
  | create
  | modify (name : Bool)
  | remove
  | other
deriving DecidableEq, Repr

structure Event where
  kind : EventKind
  paths : List String
  needRescan : Bool := false
deriving DecidableEq, Repr

def watchEventRefreshes (event : Event) : Bool :=
  match event.kind with
  | .access closeWrite => closeWrite
  | .any | .create | .modify _ | .remove | .other => true

/-- What the filter says about a path. `descends` is the part of `directory_change_path` before
it looks at the path itself.
-/
structure WatchEventFilter where
  relevantPath : String → Option String
  isConfigurationPath : String → Bool
  descends : String → Bool
  hasExtension : String → Bool
  underProbe : String → Bool

namespace WatchEventFilter

variable (filter : WatchEventFilter)

/-- `directories` are the paths that are directories when the filter looks. -/
def directoryChangePath (directories : List String) (path : String) : Bool :=
  filter.descends path && (directories.contains path || !filter.hasExtension path)

def relevantPaths (event : Event) : List String :=
  if watchEventRefreshes event then (event.paths.filterMap filter.relevantPath).dedup else []

def directoryRescanPathCount (directories : List String) (event : Event) : Nat :=
  match event.kind with
  | .remove | .modify true =>
      (event.paths.filter (filter.directoryChangePath directories)).length
  | _ => 0

end WatchEventFilter

inductive WatchMessage where
  | event (event : Event)
  | error (error : String)
deriving DecidableEq, Repr

structure WatchChangeBatch where
  paths : List String := []
  eventCount : Nat := 0
  fullRescan : Bool := false
  configurationChanged : Bool := false
  overflowCount : Nat := 0
  filteredEventCount : Nat := 0
  pathBytes : Nat := 0
deriving DecidableEq, Repr

namespace WatchChangeBatch

def markFullRescan (batch : WatchChangeBatch) : WatchChangeBatch :=
  { batch with paths := [], pathBytes := 0, fullRescan := true }

def markOverflow (batch : WatchChangeBatch) : WatchChangeBatch :=
  { batch.markFullRescan with overflowCount := saturatingAdd batch.overflowCount 1 }

/-- The loop of `extend_paths`. -/
def extendFrom (batch : WatchChangeBatch) : List String → WatchChangeBatch
  | [] => batch
  | path :: rest =>
      if path ∈ batch.paths then batch.extendFrom rest
      else
        let nextBytes := batch.pathBytes + path.utf8ByteSize
        if maxPendingPaths ≤ batch.paths.length ∨ maxPendingPathBytes < nextBytes then
          batch.markOverflow
        else
          extendFrom { batch with pathBytes := nextBytes, paths := batch.paths ++ [path] } rest

def extendPaths (batch : WatchChangeBatch) (paths : List String) : WatchChangeBatch :=
  if batch.fullRescan then batch else batch.extendFrom paths

def hasChanges (batch : WatchChangeBatch) : Bool :=
  batch.fullRescan || !batch.paths.isEmpty

def merge (batch other : WatchChangeBatch) : WatchChangeBatch :=
  let merged :=
    {
      batch with
      eventCount := saturatingAdd batch.eventCount other.eventCount,
      configurationChanged := batch.configurationChanged || other.configurationChanged,
      overflowCount := saturatingAdd batch.overflowCount other.overflowCount,
      filteredEventCount := saturatingAdd batch.filteredEventCount other.filteredEventCount
    }
  if batch.fullRescan then merged
  else if other.fullRescan then merged.markFullRescan
  else merged.extendPaths other.paths

end WatchChangeBatch

variable (filter : WatchEventFilter)

/-- `apply_watch_message` on an event. -/
def applyEvent (directories : List String) (event : Event) (batch : WatchChangeBatch)
    : WatchChangeBatch :=
  let configurationChanged := event.paths.any filter.isConfigurationPath
  if event.needRescan then
    {
      batch with
      configurationChanged := batch.configurationChanged || configurationChanged,
      eventCount := saturatingAdd batch.eventCount 1
    }.markFullRescan
  else
    let directoryRescanCount := filter.directoryRescanPathCount directories event
    let paths := filter.relevantPaths event
    let counted :=
      {
        batch with
        filteredEventCount :=
          saturatingAdd batch.filteredEventCount
            (event.paths.length - paths.length - directoryRescanCount)
      }
    let extended := if paths ≠ [] then counted.extendPaths paths else counted
    let rescanned := if 0 < directoryRescanCount then extended.markFullRescan else extended
    let marked :=
      {
        rescanned with
        configurationChanged := rescanned.configurationChanged || configurationChanged
      }
    let configured := if configurationChanged then marked.markFullRescan else marked
    if paths ≠ [] ∨ 0 < directoryRescanCount then
      { configured with eventCount := configured.eventCount + 1 }
    else configured

def applyWatchMessage (directories : List String) (message : WatchMessage)
    (batch : WatchChangeBatch)
    : Except String WatchChangeBatch :=
  match message with
  | .event event => .ok (applyEvent filter directories event batch)
  | .error error => .error ("filesystem watcher error: " ++ error)

-----------------------------------------------------------------------------------------
-- What a batch covers
-----------------------------------------------------------------------------------------

/-- A refresh of the batch looks at the path. -/
def WatchChangeBatch.covers (batch : WatchChangeBatch) (path : String) : Prop :=
  batch.fullRescan = true ∨ path ∈ batch.paths

instance (batch : WatchChangeBatch) (path : String) : Decidable (batch.covers path) :=
  inferInstanceAs (Decidable (_ ∨ _))

/-- Whatever the first batch covers, the second one does. -/
structure WatchChangeBatch.Extends (batch next : WatchChangeBatch) : Prop where
  full : batch.fullRescan = true → next.fullRescan = true
  covers : ∀ path, batch.covers path → next.covers path

namespace WatchChangeBatch

variable {batch next last other : WatchChangeBatch} {path : String}

theorem Extends.refl (batch : WatchChangeBatch) : batch.Extends batch :=
  ⟨id, fun _ => id⟩

theorem Extends.trans (first : batch.Extends next) (second : next.Extends last)
    : batch.Extends last :=
  ⟨second.full ∘ first.full, fun path covered => second.covers path (first.covers path covered)⟩

/-- A full rescan extends every batch. -/
theorem Extends.of_full (full : next.fullRescan = true) : batch.Extends next :=
  ⟨fun _ => full, fun _ _ => Or.inl full⟩

/-- The counters of a batch do not matter for what it covers. -/
theorem Extends.of_same (batch next : WatchChangeBatch)
    (full : next.fullRescan = batch.fullRescan)
    (paths : next.paths = batch.paths)
    : batch.Extends next := by
  refine ⟨fun rescans => full.trans rescans, ?_⟩
  intro path covered
  simpa only [WatchChangeBatch.covers, full, paths] using covered

theorem extends_markFullRescan (batch : WatchChangeBatch)
    : batch.Extends batch.markFullRescan :=
  .of_full rfl

theorem extends_markOverflow (batch : WatchChangeBatch) : batch.Extends batch.markOverflow :=
  .of_full rfl

theorem extendFrom_spec (batch : WatchChangeBatch) (paths : List String)
    : batch.Extends (batch.extendFrom paths)
      ∧ ∀ path ∈ paths, (batch.extendFrom paths).covers path := by
  induction paths generalizing batch with
  | nil => exact ⟨.refl batch, by simp⟩
  | cons path rest ih =>
      unfold extendFrom
      by_cases known : path ∈ batch.paths
      · rw [if_pos known]
        obtain ⟨grows, covered⟩ := ih batch
        refine ⟨grows, ?_⟩
        intro other member
        rcases List.mem_cons.mp member with rfl | later
        · exact grows.covers other (Or.inr known)
        · exact covered other later
      · rw [if_neg known]
        dsimp only
        split
        · exact ⟨extends_markOverflow batch, fun _ _ => Or.inl rfl⟩
        · set longer : WatchChangeBatch :=
            {
              batch with
              pathBytes := batch.pathBytes + path.utf8ByteSize,
              paths := batch.paths ++ [path]
            }
          have first : batch.Extends longer := by
            refine ⟨id, ?_⟩
            intro other covered
            exact covered.imp_right (List.mem_append_left [path])
          obtain ⟨grows, covered⟩ := ih longer
          refine ⟨first.trans grows, ?_⟩
          intro other member
          rcases List.mem_cons.mp member with rfl | later
          · exact grows.covers other (Or.inr (by simp [longer]))
          · exact covered other later

theorem extendPaths_spec (batch : WatchChangeBatch) (paths : List String)
    : batch.Extends (batch.extendPaths paths)
      ∧ ∀ path ∈ paths, (batch.extendPaths paths).covers path := by
  unfold extendPaths
  split
  · next full => exact ⟨.refl batch, fun _ _ => Or.inl full⟩
  · exact extendFrom_spec batch paths

/-- A merged batch covers what either batch covers. -/
theorem merge_spec (batch other : WatchChangeBatch)
    : batch.Extends (batch.merge other) ∧ other.Extends (batch.merge other) := by
  unfold merge
  dsimp only
  set merged : WatchChangeBatch :=
    {
      batch with
      eventCount := saturatingAdd batch.eventCount other.eventCount,
      configurationChanged := batch.configurationChanged || other.configurationChanged,
      overflowCount := saturatingAdd batch.overflowCount other.overflowCount,
      filteredEventCount := saturatingAdd batch.filteredEventCount other.filteredEventCount
    }
  have counters : batch.Extends merged := .of_same batch merged rfl rfl
  split
  · next full => exact ⟨counters, .of_full full⟩
  · split
    · exact ⟨.of_full rfl, .of_full rfl⟩
    · next partly =>
        obtain ⟨grows, listed⟩ := merged.extendPaths_spec other.paths
        refine ⟨counters.trans grows, fun full => absurd full partly, ?_⟩
        intro path covered
        rcases covered with full | member
        · exact absurd full partly
        · exact listed path member

end WatchChangeBatch

/-- The events that leave a trace in a batch: they list a relevant path or ask for a full
rescan. Others, such as the creation of a directory, are dropped.
-/
def Recorded (directories : List String) (event : Event) : Prop :=
  event.needRescan = true
  ∨ filter.relevantPaths event ≠ []
  ∨ 0 < filter.directoryRescanPathCount directories event
  ∨ event.paths.any filter.isConfigurationPath = true

instance (directories : List String) (event : Event)
    : Decidable (Recorded filter directories event) :=
  inferInstanceAs (Decidable (_ ∨ _ ∨ _ ∨ _))

/-- A change of the size that an event describes is covered when the batch is a full rescan or
lists all its paths, and there are some.
-/
def WatchChangeBatch.coversEvent (batch : WatchChangeBatch) (event : Event) : Prop :=
  batch.fullRescan = true
  ∨ (filter.relevantPaths event ≠ [] ∧ ∀ path ∈ filter.relevantPaths event, path ∈ batch.paths)

instance (batch : WatchChangeBatch) (event : Event)
    : Decidable (batch.coversEvent filter event) :=
  inferInstanceAs (Decidable (_ ∨ _))

variable {filter}

/-- Applying an event keeps what the batch covers and adds the paths of the event. -/
theorem applyEvent_spec (directories : List String) (event : Event) (batch : WatchChangeBatch)
    : batch.Extends (applyEvent filter directories event batch)
      ∧ (∀ path ∈ filter.relevantPaths event,
          (applyEvent filter directories event batch).covers path)
      ∧ (Recorded filter directories event
        → filter.relevantPaths event = []
        → (applyEvent filter directories event batch).fullRescan = true) := by
  unfold applyEvent
  dsimp only
  by_cases rescan : event.needRescan = true
  · rw [if_pos rescan]
    exact ⟨.of_full rfl, fun _ _ => Or.inl rfl, fun _ _ => rfl⟩
  rw [if_neg rescan]
  set counted : WatchChangeBatch :=
    {
      batch with
      filteredEventCount :=
        saturatingAdd batch.filteredEventCount
          (event.paths.length - (filter.relevantPaths event).length
            - filter.directoryRescanPathCount directories event)
    }
  set extended :=
    if filter.relevantPaths event ≠ [] then counted.extendPaths (filter.relevantPaths event)
    else counted
  set rescanned :=
    if 0 < filter.directoryRescanPathCount directories event then extended.markFullRescan
    else extended
  set marked : WatchChangeBatch :=
    {
      rescanned with
      configurationChanged :=
        rescanned.configurationChanged || event.paths.any filter.isConfigurationPath
    }
  set configured :=
    if event.paths.any filter.isConfigurationPath then marked.markFullRescan else marked
  have first
      : batch.Extends extended
        ∧ ∀ path ∈ filter.relevantPaths event, extended.covers path := by
    by_cases some : filter.relevantPaths event ≠ []
    · obtain ⟨grows, listed⟩ := counted.extendPaths_spec (filter.relevantPaths event)
      simp only [extended, if_pos some]
      exact ⟨.trans (.of_same batch counted rfl rfl) grows, listed⟩
    · simp only [extended, if_neg some]
      refine ⟨.of_same batch counted rfl rfl, ?_⟩
      intro path member
      rw [not_not.mp some] at member
      exact absurd member List.not_mem_nil
  have second : extended.Extends rescanned := by
    simp only [rescanned]
    split
    · exact extended.extends_markFullRescan
    · exact .refl extended
  have third : rescanned.Extends configured := by
    simp only [configured]
    split
    · exact .of_full rfl
    · exact .of_same rescanned marked rfl rfl
  have last (result : WatchChangeBatch)
      (same : result.fullRescan = configured.fullRescan ∧ result.paths = configured.paths)
      : batch.Extends result
        ∧ (∀ path ∈ filter.relevantPaths event, result.covers path)
        ∧ (Recorded filter directories event
          → filter.relevantPaths event = []
          → result.fullRescan = true) := by
    have grows : extended.Extends result :=
      (second.trans third).trans (.of_same configured result same.1 same.2)
    refine ⟨first.1.trans grows, fun path member => grows.covers path (first.2 path member), ?_⟩
    intro recorded none
    rw [same.1]
    rcases recorded with needs | some | directory | configuration
    · exact absurd needs rescan
    · exact absurd none some
    · apply third.full
      simp only [rescanned, if_pos directory, WatchChangeBatch.markFullRescan]
    · simp only [configured, if_pos configuration, WatchChangeBatch.markFullRescan]
  split
  · exact last _ ⟨rfl, rfl⟩
  · exact last _ ⟨rfl, rfl⟩

end CodebaseGraph.Refresh
