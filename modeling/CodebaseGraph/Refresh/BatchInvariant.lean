import CodebaseGraph.Refresh.Batch
import Mathlib.Algebra.BigOperators.Group.Finset.Basic
import Mathlib.Algebra.Order.BigOperators.Group.Finset
import Mathlib.Algebra.Ring.Nat

/-! A batch of watch events never forgets a path: it holds every path that it was given, within
its bounds, or it asks for a full rescan.
-/

namespace CodebaseGraph.Refresh

open WatchChangeBatch

-- Bounds

def pathSizes (paths : Finset String) : Nat := ∑ path ∈ paths, path.utf8ByteSize

/-- The paths that a batch can hold. -/
def Fits (paths : Finset String) : Prop :=
  paths.card ≤ maxPendingPaths ∧ pathSizes paths ≤ maxPendingPathBytes

theorem Fits.mono {paths more : Finset String} (fits : Fits more) (included : paths ⊆ more)
    : Fits paths :=
  ⟨(Finset.card_le_card included).trans fits.1,
    (Finset.sum_le_sum_of_subset included).trans fits.2⟩

/-- The batch holds exactly the paths that it was given, and accounts for them. -/
structure WatchChangeBatch.Holds (passed : List String) (batch : WatchChangeBatch) : Prop where
  partly : batch.fullRescan = false
  paths : ∀ path, path ∈ batch.paths ↔ path ∈ passed
  distinct : batch.paths.Nodup
  count : batch.paths.length ≤ maxPendingPaths
  bytes : batch.pathBytes = (batch.paths.map String.utf8ByteSize).sum
  size : batch.pathBytes ≤ maxPendingPathBytes

structure WatchChangeBatch.Rescans (batch : WatchChangeBatch) : Prop where
  full : batch.fullRescan = true
  paths : batch.paths = []
  bytes : batch.pathBytes = 0

/-- Either everything is looked at again, or every path is there. -/
def WatchChangeBatch.Remembers (passed : List String) (batch : WatchChangeBatch) : Prop :=
  batch.Rescans ∨ batch.Holds passed

namespace WatchChangeBatch

variable {batch next other : WatchChangeBatch} {passed passed' more : List String}

theorem rescans_markFullRescan (batch : WatchChangeBatch) : batch.markFullRescan.Rescans :=
  ⟨rfl, rfl, rfl⟩

theorem rescans_markOverflow (batch : WatchChangeBatch) : batch.markOverflow.Rescans :=
  ⟨rfl, rfl, rfl⟩

/-- The other fields of a batch do not matter. -/
theorem Rescans.of_same (rescans : batch.Rescans) (full : next.fullRescan = batch.fullRescan)
    (paths : next.paths = batch.paths) (bytes : next.pathBytes = batch.pathBytes)
    : next.Rescans :=
  ⟨full.trans rescans.full, paths.trans rescans.paths, bytes.trans rescans.bytes⟩

theorem Holds.of_same (holds : batch.Holds passed) (full : next.fullRescan = batch.fullRescan)
    (paths : next.paths = batch.paths) (bytes : next.pathBytes = batch.pathBytes)
    : next.Holds passed := by
  constructor
  · exact full.trans holds.partly
  · simpa only [paths] using holds.paths
  · simpa only [paths] using holds.distinct
  · simpa only [paths] using holds.count
  · simpa only [paths, bytes] using holds.bytes
  · simpa only [bytes] using holds.size

theorem Remembers.of_same (remembers : batch.Remembers passed)
    (full : next.fullRescan = batch.fullRescan) (paths : next.paths = batch.paths)
    (bytes : next.pathBytes = batch.pathBytes)
    : next.Remembers passed :=
  remembers.imp (fun rescans => rescans.of_same full paths bytes)
    (fun holds => holds.of_same full paths bytes)

theorem Holds.toFinset_paths (holds : batch.Holds passed)
    : batch.paths.toFinset = passed.toFinset := by
  ext path
  simp [holds.paths path]

theorem Holds.pathSizes_eq (holds : batch.Holds passed)
    : pathSizes passed.toFinset = batch.pathBytes := by
  rw [holds.bytes, pathSizes, ← holds.toFinset_paths, List.sum_toFinset _ holds.distinct]

theorem Holds.card_eq (holds : batch.Holds passed)
    : passed.toFinset.card = batch.paths.length := by
  rw [← holds.toFinset_paths, List.toFinset_card_of_nodup holds.distinct]

theorem Holds.fits (holds : batch.Holds passed) : Fits passed.toFinset :=
  ⟨holds.card_eq.trans_le holds.count, holds.pathSizes_eq.trans_le holds.size⟩

/-- A path that the batch does not hold yet. -/
theorem Holds.fits_cons_iff (holds : batch.Holds passed) {path : String}
    (new : path ∉ batch.paths)
    : Fits (path :: passed).toFinset
      ↔ ¬(maxPendingPaths ≤ batch.paths.length
          ∨ maxPendingPathBytes < batch.pathBytes + path.utf8ByteSize) := by
  have absent : path ∉ passed.toFinset := by
    rw [List.mem_toFinset, ← holds.paths]
    exact new
  have sizes
      : pathSizes (insert path passed.toFinset)
        = path.utf8ByteSize + pathSizes passed.toFinset :=
    Finset.sum_insert absent
  rw [Fits, List.toFinset_cons, Finset.card_insert_of_notMem absent, sizes, holds.card_eq,
    holds.pathSizes_eq]
  omega

-----------------------------------------------------------------------------------------
-- Extending a batch
-----------------------------------------------------------------------------------------

/-- The loop of `extend_paths`, by induction on the paths that are still to come. -/
theorem Holds.extendFrom (holds : batch.Holds passed) (more : List String)
    : (batch.extendFrom more).Remembers (passed ++ more)
      ∧ ((batch.extendFrom more).fullRescan = true ↔ ¬Fits (passed ++ more).toFinset) := by
  induction more generalizing batch passed with
  | nil =>
      rw [List.append_nil]
      refine ⟨Or.inr holds, ?_⟩
      simp [WatchChangeBatch.extendFrom, holds.partly, holds.fits]
  | cons path rest ih =>
      have shifted : passed ++ path :: rest = (passed ++ [path]) ++ rest := by simp
      rw [shifted]
      unfold WatchChangeBatch.extendFrom
      by_cases known : path ∈ batch.paths
      · rw [if_pos known]
        have same : batch.Holds (passed ++ [path]) := by
          refine { holds with paths := ?_ }
          intro other
          rw [List.mem_append, List.mem_singleton, ← holds.paths]
          exact ⟨Or.inl, fun either => either.elim id (fun same => same ▸ known)⟩
        exact ih same
      · rw [if_neg known]
        have limit := holds.fits_cons_iff known
        have moved : (path :: passed).toFinset = (passed ++ [path]).toFinset := by
          ext other
          simp
        rw [moved] at limit
        dsimp only
        split
        · next beyond =>
            refine ⟨Or.inl batch.rescans_markOverflow, ?_⟩
            have unfit : ¬Fits ((passed ++ [path]) ++ rest).toFinset := by
              intro fits
              refine (limit.mp (fits.mono ?_)) beyond
              rw [List.toFinset_append (l := passed ++ [path])]
              exact Finset.subset_union_left
            exact ⟨fun _ => unfit, fun _ => rfl⟩
        · next under =>
            have longer
                : Holds (passed ++ [path])
                    {
                      batch with
                      pathBytes := batch.pathBytes + path.utf8ByteSize,
                      paths := batch.paths ++ [path]
                    } := by
              constructor
              · exact holds.partly
              · intro other
                rw [List.mem_append, List.mem_append, holds.paths]
              · exact List.nodup_append.mpr ⟨holds.distinct, List.nodup_singleton path,
                  by simpa using fun other inside (same : other = path) => known (same ▸ inside)⟩
              · simp only [List.length_append, List.length_singleton]
                omega
              · simp [holds.bytes]
              · dsimp only
                omega
            exact ih longer

theorem Remembers.extendPaths (remembers : batch.Remembers passed) (more : List String)
    : (batch.extendPaths more).Remembers (passed ++ more)
      ∧ ((batch.extendPaths more).fullRescan = true
        ↔ batch.fullRescan = true ∨ ¬Fits (passed ++ more).toFinset) := by
  unfold WatchChangeBatch.extendPaths
  rcases remembers with rescans | holds
  · rw [if_pos rescans.full]
    exact ⟨Or.inl rescans, by simp [rescans.full]⟩
  · rw [if_neg (by simp [holds.partly])]
    simpa [holds.partly] using holds.extendFrom more

theorem Remembers.merge (remembers : batch.Remembers passed)
    (remembers' : other.Remembers passed')
    : (batch.merge other).Remembers (passed ++ passed')
      ∧ ((batch.merge other).fullRescan = true
        ↔ batch.fullRescan = true
          ∨ other.fullRescan = true
          ∨ ¬Fits (passed.toFinset ∪ passed'.toFinset)) := by
  unfold WatchChangeBatch.merge
  dsimp only
  set merged : WatchChangeBatch :=
    {
      batch with
      eventCount := saturatingAdd batch.eventCount other.eventCount,
      configurationChanged := batch.configurationChanged || other.configurationChanged,
      overflowCount := saturatingAdd batch.overflowCount other.overflowCount,
      filteredEventCount := saturatingAdd batch.filteredEventCount other.filteredEventCount
    }
  rcases remembers with rescans | holds
  · rw [if_pos rescans.full]
    exact ⟨Or.inl (rescans.of_same rfl rfl rfl), by simp [merged, rescans.full]⟩
  · rw [if_neg (by simp [holds.partly])]
    rcases remembers' with rescans' | holds'
    · rw [if_pos rescans'.full]
      exact ⟨Or.inl merged.rescans_markFullRescan,
        by simp [merged.rescans_markFullRescan.full, rescans'.full]⟩
    · rw [if_neg (by simp [holds'.partly])]
      have started : merged.Remembers passed := Or.inr (holds.of_same rfl rfl rfl)
      obtain ⟨remembers, full⟩ := started.extendPaths other.paths
      have same : (passed ++ other.paths).toFinset = passed.toFinset ∪ passed'.toFinset := by
        rw [List.toFinset_append, holds'.toFinset_paths]
      constructor
      · rcases remembers with rescans | held
        · exact Or.inl rescans
        · refine Or.inr { held with paths := ?_ }
          intro path
          rw [held.paths, List.mem_append, List.mem_append, holds'.paths]
      · rw [full, same]
        simp [merged, holds.partly, holds'.partly]

/-- Everything that is rescanned stays so, and so does the mark of a changed configuration. -/
structure KeepsMarks (batch next : WatchChangeBatch) : Prop where
  full : batch.fullRescan = true → next.fullRescan = true
  configuration : batch.configurationChanged = true → next.configurationChanged = true

theorem KeepsMarks.refl (batch : WatchChangeBatch) : batch.KeepsMarks batch := ⟨id, id⟩

theorem KeepsMarks.trans {last : WatchChangeBatch} (first : batch.KeepsMarks next)
    (second : next.KeepsMarks last)
    : batch.KeepsMarks last :=
  ⟨second.full ∘ first.full, second.configuration ∘ first.configuration⟩

theorem configurationChanged_extendFrom (batch : WatchChangeBatch) (more : List String)
    : (batch.extendFrom more).configurationChanged = batch.configurationChanged := by
  induction more generalizing batch with
  | nil => rfl
  | cons path rest ih =>
      unfold extendFrom
      split
      · exact ih batch
      · dsimp only
        split
        · rfl
        · exact ih _

theorem keepsMarks_extendPaths (batch : WatchChangeBatch) (more : List String)
    : batch.KeepsMarks (batch.extendPaths more) := by
  refine ⟨(batch.extendPaths_spec more).1.full, ?_⟩
  unfold extendPaths
  split
  · exact id
  · rw [configurationChanged_extendFrom]
    exact id

theorem keepsMarks_merge (batch other : WatchChangeBatch)
    : batch.KeepsMarks (batch.merge other) := by
  refine ⟨(batch.merge_spec other).1.full, ?_⟩
  intro changed
  unfold merge
  dsimp only
  split
  · simp [changed]
  · split
    · simp [markFullRescan, changed]
    · exact (keepsMarks_extendPaths _ _).configuration (by simp [changed])

end WatchChangeBatch

-----------------------------------------------------------------------------------------
-- Events
-----------------------------------------------------------------------------------------

variable {filter : WatchEventFilter} {directories passed : List String} {event : Event}
  {batch : WatchChangeBatch}

/-- What an event makes of a batch remembers what was passed before and the paths of the event. -/
theorem WatchChangeBatch.Remembers.applyEvent (remembers : batch.Remembers passed)
    : (applyEvent filter directories event batch).Remembers
        (passed ++ filter.relevantPaths event) := by
  unfold Refresh.applyEvent
  dsimp only
  by_cases rescan : event.needRescan = true
  · rw [if_pos rescan]
    exact Or.inl (rescans_markFullRescan _)
  rw [if_neg rescan]
  set counted : WatchChangeBatch :=
    {
      batch with
      filteredEventCount :=
        saturatingAdd batch.filteredEventCount
          (event.paths.length - (filter.relevantPaths event).length
            - filter.directoryRescanPathCount directories event)
    }
  set extended :=
    if filter.relevantPaths event ≠ [] then counted.extendPaths (filter.relevantPaths event)
    else counted
  set rescanned :=
    if 0 < filter.directoryRescanPathCount directories event then extended.markFullRescan
    else extended
  set marked : WatchChangeBatch :=
    {
      rescanned with
      configurationChanged :=
        rescanned.configurationChanged || event.paths.any filter.isConfigurationPath
    }
  set configured :=
    if event.paths.any filter.isConfigurationPath then marked.markFullRescan else marked
  have counting : counted.Remembers passed := remembers.of_same rfl rfl rfl
  have extending : extended.Remembers (passed ++ filter.relevantPaths event) := by
    by_cases some : filter.relevantPaths event ≠ []
    · simp only [extended, if_pos some]
      exact (counting.extendPaths _).1
    · simp only [extended, if_neg some]
      rw [not_not.mp some, List.append_nil]
      exact counting
  have rescanning : rescanned.Remembers (passed ++ filter.relevantPaths event) := by
    simp only [rescanned]
    split
    · exact Or.inl extended.rescans_markFullRescan
    · exact extending
  have configuring : configured.Remembers (passed ++ filter.relevantPaths event) := by
    simp only [configured]
    split
    · exact Or.inl marked.rescans_markFullRescan
    · exact rescanning.of_same rfl rfl rfl
  split
  · exact configuring.of_same rfl rfl rfl
  · exact configuring

/-- When an event makes a batch a full rescan. -/
theorem WatchChangeBatch.Remembers.applyEvent_full (remembers : batch.Remembers passed)
    : (Refresh.applyEvent filter directories event batch).fullRescan = true
      ↔ batch.fullRescan = true
        ∨ event.needRescan = true
        ∨ 0 < filter.directoryRescanPathCount directories event
        ∨ event.paths.any filter.isConfigurationPath = true
        ∨ ¬Fits (passed ++ filter.relevantPaths event).toFinset := by
  unfold Refresh.applyEvent
  dsimp only
  by_cases rescan : event.needRescan = true
  · rw [if_pos rescan]
    simp [markFullRescan, rescan]
  rw [if_neg rescan]
  set counted : WatchChangeBatch :=
    {
      batch with
      filteredEventCount :=
        saturatingAdd batch.filteredEventCount
          (event.paths.length - (filter.relevantPaths event).length
            - filter.directoryRescanPathCount directories event)
    }
  have counting : counted.Remembers passed := remembers.of_same rfl rfl rfl
  have extending
      : (if filter.relevantPaths event ≠ [] then counted.extendPaths (filter.relevantPaths event)
          else counted)
        = counted.extendPaths (filter.relevantPaths event) := by
    split
    · rfl
    · next none =>
        rw [not_not.mp none]
        unfold WatchChangeBatch.extendPaths
        split <;> rfl
  obtain ⟨-, full⟩ := counting.extendPaths (filter.relevantPaths event)
  rw [extending]
  set extended := counted.extendPaths (filter.relevantPaths event)
  by_cases directory : 0 < filter.directoryRescanPathCount directories event
  · simp [directory, markFullRescan]
  · by_cases configuration : event.paths.any filter.isConfigurationPath = true
    · simp only [directory, configuration, markFullRescan, if_true, if_false]
      split <;> simp
    · simp only [if_neg directory, if_neg configuration]
      split
      · simp [full, rescan, directory, configuration, counted]
      · simp [full, rescan, directory, configuration, counted]

theorem keepsMarks_applyEvent (filter : WatchEventFilter) (directories : List String)
    (event : Event) (batch : WatchChangeBatch)
    : batch.KeepsMarks (applyEvent filter directories event batch) := by
  refine ⟨(applyEvent_spec directories event batch).1.full, ?_⟩
  intro changed
  have extended (counted : WatchChangeBatch) (same : counted.configurationChanged = true)
      (more : List String)
      : (if more ≠ [] then counted.extendPaths more else counted).configurationChanged
        = true := by
    split
    · exact (keepsMarks_extendPaths counted more).configuration same
    · exact same
  have marked (before : WatchChangeBatch) (condition : Prop) [Decidable condition]
      : (if condition then before.markFullRescan else before).configurationChanged
        = before.configurationChanged := by
    split <;> rfl
  unfold applyEvent
  dsimp only
  split
  · simp [markFullRescan, changed]
  · split
    · simp only [marked]
      refine Bool.or_eq_true_iff.mpr (Or.inl (extended _ ?_ _))
      exact changed
    · simp only [marked]
      refine Bool.or_eq_true_iff.mpr (Or.inl (extended _ ?_ _))
      exact changed

-----------------------------------------------------------------------------------------
-- Sequences of operations
-----------------------------------------------------------------------------------------

/-- The batches that operations make of a batch, with the paths that are passed to them. The other
side of a merge is itself made from the empty batch.
-/
inductive BuiltFrom : WatchChangeBatch → List String → WatchChangeBatch → Prop where
  | start (batch : WatchChangeBatch) : BuiltFrom batch [] batch
  | extendPaths {batch passed last} (built : BuiltFrom batch passed last) (paths : List String)
    : BuiltFrom batch (passed ++ paths) (last.extendPaths paths)
  | markOverflow {batch passed last} (built : BuiltFrom batch passed last)
    : BuiltFrom batch passed last.markOverflow
  | markFullRescan {batch passed last} (built : BuiltFrom batch passed last)
    : BuiltFrom batch passed last.markFullRescan
  | event {batch passed last} (built : BuiltFrom batch passed last) (filter : WatchEventFilter)
    (directories : List String) (event : Event) {next : WatchChangeBatch}
    (applied : applyWatchMessage filter directories (.event event) last = .ok next)
    : BuiltFrom batch (passed ++ filter.relevantPaths event) next
  | error {batch passed last} (built : BuiltFrom batch passed last) (filter : WatchEventFilter)
    (directories : List String) {problem message : String}
    (failed : applyWatchMessage filter directories (.error problem) last = .error message)
    : BuiltFrom batch passed last
  | merge {batch passed last} (built : BuiltFrom batch passed last) {passed' other}
    (built' : BuiltFrom {} passed' other)
    : BuiltFrom batch (passed ++ passed') (last.merge other)

theorem holds_empty : Holds [] {} := by
  constructor <;> simp [maxPendingPaths, maxPendingPathBytes]

theorem BuiltFrom.remembers {passed : List String} {batch : WatchChangeBatch}
    (built : BuiltFrom {} passed batch)
    : batch.Remembers passed := by
  generalize empty : ({} : WatchChangeBatch) = first at built
  induction built with
  | start first =>
      subst empty
      exact Or.inr holds_empty
  | extendPaths built paths ih => exact ((ih empty).extendPaths paths).1
  | markOverflow built ih => exact Or.inl (rescans_markOverflow _)
  | markFullRescan built ih => exact Or.inl (rescans_markFullRescan _)
  | event built filter directories event applied ih =>
      obtain rfl := Except.ok.inj applied
      exact (ih empty).applyEvent
  | error built filter directories failed ih => exact ih empty
  | merge built built' ih ih' => exact ((ih empty).merge (ih' rfl)).1

theorem BuiltFrom.keepsMarks {first last : WatchChangeBatch} {passed : List String}
    (built : BuiltFrom first passed last)
    : first.KeepsMarks last := by
  induction built with
  | start batch => exact .refl batch
  | extendPaths built paths ih => exact ih.trans (keepsMarks_extendPaths _ paths)
  | markOverflow built ih => exact ih.trans ⟨fun _ => rfl, id⟩
  | markFullRescan built ih => exact ih.trans ⟨fun _ => rfl, id⟩
  | event built filter directories event applied ih =>
      obtain rfl := Except.ok.inj applied
      exact ih.trans (keepsMarks_applyEvent filter directories event _)
  | error built filter directories failed ih => exact ih
  | merge built built' ih ih' => exact ih.trans (keepsMarks_merge _ _)

/-- Merging in either order rescans everything, or holds the same paths. -/
theorem WatchChangeBatch.merge_comm_covers {batch other : WatchChangeBatch}
    {passed passed' : List String} (remembers : batch.Remembers passed)
    (remembers' : other.Remembers passed')
    : (batch.merge other).fullRescan = (other.merge batch).fullRescan
      ∧ ∀ path, path ∈ (batch.merge other).paths ↔ path ∈ (other.merge batch).paths := by
  obtain ⟨merged, full⟩ := remembers.merge remembers'
  obtain ⟨merged', full'⟩ := remembers'.merge remembers
  have same : (batch.merge other).fullRescan = (other.merge batch).fullRescan := by
    rw [Bool.eq_iff_iff, full, full', Finset.union_comm]
    exact or_left_comm
  refine ⟨same, ?_⟩
  intro path
  rcases merged with rescans | holds
  · rcases merged' with rescans' | holds'
    · rw [rescans.paths, rescans'.paths]
    · rw [rescans.full, holds'.partly] at same
      cases same
  · rcases merged' with rescans' | holds'
    · rw [holds.partly, rescans'.full] at same
      cases same
    · rw [holds.paths, holds'.paths, List.mem_append, List.mem_append]
      exact or_comm

/-- A batch never forgets a path: whatever operations made it, it rescans everything and holds
nothing, or it holds the paths that were passed in, within its bounds. Its marks stay, and merging
does not depend on the order.
-/
theorem watchChangeBatch_remembers {passed : List String} {batch : WatchChangeBatch}
    (built : BuiltFrom {} passed batch)
    : ((batch.fullRescan = true ∧ batch.paths = [] ∧ batch.pathBytes = 0)
        ∨ ((∀ path ∈ passed, path ∈ batch.paths)
          ∧ batch.paths.Nodup
          ∧ batch.pathBytes = (batch.paths.map String.utf8ByteSize).sum
          ∧ batch.pathBytes ≤ maxPendingPathBytes
          ∧ batch.paths.length ≤ maxPendingPaths))
      ∧ (∀ more later,
          BuiltFrom batch more later
          → (batch.fullRescan = true → later.fullRescan = true)
            ∧ (batch.configurationChanged = true → later.configurationChanged = true))
      ∧ ∀ passed' other,
          BuiltFrom {} passed' other
          → (batch.merge other).fullRescan = (other.merge batch).fullRescan
            ∧ ∀ path, path ∈ (batch.merge other).paths ↔ path ∈ (other.merge batch).paths := by
  refine ⟨?_, ?_, ?_⟩
  · rcases built.remembers with rescans | holds
    · exact Or.inl ⟨rescans.full, rescans.paths, rescans.bytes⟩
    · refine Or.inr ⟨?_, holds.distinct, holds.bytes, holds.size, holds.count⟩
      intro path inside
      exact (holds.paths path).mpr inside
  · intro more later onward
    exact ⟨onward.keepsMarks.full, onward.keepsMarks.configuration⟩
  · intro passed' other built'
    exact merge_comm_covers built.remembers built'.remembers

/-- Witness: two paths, one of them passed in twice. -/
theorem watchChangeBatch_remembers_sample
    : "src/a.rs" ∈ (({} : WatchChangeBatch).extendPaths ["src/a.rs", "src/b.rs", "src/a.rs"]).paths
      ∧ "src/b.rs"
        ∈ (({} : WatchChangeBatch).extendPaths ["src/a.rs", "src/b.rs", "src/a.rs"]).paths := by
  have built :=
    (BuiltFrom.start {}).extendPaths ["src/a.rs", "src/b.rs", "src/a.rs"]
  rcases (watchChangeBatch_remembers built).1 with rescans | holds
  · exact absurd rescans.1 (by decide)
  · exact ⟨holds.1 _ (by simp), holds.1 _ (by simp)⟩

end CodebaseGraph.Refresh
