import CodebaseGraph.Wiki.LinkTargets
import CodebaseGraph.Wiki.LogItems
import CodebaseGraph.Wiki.Render.Site

/-! The list of changes. The compiler enters a log item in the directory of its log and in those
above it, and the renderer collects the entries of all directories.
-/

namespace CodebaseGraph.Wiki.Render

open CodebaseGraph.Collections CodebaseGraph.Sorting

-- Repeated lists

section Repeated

variable {α β γ : Type}

/-- Two nested walks in the other order. -/
theorem flatMap_swap_perm (first : List α) (second : List β) (give : α → β → List γ)
    : (first.flatMap (fun item => second.flatMap (give item))).Perm
        (second.flatMap (fun other => first.flatMap (fun item => give item other))) := by
  induction first with
  | nil => simp
  | cons item rest ih =>
      simp only [List.flatMap_cons]
      exact (ih.append_left _).trans (List.flatMap_append_perm _ _ _)

/-- Every chosen member contributes the same list. -/
theorem length_flatMap_if (list : List α) (chosen : α → Prop) [DecidablePred chosen]
    (given : List β)
    : (list.flatMap (fun item => if chosen item then given else [])).length
      = list.countP (fun item => chosen item) * given.length := by
  induction list with
  | nil => simp
  | cons item rest ih =>
      rw [List.flatMap_cons, List.length_append, ih, List.countP_cons]
      by_cases picked : chosen item
      · simp [picked, Nat.add_mul, Nat.add_comm]
      · simp [picked]

theorem length_flatMap_le {list : List α} {once often : α → List β}
    (covers : ∀ item ∈ list, (once item).length ≤ (often item).length)
    : (list.flatMap once).length ≤ (list.flatMap often).length := by
  induction list with
  | nil => exact le_rfl
  | cons item rest ih =>
      have tail := ih (fun other inside => covers other (List.mem_cons_of_mem _ inside))
      have head := covers item (by simp)
      rw [List.flatMap_cons, List.flatMap_cons, List.length_append, List.length_append]
      omega

/-- Lists of at least some lengths have these lengths if they do all together. -/
theorem length_eq_of_flatMap {list : List α} {once often : α → List β}
    (covers : ∀ item ∈ list, (once item).length ≤ (often item).length)
    (same : (list.flatMap often).length = (list.flatMap once).length)
    : ∀ item ∈ list, (often item).length = (once item).length := by
  induction list with
  | nil => simp
  | cons item rest ih =>
      have later : ∀ other ∈ rest, (once other).length ≤ (often other).length :=
        fun other inside => covers other (List.mem_cons_of_mem _ inside)
      have tail := length_flatMap_le later
      have head := covers item (by simp)
      rw [List.flatMap_cons, List.flatMap_cons, List.length_append, List.length_append] at same
      intro other inside
      rcases List.mem_cons.mp inside with rfl | inside
      · omega
      · exact ih later (by omega) other inside

/-- A list given once for each chosen member is the list itself if one is chosen. -/
theorem flatMap_if_perm {list : List α} {chosen : α → Prop} [DecidablePred chosen]
    {given : List β} (single : given = [] ∨ list.countP (fun item => chosen item) = 1)
    : (list.flatMap (fun item => if chosen item then given else [])).Perm given := by
  rcases single with rfl | single
  · simp
  · induction list with
    | nil => cases single
    | cons item rest ih =>
        rw [List.countP_cons] at single
        rw [List.flatMap_cons]
        by_cases picked : chosen item
        · have none : rest.flatMap (fun item => if chosen item then given else []) = [] := by
            rw [← List.length_eq_zero_iff, length_flatMap_if]
            simp only [picked, decide_true, if_true] at single
            rw [Nat.succ.inj single, Nat.zero_mul]
          rw [if_pos picked, none, List.append_nil]
        · rw [if_neg picked, List.nil_append]
          exact ih (by simpa [picked] using single)

end Repeated

-- The collected entries

/-- The entries of the index: those of the concepts and then those of the directories. -/
theorem changeEntries_new (bundle : Bundle)
    : (BundleIndex.new bundle).changeEntries
      = bundle.concepts.filterMap conceptChange
        ++ bundle.directories.flatMap (fun directory => directory.logEntries.map logChange) := by
  have collected (concepts : List Concept) (index : BundleIndex)
      : (concepts.foldl BundleIndex.addConcept index).changeEntries
        = index.changeEntries ++ concepts.filterMap conceptChange := by
    induction concepts generalizing index with
    | nil => simp
    | cons concept rest ih =>
        rw [List.foldl_cons, ih, BundleIndex.addConcept, List.append_assoc]
        cases change : conceptChange concept <;> simp [change]
  rw [BundleIndex.new]
  simp only [collected, List.nil_append]

/-- The changes of the items of a log. -/
def logChanges (log : LogSource) : List ChangeEntry := (datedItems log).map logChange

/-- What the directories with some paths collect of a log. -/
def repeatedChanges (paths : List String) (log : LogSource) : List ChangeEntry :=
  paths.flatMap (fun path => if path ∈ ancestorDirectories log.scopePath then logChanges log else [])

/-- The directories collect the items of each log once for each directory around it. -/
theorem directoryChanges_perm (libraries : TextLibraries) (source : SourceBundle)
    : ((compileBundle libraries source).directories.flatMap
        (fun directory => directory.logEntries.map logChange)).Perm
        (source.logSources.flatMap (repeatedChanges (source.directories libraries).keys)) := by
  have within (path : String)
      : (entriesWithin source.logSources path).map logChange
        = source.logSources.flatMap
            (fun log =>
              if path ∈ ancestorDirectories log.scopePath then logChanges log else []) := by
    rw [entriesWithin, List.map_flatMap]
    simp only [parseLogEntries_entries, apply_ite (List.map logChange), List.map_nil, logChanges]
  have drafts
      : (source.directories libraries).entries.flatMap
          (fun entry => entry.2.logEntries.map logChange)
        = (source.directories libraries).keys.flatMap
            (fun path =>
              source.logSources.flatMap
                (fun log =>
                  if path ∈ ancestorDirectories log.scopePath then logChanges log else [])) := by
    rw [SortedMap.keys, List.flatMap_map]
    refine List.flatMap_congr (fun entry inside => ?_)
    rw [directories_logEntries libraries source (SortedMap.get?_eq_some_iff.mpr inside), within]
  have normal (directories : List Directory)
      : ((directories.map Directory.normalize).flatMap
          (fun directory => directory.logEntries.map logChange)).Perm
          (directories.flatMap (fun directory => directory.logEntries.map logChange)) := by
    rw [List.flatMap_map]
    exact List.Perm.flatMap_left _ (fun directory _ => (sortBy_perm _ _).map _)
  rw [compileBundle_directories]
  refine (normal _).trans (((sortBy_perm _ _).flatMap_right _).trans ?_)
  rw [List.flatMap_map]
  exact (List.Perm.of_eq drafts).trans (flatMap_swap_perm _ _ _)

theorem root_mem_ancestorDirectories (path : String) : "" ∈ ancestorDirectories path := by
  have general (fuel : Nat) (scope : String) (enough : scope.length ≤ fuel)
      : "" ∈ enclosingScopes fuel scope := by
    induction fuel generalizing scope with
    | zero =>
        rw [String.length_eq_zero_iff.mp (Nat.le_zero.mp enough)]
        exact self_mem_enclosingScopes _ _
    | succ fuel ih =>
        rw [enclosingScopes]
        split
        · next root => rw [root, List.mem_singleton]
        · next nested =>
            have shorter : (parentDirectoryFromDirectory scope).length < scope.length :=
              parentDirectory_length nested
            exact List.mem_cons_of_mem _ (ih _ (by omega))
  exact List.mem_reverse.mpr (general _ path le_rfl)

/-- The directory of a log and the root are both around the log. -/
theorem countP_ancestors {paths : List String} (distinct : paths.Nodup) (root : "" ∈ paths)
    {scope : String} (listed : scope ∈ paths)
    : 1 ≤ paths.countP (fun path => path ∈ ancestorDirectories scope)
      ∧ (paths.countP (fun path => path ∈ ancestorDirectories scope) = 1 ↔ scope = "") := by
  rw [List.countP_eq_length_filter]
  have own : scope ∈ paths.filter (fun path => path ∈ ancestorDirectories scope) :=
    List.mem_filter.mpr ⟨listed, by simpa using self_mem_ancestorDirectories scope⟩
  have above : "" ∈ paths.filter (fun path => path ∈ ancestorDirectories scope) :=
    List.mem_filter.mpr ⟨root, by simpa using root_mem_ancestorDirectories scope⟩
  refine ⟨List.length_pos_of_mem own, ?_, ?_⟩
  · intro single
    obtain ⟨only, whole⟩ := List.length_eq_one_iff.mp single
    rw [whole, List.mem_singleton] at own above
    rw [own, above]
  · rintro rfl
    have alone : paths.filter (fun path => path ∈ ancestorDirectories "")
        = paths.filter (fun path => path == "") :=
      List.filter_congr (fun path _ => by
        rw [Bool.eq_iff_iff]
        simp [ancestorDirectories, enclosingScopes])
    rw [alone, ← List.countP_eq_length_filter]
    exact List.count_eq_one_of_mem distinct root

-- Each event once

/-- The changes that a bundle reports: its concepts with a timestamp and the list items under a
date heading of its logs.
-/
def reportedChanges (libraries : TextLibraries) (source : SourceBundle) : List ChangeEntry :=
  (compileBundle libraries source).concepts.filterMap conceptChange
    ++ source.logSources.flatMap logChanges

/-- The list shows each reported change once, newest first. -/
structure ShowsOnce (libraries : TextLibraries) (source : SourceBundle)
    (changes : List ChangeEntry)
    : Prop where
  once : changes.Perm (reportedChanges libraries source)
  newest : changes.Pairwise (fun first second => second.sortKey ≤ first.sortKey)

/-- The page shows each change once exactly if the logs with a dated item are all at the root of
the bundle.
-/
theorem changes_showOnce_iff (libraries : TextLibraries) (source : SourceBundle)
    : ShowsOnce libraries source
        (Renderer.sortedChanges (BundleIndex.new (compileBundle libraries source)))
      ↔ ∀ log ∈ source.logSources, datedItems log ≠ [] → log.scopePath = "" := by
  set paths := (source.directories libraries).keys
  have around {log : LogSource} (inside : log ∈ source.logSources) :=
    countP_ancestors (source.directories libraries).keys_nodup
      (treeFacts_directories libraries source).closed.root
      (mem_directories_scope libraries source inside)
  have repeats (log : LogSource)
      : (repeatedChanges paths log).length
        = paths.countP (fun path => path ∈ ancestorDirectories log.scopePath)
          * (logChanges log).length :=
    length_flatMap_if _ _ _
  have covers : ∀ log ∈ source.logSources,
      (logChanges log).length ≤ (repeatedChanges paths log).length := fun log inside => by
    rw [repeats]
    exact Nat.le_mul_of_pos_left _ (around inside).1
  have collected
      : (Renderer.sortedChanges (BundleIndex.new (compileBundle libraries source))).Perm
          ((compileBundle libraries source).concepts.filterMap conceptChange
            ++ source.logSources.flatMap (repeatedChanges paths)) := by
    refine (sortBy_perm _ _).trans ?_
    rw [changeEntries_new]
    exact (directoryChanges_perm libraries source).append_left _
  constructor
  · rintro ⟨once, -⟩ log inside dated
    have same := (collected.symm.trans once).length_eq
    rw [reportedChanges, List.length_append, List.length_append, Nat.add_left_cancel_iff] at same
    have single := length_eq_of_flatMap covers same log inside
    have some : 0 < (logChanges log).length := by
      rw [logChanges, List.length_map]
      exact List.length_pos_iff.mpr dated
    rw [repeats] at single
    exact (around inside).2.mp ((Nat.mul_eq_right some.ne').mp single)
  · intro root
    refine ⟨collected.trans (List.Perm.append_left _ ?_), ?_⟩
    · refine List.Perm.flatMap_left _ (fun log inside => flatMap_if_perm ?_)
      by_cases dated : datedItems log = []
      · exact Or.inl (by rw [logChanges, dated, List.map_nil])
      · exact Or.inr ((around inside).2.mpr (root log inside dated))
    · exact sortBy_sorted (fun item : ChangeEntry => OrderDual.toDual item.sortKey) _

/-- A page with a timestamp, and a log in a directory. -/
def loggedPages : SourceBundle where
  id := "wiki"
  rootPath := "/wiki"
  okfVersion := "1"
  title := "Wiki"
  documents :=
    [{ path := "guide.md", timestamp := some "2026-07-28", bodyMarkdown := "" },
      {
        path := "guides/log.md", kind := .log,
        bodyMarkdown := "## 2026-07-30\n- Added the guide\n"
      }]

/-- The item of the log is shown for its directory and for the root. -/
theorem changes_showTwice
    : ¬ShowsOnce linkPages loggedPages
        (Renderer.sortedChanges
          (BundleIndex.new (compileBundle linkPages loggedPages))) := by
  intro shows
  have twice
      : (Renderer.sortedChanges
            (BundleIndex.new (compileBundle linkPages loggedPages))).length = 3
        ∧ (reportedChanges linkPages loggedPages).length = 2 := by
    decide +kernel
  have same := shows.once.length_eq
  rw [twice.1, twice.2] at same
  exact absurd same (by decide)

end CodebaseGraph.Wiki.Render
