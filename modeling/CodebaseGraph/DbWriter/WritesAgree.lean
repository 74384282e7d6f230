import CodebaseGraph.DbWriter.Agreement
import CodebaseGraph.DbWriter.Schedule

/-! When both ways of writing a database agree. -/

namespace CodebaseGraph.DbWriter

open CodebaseGraph.Collections CodebaseGraph.Transition

-- Builds

/-- A build that can begin, with the COPYs of nodes before those of connections. -/
structure Build where
  environment : Environment
  request : LadybugWriteRequest
  nodes : List String
  connectors : List String
  copies : request.copyStatements = nodes ++ connectors
  nodeCopies : ∀ statement ∈ nodes, (nodeTableName statement).isSome
  connectorCopies : ∀ statement ∈ connectors, IsConnectorCopy statement
  prepared : prepareCandidate environment request = .ok ()

/-- A schedule that a build asks for. -/
structure WellScheduled (build : Build) (steps : List Submission) : Prop where
  /-- Between the schema and what follows the COPYs there are only COPYs and indexes. -/
  phases : ∃ middle,
    steps = schemaSteps build.request ++ (middle ++ postCopySteps build.request)
    ∧ ∀ step ∈ middle, step.isCopy ∨ ∃ table, step = .hashIndex table
  copiesOnce :
    steps.filter Submission.isCopy = build.request.copyStatements.zipIdx.map copyStep
  eager : build.request.deferHashIndexes = false → ∀ table, .hashIndex table ∉ steps
  indexedOnce : build.request.deferHashIndexes = true → ∀ table,
    steps.count (.hashIndex table) = if table ∈ build.nodes.map tableOf then 1 else 0
  afterFirst : build.request.deferHashIndexes = true → ∀ table,
    2 ≤ (build.nodes.map tableOf).count table →
    ∃ before entry after,
      steps = before ++ copyStep entry :: .hashIndex table :: after
      ∧ tableOf entry.1 = table
      ∧ ∀ other, copyStep other ∈ before → tableOf other.1 ≠ table
  afterNodes : build.request.deferHashIndexes = true → ∀ table,
    (build.nodes.map tableOf).count table = 1 →
    ∃ before after,
      steps = before ++ .hashIndex table :: after
      ∧ ∀ entry, copyStep entry ∈ after → entry.1 ∈ build.connectors
  beforeConnectors : build.request.deferHashIndexes = true → ∃ before after,
    steps = before ++ after
    ∧ (∀ entry, copyStep entry ∈ before → entry.1 ∈ build.nodes)
    ∧ ∀ table, .hashIndex table ∉ after

/-- A run that submits the statements of a schedule up to the first one that is refused, and
succeeds exactly if none is.
-/
def Follows (database : Database) (steps : List Submission) {α : Type}
    (ran : Except NativeError α × List Submission) : Prop :=
  statementsOf ran.2 = database.service.attempted [] steps
  ∧ (ran.1.isOk = database.service.accepts [] steps)

/-- Both ways follow one good schedule. -/
def WritesAgree (database : Database) (highWaterBytes : LadybugWritePhase → Nat) (build : Build)
    : Prop :=
  ∃ steps,
    WellScheduled build steps
    ∧ Follows database steps ((writeDatabaseOnce database build.environment build.request).ran [])
    ∧ Follows database steps
        ((writeDatabaseIsolated database highWaterBytes build.environment build.request).ran [])

-----------------------------------------------------------------------------------------
-- The schedule of a build
-----------------------------------------------------------------------------------------

section

variable (build : Build)

theorem Build.firstConnector_eq : firstConnector build.request.copyStatements = build.nodes.length := by
  rw [firstConnector, build.copies]
  have named : ∀ statement ∈ build.nodes, ¬(nodeTableName statement).isNone := by
    intro statement found
    have node := build.nodeCopies statement found
    simpa [Option.isSome_iff_ne_none] using node
  have all : build.nodes.findIdx (fun statement => (nodeTableName statement).isNone)
      = build.nodes.length :=
    List.findIdx_eq_length_of_false (fun statement found =>
      Bool.eq_false_iff.mpr (named statement found))
  rw [List.findIdx_append, if_neg (by rw [all]; exact Nat.lt_irrefl _)]
  cases rest : build.connectors with
  | nil => simp
  | cons connector others =>
      have other : nodeTableName connector = none :=
        nodeTableName_of_connector
          (build.connectorCopies connector (by rw [rest]; exact List.mem_cons_self))
      simp [List.findIdx_cons, other]

theorem Build.take_nodes
    : build.request.copyStatements.take (firstConnector build.request.copyStatements) = build.nodes
    := by
  rw [build.firstConnector_eq, build.copies, List.take_left]

theorem Build.drop_nodes
    : build.request.copyStatements.drop (firstConnector build.request.copyStatements)
      = build.connectors := by
  rw [build.firstConnector_eq, build.copies, List.drop_left]

/-- The COPYs of nodes with their positions. -/
def Build.nodeEntries : List (String × Nat) := build.nodes.zipIdx

def Build.connectorEntries : List (String × Nat) := build.connectors.zipIdx build.nodes.length

theorem Build.entries
    : build.request.copyStatements.zipIdx = build.nodeEntries ++ build.connectorEntries := by
  rw [build.copies, List.zipIdx_append]
  simp [Build.nodeEntries, Build.connectorEntries]

theorem Build.tablesOf_nodeEntries : tablesOf build.nodeEntries = build.nodes.map tableOf := by
  have names : build.nodes = build.nodeEntries.map Prod.fst := (List.zipIdx_map_fst 0 _).symm
  rw [tablesOf, names, List.map_map]
  rfl

theorem Build.early_exists : ∃ early, tablesRequiringEarlyIndex build.nodes = .ok early :=
  repeatedTables_ok .empty .empty build.nodeCopies

variable {build} {early : SortedSet String}

theorem copyStep_injective : Function.Injective copyStep := by
  rintro ⟨first, index⟩ ⟨second, other⟩ same
  obtain ⟨rfl, rfl⟩ := Submission.copy.inj same
  rfl

theorem copySteps_deferred (deferred : build.request.deferHashIndexes = true)
    : copySteps build.request early
      = nodeSteps early .empty build.nodeEntries
        ++ ((lateTables early .empty build.nodeEntries).keys.map .hashIndex
          ++ build.connectorEntries.map copyStep) := by
  simp only [copySteps, deferred, if_true]
  rw [build.take_nodes, build.drop_nodes, build.firstConnector_eq]
  rfl

theorem copySteps_eager (eager : build.request.deferHashIndexes = false)
    : copySteps build.request early
      = (build.nodeEntries ++ build.connectorEntries).map copyStep := by
  simp only [copySteps, eager, Bool.false_eq_true, if_false]
  rw [build.entries]

theorem not_isCopy_of_schema {request : LadybugWriteRequest} {step : Submission}
    (inside : step ∈ schemaSteps request) : step.isCopy = false := by
  rcases List.mem_append.mp inside with setting | schema
  · split at setting
    · rw [List.mem_singleton.mp setting]
      rfl
    · cases setting
  · obtain ⟨statement, -, rfl⟩ := List.mem_map.mp schema
    rfl

theorem hashIndex_not_mem_schema {request : LadybugWriteRequest} (table : String)
    : .hashIndex table ∉ schemaSteps request := by
  simp [schemaSteps]

theorem not_isCopy_of_postCopy {request : LadybugWriteRequest} {step : Submission}
    (inside : step ∈ postCopySteps request) : step.isCopy = false := by
  obtain ⟨statement, -, rfl⟩ := List.mem_map.mp inside
  rfl

theorem hashIndex_not_mem_postCopy {request : LadybugWriteRequest} (table : String)
    : .hashIndex table ∉ postCopySteps request := by
  simp [postCopySteps]

theorem filter_copies_eq_nil {steps : List Submission} (others : ∀ step ∈ steps, step.isCopy = false)
    : steps.filter Submission.isCopy = [] :=
  List.filter_eq_nil_iff.mpr (fun step found => by simp [others step found])

theorem filter_copySteps (entries : List (String × Nat))
    : (entries.map copyStep).filter Submission.isCopy = entries.map copyStep := by
  apply List.filter_eq_self.mpr
  intro step found
  obtain ⟨entry, -, rfl⟩ := List.mem_map.mp found
  rfl

theorem isCopy_false_of_index {tables : List String} {step : Submission}
    (inside : step ∈ tables.map Submission.hashIndex) : step.isCopy = false := by
  obtain ⟨table, -, rfl⟩ := List.mem_map.mp inside
  rfl

/-- Every COPY is scheduled once, in its order. -/
theorem schedule_copies
    : (schedule build.request early).filter Submission.isCopy
      = build.request.copyStatements.zipIdx.map copyStep := by
  have middle : (copySteps build.request early).filter Submission.isCopy
      = build.request.copyStatements.zipIdx.map copyStep := by
    rw [build.entries]
    cases deferred : build.request.deferHashIndexes with
    | true =>
        rw [copySteps_deferred deferred, List.filter_append, List.filter_append, nodeSteps_copies,
          filter_copies_eq_nil (fun _ => isCopy_false_of_index), filter_copySteps,
          List.nil_append, List.map_append]
    | false => rw [copySteps_eager deferred, filter_copySteps]
  rw [schedule, List.filter_append, List.filter_append, middle,
    filter_copies_eq_nil (fun _ => not_isCopy_of_schema),
    filter_copies_eq_nil (fun _ => not_isCopy_of_postCopy), List.nil_append, List.append_nil]

theorem copyStep_ne_hashIndex (entry : String × Nat) (table : String)
    : copyStep entry ≠ .hashIndex table := by
  simp [copyStep]

theorem count_copySteps (entries : List (String × Nat)) (table : String)
    : (entries.map copyStep).count (.hashIndex table) = 0 := by
  apply List.count_eq_zero_of_not_mem
  intro inside
  obtain ⟨entry, -, same⟩ := List.mem_map.mp inside
  exact copyStep_ne_hashIndex entry table same

theorem count_indexes {tables : List String} (distinct : tables.Nodup) (table : String)
    : (tables.map Submission.hashIndex).count (.hashIndex table)
      = if table ∈ tables then 1 else 0 := by
  have injective : Function.Injective Submission.hashIndex := fun _ _ => Submission.hashIndex.inj
  rw [(distinct.map injective).count]
  simp only [List.mem_map_of_injective injective]

theorem nodeSteps_kind {indexed : SortedSet String} {entries : List (String × Nat)}
    {step : Submission} (inside : step ∈ nodeSteps early indexed entries)
    : step.isCopy ∨ ∃ table, step = .hashIndex table := by
  induction entries generalizing indexed with
  | nil => cases inside
  | cons entry rest ih =>
      simp only [nodeSteps] at inside
      split at inside
      · rcases List.mem_cons.mp inside with rfl | inside
        · exact Or.inl rfl
        · rcases List.mem_cons.mp inside with rfl | inside
          · exact Or.inr ⟨_, rfl⟩
          · exact ih inside
      · rcases List.mem_cons.mp inside with rfl | inside
        · exact Or.inl rfl
        · exact ih inside

theorem copySteps_kind {step : Submission} (inside : step ∈ copySteps build.request early)
    : step.isCopy ∨ ∃ table, step = .hashIndex table := by
  cases deferred : build.request.deferHashIndexes with
  | true =>
      rw [copySteps_deferred deferred] at inside
      rcases List.mem_append.mp inside with node | inside
      · exact nodeSteps_kind node
      · rcases List.mem_append.mp inside with late | connector
        · obtain ⟨table, -, rfl⟩ := List.mem_map.mp late
          exact Or.inr ⟨table, rfl⟩
        · obtain ⟨entry, -, rfl⟩ := List.mem_map.mp connector
          exact Or.inl rfl
  | false =>
      rw [copySteps_eager deferred] at inside
      obtain ⟨entry, -, rfl⟩ := List.mem_map.mp inside
      exact Or.inl rfl

/-- The COPYs among the steps for nodes. -/
theorem copyStep_mem_nodeSteps {indexed : SortedSet String} {entries : List (String × Nat)}
    {entry : String × Nat} (inside : copyStep entry ∈ nodeSteps early indexed entries)
    : entry ∈ entries := by
  have copied : copyStep entry ∈ (nodeSteps early indexed entries).filter Submission.isCopy :=
    List.mem_filter.mpr ⟨inside, rfl⟩
  rw [nodeSteps_copies] at copied
  exact (List.mem_map_of_injective copyStep_injective).mp copied

theorem copyStep_not_mem_schema (entry : String × Nat)
    : copyStep entry ∉ schemaSteps build.request := by
  intro inside
  cases not_isCopy_of_schema inside

theorem copyStep_not_mem_postCopy (entry : String × Nat)
    : copyStep entry ∉ postCopySteps build.request := by
  intro inside
  cases not_isCopy_of_postCopy inside

theorem copyStep_not_mem_indexes (entry : String × Nat) (tables : List String)
    : copyStep entry ∉ tables.map Submission.hashIndex := by
  intro inside
  cases isCopy_false_of_index inside

section

variable (deferred : build.request.deferHashIndexes = true)
  (found : tablesRequiringEarlyIndex build.nodes = .ok early)

include deferred in
theorem schedule_deferred
    : schedule build.request early
      = (schemaSteps build.request ++ nodeSteps early .empty build.nodeEntries
          ++ (lateTables early .empty build.nodeEntries).keys.map .hashIndex)
        ++ (build.connectorEntries.map copyStep ++ postCopySteps build.request) := by
  rw [schedule, copySteps_deferred deferred]
  simp only [List.append_assoc]

include found in
theorem early_iff (table : String)
    : early.contains table ↔ 2 ≤ (build.nodes.map tableOf).count table :=
  tablesRequiringEarlyIndex_contains build.nodeCopies found table

include found in
theorem mem_lateTables_iff (table : String)
    : table ∈ (lateTables early .empty build.nodeEntries).keys
      ↔ (build.nodes.map tableOf).count table = 1 := by
  have few := early_iff found table
  have counted := List.count_pos_iff (a := table) (l := build.nodes.map tableOf)
  rw [lateTables_keys, build.tablesOf_nodeEntries, ← Bool.not_eq_true, few, ← counted]
  simp only [SortedMap.keys_empty, List.not_mem_nil, false_or]
  omega

include deferred found in
theorem schedule_count (table : String)
    : (schedule build.request early).count (.hashIndex table)
      = if table ∈ build.nodes.map tableOf then 1 else 0 := by
  have late := mem_lateTables_iff found table
  have counted := List.count_pos_iff (a := table) (l := build.nodes.map tableOf)
  have several : early.contains table
      = decide (2 ≤ (build.nodes.map tableOf).count table) :=
    Bool.eq_iff_iff.mpr ((early_iff found table).trans decide_eq_true_iff.symm)
  rw [schedule_deferred deferred]
  simp only [List.count_append, count_copySteps, nodeSteps_count, build.tablesOf_nodeEntries,
    count_indexes (SortedMap.keys_nodup _), contains_empty, late, several, ← counted,
    List.count_eq_zero_of_not_mem (hashIndex_not_mem_schema table),
    List.count_eq_zero_of_not_mem (hashIndex_not_mem_postCopy table)]
  generalize (build.nodes.map tableOf).count table = number
  by_cases absent : number = 0
  · simp [absent]
  · by_cases one : number = 1
    · simp [one]
    · have more : 2 ≤ number := by omega
      have filled : 0 < number := by omega
      simp [one, more, filled]

/-- The schedule of a build is as it should be. -/
theorem schedule_wellScheduled (early : SortedSet String)
    (found : tablesRequiringEarlyIndex build.nodes = .ok early)
    : WellScheduled build (schedule build.request early) where
  phases := ⟨copySteps build.request early, rfl, fun _ => copySteps_kind⟩
  copiesOnce := schedule_copies
  eager := by
    intro eager table inside
    rw [schedule, copySteps_eager eager] at inside
    rcases List.mem_append.mp inside with schema | inside
    · exact hashIndex_not_mem_schema table schema
    · rcases List.mem_append.mp inside with copied | post
      · obtain ⟨entry, -, same⟩ := List.mem_map.mp copied
        exact copyStep_ne_hashIndex entry table same
      · exact hashIndex_not_mem_postCopy table post
  indexedOnce := fun deferred table => schedule_count deferred found table
  afterFirst := by
    intro deferred table several
    have inside : table ∈ tablesOf build.nodeEntries := by
      rw [build.tablesOf_nodeEntries]
      exact List.count_pos_iff.mp (by omega)
    obtain ⟨before, entry, after, layout, named, earlier⟩ :=
      nodeSteps_first .empty build.nodeEntries ((early_iff found table).mpr several)
        (contains_empty table) inside
    refine ⟨schemaSteps build.request ++ before, entry,
      after ++ ((lateTables early .empty build.nodeEntries).keys.map .hashIndex
        ++ (build.connectorEntries.map copyStep ++ postCopySteps build.request)), ?_, named, ?_⟩
    · rw [schedule_deferred deferred, layout]
      simp only [List.append_assoc, List.cons_append]
    · intro other inside
      rcases List.mem_append.mp inside with schema | there
      · exact absurd schema (copyStep_not_mem_schema other)
      · exact earlier other there
  afterNodes := by
    intro deferred table single
    obtain ⟨tables, others, layout⟩ :=
      List.append_of_mem ((mem_lateTables_iff found table).mpr single)
    refine ⟨schemaSteps build.request ++ nodeSteps early .empty build.nodeEntries
        ++ tables.map .hashIndex,
      others.map .hashIndex
        ++ (build.connectorEntries.map copyStep ++ postCopySteps build.request), ?_, ?_⟩
    · rw [schedule_deferred deferred, layout]
      simp only [List.map_append, List.map_cons, List.append_assoc, List.cons_append]
    · intro entry inside
      rcases List.mem_append.mp inside with indexed | inside
      · exact absurd indexed (copyStep_not_mem_indexes entry others)
      · rcases List.mem_append.mp inside with connector | post
        · have copied := (List.mem_map_of_injective copyStep_injective).mp connector
          exact List.fst_mem_of_mem_zipIdx copied
        · exact absurd post (copyStep_not_mem_postCopy entry)
  beforeConnectors := by
    intro deferred
    refine ⟨_, _, schedule_deferred deferred, ?_, ?_⟩
    · intro entry inside
      rcases List.mem_append.mp inside with inside | late
      · rcases List.mem_append.mp inside with schema | node
        · exact absurd schema (copyStep_not_mem_schema entry)
        · exact List.fst_mem_of_mem_zipIdx (copyStep_mem_nodeSteps node)
      · exact absurd late (copyStep_not_mem_indexes entry _)
    · intro table inside
      rcases List.mem_append.mp inside with connector | post
      · obtain ⟨entry, -, same⟩ := List.mem_map.mp connector
        exact copyStep_ne_hashIndex entry table same
      · exact hashIndex_not_mem_postCopy table post

end

end

-----------------------------------------------------------------------------------------
-- Agreement
-----------------------------------------------------------------------------------------

theorem Writes.follows {database : Database} {α : Type} {action : Writing α}
    {steps : List Submission} {about : α → Prop} (met : Writes database [] action steps about)
    : Follows database steps (action.ran []) := by
  obtain ⟨grown, ended⟩ := met [] (List.nil_subset _)
  refine ⟨grown, ?_⟩
  cases ran : (action.ran []).1 with
  | error problem =>
      rw [ran] at ended
      exact ended.symm
  | ok result =>
      rw [ran] at ended
      exact ended.1.symm

section

variable (database : Database) (highWaterBytes : LadybugWritePhase → Nat) (build : Build)

/-- In this process the schedule is always followed. -/
theorem writeDatabaseOnce_follows {early : SortedSet String}
    (found : tablesRequiringEarlyIndex build.nodes = .ok early)
    : Follows database (schedule build.request early)
        ((writeDatabaseOnce database build.environment build.request).ran []) := by
  apply Writes.follows
  apply writeDatabaseOnce_writes build.prepared
  · rw [build.take_nodes]
    exact build.nodeCopies
  · rw [build.take_nodes]
    exact found

theorem writeDatabaseIsolated_follows {early : SortedSet String}
    (found : tablesRequiringEarlyIndex build.nodes = .ok early)
    (serviceable : build.request.deferHashIndexes = true ∨ build.connectors = [])
    : Follows database (schedule build.request early)
        ((writeDatabaseIsolated database highWaterBytes build.environment build.request).ran [])
      := by
  apply Writes.follows
  cases deferred : build.request.deferHashIndexes with
  | true =>
      apply writeDatabaseIsolated_writes build.prepared deferred
      · rw [build.take_nodes]
        exact build.nodeCopies
      · rw [build.take_nodes]
        exact found
  | false =>
      have noConnectors : build.connectors = [] := by
        rcases serviceable with same | absent
        · rw [deferred] at same
          cases same
        · exact absent
      apply writeDatabaseIsolated_writes_eager build.prepared deferred
      rw [build.copies, noConnectors, List.append_nil]
      exact build.nodeCopies

/-- When the schema is refused, no way gets beyond it. -/
theorem follows_of_refused {steps rest : List Submission} {α : Type}
    {ran : Except NativeError α × List Submission} {error : NativeError}
    (refused : database.service.accepts [] steps = false) (failed : ran.1 = .error error)
    (submitted : statementsOf ran.2 = database.service.attempted [] steps)
    : Follows database (steps ++ rest) ran := by
  constructor
  · rw [Service.attempted_append_of_refuses rest refused, submitted]
  · rw [Service.accepts_append, refused, failed]
    rfl

/-- Both ways follow one good schedule exactly if indexes are deferred, or no connections are
copied, or the database refuses the schema.
-/
theorem writesAgree_iff
    : WritesAgree database highWaterBytes build
      ↔ build.request.deferHashIndexes = true
        ∨ build.connectors = []
        ∨ database.service.accepts [] (schemaSteps build.request) = false := by
  obtain ⟨early, found⟩ := build.early_exists
  have once := writeDatabaseOnce_follows database build found
  by_cases serviceable : build.request.deferHashIndexes = true ∨ build.connectors = []
  · have isolated := writeDatabaseIsolated_follows database highWaterBytes build found serviceable
    refine iff_of_true ⟨_, schedule_wellScheduled early found, once, isolated⟩ ?_
    exact serviceable.imp_right Or.inl
  · obtain ⟨eager, filled⟩ := not_or.mp serviceable
    have eager := Bool.eq_false_iff.mpr eager
    obtain ⟨connector, isThere⟩ := List.exists_mem_of_ne_nil _ filled
    have copied : connector ∈ build.request.copyStatements := by
      rw [build.copies]
      exact List.mem_append_right _ isThere
    obtain ⟨error, failed, submitted⟩ :=
      writeDatabaseIsolated_fails database highWaterBytes build.prepared eager
        ⟨connector, copied, nodeTableName_of_connector (build.connectorCopies connector isThere)⟩ []
    have submitted : statementsOf
        ((writeDatabaseIsolated database highWaterBytes build.environment build.request).ran []).2
        = database.service.attempted [] (schemaSteps build.request) := submitted
    cases accepted : database.service.accepts [] (schemaSteps build.request) with
    | false =>
        refine iff_of_true ⟨_, schedule_wellScheduled early found, once, ?_⟩ ?_
        · exact follows_of_refused database accepted failed submitted
        · exact Or.inr (Or.inr rfl)
    | true =>
        refine iff_of_false ?_ (by simp [eager, filled])
        -- in this process the first COPY is submitted, while the phases end before it
        rintro ⟨steps, -, inProcess, inPhases⟩
        have same := submitted.symm.trans (inPhases.1.trans (inProcess.1.symm.trans once.1))
        rw [schedule, Service.attempted_append_of_accepts _ accepted,
          Service.attempted_of_accepts accepted] at same
        have nothing := Service.eq_nil_of_attempted (List.self_eq_append_right.mp same)
        have copies := (List.append_eq_nil_iff.mp nothing).1
        rw [copySteps_eager eager, List.map_eq_nil_iff] at copies
        have connectors := (List.append_eq_nil_iff.mp copies).2
        exact filled (List.zipIdx_eq_nil_iff.mp connectors)

end

-- Connections without deferral

/-- A database that accepts every statement. -/
def acceptingDatabase : Database where
  refusal _ _ := none
  checkpoints _ := rfl
  reloads _ _ _ _ := rfl

def thingCopy : String := "COPY `Thing` FROM 'rows.csv'"

def linksCopy : String := "COPY `FROM_Links` FROM 'links.csv'"

/-- Nodes and their connections, written with eager indexes. -/
def eagerBuild : Build where
  environment :=
    {
      preseedLadybugExtensions _ := .ok ()
      pathExists _ := false
      createParent _ := .ok ()
    }
  request :=
    {
      dbPath := "candidate.lbug"
      maxNumThreads := 3
      deferHashIndexes := false
      includeFts := false
      schemaStatements := ["CREATE NODE TABLE `Thing`(`id` STRING PRIMARY KEY)"]
      copyStatements := [thingCopy, linksCopy]
    }
  nodes := [thingCopy]
  connectors := [linksCopy]
  copies := rfl
  nodeCopies := List.forall_mem_singleton.mpr (by decide +kernel)
  connectorCopies :=
    List.forall_mem_singleton.mpr ⟨"FROM_Links", by decide +kernel, by decide +kernel⟩
  prepared := rfl

/-- In this process the build succeeds; its phases end with an error after the schema. -/
theorem eagerBuild_disagrees
    : ((writeDatabaseOnce acceptingDatabase eagerBuild.environment eagerBuild.request).ran
        []).1.isOk
      ∧ statementsOf
          ((writeDatabaseIsolated acceptingDatabase (fun _ => 0) eagerBuild.environment
            eagerBuild.request).ran []).2
        = schemaSteps eagerBuild.request
      ∧ ¬WritesAgree acceptingDatabase (fun _ => 0) eagerBuild := by
  have inProcess : ((writeDatabaseOnce acceptingDatabase eagerBuild.environment
      eagerBuild.request).ran []).1.isOk = true := by
    decide +kernel
  have inPhases : ((writeDatabaseIsolated acceptingDatabase (fun _ => 0) eagerBuild.environment
      eagerBuild.request).ran []).1.isOk = false := by
    decide +kernel
  refine ⟨inProcess, by decide +kernel, ?_⟩
  rintro ⟨steps, -, once, isolated⟩
  have same := inProcess.symm.trans (once.2.trans (isolated.2.symm.trans inPhases))
  cases same

end CodebaseGraph.DbWriter
