import CodebaseGraph.DbWriter.Schedule

/-! Writing a database in this process and phase by phase: both submit the scheduled statements,
but for phases without deferral when there are connections to copy.
-/

namespace CodebaseGraph.DbWriter

open CodebaseGraph.Collections CodebaseGraph.Transition

section

variable {database : Database} {known : List Submission}

-- In this process

theorem schemaQueries_writes (database : Database) (known : List Submission)
    (statements : List String) (step : String → Submission)
    (essential : ∀ statement, (step statement).essential)
    : Writes database known
        (statements.forM (fun statement => runSchemaQuery database (step statement)))
        (statements.map step) (fun _ => True) :=
  forM_steps_writes (fun statement _ => query_writes _ _ (essential statement))

theorem writeDatabaseOnce_writes {environment : Environment} {request : LadybugWriteRequest}
    {early : SortedSet String} (prepared : prepareCandidate environment request = .ok ())
    (nodes : ∀ statement ∈ request.copyStatements.take (firstConnector request.copyStatements),
      (nodeTableName statement).isSome)
    (tables : tablesRequiringEarlyIndex
      (request.copyStatements.take (firstConnector request.copyStatements)) = .ok early)
    : Writes database known (writeDatabaseOnce database environment request)
        (schedule request early) (fun _ => True) := by
  have schema := fun known =>
    schemaQueries_writes database known
      (statementPhases request.includeFts request.schemaStatements).preCopy .schema (fun _ => rfl)
  have postCopy := fun known =>
    schemaQueries_writes database known
      (statementPhases request.includeFts request.schemaStatements).postCopy .postCopy
      (fun _ => rfl)
  rw [writeDatabaseOnce, fromResult_ok_bind _ prepared, schedule, schemaSteps, List.append_assoc]
  cases deferred : request.deferHashIndexes with
  | true =>
      apply Submits.bind (query_writes .disableHashIndex _ rfl)
      intro _ _
      apply (schema _).bind
      intro _ _
      apply (executeDeferredIndexCopy_writes request deferred nodes tables).bind
      intro _ _
      exact postCopy _
  | false =>
      apply (schema _).bind
      intro _ _
      simp only [copySteps, deferred, Bool.false_eq_true, if_false]
      apply Submits.bind
        (forM_steps_writes (fun entry _ => executeCopy_writes request entry.2 entry.1))
      intro _ _
      exact postCopy _

-----------------------------------------------------------------------------------------
-- Phase by phase
-----------------------------------------------------------------------------------------

variable {highWaterBytes : LadybugWritePhase → Nat}

theorem runPhase_writes {phase : LadybugWritePhase} {steps : List Submission}
    (met : Writes database known (executePhase database phase) steps (fun _ => True))
    : Writes database known (runPhase database highWaterBytes phase) steps (fun _ => True) := by
  have returned : Writes database (known ++ steps) (pure (highWaterBytes phase)) []
      (fun _ => True) :=
    Submits.pure trivial
  have whole := met.bind (fun _ _ => returned)
  rwa [List.append_nil] at whole

theorem schemaPhase_writes (request : LadybugWriteRequest)
    : Writes database known
        (runPhase database highWaterBytes
          (.schema request.deferHashIndexes
            (statementPhases request.includeFts request.schemaStatements).preCopy))
        (schemaSteps request) (fun _ => True) := by
  have schema := fun known =>
    writes_checkpointed
      (schemaQueries_writes database known
        (statementPhases request.includeFts request.schemaStatements).preCopy .schema
        (fun _ => rfl))
      (fun _ => checkpointPhase_writes "schema creation")
  apply runPhase_writes
  rw [executePhase, schemaSteps]
  cases request.deferHashIndexes with
  | true =>
      apply Submits.bind (query_writes .disableHashIndex _ rfl)
      intro _ _
      exact schema _
  | false => exact schema known

theorem indexPhase_writes (table : String)
    : Writes database known (runPhase database highWaterBytes (.index table)) [.hashIndex table]
        (fun _ => True) :=
  runPhase_writes
    (writes_checkpointed (query_writes _ _ rfl) (fun _ => checkpointPhase_writes _))

/-- A statement on a connection for which extensions are loaded again. -/
theorem writes_loaded {runtimeLoads : List String} {rest : Writing Unit} {steps : List Submission}
    (loads : ∀ statement ∈ runtimeLoads, isLoadStatement statement)
    (loaded : ∀ statement ∈ runtimeLoads, .schema statement ∈ known)
    (met : ∀ known, Writes database known rest steps (fun _ => True))
    : Writes database known (loadRuntimeExtensions database runtimeLoads >>= fun _ => rest) steps
        (fun _ => True) :=
  (loadRuntimeExtensions_writes loads loaded).bind (fun _ _ => met (known ++ []))

theorem copyPhase_writes (request : LadybugWriteRequest) (index : Nat) (statement : String)
    {runtimeLoads : List String} (loads : ∀ statement ∈ runtimeLoads, isLoadStatement statement)
    (loaded : ∀ statement ∈ runtimeLoads, .schema statement ∈ known)
    : Writes database known
        (runPhase database highWaterBytes (copyPhase request index statement runtimeLoads))
        [.copy index statement] (fun _ => True) :=
  runPhase_writes
    (writes_loaded loads loaded (fun _ =>
      writes_checkpointed (query_writes _ _ rfl) (fun _ => checkpointPhase_writes _)))

theorem postCopyPhase_writes (statement : String) {runtimeLoads : List String}
    (loads : ∀ statement ∈ runtimeLoads, isLoadStatement statement)
    (loaded : ∀ statement ∈ runtimeLoads, .schema statement ∈ known)
    : Writes database known
        (runPhase database highWaterBytes (.postCopy statement runtimeLoads))
        [.postCopy statement] (fun _ => True) :=
  runPhase_writes
    (writes_loaded loads loaded (fun _ =>
      writes_checkpointed (query_writes _ _ rfl) (fun _ => checkpointPhase_writes _)))

theorem executeAll_writes {ι : Type} {items : List ι} {phase : ι → LadybugWritePhase}
    {step : ι → Submission} (highWater : Nat)
    (turn : ∀ known' item, known ⊆ known' → item ∈ items →
      Writes database known' (runPhase database highWaterBytes (phase item)) [step item]
        (fun _ => True))
    : Writes database known
        (executeAll (runPhase database highWaterBytes) highWater (items.map phase))
        (items.map step) (fun _ => True) := by
  induction items generalizing known highWater with
  | nil => exact Submits.pure trivial
  | cons item rest ih =>
      apply (turn known item (List.Subset.refl _) List.mem_cons_self).bind
      intro observed _
      apply ih
      intro known' other inside found
      exact turn known' other (List.Subset.trans (List.subset_append_left _ _) inside)
        (List.mem_cons_of_mem item found)

/-- By induction on the COPYs, as in this process. -/
theorem copyNodePhases_writes {request : LadybugWriteRequest}
    (deferred : request.deferHashIndexes = true) {runtimeLoads : List String}
    (loads : ∀ statement ∈ runtimeLoads, isLoadStatement statement)
    (loaded : ∀ statement ∈ runtimeLoads, .schema statement ∈ known) (early : SortedSet String)
    (nodeTables indexedTables : SortedSet String) (highWater : Nat)
    (entries : List (String × Nat))
    (nodes : ∀ entry ∈ entries, (nodeTableName entry.1).isSome)
    : Writes database known
        (copyNodePhases (runPhase database highWaterBytes) request runtimeLoads early nodeTables
          indexedTables highWater entries)
        (nodeSteps early indexedTables entries)
        (fun result => result.1 = lateTables early nodeTables entries) := by
  induction entries generalizing known nodeTables indexedTables highWater with
  | nil => exact Submits.pure rfl
  | cons entry rest ih =>
      obtain ⟨statement, index⟩ := entry
      have others := fun other found => nodes other (List.mem_cons_of_mem _ found)
      have required := requireNodeTable_of_node (nodes _ List.mem_cons_self)
      have later : ∀ known', known ⊆ known' → ∀ statement ∈ runtimeLoads,
          Submission.schema statement ∈ known' :=
        fun known' inside other found => inside (loaded other found)
      simp only [copyNodePhases, nodeSteps, lateTables, deferred, if_true]
      cases isEarly : early.contains (tableOf statement) with
      | false =>
          apply (copyPhase_writes request index statement loads loaded).bind
          intro observed _
          rw [fromResult_ok_bind _ required, isEarly]
          exact ih (later _ (List.subset_append_left _ _)) _ _ _ others
      | true =>
          cases done : indexedTables.contains (tableOf statement) with
          | true =>
              apply (copyPhase_writes request index statement loads loaded).bind
              intro observed _
              rw [fromResult_ok_bind _ required, isEarly, done]
              exact ih (later _ (List.subset_append_left _ _)) _ _ _ others
          | false =>
              apply (copyPhase_writes request index statement loads loaded).bind
              intro observed _
              rw [fromResult_ok_bind _ required, isEarly, done]
              apply (indexPhase_writes (tableOf statement)).bind
              intro observed _
              apply ih (later _ _) _ _ _ others
              rw [List.append_assoc]
              exact List.subset_append_left _ _

/-- Without deferral there are no indexes in between. -/
theorem copyNodePhases_writes_eager {request : LadybugWriteRequest}
    (eager : request.deferHashIndexes = false) {runtimeLoads : List String}
    (loads : ∀ statement ∈ runtimeLoads, isLoadStatement statement)
    (loaded : ∀ statement ∈ runtimeLoads, .schema statement ∈ known) (early : SortedSet String)
    (nodeTables indexedTables : SortedSet String) (highWater : Nat)
    (entries : List (String × Nat))
    : Writes database known
        (copyNodePhases (runPhase database highWaterBytes) request runtimeLoads early nodeTables
          indexedTables highWater entries)
        (entries.map copyStep) (fun result => result.1 = nodeTables) := by
  induction entries generalizing known highWater with
  | nil => exact Submits.pure rfl
  | cons entry rest ih =>
      simp only [copyNodePhases, eager, Bool.false_eq_true, if_false]
      apply (copyPhase_writes request entry.2 entry.1 loads loaded).bind
      intro observed _
      apply ih
      exact fun other found => List.mem_append_left _ (loaded other found)

/-- The LOAD statements of the schema. -/
def runtimeLoads (request : LadybugWriteRequest) : List String :=
  (statementPhases request.includeFts request.schemaStatements).preCopy.filter isLoadStatement

theorem runtimeLoads_loads (request : LadybugWriteRequest)
    : ∀ statement ∈ runtimeLoads request, isLoadStatement statement :=
  fun _ found => (List.mem_filter.mp found).2

theorem runtimeLoads_loaded (request : LadybugWriteRequest)
    : ∀ statement ∈ runtimeLoads request, .schema statement ∈ schemaSteps request :=
  fun _ found => List.mem_append_right _ (List.mem_map_of_mem (List.mem_filter.mp found).1)

theorem writeDatabaseIsolated_writes {environment : Environment} {request : LadybugWriteRequest}
    {early : SortedSet String} (prepared : prepareCandidate environment request = .ok ())
    (deferred : request.deferHashIndexes = true)
    (nodes : ∀ statement ∈ request.copyStatements.take (firstConnector request.copyStatements),
      (nodeTableName statement).isSome)
    (tables : tablesRequiringEarlyIndex
      (request.copyStatements.take (firstConnector request.copyStatements)) = .ok early)
    : Writes database known (writeDatabaseIsolated database highWaterBytes environment request)
        (schedule request early) (fun _ => True) := by
  have loads := runtimeLoads_loads request
  have loaded := runtimeLoads_loaded request
  let connectorStart := firstConnector request.copyStatements
  let nodeEntries := (request.copyStatements.take connectorStart).zipIdx
  have order : schedule request early
      = schemaSteps request
        ++ (nodeSteps early .empty nodeEntries
        ++ ((lateTables early .empty nodeEntries).keys.map .hashIndex
        ++ (((request.copyStatements.drop connectorStart).zipIdx connectorStart).map copyStep
        ++ (postCopySteps request ++ [])))) := by
    simp [schedule, copySteps, deferred, nodeEntries, connectorStart]
  have schemaKnown : ∀ known', known ++ schemaSteps request ⊆ known' →
      ∀ statement ∈ runtimeLoads request, Submission.schema statement ∈ known' :=
    fun known' inside other found => inside (List.mem_append_right _ (loaded other found))
  rw [writeDatabaseIsolated, writeDatabaseIsolatedWith, fromResult_ok_bind _ prepared, order]
  apply (schemaPhase_writes request).bind
  intro highWater _
  simp only [deferred, if_true]
  rw [fromResult_ok_bind _ tables]
  apply (copyNodePhases_writes deferred loads (schemaKnown _ (List.Subset.refl _)) early .empty
    .empty highWater _ (fun entry found =>
      nodes entry.1 (List.fst_mem_of_mem_zipIdx found))).bind
  rintro ⟨tables, highWater⟩ rfl
  apply (executeAll_writes highWater (fun _ table _ _ => indexPhase_writes table)).bind
  intro highWater _
  apply (executeAll_writes highWater (fun _ entry _ _ =>
    copyPhase_writes request entry.2 entry.1 (fun _ absent => absurd absent List.not_mem_nil)
      (fun _ absent => absurd absent List.not_mem_nil))).bind
  intro highWater _
  apply (executeAll_writes highWater (fun known' statement inside _ =>
    postCopyPhase_writes statement loads (schemaKnown known' (List.Subset.trans ?_ inside)))).bind
  · intro highWater _
    exact Submits.pure trivial
  · simp only [List.append_assoc]
    exact List.append_subset.mpr
      ⟨List.subset_append_left _ _,
        List.subset_append_of_subset_right _ (List.subset_append_left _ _)⟩

/-- Without deferral, phases submit the schedule if all COPYs are for nodes. -/
theorem writeDatabaseIsolated_writes_eager {environment : Environment}
    {request : LadybugWriteRequest} (prepared : prepareCandidate environment request = .ok ())
    (eager : request.deferHashIndexes = false)
    (nodes : ∀ statement ∈ request.copyStatements, (nodeTableName statement).isSome)
    (early : SortedSet String)
    : Writes database known (writeDatabaseIsolated database highWaterBytes environment request)
        (schedule request early) (fun _ => True) := by
  have loads := runtimeLoads_loads request
  have loaded := runtimeLoads_loaded request
  obtain ⟨tables, checked⟩
      : ∃ tables, tablesRequiringEarlyIndex request.copyStatements = .ok tables :=
    repeatedTables_ok .empty .empty nodes
  have whole : request.copyStatements.take request.copyStatements.length = request.copyStatements :=
    List.take_length
  have order : schedule request early
      = schemaSteps request
        ++ (request.copyStatements.zipIdx.map copyStep
        ++ ([] ++ ([] ++ (postCopySteps request ++ [])))) := by
    simp [schedule, copySteps, eager]
  have schemaKnown : ∀ known', known ++ schemaSteps request ⊆ known' →
      ∀ statement ∈ runtimeLoads request, Submission.schema statement ∈ known' :=
    fun known' inside other found => inside (List.mem_append_right _ (loaded other found))
  have nothing : ∀ known highWater,
      Writes database known (executeAll (runPhase database highWaterBytes) highWater []) []
        (fun _ => True) :=
    fun _ _ => Submits.pure trivial
  rw [writeDatabaseIsolated, writeDatabaseIsolatedWith, fromResult_ok_bind _ prepared, order]
  apply (schemaPhase_writes request).bind
  intro highWater _
  simp only [eager, Bool.false_eq_true, if_false, whole, List.drop_length, List.zipIdx_nil,
    List.map_nil]
  rw [fromResult_ok_bind _ checked]
  apply (copyNodePhases_writes_eager eager loads (schemaKnown _ (List.Subset.refl _)) tables
    .empty .empty highWater _).bind
  rintro ⟨_, highWater⟩ rfl
  apply (nothing _ _).bind
  intro highWater _
  apply (nothing _ _).bind
  intro highWater _
  apply (executeAll_writes highWater (fun known' statement inside _ =>
    postCopyPhase_writes statement loads (schemaKnown known' (List.Subset.trans ?_ inside)))).bind
  · intro highWater _
    exact Submits.pure trivial
  · simp only [List.append_assoc]
    exact List.append_subset.mpr
      ⟨List.subset_append_left _ _,
        List.subset_append_of_subset_right _ (List.subset_append_left _ _)⟩

theorem repeatedTables_error (seen repeated : SortedSet String) {statements : List String}
    (other : ∃ statement ∈ statements, nodeTableName statement = none)
    : ∃ error, repeatedTables seen repeated statements = .error error := by
  induction statements generalizing seen repeated with
  | nil => simp at other
  | cons statement rest ih =>
      rw [repeatedTables, requireNodeTable]
      cases named : nodeTableName statement with
      | none => exact ⟨_, rfl⟩
      | some table =>
          have later : ∃ statement ∈ rest, nodeTableName statement = none := by
            simpa [named] using other
          dsimp only
          split
          · exact ih seen _ later
          · exact ih _ repeated later

/-- Without deferral, phases end after the schema if some COPY is not for nodes. -/
theorem writeDatabaseIsolated_fails (database : Database)
    (highWaterBytes : LadybugWritePhase → Nat) {environment : Environment}
    {request : LadybugWriteRequest} (prepared : prepareCandidate environment request = .ok ())
    (eager : request.deferHashIndexes = false)
    (other : ∃ statement ∈ request.copyStatements, nodeTableName statement = none)
    (log : List Submission)
    : ∃ error,
        ((writeDatabaseIsolated database highWaterBytes environment request).ran log).1
          = .error error
        ∧ statementsOf
            ((writeDatabaseIsolated database highWaterBytes environment request).ran log).2
          = statementsOf log
            ++ database.service.attempted (statementsOf log) (schemaSteps request) := by
  have whole : request.copyStatements.take request.copyStatements.length = request.copyStatements :=
    List.take_length
  obtain ⟨problem, rejected⟩ := repeatedTables_error .empty .empty other
  have schema : Writes database []
      (runPhase database highWaterBytes
        (.schema request.deferHashIndexes
          (statementPhases request.includeFts request.schemaStatements).preCopy))
      (schemaSteps request) (fun _ => True) :=
    schemaPhase_writes request
  obtain ⟨grown, -⟩ := schema log (List.nil_subset _)
  rw [writeDatabaseIsolated, writeDatabaseIsolatedWith, fromResult_ok_bind _ prepared]
  simp only [Submitting.ran_bind, eager, Bool.false_eq_true, if_false, whole] at grown ⊢
  cases ran : (runPhase database highWaterBytes (.schema false
      (statementPhases request.includeFts request.schemaStatements).preCopy)).ran log with
  | mk result next =>
      rw [ran] at grown
      cases result with
      | error error => exact ⟨error, rfl, grown⟩
      | ok highWater =>
          rw [tablesRequiringEarlyIndex, rejected]
          exact ⟨problem, rfl, grown⟩

end

end CodebaseGraph.DbWriter
