import CodebaseGraph.DbWriter.Write

/-! The statements of a build in the order in which they are due, and that both ways of writing a
database submit them in this order.
-/

namespace CodebaseGraph.DbWriter

open CodebaseGraph.Collections CodebaseGraph.Transition

-- The schedule

def tableOf (statement : String) : String := (nodeTableName statement).getD ""

def schemaSteps (request : LadybugWriteRequest) : List Submission :=
  (if request.deferHashIndexes then [.disableHashIndex] else [])
  ++ (statementPhases request.includeFts request.schemaStatements).preCopy.map .schema

def postCopySteps (request : LadybugWriteRequest) : List Submission :=
  (statementPhases request.includeFts request.schemaStatements).postCopy.map .postCopy

def copyStep (entry : String × Nat) : Submission := .copy entry.2 entry.1

/-- Node COPYs, with the indexes of the tables that several of them are for. -/
def nodeSteps (early : SortedSet String) : SortedSet String → List (String × Nat)
    → List Submission
  | _, [] => []
  | indexed, entry :: rest =>
      let table := tableOf entry.1
      if early.contains table && !indexed.contains table then
        copyStep entry :: .hashIndex table :: nodeSteps early (indexed.insert table ()) rest
      else
        copyStep entry :: nodeSteps early indexed rest

/-- The tables that are indexed after the last node COPY. -/
def lateTables (early : SortedSet String) : SortedSet String → List (String × Nat)
    → SortedSet String
  | tables, [] => tables
  | tables, entry :: rest =>
      let table := tableOf entry.1
      lateTables early (if early.contains table then tables else tables.insert table ()) rest

def copySteps (request : LadybugWriteRequest) (early : SortedSet String) : List Submission :=
  if request.deferHashIndexes then
    let connectorStart := firstConnector request.copyStatements
    let nodes := (request.copyStatements.take connectorStart).zipIdx
    nodeSteps early .empty nodes
      ++ ((lateTables early .empty nodes).keys.map .hashIndex
        ++ ((request.copyStatements.drop connectorStart).zipIdx connectorStart).map copyStep)
  else
    request.copyStatements.zipIdx.map copyStep

def schedule (request : LadybugWriteRequest) (early : SortedSet String) : List Submission :=
  schemaSteps request ++ (copySteps request early ++ postCopySteps request)

-- Submitting one statement

section

variable {database : Database} {known : List Submission}

abbrev Writes (database : Database) {α : Type} (known : List Submission) (action : Writing α)
    (steps : List Submission) (about : α → Prop) : Prop :=
  Submits database.service statementsOf known action steps about

theorem query_ran (submission : Submission) (describe : String → NativeError)
    (log : List Submission)
    : (query database submission describe).ran log
      = (
          match database.service.refusal (statementsOf log) submission with
          | none => .ok ()
          | some error => .error (describe error),
          log ++ [submission]
        ) := by
  have answered : (query database submission describe).ran log
      = (match database.service.refusal (statementsOf log) submission with
          | none => (pure () : Writing Unit)
          | some error => throw (describe error)).ran (log ++ [submission]) := rfl
  rw [answered]
  cases database.service.refusal (statementsOf log) submission with
  | none => rfl
  | some error => rfl

theorem statementsOf_append (first second : List Submission)
    : statementsOf (first ++ second) = statementsOf first ++ statementsOf second :=
  List.filter_append ..

/-- A statement of the build is submitted. -/
theorem query_writes (submission : Submission) (describe : String → NativeError)
    (essential : submission.essential)
    : Writes database known (query database submission describe) [submission]
        (fun _ => True) := by
  intro log _
  rw [query_ran]
  have last : statementsOf [submission] = [submission] := by simp [statementsOf, essential]
  simp only [statementsOf_append, last, Service.attempted, Service.accepts]
  cases database.service.refusal (statementsOf log) submission with
  | none => simp
  | some error => simp

/-- What is no statement of the build and cannot be refused changes nothing. -/
theorem query_writes_nothing (submission : Submission) (describe : String → NativeError)
    (other : submission.essential = false)
    (answered : ∀ history, known ⊆ history → database.service.refusal history submission = none)
    : Writes database known (query database submission describe) [] (fun _ => True) := by
  intro log inside
  rw [query_ran, answered _ inside]
  simp [statementsOf, other, Service.attempted, Service.accepts]

theorem checkpoint_answered (database : Database) (history : List Submission)
    : database.service.refusal history .checkpoint = none :=
  database.checkpoints _

theorem checkpoint_writes (after : String)
    : Writes database known (checkpoint database after) [] (fun _ => True) :=
  query_writes_nothing .checkpoint _ rfl (fun history _ => checkpoint_answered database history)

theorem checkpointPhase_writes (after : String)
    : Writes database known (checkpointPhase database after) [] (fun _ => True) :=
  query_writes_nothing .checkpoint _ rfl (fun history _ => checkpoint_answered database history)

/-- An extension that the schema has loaded is loaded again. -/
theorem load_writes {statement : String} (loads : isLoadStatement statement)
    (loaded : .schema statement ∈ known)
    : Writes database known (runSchemaQuery database (.load statement)) [] (fun _ => True) := by
  apply query_writes_nothing _ _ rfl
  intro history inside
  have found : statement ∈ history.map Submission.text :=
    List.mem_map.mpr ⟨.schema statement, inside loaded, rfl⟩
  exact database.reloads _ statement found loads

theorem loadRuntimeExtensions_writes {statements : List String}
    (loads : ∀ statement ∈ statements, isLoadStatement statement)
    (loaded : ∀ statement ∈ statements, .schema statement ∈ known)
    : Writes database known (loadRuntimeExtensions database statements) [] (fun _ => True) := by
  have nothing : statements.flatMap (fun _ => ([] : List Submission)) = [] := by simp
  rw [← nothing]
  exact Submits.forM (fun statement found =>
    load_writes (loads statement found) (loaded statement found))

/-- A statement followed by a checkpoint. -/
theorem writes_checkpointed {first second : Writing Unit} {steps : List Submission}
    (begun : Writes database known first steps (fun _ => True))
    (ended : ∀ known, Writes database known second [] (fun _ => True))
    : Writes database known (first >>= fun _ => second) steps (fun _ => True) := by
  have whole := begun.bind (fun _ _ => ended (known ++ steps))
  rwa [List.append_nil] at whole

theorem executeCopy_writes (request : LadybugWriteRequest) (index : Nat) (statement : String)
    : Writes database known (executeCopy database request index statement)
        [.copy index statement] (fun _ => True) :=
  writes_checkpointed (query_writes _ _ rfl) (fun _ => checkpoint_writes _)

theorem createHashIndex_writes (table : String)
    : Writes database known (createHashIndex database table) [.hashIndex table] (fun _ => True) :=
  writes_checkpointed (query_writes _ _ rfl) (fun _ => checkpoint_writes _)

-----------------------------------------------------------------------------------------
-- In this process
-----------------------------------------------------------------------------------------

theorem requireNodeTable_of_node {statement : String} (node : (nodeTableName statement).isSome)
    : requireNodeTable statement = .ok (tableOf statement) := by
  obtain ⟨table, named⟩ := Option.isSome_iff_exists.mp node
  rw [requireNodeTable, tableOf, named, Option.getD_some]

/-- Going on with a result that is there. -/
theorem fromResult_ok_bind {α β : Type} {result : Except NativeError α} {value : α}
    (next : α → Writing β) (found : result = .ok value)
    : (fromResult result >>= next) = next value := by
  rw [found, fromResult, pure_bind]

theorem forM_steps_writes {ι : Type} {items : List ι} {body : ι → Writing Unit}
    {step : ι → Submission}
    (turn : ∀ item ∈ items, Writes database known (body item) [step item] (fun _ => True))
    : Writes database known (items.forM body) (items.map step) (fun _ => True) := by
  rw [← List.flatMap_pure_eq_map]
  exact Submits.forM turn

/-- By induction on the COPYs: each is submitted, and the index of its table with the first of
several.
-/
theorem copyNodes_writes (request : LadybugWriteRequest) (early : SortedSet String)
    (nodeTables indexedTables : SortedSet String) (entries : List (String × Nat))
    (nodes : ∀ entry ∈ entries, (nodeTableName entry.1).isSome)
    : Writes database known (copyNodes database request early nodeTables indexedTables entries)
        (nodeSteps early indexedTables entries)
        (fun tables => tables = lateTables early nodeTables entries) := by
  induction entries generalizing known nodeTables indexedTables with
  | nil => exact Submits.pure rfl
  | cons entry rest ih =>
      obtain ⟨statement, index⟩ := entry
      have others := fun other found => nodes other (List.mem_cons_of_mem _ found)
      have required := requireNodeTable_of_node (nodes _ List.mem_cons_self)
      simp only [copyNodes, nodeSteps, lateTables]
      cases isEarly : early.contains (tableOf statement) with
      | false =>
          apply (executeCopy_writes request index statement).bind
          intro _ _
          rw [fromResult_ok_bind _ required, isEarly]
          exact ih (nodeTables.insert (tableOf statement) ()) indexedTables others
      | true =>
          cases done : indexedTables.contains (tableOf statement) with
          | true =>
              apply (executeCopy_writes request index statement).bind
              intro _ _
              rw [fromResult_ok_bind _ required, isEarly, done]
              exact ih nodeTables indexedTables others
          | false =>
              apply (executeCopy_writes request index statement).bind
              intro _ _
              rw [fromResult_ok_bind _ required, isEarly, done]
              apply (createHashIndex_writes (tableOf statement)).bind
              intro _ _
              exact ih nodeTables (indexedTables.insert (tableOf statement) ()) others

theorem repeatedTables_ok (seen repeated : SortedSet String) {statements : List String}
    (nodes : ∀ statement ∈ statements, (nodeTableName statement).isSome)
    : ∃ early, repeatedTables seen repeated statements = .ok early := by
  induction statements generalizing seen repeated with
  | nil => exact ⟨repeated, rfl⟩
  | cons statement rest ih =>
      have required := requireNodeTable_of_node (nodes statement List.mem_cons_self)
      have others := fun other found => nodes other (List.mem_cons_of_mem _ found)
      rw [repeatedTables, required]
      dsimp only
      split
      · exact ih seen _ others
      · exact ih _ repeated others

theorem executeDeferredIndexCopy_writes (request : LadybugWriteRequest)
    (deferred : request.deferHashIndexes = true) {early : SortedSet String}
    (nodes : ∀ statement ∈ request.copyStatements.take (firstConnector request.copyStatements),
      (nodeTableName statement).isSome)
    (tables : tablesRequiringEarlyIndex
      (request.copyStatements.take (firstConnector request.copyStatements)) = .ok early)
    : Writes database known (executeDeferredIndexCopy database request) (copySteps request early)
        (fun _ => True) := by
  simp only [executeDeferredIndexCopy, copySteps, deferred, if_true]
  rw [fromResult_ok_bind _ tables]
  apply (copyNodes_writes request early .empty .empty _ ?_).bind
  · rintro _ rfl
    apply (forM_steps_writes (fun table _ => createHashIndex_writes table)).bind
    intro _ _
    exact forM_steps_writes (fun entry _ => executeCopy_writes request entry.2 entry.1)
  · intro entry found
    exact nodes entry.1 (List.fst_mem_of_mem_zipIdx found)

end

end CodebaseGraph.DbWriter

/-! What the order of a build's statements ensures: every COPY comes once and in its place, and
every node table gets one index, before connections are copied.
-/

namespace CodebaseGraph.DbWriter

open CodebaseGraph.Collections

-- Tables with several COPYs

/-- A table that was seen counts for one COPY. -/
def seenOnce (seen : SortedSet String) (table : String) : Nat := if seen.contains table then 1 else 0

theorem contains_insert (tables : SortedSet String) (table other : String)
    : (tables.insert table ()).contains other = (decide (other = table) || tables.contains other) := by
  simp only [SortedMap.contains, SortedMap.get?_insert]
  by_cases same : other = table <;> simp [same]

theorem contains_empty (table : String) : (SortedMap.empty : SortedSet String).contains table = false :=
  rfl

theorem repeatedTables_contains {seen repeated early : SortedSet String} {statements : List String}
    (nodes : ∀ statement ∈ statements, (nodeTableName statement).isSome)
    (found : repeatedTables seen repeated statements = .ok early) (table : String)
    : early.contains table
      ↔ repeated.contains table ∨ 2 ≤ seenOnce seen table + (statements.map tableOf).count table
      := by
  induction statements generalizing seen repeated with
  | nil =>
      cases found
      simp only [List.map_nil, List.count_nil, seenOnce]
      split <;> simp
  | cons statement rest ih =>
      have required := requireNodeTable_of_node (nodes statement List.mem_cons_self)
      have others := fun other inside => nodes other (List.mem_cons_of_mem _ inside)
      rw [repeatedTables, required] at found
      dsimp only at found
      rw [List.map_cons, List.count_cons]
      cases again : seen.contains (tableOf statement) with
      | true =>
          rw [again, if_pos rfl] at found
          rw [ih others found, contains_insert]
          by_cases same : table = tableOf statement
          · subst same
            simp only [seenOnce, again, decide_true, Bool.true_or, if_true, beq_self_eq_true,
              true_or, true_iff]
            omega
          · simp [same, Ne.symm same]
      | false =>
          rw [again, if_neg Bool.false_ne_true] at found
          rw [ih others found]
          by_cases same : table = tableOf statement
          · subst same
            have one : 1 + (rest.map tableOf).count (tableOf statement)
                = 0 + ((rest.map tableOf).count (tableOf statement) + 1) := by omega
            simp only [seenOnce, contains_insert, again, decide_true, Bool.true_or, if_true,
              beq_self_eq_true, Bool.false_eq_true, if_false, one]
          · simp [seenOnce, contains_insert, same, Ne.symm same]

theorem tablesRequiringEarlyIndex_contains {early : SortedSet String} {statements : List String}
    (nodes : ∀ statement ∈ statements, (nodeTableName statement).isSome)
    (found : tablesRequiringEarlyIndex statements = .ok early) (table : String)
    : early.contains table ↔ 2 ≤ (statements.map tableOf).count table := by
  rw [repeatedTables_contains nodes found, contains_empty, seenOnce, contains_empty]
  simp

-- Node COPYs and their indexes

def Submission.isCopy : Submission → Bool
  | .copy .. => true
  | _ => false

variable {early : SortedSet String}

theorem nodeSteps_copies (early indexed : SortedSet String) (entries : List (String × Nat))
    : (nodeSteps early indexed entries).filter Submission.isCopy = entries.map copyStep := by
  induction entries generalizing indexed with
  | nil => rfl
  | cons entry rest ih =>
      simp only [nodeSteps]
      split <;> simp [copyStep, Submission.isCopy, List.filter_cons, ih]

def tablesOf (entries : List (String × Nat)) : List String :=
  entries.map (fun entry => tableOf entry.1)

/-- A table that is indexed early is indexed once, unless it has been. -/
theorem nodeSteps_count (indexed : SortedSet String) (entries : List (String × Nat))
    (table : String)
    : (nodeSteps early indexed entries).count (.hashIndex table)
      = if early.contains table && !indexed.contains table && decide (table ∈ tablesOf entries)
        then 1 else 0 := by
  induction entries generalizing indexed with
  | nil => simp [nodeSteps, tablesOf]
  | cons entry rest ih =>
      have other : copyStep entry ≠ .hashIndex table := by simp [copyStep]
      have tables : tablesOf (entry :: rest) = tableOf entry.1 :: tablesOf rest := rfl
      simp only [nodeSteps]
      by_cases same : table = tableOf entry.1
      · subst same
        split
        case _ first =>
          rw [List.count_cons_of_ne other, List.count_cons_self, ih, contains_insert]
          simp [tables, first]
        case _ later =>
          rw [List.count_cons_of_ne other, ih]
          simp [tables, later]
      · have apart : Submission.hashIndex (tableOf entry.1) ≠ .hashIndex table := by
          simpa using Ne.symm same
        split
        case _ first =>
          rw [List.count_cons_of_ne other, List.count_cons_of_ne apart, ih, contains_insert]
          simp [tables, same]
        case _ later =>
          rw [List.count_cons_of_ne other, ih]
          simp [tables, same]

/-- The first COPY for a table that is indexed early, and its index right after it. -/
theorem nodeSteps_first (indexed : SortedSet String) (entries : List (String × Nat))
    {table : String} (isEarly : early.contains table) (fresh : indexed.contains table = false)
    (inside : table ∈ tablesOf entries)
    : ∃ before entry after,
        nodeSteps early indexed entries = before ++ copyStep entry :: .hashIndex table :: after
        ∧ tableOf entry.1 = table
        ∧ ∀ other, copyStep other ∈ before → tableOf other.1 ≠ table := by
  induction entries generalizing indexed with
  | nil => cases inside
  | cons entry rest ih =>
      simp only [nodeSteps]
      by_cases same : tableOf entry.1 = table
      · subst same
        rw [isEarly, fresh]
        exact ⟨[], entry, _, rfl, rfl, fun _ absent => absurd absent List.not_mem_nil⟩
      · have later : table ∈ tablesOf rest := by
          rcases List.mem_cons.mp inside with here | there
          · exact absurd here.symm same
          · exact there
        have notThis : ∀ other, copyStep other = copyStep entry → tableOf other.1 ≠ table := by
          rintro ⟨statement, index⟩ equal
          obtain ⟨-, rfl⟩ := Submission.copy.inj equal
          exact same
        split
        case _ first =>
          have fresh' : (indexed.insert (tableOf entry.1) ()).contains table = false := by
            rw [contains_insert, fresh, Bool.or_false]
            exact decide_eq_false (Ne.symm same)
          obtain ⟨before, found, after, layout, named, earlier⟩ := ih _ fresh' later
          refine ⟨copyStep entry :: .hashIndex (tableOf entry.1) :: before, found, after, ?_, named,
            ?_⟩
          · rw [layout]
            rfl
          · intro other inside
            rcases List.mem_cons.mp inside with here | there
            · exact notThis other here
            · rcases List.mem_cons.mp there with here | there
              · cases here
              · exact earlier other there
        case _ =>
          obtain ⟨before, found, after, layout, named, earlier⟩ := ih indexed fresh later
          refine ⟨copyStep entry :: before, found, after, ?_, named, ?_⟩
          · rw [layout]
            rfl
          · intro other inside
            rcases List.mem_cons.mp inside with here | there
            · exact notThis other here
            · exact earlier other there

theorem lateTables_keys (tables : SortedSet String) (entries : List (String × Nat))
    (table : String)
    : table ∈ (lateTables early tables entries).keys
      ↔ table ∈ tables.keys ∨ early.contains table = false ∧ table ∈ tablesOf entries := by
  induction entries generalizing tables with
  | nil => simp [lateTables, tablesOf]
  | cons entry rest ih =>
      have whole : tablesOf (entry :: rest) = tableOf entry.1 :: tablesOf rest := rfl
      simp only [lateTables]
      rw [ih, whole, List.mem_cons]
      by_cases same : table = tableOf entry.1
      · subst same
        cases early.contains (tableOf entry.1) <;> simp [SortedMap.mem_keys_insert]
      · split <;> simp [same, SortedMap.mem_keys_insert]

end CodebaseGraph.DbWriter
