import Mathlib.Data.String.Basic
import CodebaseGraph.Basic
import CodebaseGraph.Collections.SortedMap
import CodebaseGraph.Transition.Submitting
import CodebaseGraph.Wiki.Search.SearchIndex

/-! The statements of a database build (`src/db_writer/schema.rs`, `src/db_writer/write.rs`): which
come before the rows are copied and which after, and what a COPY is for.
-/

namespace CodebaseGraph.DbWriter

open CodebaseGraph.Wiki CodebaseGraph.Wiki.Search

structure LadybugWriteRequest where
  dbPath : String
  maxNumThreads : Nat
  deferHashIndexes : Bool
  includeFts : Bool
  schemaStatements : List String
  copyStatements : List String

-- Phases of the schema

def trimStart (text : String) : String := trimStartOf isWhitespace text

def trimEnd (text : String) : String := trimEndOf isWhitespace text

/-- A statement that begins, after white space, with an ASCII text in any case. -/
def beginsIgnoringCase (start statement : String) : Bool :=
  startsWith (toAsciiLowercase (trimStart statement)) (toAsciiLowercase start)

def eqIgnoreAsciiCase (first second : String) : Bool :=
  toAsciiLowercase first = toAsciiLowercase second

def isPostCopyStatement (statement : String) : Bool :=
  beginsIgnoringCase "CALL CREATE_FTS_INDEX" statement

def isFtsStatement (statement : String) : Bool :=
  let bare := trimEnd (trimEndOf (· = ';') (trim statement))
  eqIgnoreAsciiCase bare "INSTALL fts" || eqIgnoreAsciiCase bare "LOAD fts"
    || isPostCopyStatement bare

def isLoadStatement (statement : String) : Bool := beginsIgnoringCase "LOAD " statement

structure DatabaseStatementPhases where
  preCopy : List String
  postCopy : List String
deriving DecidableEq, Repr

def statementPhases (includeFts : Bool) (provided : List String) : DatabaseStatementPhases :=
  if provided.isEmpty then
    {
      preCopy :=
        ["INSTALL json", "LOAD json"] ++ if includeFts then ["INSTALL fts", "LOAD fts"] else []
      postCopy := []
    }
  else
    let kept :=
      provided.filter (fun statement => includeFts || !isFtsStatement statement)
    {
      preCopy := kept.filter (fun statement => !isPostCopyStatement statement)
      postCopy := kept.filter isPostCopyStatement
    }

-- Targets of COPY statements

/-- The text before the first occurrence of another. -/
def textBefore (separator text : String) : Option String :=
  (text.toList.tails.findIdx? (fun tail => separator.toList.isPrefixOf tail)).map
    (fun position => String.ofList (text.toList.take position))

-- What a COPY is for is looked up, never computed, in the proofs about the order of statements.
@[irreducible]
def copyTarget (statement : String) : String :=
  ((stripPrefix (trimStart statement) "COPY ").bind (textBefore " FROM ")).getD "unknown target"

def isTableCharacter (character : Char) : Bool :=
  character.isAlphanum || character = '_'

def isConnectorTable (table : String) : Bool := startsWith table "FROM_" || startsWith table "TO_"

/-- The table between the quotes of a target. -/
def quotedTable (target : String) : Option String :=
  (stripPrefix target "`").bind (fun rest => stripSuffix rest "`")

@[irreducible]
def nodeTableName (statement : String) : Option String :=
  (quotedTable (copyTarget statement)).bind (fun table =>
    if isConnectorTable table then
      none
    else if table.toList.all isTableCharacter then
      some table
    else
      none)

/-- A COPY of connections between tables. -/
def IsConnectorCopy (statement : String) : Prop :=
  ∃ table, quotedTable (copyTarget statement) = some table ∧ isConnectorTable table

theorem nodeTableName_of_connector {statement : String} (connector : IsConnectorCopy statement)
    : nodeTableName statement = none := by
  obtain ⟨table, quoted, kind⟩ := connector
  simp [nodeTableName, quoted, kind]

end CodebaseGraph.DbWriter

/-! The two ways a database is written (`src/db_writer/write.rs`): in this process, over one
connection, and as a sequence of phases, each run by a process with a connection of its own
(`src/db_writer/phase.rs`).
-/

namespace CodebaseGraph.DbWriter

open CodebaseGraph.Collections CodebaseGraph.Transition

-- The database

/-- What is submitted to a database, told apart by the part of the build it belongs to. -/
inductive Submission where
  | disableHashIndex
  | schema (statement : String)
  | load (statement : String)
  | copy (index : Nat) (statement : String)
  | hashIndex (table : String)
  | postCopy (statement : String)
  | checkpoint
deriving DecidableEq, Repr

namespace Submission

def text : Submission → String
  | disableHashIndex => "CALL enable_default_hash_index=false"
  | schema statement | load statement | copy _ statement | postCopy statement => statement
  | hashIndex table =>
      "CREATE HASH INDEX `pk_" ++ table ++ "_id` IF NOT EXISTS FOR (node:`" ++ table
        ++ "`) ON (node.id)"
  | checkpoint => "CHECKPOINT"

/-- A checkpoint, and a LOAD for a new connection, are no statements of the build itself. -/
def essential : Submission → Bool
  | load _ | checkpoint => false
  | _ => true

end Submission

/-- A database that can always be opened. It answers a statement by the statements of the build
before it: success, or an error. It can always be checkpointed, and an extension that was loaded
once can be loaded again.
-/
structure Database where
  refusal : List String → String → Option String
  checkpoints : ∀ history, refusal history "CHECKPOINT" = none
  reloads : ∀ history statement, statement ∈ history → isLoadStatement statement →
    refusal history statement = none

/-- The statements of the build among all that were submitted. -/
def statementsOf (log : List Submission) : List Submission := log.filter Submission.essential

def Database.service (database : Database) : Service Submission String where
  refusal history submission := database.refusal (history.map Submission.text) submission.text

abbrev Writing (α : Type) := Submitting (List Submission) NativeError α

section

variable (database : Database)

/-- Submits a statement; its error is described by the caller. -/
def query (submission : Submission) (describe : String → NativeError) : Writing Unit := do
  let log ← get
  set (log ++ [submission])
  match database.service.refusal (statementsOf log) submission with
  | none => pure ()
  | some error => throw (describe error)

def runSchemaQuery (submission : Submission) : Writing Unit :=
  query database submission .database

def checkpoint (after : String) : Writing Unit :=
  query database .checkpoint (fun error => .database s!"checkpoint after {after} failed: {error}")

def disableHashIndex : Writing Unit :=
  query database .disableHashIndex
    (fun error =>
      .database s!"failed to disable eager primary-key indexes for bulk load: {error}")

def createHashIndex (table : String) : Writing Unit := do
  query database (.hashIndex table)
    (fun error =>
      .database s!"failed to build primary-key index for node table {table}: {error}")
  checkpoint database s!"primary-key index for {table}"

/-- What a COPY is called in its errors. -/
def copyLabel (total index : Nat) (statement : String) : String :=
  s!"COPY statement {index + 1}/{total} ({copyTarget statement})"

def executeCopy (request : LadybugWriteRequest) (index : Nat) (statement : String)
    : Writing Unit := do
  let label := copyLabel request.copyStatements.length index statement
  query database (.copy index statement) (fun error => .database s!"{label} failed: {error}")
  checkpoint database label

end

-- Tables

def requireNodeTable (statement : String) : Except NativeError String :=
  match nodeTableName statement with
  | some table => .ok table
  | none =>
      .error
        (.invalidInput s!"node COPY statement has an unsupported target: {copyTarget statement}")

def repeatedTables (seen repeated : SortedSet String) : List String
    → Except NativeError (SortedSet String)
  | [] => .ok repeated
  | statement :: rest =>
      match requireNodeTable statement with
      | .error error => .error error
      | .ok table =>
          if seen.contains table then
            repeatedTables seen (repeated.insert table ()) rest
          else
            repeatedTables (seen.insert table ()) repeated rest

def tablesRequiringEarlyIndex (nodeCopyStatements : List String)
    : Except NativeError (SortedSet String) :=
  repeatedTables .empty .empty nodeCopyStatements

/-- The position of the first COPY that is not for a node table. -/
def firstConnector (copyStatements : List String) : Nat :=
  copyStatements.findIdx (fun statement => (nodeTableName statement).isNone)

/-- Goes on with a result, or fails with its error. -/
def fromResult {α : Type} (result : Except NativeError α) : Writing α :=
  match result with
  | .ok value => pure value
  | .error error => throw error

-- In this process

/-- What the preparation of a candidate finds: the outcome of seeding the extensions, whether
there is a file at its path, and the outcome of making the directory above it.
-/
structure Environment where
  preseedLadybugExtensions : Bool → Except NativeError Unit
  pathExists : String → Bool
  createParent : String → Except NativeError Unit

def prepareCandidate (environment : Environment) (request : LadybugWriteRequest)
    : Except NativeError Unit :=
  match environment.preseedLadybugExtensions request.includeFts with
  | .error error => .error error
  | .ok () =>
      if environment.pathExists request.dbPath then
        .error (.invalidInput s!"candidate database path already exists: {request.dbPath}")
      else
        environment.createParent request.dbPath

section

variable (database : Database)

/-- Copies the rows of nodes, and indexes a table that has several COPYs after its first one.
Returns the tables that are still to be indexed.
-/
def copyNodes (request : LadybugWriteRequest) (early : SortedSet String)
    (nodeTables indexedTables : SortedSet String)
    : List (String × Nat) → Writing (SortedSet String)
  | [] => pure nodeTables
  | (statement, index) :: rest => do
      executeCopy database request index statement
      let table ← fromResult (requireNodeTable statement)
      if early.contains table then
        if indexedTables.contains table then
          copyNodes request early nodeTables indexedTables rest
        else
          createHashIndex database table
          copyNodes request early nodeTables (indexedTables.insert table ()) rest
      else
        copyNodes request early (nodeTables.insert table ()) indexedTables rest

def executeDeferredIndexCopy (request : LadybugWriteRequest) : Writing Unit := do
  let connectorStart := firstConnector request.copyStatements
  let nodes := request.copyStatements.take connectorStart
  let early ← fromResult (tablesRequiringEarlyIndex nodes)
  let nodeTables ← copyNodes database request early .empty .empty nodes.zipIdx
  nodeTables.keys.forM (createHashIndex database)
  ((request.copyStatements.drop connectorStart).zipIdx connectorStart).forM
    (fun entry => executeCopy database request entry.2 entry.1)

def writeDatabaseOnce (environment : Environment) (request : LadybugWriteRequest)
    : Writing Unit := do
  fromResult (prepareCandidate environment request)
  if request.deferHashIndexes then
    disableHashIndex database
  let phases := statementPhases request.includeFts request.schemaStatements
  phases.preCopy.forM (fun statement => runSchemaQuery database (.schema statement))
  if request.deferHashIndexes then
    executeDeferredIndexCopy database request
  else
    request.copyStatements.zipIdx.forM
      (fun entry => executeCopy database request entry.2 entry.1)
  phases.postCopy.forM (fun statement => runSchemaQuery database (.postCopy statement))

end

end CodebaseGraph.DbWriter

/-! Writing a database phase by phase (`src/db_writer/write.rs`, `src/db_writer/phase.rs`). -/

namespace CodebaseGraph.DbWriter

open CodebaseGraph.Collections CodebaseGraph.Transition

inductive LadybugWritePhase where
  | schema (deferHashIndexes : Bool) (statements : List String)
  | copy (index total : Nat) (statement : String) (runtimeLoads : List String)
  | index (table : String)
  | postCopy (statement : String) (runtimeLoads : List String)
deriving DecidableEq, Repr

structure LadybugWriteMetrics where
  highWaterBytes : Nat := 0
deriving DecidableEq, Repr

-- One phase

section

variable (database : Database)

def checkpointPhase (after : String) : Writing Unit :=
  query database .checkpoint
    (fun error =>
      .database s!"checkpoint after {after} failed: {error}; operation=explicit-CHECKPOINT")

def loadRuntimeExtensions (statements : List String) : Writing Unit :=
  statements.forM (fun statement => runSchemaQuery database (.load statement))

/-- A phase on a connection that is opened for it. -/
def executePhase : LadybugWritePhase → Writing Unit
  | .schema deferHashIndexes statements => do
      if deferHashIndexes then
        disableHashIndex database
      statements.forM (fun statement => runSchemaQuery database (.schema statement))
      checkpointPhase database "schema creation"
  | .copy index total statement runtimeLoads => do
      loadRuntimeExtensions database runtimeLoads
      let label := copyLabel total index statement
      query database (.copy index statement)
        (fun error => .database s!"{label} failed: {error}; operation=COPY-query")
      checkpointPhase database label
  | .index table => do
      query database (.hashIndex table)
        (fun error =>
          .database s!"failed to build primary-key index for node table {table}: {error}")
      checkpointPhase database s!"primary-key index for {table}"
  | .postCopy statement runtimeLoads => do
      loadRuntimeExtensions database runtimeLoads
      runSchemaQuery database (.postCopy statement)
      checkpointPhase database "post-COPY schema creation"

/-- A phase with the memory that was seen in use meanwhile. -/
def runPhase (highWaterBytes : LadybugWritePhase → Nat) (phase : LadybugWritePhase)
    : Writing Nat := do
  executePhase database phase
  return highWaterBytes phase

end

-- All phases

section

variable (execute : LadybugWritePhase → Writing Nat)

def copyPhase (request : LadybugWriteRequest) (index : Nat) (statement : String)
    (runtimeLoads : List String) : LadybugWritePhase :=
  .copy index request.copyStatements.length statement runtimeLoads

/-- Runs phases one after another; the result is the highest mark of memory. -/
def executeAll : Nat → List LadybugWritePhase → Writing Nat
  | highWater, [] => pure highWater
  | highWater, phase :: rest => do
      let observed ← execute phase
      executeAll (max highWater observed) rest

/-- The phases of the first COPYs, with those of the indexes in between when they are deferred.
Returns the tables still to be indexed with the mark of memory.
-/
def copyNodePhases (request : LadybugWriteRequest) (runtimeLoads : List String)
    (early : SortedSet String) (nodeTables indexedTables : SortedSet String) (highWater : Nat)
    : List (String × Nat) → Writing (SortedSet String × Nat)
  | [] => pure (nodeTables, highWater)
  | (statement, index) :: rest => do
      let observed ← execute (copyPhase request index statement runtimeLoads)
      let highWater := max highWater observed
      if request.deferHashIndexes then
        let table ← fromResult (requireNodeTable statement)
        if early.contains table then
          if indexedTables.contains table then
            copyNodePhases request runtimeLoads early nodeTables indexedTables highWater rest
          else
            let observed ← execute (.index table)
            copyNodePhases request runtimeLoads early nodeTables (indexedTables.insert table ())
              (max highWater observed) rest
        else
          copyNodePhases request runtimeLoads early (nodeTables.insert table ()) indexedTables
            highWater rest
      else
        copyNodePhases request runtimeLoads early nodeTables indexedTables highWater rest

def writeDatabaseIsolatedWith (environment : Environment) (request : LadybugWriteRequest)
    : Writing LadybugWriteMetrics := do
  fromResult (prepareCandidate environment request)
  let phases := statementPhases request.includeFts request.schemaStatements
  let runtimeLoads := phases.preCopy.filter isLoadStatement
  let highWater ← execute (.schema request.deferHashIndexes phases.preCopy)
  let connectorStart :=
    if request.deferHashIndexes then
      firstConnector request.copyStatements
    else
      request.copyStatements.length
  let nodes := request.copyStatements.take connectorStart
  let early ← fromResult (tablesRequiringEarlyIndex nodes)
  let (nodeTables, highWater) ←
    copyNodePhases execute request runtimeLoads early .empty .empty highWater nodes.zipIdx
  let highWater ← executeAll execute highWater (nodeTables.keys.map .index)
  let connectors := (request.copyStatements.drop connectorStart).zipIdx connectorStart
  let highWater ←
    executeAll execute highWater
      (connectors.map (fun entry => copyPhase request entry.2 entry.1 []))
  let highWater ←
    executeAll execute highWater
      (phases.postCopy.map (fun statement => .postCopy statement runtimeLoads))
  return { highWaterBytes := highWater }

end

/-- Every phase is executed against the same database. -/
def writeDatabaseIsolated (database : Database) (highWaterBytes : LadybugWritePhase → Nat)
    (environment : Environment) (request : LadybugWriteRequest) : Writing LadybugWriteMetrics :=
  writeDatabaseIsolatedWith (runPhase database highWaterBytes) environment request

end CodebaseGraph.DbWriter
