import CodebaseGraph.Staging.Records

/-! The chunked output files of the staging writer (`src/staging_writer/accumulator.rs`,
`files.rs`). A sink has a chunk open from its first row on, so the errors of a sink without
an open file do not arise; row, chunk and byte counts are natural numbers.
-/

namespace CodebaseGraph.Staging

/-- Characters outside the ASCII letters and digits become underscores. -/
def stageFileStem (name : String) : String :=
  let mapped :=
    name.toList.map
      (fun character => if character.isAlphanum then character.toLower else '_')
  let trimmed :=
    ((mapped.dropWhile (· == '_')).reverse.dropWhile (· == '_')).reverse
  if trimmed.isEmpty then "table" else String.ofList trimmed

def chunkedOutputPath (root stem extension : String) (index : Nat) : String :=
  if index = 0 then root ++ "/" ++ stem ++ "." ++ extension
  else
    let digits := toString index
    let padding := String.ofList (List.replicate (6 - digits.length) '0')
    root ++ "/" ++ stem ++ "__" ++ padding ++ digits ++ "." ++ extension

/-- The text after a leading text, if it leads. -/
def stripLeading (leading text : List Char) : Option (List Char) :=
  if leading.isPrefixOf text then some (text.drop leading.length) else none

def copyPath (path : String) : String :=
  let slashed := path.toList.map (fun character => if character = '\\' then '/' else character)
  let stripped :=
    match stripLeading "//?/UNC/".toList slashed with
    | some rest => '/' :: '/' :: rest
    | none => (stripLeading "//?/".toList slashed).getD slashed
  String.ofList
    (stripped.flatMap (fun character => if character = '"' then ['\\', '"'] else [character]))

def writeCsvField (value : String) : String :=
  let special := fun character => character ∈ [',', '"', '\n', '\r']
  if value.toList.any special then
    "\""
      ++ String.ofList
        (value.toList.flatMap
          (fun character => if character = '"' then ['"', '"'] else [character]))
      ++ "\""
  else value

/-- What a kind of sink writes around its rows, and how it names and loads its files. -/
structure ChunkFormat (Group Row : Type) where
  headerBytes : Nat
  separatorBytes : Nat
  trailerBytes : Nat
  rowBytes : Row → Nat
  path : Group → Nat → String
  copyStatement : Group → String → String

/-- One output file: the group it belongs to, its number in the group and its rows. -/
structure OutputChunk (Group Row : Type) where
  group : Group
  index : Nat
  rows : List Row

structure OpenChunk (Group Row : Type) extends OutputChunk Group Row where
  currentBytes : Nat

structure ChunkSink (Group Row : Type) where
  chunkLimit : Nat
  current : Option (OpenChunk Group Row)
  closed : List (OutputChunk Group Row)
  copyStatements : List String
  rowCount : Nat

namespace ChunkSink

variable {Group Row : Type}

def new (chunkLimit : Nat) : ChunkSink Group Row :=
  { chunkLimit, current := none, closed := [], copyStatements := [], rowCount := 0 }

def openChunk (format : ChunkFormat Group Row) (sink : ChunkSink Group Row) (group : Group)
    (index : Nat)
    : ChunkSink Group Row × OpenChunk Group Row :=
  ({ sink with
      copyStatements :=
        sink.copyStatements
          ++ [format.copyStatement group (copyPath (format.path group index))] },
    { group, index, rows := [], currentBytes := format.headerBytes })

def closeChunk (sink : ChunkSink Group Row) : ChunkSink Group Row :=
  { sink with
    current := none
    closed := sink.closed ++ (sink.current.map OpenChunk.toOutputChunk).toList }

/-- The chunk the next row goes to: a new one for another group or when the row no longer
fits beside the rows already there.
-/
def chunkFor [DecidableEq Group] (format : ChunkFormat Group Row)
    (sink : ChunkSink Group Row) (group : Group) (rowBytes : Nat)
    : ChunkSink Group Row × OpenChunk Group Row :=
  match sink.current with
  | none => sink.openChunk format group 0
  | some chunk =>
      if chunk.group ≠ group then sink.closeChunk.openChunk format group 0
      else if
        !chunk.rows.isEmpty
        && chunk.currentBytes + format.separatorBytes + rowBytes + format.trailerBytes
          > sink.chunkLimit
      then sink.closeChunk.openChunk format group (chunk.index + 1)
      else (sink, chunk)

def push [DecidableEq Group] (format : ChunkFormat Group Row) (sink : ChunkSink Group Row)
    (group : Group) (row : Row)
    : ChunkSink Group Row :=
  let rowBytes := format.rowBytes row
  let (sink, chunk) := sink.chunkFor format group rowBytes
  let separatorBytes := if chunk.rows.isEmpty then 0 else format.separatorBytes
  { sink with
    current :=
      some
        { chunk with
          rows := chunk.rows ++ [row]
          currentBytes := chunk.currentBytes + separatorBytes + rowBytes }
    rowCount := sink.rowCount + 1 }

/-- The files, the statements that load them and the number of rows. -/
def finish (sink : ChunkSink Group Row)
    : List (OutputChunk Group Row) × List String × Nat :=
  let sink := sink.closeChunk
  (sink.closed, sink.copyStatements, sink.rowCount)

/-- The rows of all chunks, one chunk after the other, with their groups. -/
def concatenated (chunks : List (OutputChunk Group Row)) : List (Group × Row) :=
  chunks.flatMap (fun chunk => chunk.rows.map (fun row => (chunk.group, row)))

/-- The rows written so far. -/
def emitted (sink : ChunkSink Group Row) : List (Group × Row) :=
  concatenated sink.closeChunk.closed

theorem concatenated_append (first second : List (OutputChunk Group Row))
    : concatenated (first ++ second) = concatenated first ++ concatenated second :=
  List.flatMap_append

/-- Opening a chunk writes no rows. -/
theorem openChunk_concatenated (format : ChunkFormat Group Row) (sink : ChunkSink Group Row)
    (group : Group) (index : Nat)
    : concatenated
        ((sink.openChunk format group index).1.closed
          ++ [(sink.openChunk format group index).2.toOutputChunk])
      = concatenated sink.closed := by
  rw [concatenated_append]
  simp [openChunk, concatenated]

variable [DecidableEq Group]

/-- The chunk a row goes to continues what is written, and belongs to the row's group. -/
theorem chunkFor_spec {format : ChunkFormat Group Row} {sink next : ChunkSink Group Row}
    {group : Group} {rowBytes : Nat} {chunk : OpenChunk Group Row}
    (chosen : sink.chunkFor format group rowBytes = (next, chunk))
    : next.rowCount = sink.rowCount
      ∧ chunk.group = group
      ∧ concatenated (next.closed ++ [chunk.toOutputChunk]) = sink.emitted := by
  unfold chunkFor at chosen
  split at chosen
  next unopened =>
      cases chosen
      refine ⟨rfl, rfl, (openChunk_concatenated format sink group 0).trans ?_⟩
      simp [emitted, closeChunk, unopened]
  next open_ current =>
      split at chosen
      next =>
          cases chosen
          exact ⟨rfl, rfl, openChunk_concatenated format sink.closeChunk group 0⟩
      next same =>
          split at chosen
          next =>
              cases chosen
              exact ⟨rfl, rfl,
                openChunk_concatenated format sink.closeChunk group (open_.index + 1)⟩
          next =>
              cases chosen
              refine ⟨rfl, not_not.mp same, ?_⟩
              simp [emitted, closeChunk, current]

/-- A pushed row is written after all others, wherever the chunk boundary falls. -/
theorem push_emitted (format : ChunkFormat Group Row) (sink : ChunkSink Group Row)
    (group : Group) (row : Row)
    : (sink.push format group row).emitted = sink.emitted ++ [(group, row)]
      ∧ (sink.push format group row).rowCount = sink.rowCount + 1 := by
  cases chosen : sink.chunkFor format group (format.rowBytes row) with
  | mk next chunk =>
      obtain ⟨count, rfl, same⟩ := chunkFor_spec chosen
      constructor
      · rw [← same]
        simp [push, chosen, emitted, closeChunk, concatenated]
      · simp [push, chosen, count]

/-- Pushing rows in a row writes them in that order. -/
theorem foldl_push_emitted (format : ChunkFormat Group Row) (sink : ChunkSink Group Row)
    (rows : List (Group × Row))
    : (rows.foldl (fun sink row => sink.push format row.1 row.2) sink).emitted
        = sink.emitted ++ rows
      ∧ (rows.foldl (fun sink row => sink.push format row.1 row.2) sink).rowCount
        = sink.rowCount + rows.length := by
  induction rows generalizing sink with
  | nil => simp
  | cons row rest ih =>
      obtain ⟨written, counted⟩ := push_emitted format sink row.1 row.2
      obtain ⟨writtenRest, countedRest⟩ := ih (sink.push format row.1 row.2)
      refine ⟨?_, ?_⟩
      · rw [List.foldl_cons, writtenRest, written, List.append_assoc, List.singleton_append]
      · rw [List.foldl_cons, countedRest, counted, List.length_cons]
        omega

/-- A fresh sink that is given rows ends with exactly these in its chunks. -/
theorem finish_foldl_push (format : ChunkFormat Group Row) (chunkLimit : Nat)
    (rows : List (Group × Row))
    : let finished :=
        (rows.foldl (fun sink row => sink.push format row.1 row.2) (new chunkLimit)).finish
      concatenated finished.1 = rows ∧ finished.2.2 = rows.length := by
  obtain ⟨written, counted⟩ := foldl_push_emitted format (new chunkLimit) rows
  refine ⟨written, ?_⟩
  simpa [finish, closeChunk, new] using counted

end ChunkSink

/-- JSON arrays, one table after the other. -/
abbrev JsonTableSink (Row : Type) := ChunkSink String Row

def jsonFormat {Row : Type} (stagingDir : String) (rowBytes : Row → Nat)
    : ChunkFormat String Row :=
  {
    headerBytes := 1
    separatorBytes := 1
    trailerBytes := 2
    rowBytes
    path := fun table index => chunkedOutputPath stagingDir (stageFileStem table) "json" index
    copyStatement := fun table path => "COPY `" ++ table ++ "` FROM \"" ++ path ++ "\";"
  }

/-- The relation, the side and the node tables at both ends of a group of connectors. -/
abbrev ConnectorGroup := String × EndpointSide × String × String

abbrev ConnectorSink := ChunkSink ConnectorGroup ConnectorRecord

def connectorHeader : String := "from_id,to_id,role\r\n"

def connectorText (connector : ConnectorRecord) : String :=
  writeCsvField connector.fromId ++ "," ++ writeCsvField connector.toId ++ ","
    ++ writeCsvField connector.role ++ "\r\n"

def connectorTable (relation : String) : EndpointSide → String
  | .source => "FROM_" ++ relation
  | .target => "TO_" ++ relation

def connectorFormat (stagingDir : String) : ChunkFormat ConnectorGroup ConnectorRecord :=
  {
    headerBytes := connectorHeader.utf8ByteSize
    separatorBytes := 0
    trailerBytes := 0
    rowBytes := fun connector => (connectorText connector).utf8ByteSize
    path := fun (relation, side, fromType, toType) index =>
      chunkedOutputPath stagingDir
        (stageFileStem (connectorTable relation side) ++ "__" ++ stageFileStem fromType ++ "__"
          ++ stageFileStem toType)
        "csv" index
    copyStatement := fun (relation, side, fromType, toType) path =>
      "COPY `" ++ connectorTable relation side ++ "` FROM \"" ++ path
        ++ "\" (header=true, from=\"" ++ fromType ++ "\", to=\"" ++ toType ++ "\");"
  }

end CodebaseGraph.Staging
