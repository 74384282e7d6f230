import CodebaseGraph.Collections.Layout
import CodebaseGraph.Basic
import CodebaseGraph.Staging.Spill
import CodebaseGraph.Transition.Fallible

/-! The external sort with the memory it accounts for (`src/staging_writer/spill.rs`). Every call
that leaves the program may fail: files, allocations and the codec answer as an outside world
decides, which is told how many calls there were before. Run files deliver what that world puts
into them.
-/

namespace CodebaseGraph.Staging.Metered

open CodebaseGraph.Collections
open CodebaseGraph.Sorting
open CodebaseGraph.Transition
open CodebaseGraph.Transition.Settling

-- The meter

/-- The counters, and whether the arithmetic on the current bytes was ever cut off: a sum at the
largest word, a difference at zero.
-/
structure SpillMetrics where
  bytesWritten : Nat := 0
  currentBytes : Nat := 0
  highWaterBytes : Nat := 0
  overflowed : Bool := false
  underflowed : Bool := false

namespace SpillMetrics

def addLive (metrics : SpillMetrics) (bytes : Nat) : SpillMetrics :=
  let sum := saturatingAdd metrics.currentBytes bytes
  { metrics with
    currentBytes := sum
    highWaterBytes := max metrics.highWaterBytes sum
    overflowed := metrics.overflowed || decide (u64Max < metrics.currentBytes + bytes) }

def releaseLive (metrics : SpillMetrics) (bytes : Nat) : SpillMetrics :=
  { metrics with
    currentBytes := metrics.currentBytes - bytes
    underflowed := metrics.underflowed || decide (metrics.currentBytes < bytes) }

def addWritten (metrics : SpillMetrics) (bytes : Nat) : SpillMetrics :=
  { metrics with bytesWritten := saturatingAdd metrics.bytesWritten bytes }

end SpillMetrics

/-- The shared metrics and the number of calls that have left the program. -/
structure Meter where
  metrics : SpillMetrics
  calls : Nat

/-- A method of an object that works on the shared meter. -/
abbrev Method (Self α : Type) := Settling (Self × Meter) NativeError α

section

variable {Self : Type}

def getSelf : Method Self Self := do
  let state ← get
  pure state.1

def setSelf (self : Self) : Method Self PUnit := modify (fun state => (self, state.2))

def Meter.change (meter : Meter) (update : SpillMetrics → SpillMetrics) : Meter :=
  { meter with metrics := update meter.metrics }

def onMetrics (update : SpillMetrics → SpillMetrics) : Method Self PUnit :=
  modify (fun state => (state.1, state.2.change update))

def Meter.tick (meter : Meter) : Meter := { meter with calls := meter.calls + 1 }

/-- A call that leaves the program. -/
def call {α : Type} (answer : Nat → Except NativeError α) : Method Self α :=
  of (fun state => (answer state.2.calls, (state.1, state.2.tick)))

def ofOption {α : Type} (problem : NativeError) : Option α → Method Self α
  | some value => pure value
  | none => throw problem

end

-- The outside world

/-- A buffer with an encoded record. -/
structure Encoded where
  bytes : List UInt8
  capacity : Nat

/-- What is left to read of a run file: for each read its record or its failure. -/
structure RunReader where
  reads : List (Except NativeError (List UInt8))

/-- What files, allocations and the codec answer at each call, and the sizes of the types. -/
structure Outside (T : Type) where
  createDirectory : Nat → Except NativeError PUnit
  createFile : String → Nat → Except NativeError PUnit
  write : List UInt8 → Nat → Except NativeError PUnit
  finishOutput : Nat → Except NativeError PUnit
  openRun : String → Nat → Except NativeError RunReader
  pathExists : String → Nat → Except NativeError Bool
  removeFile : String → Nat → Except NativeError PUnit
  reserveBuffer : Nat → Except NativeError PUnit
  reserveReaders : Nat → Except NativeError PUnit
  reserveHeap : Nat → Except NativeError PUnit
  encode : T → Nat → Except NativeError Encoded
  decode : List UInt8 → Nat → Except NativeError T
  bufferedRecordBytes : Nat
  heapItemBytes : Nat

/-- The next record of a run, if there is one. -/
def RunReader.readRecord (reader : RunReader)
    : Except NativeError (Option (List UInt8)) × RunReader :=
  match reader.reads with
  | [] => (.ok none, reader)
  | .ok encoded :: reads => (.ok (some encoded), { reads })
  | .error problem :: reads => (.error problem, { reads })

section

variable {T Key : Type} [LinearOrder Key] [SpillRecord T Key] (outside : Outside T) {Self : Type}

/-- A record is written behind its length, a word of 32 bits. -/
def writeEncoded (encoded : List UInt8) : Method Self PUnit := do
  if 2 ^ 32 ≤ encoded.length then
    throw (.invalidInput "spill record exceeds u32 encoding length")
  else do
    call (outside.write (littleEndian lengthPrefixBytes encoded.length))
    call (outside.write encoded)
    onMetrics (·.addWritten (lengthPrefixBytes + encoded.length))

-----------------------------------------------------------------------------------------
-- Streams
-----------------------------------------------------------------------------------------

structure HeapItem (T Key : Type) where
  key : Key
  readerIndex : Nat
  encoded : List UInt8
  record : T
  accountedBytes : Nat

/-- The heap delivers the least key, and of equal keys that of the first reader. -/
def HeapItem.rank (item : HeapItem T Key) : Key ×ₗ Nat := toLex (item.key, item.readerIndex)

structure LiveChargeGuard where
  bytes : Nat
  armed : Bool

def LiveChargeGuard.new : LiveChargeGuard := { bytes := 0, armed := true }

def LiveChargeGuard.add (guard : LiveChargeGuard) (bytes : Nat) : LiveChargeGuard :=
  { guard with bytes := saturatingAdd guard.bytes bytes }

def LiveChargeGuard.drop (guard : LiveChargeGuard × Meter) : Meter :=
  if guard.1.armed then guard.2.change (·.releaseLive guard.1.bytes) else guard.2

structure SortedStream (T Key : Type) where
  readers : List RunReader
  heap : List (HeapItem T Key)
  heapBytes : Nat
  outstandingBytes : Nat
  pendingReader : Option Nat
  inputPaths : List String
  cleanupWhenExhausted : Bool

/-- The bytes of an encoded record and of its decoded form, with its key and its item. -/
def heapItemBytes (key : Key) (encoded : List UInt8) : Method Self Nat :=
  ofOption (.invalidInput "merge record size overflow")
    (if 2 * encoded.length ≤ u64Max then
      (checkedAdd (encoded.length * 2) (SpillRecord.keyBytes T key)).bind
        (fun bytes => checkedAdd bytes outside.heapItemBytes)
    else none)

/-- The item of a record that was read, and the bytes of the heap with it. -/
def heapItem (readerIndex heapBytes : Nat) (encoded : List UInt8)
    : Method Self (HeapItem T Key × Nat) := do
  let record ← call (outside.decode encoded)
  let key := sortKey record
  let accountedBytes ← heapItemBytes outside key encoded
  let nextHeapBytes ←
    ofOption (.invalidInput "merge accounting overflow") (checkedAdd heapBytes accountedBytes)
  call outside.reserveHeap
  pure ({ key, readerIndex, encoded, record, accountedBytes }, nextHeapBytes)

/-- The first records of the runs. What is charged for them is released if a later run fails. -/
def openReaders : List RunReader → List (HeapItem T Key) → Nat → List String
    → Method LiveChargeGuard (List RunReader × List (HeapItem T Key) × Nat)
  | readers, heap, heapBytes, [] => pure (readers, heap, heapBytes)
  | readers, heap, heapBytes, path :: rest => do
      let reader ← call (outside.openRun path)
      match reader.readRecord with
      | (.error problem, _) => throw problem
      | (.ok none, reader) => openReaders (readers ++ [reader]) heap heapBytes rest
      | (.ok (some encoded), reader) => do
          let (item, nextHeapBytes) ← heapItem outside readers.length heapBytes encoded
          onMetrics (·.addLive item.accountedBytes)
          let guard ← getSelf
          setSelf (guard.add item.accountedBytes)
          openReaders (readers ++ [reader]) (insertBy HeapItem.rank item heap) nextHeapBytes rest

def SortedStream.openRuns (paths : List String) (cleanupWhenExhausted : Bool)
    : Method Self (SortedStream T Key) :=
  withPart LiveChargeGuard.new LiveChargeGuard.drop (do
    call outside.reserveReaders
    let (readers, heap, heapBytes) ← openReaders outside [] [] 0 paths
    let guard ← getSelf
    setSelf { guard with armed := false }
    pure
      {
        readers
        heap
        heapBytes
        outstandingBytes := 0
        pendingReader := none
        inputPaths := paths
        cleanupWhenExhausted
      })

/-- The paths are given up before the first file is removed. -/
def cleanupInputs : Method (SortedStream T Key) PUnit := do
  let stream ← getSelf
  setSelf { stream with readers := [], inputPaths := [] }
  stream.inputPaths.forM (fun path => do
    let found ← call (outside.pathExists path)
    if found then call (outside.removeFile path) else pure ⟨⟩)

/-- The record that was delivered last is given back. -/
def releaseOutstanding : Method (SortedStream T Key) PUnit := do
  let stream ← getSelf
  if 0 < stream.outstandingBytes then do
    onMetrics (·.releaseLive stream.outstandingBytes)
    setSelf { stream with outstandingBytes := 0 }
  else pure ⟨⟩

/-- The reader of the record that was delivered last is read again. An index that no reader has
would panic, which unwinds as a failure does.
-/
def refill : Method (SortedStream T Key) PUnit := do
  let stream ← getSelf
  match stream.pendingReader with
  | none => pure ⟨⟩
  | some readerIndex => do
      setSelf { stream with pendingReader := none }
      match stream.readers[readerIndex]? with
      | none => throw (.io "index out of bounds")
      | some reader => do
          let (answer, reader) := reader.readRecord
          let stream :=
            { stream with pendingReader := none, readers := stream.readers.set readerIndex reader }
          setSelf stream
          match answer with
          | .error problem => throw problem
          | .ok none => pure ⟨⟩
          | .ok (some encoded) => do
              let (item, nextHeapBytes) ← heapItem outside readerIndex stream.heapBytes encoded
              onMetrics (·.addLive item.accountedBytes)
              setSelf
                { stream with
                  heap := insertBy HeapItem.rank item stream.heap
                  heapBytes := nextHeapBytes }

def nextEncoded : Method (SortedStream T Key) (Option (HeapItem T Key)) := do
  releaseOutstanding
  refill outside
  let stream ← getSelf
  match stream.heap with
  | [] => do
      if stream.cleanupWhenExhausted then cleanupInputs outside else pure ⟨⟩
      pure none
  | item :: heap => do
      setSelf
        { stream with
          heap
          heapBytes := stream.heapBytes - item.accountedBytes
          outstandingBytes := item.accountedBytes
          pendingReader := some item.readerIndex }
      pure (some item)

def SortedStream.next : Method (SortedStream T Key) (Option T) := do
  let item ← nextEncoded outside
  pure (item.map HeapItem.record)

/-- The files are removed too, whatever the file system answers. -/
def SortedStream.drop (stream : SortedStream T Key × Meter) : Meter :=
  stream.2.change
    (·.releaseLive (saturatingAdd stream.1.heapBytes stream.1.outstandingBytes))

/-- Several runs are read through one stream and written as one; their files are removed after
the stream is given up. Each turn of the loop takes a record off the stream, so their number is
enough fuel.
-/
def copyRecords : Nat → Method (SortedStream T Key) PUnit
  | 0 => pure ⟨⟩
  | fuel + 1 => do
      match ← nextEncoded outside with
      | none => pure ⟨⟩
      | some item => do
          writeEncoded outside item.encoded
          copyRecords fuel

/-- The records that a stream holds or has not read yet. -/
def SortedStream.remaining (stream : SortedStream T Key) : Nat :=
  stream.heap.length + (stream.readers.map (fun reader => reader.reads.length)).sum

def mergeRunGroup (inputs : List String) (output : String) : Method Self String := do
  let stream : SortedStream T Key ← SortedStream.openRuns outside inputs false
  withPart stream SortedStream.drop (do
    call (outside.createFile output)
    copyRecords outside (stream.remaining + 1)
    call outside.finishOutput)
  inputs.forM (fun input => call (outside.removeFile input))
  pure output

-----------------------------------------------------------------------------------------
-- Spools
-----------------------------------------------------------------------------------------

structure BufferedRecord (Key : Type) where
  key : Key
  encoded : Encoded

structure SortedSpool (Key : Type) where
  root : String
  filePrefix : String
  chunkLimit : Nat
  buffered : List (BufferedRecord Key)
  bufferedBytes : Nat
  runs : List String
  nextRun : Nat

def SortedSpool.new (root filePrefix : String) (chunkLimit : Nat)
    : Except NativeError (SortedSpool Key) :=
  if chunkLimit = 0 then .error (.invalidInput "spill chunk target must be positive")
  else
    .ok
      {
        root
        filePrefix
        chunkLimit
        buffered := []
        bufferedBytes := 0
        runs := []
        nextRun := 0
      }

/-- A number of at least eight digits. -/
def eightDigits (number : Nat) : String :=
  let digits := Nat.toDigits 10 number
  String.ofList (List.replicate (8 - digits.length) '0' ++ digits)

def nextPath (kind : String) : Method (SortedSpool Key) String := do
  let spool ← getSelf
  setSelf { spool with nextRun := saturatingAdd spool.nextRun 1 }
  pure
    (spool.root ++ "/" ++ spool.filePrefix ++ "-" ++ kind ++ "-" ++ eightDigits spool.nextRun
      ++ ".bin")

/-- The records are given up only when their file is complete. -/
def flush : Method (SortedSpool Key) PUnit := do
  let spool ← getSelf
  if spool.buffered.isEmpty then pure ⟨⟩
  else do
    call outside.createDirectory
    let buffered := sortBy BufferedRecord.key spool.buffered
    setSelf { spool with buffered }
    let path ← nextPath "run"
    call (outside.createFile path)
    buffered.forM (fun record => writeEncoded outside record.encoded.bytes)
    call outside.finishOutput
    let spool ← getSelf
    setSelf { spool with runs := spool.runs ++ [path], buffered := [], bufferedBytes := 0 }
    onMetrics (·.releaseLive spool.bufferedBytes)

def recordBytes (key : Key) (encoded : Encoded) : Option Nat :=
  (checkedAdd encoded.capacity (SpillRecord.keyBytes T key)).bind (fun bytes =>
    (checkedAdd bytes lengthPrefixBytes).bind (fun bytes =>
      checkedAdd bytes outside.bufferedRecordBytes))

/-- A charge is released where an action fails. -/
def releasing (bytes : Nat) (state : Self × Meter) : Self × Meter :=
  (state.1, state.2.change (·.releaseLive bytes))

def spillOverflow : NativeError := .invalidInput "spill record size overflow"

/-- The end of `push`, once the bytes of the record are charged and fit beside what is buffered. -/
def appendRecord (item : BufferedRecord Key) (recordBytes : Nat)
    : Method (SortedSpool Key) PUnit := do
  (call outside.reserveBuffer).cleaning (releasing recordBytes)
  let spool ← getSelf
  let spool := { spool with buffered := spool.buffered ++ [item] }
  setSelf spool
  let bufferedBytes ← ofOption spillOverflow (checkedAdd spool.bufferedBytes recordBytes)
  setSelf { spool with bufferedBytes }
  if spool.chunkLimit ≤ bufferedBytes then flush outside else pure ⟨⟩

def push (record : T) : Method (SortedSpool Key) PUnit := do
  let encoded ← call (outside.encode record)
  let key := sortKey record
  let recordBytes ← ofOption spillOverflow (recordBytes outside key encoded)
  let spool ← getSelf
  let nextBytes ← ofOption spillOverflow (checkedAdd spool.bufferedBytes recordBytes)
  onMetrics (·.addLive recordBytes)
  if !spool.buffered.isEmpty && nextBytes > spool.chunkLimit then
    (flush outside).cleaning (releasing recordBytes)
  else pure ⟨⟩
  appendRecord outside { key, encoded } recordBytes

def mergeLevel (runs : List String) : Method (SortedSpool Key) (List String) :=
  (chunks maxMergeFanIn.size maxMergeFanIn.positive runs).mapM (fun group =>
    match group with
    | [single] => pure single
    | group => do
        let output ← nextPath "merge"
        mergeRunGroup outside group output)

/-- Each level leaves fewer runs, so their number is enough fuel. -/
def mergeLevels : Nat → List String → Method (SortedSpool Key) (List String)
  | 0, runs => pure runs
  | fuel + 1, runs =>
      if runs.length ≤ maxMergeFanIn.size then pure runs
      else do
        let runs ← mergeLevel outside runs
        mergeLevels fuel runs

def SortedSpool.drop (spool : SortedSpool Key × Meter) : Meter :=
  if 0 < spool.1.bufferedBytes then spool.2.change (·.releaseLive spool.1.bufferedBytes)
  else spool.2

def SortedSpool.finish : Method (SortedSpool Key) (SortedStream T Key) := do
  flush outside
  let spool ← getSelf
  setSelf { spool with runs := [] }
  let runs ← mergeLevels outside spool.runs.length spool.runs
  SortedStream.openRuns outside runs true

end

-- Programs

/-- The types of records that are sorted at the same time. -/
structure Kinds where
  Kind : Type
  Record : Kind → Type
  Key : Kind → Type
  order : ∀ kind, LinearOrder (Key kind)
  spill : ∀ kind, SpillRecord (Record kind) (Key kind)

instance (kinds : Kinds) (kind : kinds.Kind) : LinearOrder (kinds.Key kind) := kinds.order kind

instance (kinds : Kinds) (kind : kinds.Kind) : SpillRecord (kinds.Record kind) (kinds.Key kind) :=
  kinds.spill kind

/-- What lives and is charged for: spools, streams and charges. -/
inductive Live (kinds : Kinds) where
  | spool (kind : kinds.Kind) (spool : SortedSpool (kinds.Key kind))
  | stream (kind : kinds.Kind) (stream : SortedStream (kinds.Record kind) (kinds.Key kind))
  | charge (bytes : Nat)

structure Program (kinds : Kinds) where
  meter : Meter
  live : List (Live kinds)

variable {kinds : Kinds} (outside : ∀ kind, Outside (kinds.Record kind))

/-- One call of a program on one of the objects that live, which succeeds or fails. -/
inductive Step : Program kinds → Program kinds → Prop
  | new {program : Program kinds} {kind : kinds.Kind} {spool : SortedSpool (kinds.Key kind)}
      (root filePrefix : String) (chunkLimit : Nat)
      (made : SortedSpool.new root filePrefix chunkLimit = .ok spool)
      : Step program { program with live := .spool kind spool :: program.live }
  | push {meter meter' : Meter} {before after : List (Live kinds)} {kind : kinds.Kind}
      {spool spool' : SortedSpool (kinds.Key kind)} {answer : Except NativeError PUnit}
      (record : kinds.Record kind)
      (ran : (push (outside kind) record).settle (spool, meter) = (answer, (spool', meter')))
      : Step ⟨meter, before ++ .spool kind spool :: after⟩
          ⟨meter', before ++ .spool kind spool' :: after⟩
  | finish {meter meter' : Meter} {before after : List (Live kinds)} {kind : kinds.Kind}
      {spool spool' : SortedSpool (kinds.Key kind)}
      {stream : SortedStream (kinds.Record kind) (kinds.Key kind)}
      (ran : (SortedSpool.finish (outside kind)).settle (spool, meter)
        = (.ok stream, (spool', meter')))
      : Step ⟨meter, before ++ .spool kind spool :: after⟩
          ⟨SortedSpool.drop (spool', meter'), before ++ .stream kind stream :: after⟩
  | finishFails {meter meter' : Meter} {before after : List (Live kinds)} {kind : kinds.Kind}
      {spool spool' : SortedSpool (kinds.Key kind)} {problem : NativeError}
      (ran : (SortedSpool.finish (outside kind)).settle (spool, meter)
        = (.error problem, (spool', meter')))
      : Step ⟨meter, before ++ .spool kind spool :: after⟩
          ⟨SortedSpool.drop (spool', meter'), before ++ after⟩
  | next {meter meter' : Meter} {before after : List (Live kinds)} {kind : kinds.Kind}
      {stream stream' : SortedStream (kinds.Record kind) (kinds.Key kind)}
      {answer : Except NativeError (Option (kinds.Record kind))}
      (ran : (SortedStream.next (outside kind)).settle (stream, meter)
        = (answer, (stream', meter')))
      : Step ⟨meter, before ++ .stream kind stream :: after⟩
          ⟨meter', before ++ .stream kind stream' :: after⟩
  | dropSpool {meter : Meter} {before after : List (Live kinds)} {kind : kinds.Kind}
      (spool : SortedSpool (kinds.Key kind))
      : Step ⟨meter, before ++ .spool kind spool :: after⟩
          ⟨SortedSpool.drop (spool, meter), before ++ after⟩
  | dropStream {meter : Meter} {before after : List (Live kinds)} {kind : kinds.Kind}
      (stream : SortedStream (kinds.Record kind) (kinds.Key kind))
      : Step ⟨meter, before ++ .stream kind stream :: after⟩
          ⟨SortedStream.drop (stream, meter), before ++ after⟩
  | charge {program : Program kinds} (bytes : Nat)
      : Step program
          ⟨program.meter.change (·.addLive bytes), .charge bytes :: program.live⟩
  | dropCharge {meter : Meter} {before after : List (Live kinds)} (bytes : Nat)
      : Step ⟨meter, before ++ .charge bytes :: after⟩
          ⟨meter.change (·.releaseLive bytes), before ++ after⟩

end CodebaseGraph.Staging.Metered
