import CodebaseGraph.Basic
import CodebaseGraph.Sorting.Levels

/-! The external sort of the staging writer (`src/staging_writer/spill.rs`).
Record files decode to what was encoded, so a run is the list of its records. Byte counts are
natural numbers: the overflow errors of the checked additions are left out, as is the memory
accounting, which decides nothing.
-/

namespace CodebaseGraph.Staging

open CodebaseGraph.Sorting

def maxMergeFanIn : FanIn := ⟨32, by decide⟩

def lengthPrefixBytes : Nat := 4

/-- A record with the key it is sorted by and the bytes charged for that key. -/
class SpillRecord (T : Type) (Key : outParam Type) where
  sortKey : T → Key
  keyBytes : Key → Nat

export SpillRecord (sortKey)

/-- What the encoder and the compiler decide: the capacity of a record's encoded buffer and
the size of a buffered record.
-/
structure Encoding (T : Type) where
  capacity : T → Nat
  bufferedRecordBytes : Nat

variable {T Key : Type} [LinearOrder Key] [SpillRecord T Key]

structure SortedSpool (T : Type) where
  chunkLimit : Nat
  buffered : List T
  bufferedBytes : Nat
  runs : List (List T)

/-- The stream reads a record again only when the next one is asked for. -/
structure SortedStream (T : Type) where
  cursors : Cursors T
  pendingReader : Option Nat

namespace SortedStream

def openRuns (runs : List (List T)) : SortedStream T :=
  { cursors := Cursors.openRuns sortKey runs, pendingReader := none }

/-- The cursors after the read that the last `next` left pending. -/
def settled (stream : SortedStream T) : Cursors T :=
  match stream.pendingReader with
  | none => stream.cursors
  | some reader => stream.cursors.refill sortKey reader

def next (stream : SortedStream T) : Option T × SortedStream T :=
  let cursors := stream.settled
  match cursors.heap with
  | [] => (none, { cursors, pendingReader := none })
  | item :: heap =>
      (some item.1, { cursors := { cursors with heap }, pendingReader := some item.2 })

theorem next_settled {stream following : SortedStream T} {record : T}
    (delivered : stream.next = (some record, following))
    : ∃ heap reader,
        stream.settled = { heap := (record, reader) :: heap, readers := stream.settled.readers }
        ∧ following.settled
          = Cursors.refill sortKey { heap, readers := stream.settled.readers } reader := by
  simp only [next] at delivered
  split at delivered
  next => simp at delivered
  next item heap queued =>
      simp only [Prod.mk.injEq, Option.some.injEq] at delivered
      obtain ⟨rfl, rfl⟩ := delivered
      refine ⟨heap, item.2, ?_, rfl⟩
      rw [← queued]

/-- All the records `next` delivers, in order. -/
def records (stream : SortedStream T) : List T :=
  match _delivered : stream.next with
  | (none, _) => []
  | (some record, following) => record :: following.records
termination_by stream.settled.items.length
decreasing_by
  obtain ⟨heap, reader, before, after⟩ := next_settled _delivered
  rw [after, (Cursors.refill_items sortKey _ _).length_eq, before]
  simp [Cursors.items]

/-- The stream delivers what its cursors hold, in the order in which they deliver it. -/
theorem records_eq_drain (stream : SortedStream T)
    : stream.records = stream.settled.drain sortKey := by
  fun_induction records stream with
  | case1 stream following exhausted =>
      simp only [next] at exhausted
      split at exhausted
      next queued =>
          have empty : stream.settled = { heap := [], readers := stream.settled.readers } := by
            rw [← queued]
          rw [empty, Cursors.drain]
      next => simp at exhausted
  | case2 stream record following delivered ih =>
      obtain ⟨heap, reader, before, after⟩ := next_settled delivered
      rw [ih, after, before, Cursors.drain]

/-- A stream with records left delivers the first and goes on with the others. -/
theorem next_of_records {stream : SortedStream T} {record : T} {rest : List T}
    (left : stream.records = record :: rest)
    : ∃ following, stream.next = (some record, following) ∧ following.records = rest := by
  rw [records] at left
  split at left
  next => contradiction
  next first following delivered =>
      obtain ⟨rfl, rfl⟩ := List.cons.inj left
      exact ⟨following, delivered, rfl⟩

end SortedStream

/-- Several runs are read through one stream and written as one. -/
def mergeRunGroup (inputs : List (List T)) : Except NativeError (List T) :=
  .ok (SortedStream.openRuns inputs).records

theorem mergeRunGroup_merges
    : Merges sortKey Eq (mergeRunGroup (T := T)) := by
  intro runs contents same _
  obtain rfl := List.forall₂_eq_eq_eq ▸ same
  exact ⟨_, rfl, SortedStream.records_eq_drain _⟩

namespace SortedSpool

def new (chunkLimit : Nat) : Except NativeError (SortedSpool T) :=
  if chunkLimit = 0 then
    .error (.invalidInput "spill chunk target must be positive")
  else .ok { chunkLimit, buffered := [], bufferedBytes := 0, runs := [] }

def flush (spool : SortedSpool T) : SortedSpool T :=
  if spool.buffered.isEmpty then spool
  else
    { spool with
      buffered := []
      bufferedBytes := 0
      runs := spool.runs ++ [sortBy sortKey spool.buffered] }

def recordBytes (encoding : Encoding T) (record : T) : Nat :=
  encoding.capacity record + SpillRecord.keyBytes T (sortKey record) + lengthPrefixBytes
    + encoding.bufferedRecordBytes

def push (encoding : Encoding T) (spool : SortedSpool T) (record : T) : SortedSpool T :=
  let recordBytes := recordBytes encoding record
  let nextBytes := spool.bufferedBytes + recordBytes
  let spool :=
    if !spool.buffered.isEmpty && nextBytes > spool.chunkLimit then spool.flush else spool
  let spool :=
    { spool with
      buffered := spool.buffered ++ [record]
      bufferedBytes := spool.bufferedBytes + recordBytes }
  if spool.bufferedBytes ≥ spool.chunkLimit then spool.flush else spool

def finish (spool : SortedSpool T) : Except NativeError (SortedStream T) := do
  let runs ← reduceRuns maxMergeFanIn mergeRunGroup spool.flush.runs
  pure (SortedStream.openRuns runs)

/-- The spool has the given records, in sorted runs and in its buffer. -/
def Has (spool : SortedSpool T) (records : List T) : Prop :=
  ∃ spilled, Holds sortKey Eq spool.runs spilled ∧ (spilled ++ spool.buffered).Perm records

theorem Has.perm {spool : SortedSpool T} {records others : List T} (has : spool.Has records)
    (same : records.Perm others)
    : spool.Has others := by
  obtain ⟨spilled, held, all⟩ := has
  exact ⟨spilled, held, all.trans same⟩

theorem Has.flush {spool : SortedSpool T} {records : List T} (has : spool.Has records)
    : spool.flush.Has records ∧ spool.flush.buffered = [] := by
  obtain ⟨spilled, held, same⟩ := has
  unfold SortedSpool.flush
  split
  next empty =>
      exact ⟨⟨spilled, held, same⟩, List.isEmpty_iff.mp empty⟩
  next =>
      have run : Holds sortKey Eq [sortBy sortKey spool.buffered] spool.buffered := by
        have single := holds_nil.cons (rfl : sortBy sortKey spool.buffered = _)
          (sortBy_sorted sortKey spool.buffered)
        rw [List.append_nil] at single
        exact single.perm (sortBy_perm sortKey spool.buffered)
      refine ⟨⟨spilled ++ spool.buffered, held.append run, ?_⟩, rfl⟩
      simpa only [List.append_nil] using same

theorem Has.flush_if {spool : SortedSpool T} {records : List T} (has : spool.Has records)
    (condition : Prop) [Decidable condition]
    : (if condition then spool.flush else spool).Has records := by
  split
  next => exact has.flush.1
  next => exact has

/-- A pushed record is added; where the run boundaries fall does not matter. -/
theorem Has.push {spool : SortedSpool T} {records : List T} (has : spool.Has records)
    (encoding : Encoding T) (record : T)
    : (spool.push encoding record).Has (records ++ [record]) := by
  unfold SortedSpool.push
  apply Has.flush_if
  obtain ⟨spilled, held, same⟩ :=
    has.flush_if
      (!spool.buffered.isEmpty
        && spool.bufferedBytes + recordBytes encoding record > spool.chunkLimit)
  refine ⟨spilled, held, ?_⟩
  rw [← List.append_assoc]
  exact same.append_right [record]

theorem Has.foldl_push {spool : SortedSpool T} {records : List T} (has : spool.Has records)
    (encoding : Encoding T) (more : List T)
    : (more.foldl (SortedSpool.push encoding) spool).Has (records ++ more) := by
  induction more generalizing spool records with
  | nil => simpa using has
  | cons record rest ih =>
      rw [List.append_cons]
      exact ih (has.push encoding record)

/-- The empty spool, at any positive limit. -/
theorem new_has {chunkLimit : Nat} (positive : 0 < chunkLimit)
    : ∃ spool : SortedSpool T, new chunkLimit = .ok spool ∧ spool.Has [] := by
  refine ⟨_, if_neg positive.ne', [], holds_nil, ?_⟩
  exact .refl _

/-- The stream delivers a spool's records sorted, whatever runs and levels they went through. -/
theorem Has.finish {spool : SortedSpool T} {records : List T} (has : spool.Has records)
    : ∃ stream,
        spool.finish = .ok stream
        ∧ SortedBy sortKey stream.records
        ∧ stream.records.Perm records := by
  obtain ⟨⟨spilled, held, same⟩, empty⟩ := has.flush
  obtain ⟨runs, reduced, _, contents, stored, sorted, merged⟩ :=
    reduceRuns_holds mergeRunGroup_merges maxMergeFanIn held
  obtain rfl := List.forall₂_eq_eq_eq ▸ stored
  rw [empty, List.append_nil] at same
  refine ⟨SortedStream.openRuns runs, ?_, ?_, ?_⟩
  · rw [SortedSpool.finish, reduced]
    rfl
  · rw [SortedStream.records_eq_drain]
    exact mergeRuns_sorted sorted
  · rw [SortedStream.records_eq_drain]
    exact (mergeRuns_perm sorted).trans (merged.trans same)

/-- With keys that tell the records apart the stream is their sort. -/
theorem Has.finish_eq {spool : SortedSpool T} {records : List T} (has : spool.Has records)
    (distinct : ∀ a ∈ records, ∀ b ∈ records, sortKey a = sortKey b → a = b)
    : ∃ stream, spool.finish = .ok stream ∧ stream.records = sortBy sortKey records := by
  obtain ⟨stream, finished, sorted, same⟩ := has.finish
  exact ⟨stream, finished, sorted.eq_sortBy same distinct⟩

end SortedSpool

end CodebaseGraph.Staging
