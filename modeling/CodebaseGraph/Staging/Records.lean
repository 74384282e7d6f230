import Mathlib.Data.String.Basic
import Mathlib.Order.Lattice
import CodebaseGraph.Basic
import CodebaseGraph.Sorting.StableMerge
import CodebaseGraph.Staging.Rows
import CodebaseGraph.Staging.Spill

/-! The records that staging sorts and the keys it sorts them by
(`src/staging_writer/accumulator.rs`). Derived orders compare the variant first and then the
fields from left to right.
-/

namespace CodebaseGraph.Staging

inductive RawRecord where
  | node (table id : String) (sourceOrder : Nat) (row : NodeStagedRow)
  | edge (table id : String) (sourceOrder : Nat) (row : EdgeStagedRow)
  | nodeType (id table : String) (sourceOrder : Nat)

inductive RawKey where
  | node (table id : String) (sourceOrder : Nat)
  | edge (table id : String) (sourceOrder : Nat)
  | nodeType (id : String) (sourceOrder : Nat)

/-- The variant's position and its fields, padded to one shape. -/
def RawKey.rank : RawKey → Nat ×ₗ String ×ₗ String ×ₗ Nat
  | .node table id order => toLex (0, toLex (table, toLex (id, order)))
  | .edge table id order => toLex (1, toLex (table, toLex (id, order)))
  | .nodeType id order => toLex (2, toLex (id, toLex ("", order)))

theorem RawKey.rank_injective : Function.Injective RawKey.rank := by
  intro first second same
  cases first <;> cases second <;> simp_all [RawKey.rank]

instance : LinearOrder RawKey :=
  LinearOrder.lift' RawKey.rank RawKey.rank_injective

theorem RawKey.le_iff {first second : RawKey} : first ≤ second ↔ first.rank ≤ second.rank :=
  Iff.rfl

/-- Within one variant the order compares the identity first and the source order last. -/
theorem rank_le_iff {variant : Nat} {table id table' id' : String} {order order' : Nat}
    : toLex (variant, toLex (table, toLex (id, order)))
        ≤ toLex (variant, toLex (table', toLex (id', order')))
      ↔ toLex (table, id) < toLex (table', id')
        ∨ toLex (table, id) = toLex (table', id') ∧ order ≤ order' := by
  simp only [Prod.Lex.toLex_le_toLex, Prod.Lex.toLex_lt_toLex, toLex_inj, Prod.mk.injEq,
    lt_irrefl, false_or, true_and]
  tauto

theorem RawKey.node_le_iff {table id table' id' : String} {order order' : Nat}
    : RawKey.node table id order ≤ .node table' id' order'
      ↔ toLex (table, id) < toLex (table', id')
        ∨ toLex (table, id) = toLex (table', id') ∧ order ≤ order' :=
  rank_le_iff

theorem RawKey.edge_le_iff {table id table' id' : String} {order order' : Nat}
    : RawKey.edge table id order ≤ .edge table' id' order'
      ↔ toLex (table, id) < toLex (table', id')
        ∨ toLex (table, id) = toLex (table', id') ∧ order ≤ order' :=
  rank_le_iff

theorem RawKey.nodeType_le_iff {id id' : String} {order order' : Nat}
    : RawKey.nodeType id order ≤ .nodeType id' order'
      ↔ id < id' ∨ id = id' ∧ order ≤ order' := by
  rw [RawKey.le_iff, RawKey.rank, RawKey.rank, rank_le_iff]
  simp [Prod.Lex.toLex_lt_toLex]

instance : SpillRecord RawRecord RawKey where
  sortKey
    | .node table id order _ => .node table id order
    | .edge table id order _ => .edge table id order
    | .nodeType id _ order => .nodeType id order
  keyBytes
    | .node table id _ | .edge table id _ => saturatingAdd table.utf8ByteSize id.utf8ByteSize
    | .nodeType id _ => id.utf8ByteSize

structure MergedEdge where
  table : String
  id : String
  row : EdgeStagedRow

structure ResolvedNodeType where
  id : String
  table : String

inductive EndpointSide where
  | source
  | target
deriving DecidableEq

namespace EndpointSide

def asStr : EndpointSide → String
  | .source => "source"
  | .target => "target"

def position : EndpointSide → Nat
  | .source => 0
  | .target => 1

theorem position_injective : Function.Injective position := by
  intro first second same
  cases first <;> cases second <;> simp_all [position]

instance : LinearOrder EndpointSide :=
  LinearOrder.lift' position position_injective

end EndpointSide

structure EndpointRequest where
  nodeId : String
  relation : String
  edgeId : String
  side : EndpointSide

def EndpointRequest.missingError (request : EndpointRequest) : NativeError :=
  .invalidInput
    ("edge " ++ request.edgeId ++ " references missing " ++ request.side.asStr ++ " node "
      ++ request.nodeId)

instance : SpillRecord EndpointRequest (String ×ₗ String ×ₗ String ×ₗ EndpointSide) where
  sortKey request :=
    toLex (request.nodeId,
      toLex (request.relation, toLex (request.edgeId, request.side)))
  keyBytes key :=
    saturatingAdd
      (saturatingAdd (ofLex key).1.utf8ByteSize (ofLex (ofLex key).2).1.utf8ByteSize)
      (ofLex (ofLex (ofLex key).2).2).1.utf8ByteSize

structure ResolvedEndpoint where
  relation : String
  edgeId : String
  side : EndpointSide
  nodeType : String

instance : SpillRecord ResolvedEndpoint (String ×ₗ String ×ₗ EndpointSide) where
  sortKey endpoint := toLex (endpoint.relation, toLex (endpoint.edgeId, endpoint.side))
  keyBytes key :=
    saturatingAdd (ofLex key).1.utf8ByteSize (ofLex (ofLex key).2).1.utf8ByteSize

structure ConnectorRecord where
  relation : String
  side : EndpointSide
  fromType : String
  toType : String
  fromId : String
  toId : String
  role : String

/-- The order of connectors, which is also their identity. -/
abbrev ConnectorKey :=
  String ×ₗ EndpointSide ×ₗ String ×ₗ String ×ₗ String ×ₗ String ×ₗ String

instance : SpillRecord ConnectorRecord ConnectorKey where
  sortKey connector :=
    toLex (connector.relation, toLex (connector.side, toLex (connector.fromType,
      toLex (connector.toType, toLex (connector.fromId, toLex (connector.toId,
        connector.role))))))
  keyBytes key :=
    let types := ofLex (ofLex (ofLex key).2).2
    let ids := ofLex (ofLex types.2).2
    saturatingAdd
      (saturatingAdd
        (saturatingAdd
          (saturatingAdd
            (saturatingAdd (ofLex key).1.utf8ByteSize types.1.utf8ByteSize)
            (ofLex types.2).1.utf8ByteSize)
          ids.1.utf8ByteSize)
        (ofLex ids.2).1.utf8ByteSize)
      (ofLex ids.2).2.utf8ByteSize

structure EdgeIdentity where
  id : String

instance : SpillRecord EdgeIdentity String where
  sortKey edge := edge.id
  keyBytes key := key.utf8ByteSize

/-! The external sort keeps records of one key in the order in which they were pushed, however many
runs and levels the chunk limit causes.
-/

open CodebaseGraph.Sorting

variable {T Key : Type} [LinearOrder Key] [SpillRecord T Key]

theorem mergeRunGroup_eq (runs : List (List T))
    : mergeRunGroup runs = .ok (mergeRuns sortKey runs) :=
  congrArg Except.ok (SortedStream.records_eq_drain _)

namespace SortedSpool

/-- The runs are sorted, and with the buffer they sort to what the records sort to. -/
structure Sorts (spool : SortedSpool T) (records : List T) : Prop where
  sorted : ∀ run ∈ spool.runs, SortedBy sortKey run
  same : sortBy sortKey (spool.runs.flatten ++ spool.buffered) = sortBy sortKey records

theorem Sorts.flush {spool : SortedSpool T} {records : List T} (sorts : spool.Sorts records)
    : spool.flush.Sorts records ∧ spool.flush.buffered = [] := by
  unfold SortedSpool.flush
  split
  next empty => exact ⟨sorts, List.isEmpty_iff.mp empty⟩
  next =>
      refine ⟨⟨?_, ?_⟩, rfl⟩
      · intro run member
        rcases List.mem_append.mp member with before | last
        · exact sorts.sorted run before
        · rw [List.mem_singleton.mp last]
          exact sortBy_sorted sortKey spool.buffered
      · rw [List.append_nil, List.flatten_append, List.flatten_singleton, ← sorts.same]
        exact sortBy_append_congr rfl (sortBy_idem sortKey spool.buffered)

theorem Sorts.flush_if {spool : SortedSpool T} {records : List T} (sorts : spool.Sorts records)
    (condition : Prop) [Decidable condition]
    : (if condition then spool.flush else spool).Sorts records := by
  split
  next => exact sorts.flush.1
  next => exact sorts

/-- A pushed record comes behind those pushed before it. -/
theorem Sorts.push {spool : SortedSpool T} {records : List T} (sorts : spool.Sorts records)
    (encoding : Encoding T) (record : T)
    : (spool.push encoding record).Sorts (records ++ [record]) := by
  unfold SortedSpool.push
  apply Sorts.flush_if
  have room := sorts.flush_if
    (!spool.buffered.isEmpty
      && spool.bufferedBytes + recordBytes encoding record > spool.chunkLimit)
  refine ⟨room.sorted, ?_⟩
  rw [← List.append_assoc]
  exact sortBy_append_congr room.same rfl

theorem Sorts.foldl_push {spool : SortedSpool T} {records : List T} (sorts : spool.Sorts records)
    (encoding : Encoding T) (more : List T)
    : (more.foldl (SortedSpool.push encoding) spool).Sorts (records ++ more) := by
  induction more generalizing spool records with
  | nil => simpa using sorts
  | cons record rest ih =>
      rw [List.append_cons]
      exact ih (sorts.push encoding record)

/-- The levels are merged to the end, and the stream is the stable sort of the records. -/
theorem Sorts.finish {spool : SortedSpool T} {records : List T} (sorts : spool.Sorts records)
    : ∃ stream, spool.finish = .ok stream ∧ stream.records = sortBy sortKey records := by
  obtain ⟨flushed, empty⟩ := sorts.flush
  obtain ⟨runs, reduced, sorted, same⟩ :=
    reduceRuns_eq (fun runs _ => mergeRunGroup_eq runs) maxMergeFanIn flushed.sorted
  refine ⟨SortedStream.openRuns runs, ?_, ?_⟩
  · rw [SortedSpool.finish, reduced]
    rfl
  · have whole := flushed.same
    rw [empty, List.append_nil] at whole
    have merged : (SortedStream.openRuns runs).records = mergeRuns sortKey runs :=
      SortedStream.records_eq_drain _
    rw [merged, mergeRuns_eq_sortBy sorted, same, whole]

/-- The stream delivers each pushed record once, by increasing keys, and those of one key in the
order in which they were pushed.
-/
theorem finish_stable {chunkLimit : Nat} (positive : 0 < chunkLimit) (encoding : Encoding T)
    (records : List T)
    : ∃ spool stream,
        new chunkLimit = .ok spool
        ∧ (records.foldl (push encoding) spool).finish = .ok stream
        ∧ stream.records.Perm records
        ∧ SortedBy sortKey stream.records
        ∧ ∀ key,
            stream.records.filter (sortKey · = key) = records.filter (sortKey · = key) := by
  have empty : Sorts ({ chunkLimit, buffered := [], bufferedBytes := 0, runs := [] } : SortedSpool T)
      [] := by
    refine ⟨?_, rfl⟩
    intro run member
    exact absurd member List.not_mem_nil
  obtain ⟨stream, finished, sorted⟩ := (empty.foldl_push encoding records).finish
  rw [List.nil_append] at sorted
  refine ⟨_, stream, if_neg positive.ne', finished, ?_, ?_, ?_⟩
  · rw [sorted]
    exact sortBy_perm sortKey records
  · rw [sorted]
    exact sortBy_sorted sortKey records
  · intro key
    rw [sorted, filter_sortBy]

/-- Two endpoints of one key, each of which fills a chunk, keep their order. -/
theorem finish_stable_tied
    : ∃ (spool : SortedSpool ResolvedEndpoint) (stream : SortedStream ResolvedEndpoint),
        new 1 = .ok spool
        ∧ ([⟨"CALLS", "edge", .source, "Function"⟩, ⟨"CALLS", "edge", .source, "Class"⟩].foldl
            (push { capacity := fun _ => 64, bufferedRecordBytes := 80 }) spool).finish = .ok stream
        ∧ stream.records.Perm
            [⟨"CALLS", "edge", .source, "Function"⟩, ⟨"CALLS", "edge", .source, "Class"⟩]
        ∧ SortedBy sortKey stream.records
        ∧ ∀ key,
            stream.records.filter (sortKey · = key)
              = [(⟨"CALLS", "edge", .source, "Function"⟩ : ResolvedEndpoint),
                  ⟨"CALLS", "edge", .source, "Class"⟩].filter (sortKey · = key) := by
  obtain ⟨spool, stream, made, finished, same, sorted, stable⟩ :=
    finish_stable Nat.one_pos { capacity := fun _ => 64, bufferedRecordBytes := 80 }
      [(⟨"CALLS", "edge", .source, "Function"⟩ : ResolvedEndpoint),
        ⟨"CALLS", "edge", .source, "Class"⟩]
  refine ⟨spool, stream, made, finished, same, sorted, ?_⟩
  intro key
  convert stable key

end SortedSpool

end CodebaseGraph.Staging
