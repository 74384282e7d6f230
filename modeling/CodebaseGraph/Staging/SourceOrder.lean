import CodebaseGraph.Staging.Accumulator

/-! The records of a run in the order in which they are pushed, and what remains of that
order when they are sorted: rows of one identity keep it.
-/

namespace CodebaseGraph.Staging

open CodebaseGraph.Sorting

def nodeRecordsFrom (entry : ManifestEntry) : Nat → List GraphNodeRow → List RawRecord
  | _, [] => []
  | order, node :: rest =>
      .nodeType node.id node.table order
        :: .node node.table node.id order
          (nodeFields node (if node.table = "File" then some entry.contentHash else none))
        :: nodeRecordsFrom entry (order + 1) rest

def edgeRecordsFrom : Nat → List GraphEdgeRow → List RawRecord
  | _, [] => []
  | order, edge :: rest =>
      .edge edge.edgeType edge.id order (edgeFields edge) :: edgeRecordsFrom (order + 1) rest

def partitionRecordsFrom (order : Nat) (partition : GraphPartition) : List RawRecord :=
  nodeRecordsFrom partition.entry order partition.nodes
    ++ edgeRecordsFrom (order + partition.nodes.length) partition.edges

/-- All records pushed for the partitions, the first one with the given order. -/
def recordsFrom : Nat → List GraphPartition → List RawRecord
  | _, [] => []
  | order, partition :: rest =>
      partitionRecordsFrom order partition
        ++ recordsFrom (order + partition.nodes.length + partition.edges.length) rest

section Pushing

variable (encodings : Encodings)

theorem foldl_addNode (entry : ManifestEntry) (nodes : List GraphNodeRow)
    (accumulator : StagingAccumulator) {records : List RawRecord}
    (has : accumulator.rawRecords.Has records)
    : ∃ spool : SortedSpool RawRecord,
        nodes.foldl (StagingAccumulator.addNode encodings entry ∅) accumulator
          = { accumulator with
              rawRecords := spool
              nextSourceOrder := accumulator.nextSourceOrder + nodes.length }
        ∧ spool.Has (records ++ nodeRecordsFrom entry accumulator.nextSourceOrder nodes) := by
  induction nodes generalizing accumulator records with
  | nil => exact ⟨accumulator.rawRecords, rfl, by simpa [nodeRecordsFrom] using has⟩
  | cons node rest ih =>
      have pushed :=
        (has.push encodings.raw (.nodeType node.id node.table accumulator.nextSourceOrder)).push
          encodings.raw
          (.node node.table node.id accumulator.nextSourceOrder
            (nodeFields node (if node.table = "File" then some entry.contentHash else none)))
      obtain ⟨spool, folded, held⟩ :=
        ih (StagingAccumulator.addNode encodings entry ∅ accumulator node) pushed
      refine ⟨spool, ?_, ?_⟩
      · rw [List.foldl_cons, folded]
        simp only [StagingAccumulator.addNode, StagingAccumulator.takeSourceOrder,
          StagingAccumulator.pushRaw, Finset.notMem_empty, if_false, List.length_cons]
        congr 1
        omega
      · simpa [nodeRecordsFrom, StagingAccumulator.addNode,
          StagingAccumulator.takeSourceOrder, StagingAccumulator.pushRaw] using held

theorem foldl_addEdge (edges : List GraphEdgeRow) (accumulator : StagingAccumulator)
    {records : List RawRecord} (has : accumulator.rawRecords.Has records)
    : ∃ spool : SortedSpool RawRecord,
        edges.foldl (StagingAccumulator.addEdge encodings ∅) accumulator
          = { accumulator with
              rawRecords := spool
              nextSourceOrder := accumulator.nextSourceOrder + edges.length }
        ∧ spool.Has (records ++ edgeRecordsFrom accumulator.nextSourceOrder edges) := by
  induction edges generalizing accumulator records with
  | nil => exact ⟨accumulator.rawRecords, rfl, by simpa [edgeRecordsFrom] using has⟩
  | cons edge rest ih =>
      have pushed :=
        has.push encodings.raw
          (.edge edge.edgeType edge.id accumulator.nextSourceOrder (edgeFields edge))
      obtain ⟨spool, folded, held⟩ :=
        ih (StagingAccumulator.addEdge encodings ∅ accumulator edge) pushed
      refine ⟨spool, ?_, ?_⟩
      · rw [List.foldl_cons, folded]
        simp only [StagingAccumulator.addEdge, StagingAccumulator.takeSourceOrder,
          StagingAccumulator.pushRaw, Finset.notMem_empty, if_false, List.length_cons]
        congr 1
        omega
      · simpa [edgeRecordsFrom, StagingAccumulator.addEdge,
          StagingAccumulator.takeSourceOrder, StagingAccumulator.pushRaw] using held

/-- Adding partitions pushes their records and changes nothing else, by induction on the
partitions. -/
theorem foldl_addPartition (partitions : List GraphPartition)
    (accumulator : StagingAccumulator) {records : List RawRecord}
    (has : accumulator.rawRecords.Has records)
    : ∃ (spool : SortedSpool RawRecord) (order : Nat),
        partitions.foldl (StagingAccumulator.addPartition encodings) accumulator
          = { accumulator with rawRecords := spool, nextSourceOrder := order }
        ∧ spool.Has (records ++ recordsFrom accumulator.nextSourceOrder partitions) := by
  induction partitions generalizing accumulator records with
  | nil =>
      exact ⟨accumulator.rawRecords, accumulator.nextSourceOrder, rfl,
        by simpa [recordsFrom] using has⟩
  | cons partition rest ih =>
      obtain ⟨spool, nodes, held⟩ :=
        foldl_addNode encodings partition.entry partition.nodes accumulator has
      obtain ⟨spool', edges, held'⟩ :=
        foldl_addEdge encodings partition.edges
          { accumulator with
            rawRecords := spool
            nextSourceOrder := accumulator.nextSourceOrder + partition.nodes.length }
          held
      have added
          : StagingAccumulator.addPartition encodings accumulator partition
            = { accumulator with
                rawRecords := spool'
                nextSourceOrder :=
                  accumulator.nextSourceOrder + partition.nodes.length
                    + partition.edges.length } := by
        rw [StagingAccumulator.addPartition, StagingAccumulator.addPartitionFiltered, nodes,
          edges]
      obtain ⟨last, order, folded, all⟩ :=
        ih (StagingAccumulator.addPartition encodings accumulator partition)
          (by rw [added]; exact held')
      refine ⟨last, order, ?_, ?_⟩
      · rw [List.foldl_cons, folded, added]
      · rw [added] at all
        simpa only [recordsFrom, partitionRecordsFrom, List.append_assoc] using all

end Pushing

namespace RawRecord

def sourceOrder : RawRecord → Nat
  | .node _ _ order _ | .edge _ _ order _ | .nodeType _ _ order => order

/-- A node's type is pushed just before its row. -/
def position : RawRecord → Nat ×ₗ Nat
  | .nodeType _ _ order => toLex (order, 0)
  | .node _ _ order _ | .edge _ _ order _ => toLex (order, 1)

def asNode : RawRecord → Option (RowKey × NodeStagedRow)
  | .node table id _ row => some (toLex (table, id), row)
  | _ => none

def asEdge : RawRecord → Option (RowKey × EdgeStagedRow)
  | .edge table id _ row => some (toLex (table, id), row)
  | _ => none

def asType : RawRecord → Option (String × String)
  | .nodeType id table _ => some (id, table)
  | _ => none

theorem position_lt_of_order {first second : RawRecord}
    (before : first.sourceOrder < second.sourceOrder)
    : first.position < second.position := by
  apply Prod.Lex.lt_iff.mpr
  left
  cases first <;> cases second <;> exact before

theorem order_le_of_position {first second : RawRecord}
    (before : first.position < second.position)
    : first.sourceOrder ≤ second.sourceOrder := by
  by_contra later
  exact lt_asymm before (position_lt_of_order (not_le.mp later))

/-- The position can be read off the key. -/
theorem position_eq_of_sortKey {first second : RawRecord}
    (same : sortKey first = sortKey second)
    : first.position = second.position := by
  cases first <;> cases second <;> simp_all [sortKey, position]

end RawRecord

theorem nodeRecordsFrom_order {entry : ManifestEntry} {order : Nat}
    {nodes : List GraphNodeRow} {record : RawRecord}
    (inside : record ∈ nodeRecordsFrom entry order nodes)
    : order ≤ record.sourceOrder ∧ record.sourceOrder < order + nodes.length := by
  induction nodes generalizing order with
  | nil => simp [nodeRecordsFrom] at inside
  | cons node rest ih =>
      simp only [nodeRecordsFrom, List.mem_cons] at inside
      rcases inside with rfl | rfl | later
      · simp [RawRecord.sourceOrder]
      · simp [RawRecord.sourceOrder]
      · have bounds := ih later
        simp only [List.length_cons]
        omega

theorem edgeRecordsFrom_order {order : Nat} {edges : List GraphEdgeRow} {record : RawRecord}
    (inside : record ∈ edgeRecordsFrom order edges)
    : order ≤ record.sourceOrder ∧ record.sourceOrder < order + edges.length := by
  induction edges generalizing order with
  | nil => simp [edgeRecordsFrom] at inside
  | cons edge rest ih =>
      simp only [edgeRecordsFrom, List.mem_cons] at inside
      rcases inside with rfl | later
      · simp [RawRecord.sourceOrder]
      · have bounds := ih later
        simp only [List.length_cons]
        omega

theorem partitionRecordsFrom_order {order : Nat} {partition : GraphPartition}
    {record : RawRecord} (inside : record ∈ partitionRecordsFrom order partition)
    : order ≤ record.sourceOrder
      ∧ record.sourceOrder < order + partition.nodes.length + partition.edges.length := by
  rcases List.mem_append.mp inside with node | edge
  · have bounds := nodeRecordsFrom_order node
    omega
  · have bounds := edgeRecordsFrom_order edge
    omega

theorem recordsFrom_order {order : Nat} {partitions : List GraphPartition}
    {record : RawRecord} (inside : record ∈ recordsFrom order partitions)
    : order ≤ record.sourceOrder := by
  induction partitions generalizing order with
  | nil => simp [recordsFrom] at inside
  | cons partition rest ih =>
      rcases List.mem_append.mp inside with here | later
      · exact (partitionRecordsFrom_order here).1
      · have bound := ih later
        omega

/-- The records as pushed: positions increase. -/
def InSourceOrder (records : List RawRecord) : Prop :=
  records.Pairwise (fun first second => first.position < second.position)

theorem nodeRecordsFrom_inSourceOrder (entry : ManifestEntry) (order : Nat)
    (nodes : List GraphNodeRow)
    : InSourceOrder (nodeRecordsFrom entry order nodes) := by
  induction nodes generalizing order with
  | nil => exact .nil
  | cons node rest ih =>
      have later {first : RawRecord} (at_ : first.sourceOrder = order)
          : ∀ record ∈ nodeRecordsFrom entry (order + 1) rest,
              first.position < record.position := by
        intro record inside
        have bounds := nodeRecordsFrom_order inside
        apply RawRecord.position_lt_of_order
        omega
      refine List.Pairwise.cons ?_ (List.Pairwise.cons (later rfl) (ih (order + 1)))
      intro record inside
      rcases List.mem_cons.mp inside with rfl | further
      · exact Prod.Lex.lt_iff.mpr (.inr ⟨rfl, Nat.zero_lt_one⟩)
      · exact later rfl record further

theorem edgeRecordsFrom_inSourceOrder (order : Nat) (edges : List GraphEdgeRow)
    : InSourceOrder (edgeRecordsFrom order edges) := by
  induction edges generalizing order with
  | nil => exact .nil
  | cons edge rest ih =>
      refine List.Pairwise.cons ?_ (ih (order + 1))
      intro record inside
      exact RawRecord.position_lt_of_order (edgeRecordsFrom_order inside).1

theorem recordsFrom_inSourceOrder (order : Nat) (partitions : List GraphPartition)
    : InSourceOrder (recordsFrom order partitions) := by
  induction partitions generalizing order with
  | nil => exact .nil
  | cons partition rest ih =>
      apply List.pairwise_append.mpr
      refine ⟨List.pairwise_append.mpr ⟨nodeRecordsFrom_inSourceOrder _ _ _,
        edgeRecordsFrom_inSourceOrder _ _, ?_⟩, ih _, ?_⟩
      · intro node inNodes edge inEdges
        have before := nodeRecordsFrom_order inNodes
        have after := edgeRecordsFrom_order inEdges
        apply RawRecord.position_lt_of_order
        omega
      · intro first inFirst second inSecond
        have before := partitionRecordsFrom_order inFirst
        have after := recordsFrom_order inSecond
        apply RawRecord.position_lt_of_order
        omega

/-- No two records share a key. -/
theorem InSourceOrder.distinct {records : List RawRecord} (ordered : InSourceOrder records)
    : ∀ a ∈ records, ∀ b ∈ records, sortKey a = sortKey b → a = b := by
  intro a inA b inB same
  have nodup : (records.map RawRecord.position).Nodup :=
    (List.pairwise_map.mpr ordered).imp (fun lt => lt.ne)
  exact List.inj_on_of_nodup_map nodup inA inB (RawRecord.position_eq_of_sortKey same)

/-- Part of the records, read as keyed values in a way that sorting respects: keys follow the
sort order, and records of one key are sorted as they are pushed.
-/
structure OrderedView {κ β : Type} [LinearOrder κ] (view : RawRecord → Option (κ × β))
    : Prop where
  key_le : ∀ {first second : RawRecord} {a b : κ × β},
    view first = some a → view second = some b → sortKey first ≤ sortKey second → a.1 ≤ b.1
  sortKey_le : ∀ {first second : RawRecord} {a b : κ × β},
    view first = some a → view second = some b → a.1 = b.1 →
      first.sourceOrder ≤ second.sourceOrder → sortKey first ≤ sortKey second

section Views

variable {κ β : Type} [LinearOrder κ] {view : RawRecord → Option (κ × β)}

theorem OrderedView.sorted (ordered : OrderedView view) {records : List RawRecord}
    (sorted : SortedBy sortKey records)
    : SortedBy Prod.fst (records.filterMap view) := by
  apply List.Pairwise.filterMap _ _ sorted
  intro first second le a fromFirst b fromSecond
  exact ordered.key_le fromFirst fromSecond le

/-- The values under one key come from the records of that key. -/
theorem valuesOf_filterMap (key : κ) (records : List RawRecord)
    : valuesOf key (records.filterMap view)
      = ((records.filter (fun record => (view record).any (fun value => value.1 = key))).filterMap
          view).map Prod.snd := by
  induction records with
  | nil => rfl
  | cons record rest ih =>
      cases viewed : view record with
      | none => simpa [viewed] using ih
      | some value =>
          by_cases same : value.1 = key
          · simpa [viewed, same, valuesOf] using ih
          · simpa [viewed, same, valuesOf] using ih

/-- Sorting keeps the values under a key in source order. -/
theorem OrderedView.valuesOf_sortBy (ordered : OrderedView view) {records : List RawRecord}
    (pushed : InSourceOrder records) (key : κ)
    : valuesOf key ((sortBy sortKey records).filterMap view)
      = valuesOf key (records.filterMap view) := by
  let keyed := fun record => (view record).any (fun value => value.1 = key)
  have viewed {record : RawRecord} (inside : record ∈ records.filter keyed)
      : ∃ value, view record = some value ∧ value.1 = key := by
    obtain ⟨value, found, same⟩ := (Option.any_eq_true _ _).mp (List.mem_filter.mp inside).2
    exact ⟨value, found, of_decide_eq_true same⟩
  have sorted : SortedBy sortKey ((sortBy sortKey records).filter keyed) :=
    (sortBy_sorted sortKey records).filter keyed
  have alongside : SortedBy sortKey (records.filter keyed) := by
    refine List.Pairwise.imp_of_mem ?_ (pushed.filter keyed)
    intro first second inFirst inSecond before
    obtain ⟨a, fromFirst, atFirst⟩ := viewed inFirst
    obtain ⟨b, fromSecond, atSecond⟩ := viewed inSecond
    exact ordered.sortKey_le fromFirst fromSecond (atFirst.trans atSecond.symm)
      (RawRecord.order_le_of_position before)
  have unmoved : (sortBy sortKey records).filter keyed = records.filter keyed := by
    apply sorted.eq_of_perm alongside ((sortBy_perm sortKey records).filter keyed)
    intro a inA b inB
    exact pushed.distinct a (List.mem_filter.mp inA).1 b (List.mem_filter.mp inB).1
  rw [valuesOf_filterMap, valuesOf_filterMap]
  exact congrArg (fun list => (list.filterMap view).map Prod.snd) unmoved

/-- Streaming through the sorted records collapses a view to its reference groups. -/
theorem OrderedView.closeGroups_sortBy (ordered : OrderedView view) (merge : β → β → β)
    {records : List RawRecord} (pushed : InSourceOrder records)
    : closeGroups merge none ((sortBy sortKey records).filterMap view)
      = mergedGroups merge (records.filterMap view) :=
  closeGroups_eq_mergedGroups merge (ordered.sorted (sortBy_sorted sortKey records))
    (ordered.valuesOf_sortBy pushed)

end Views

theorem le_of_lt_or_eq {κ : Type} [LinearOrder κ] {first second : κ} {after : Prop}
    (le : first < second ∨ first = second ∧ after)
    : first ≤ second :=
  le.elim le_of_lt (fun same => same.1.le)

theorem asNode_ordered : OrderedView RawRecord.asNode := by
  constructor
  · intro first second a b fromFirst fromSecond le
    cases first <;> cases second <;> simp only [RawRecord.asNode, reduceCtorEq,
      Option.some.injEq] at fromFirst fromSecond
    subst fromFirst fromSecond
    exact le_of_lt_or_eq (RawKey.node_le_iff.mp le)
  · intro first second a b fromFirst fromSecond same before
    cases first <;> cases second <;> simp only [RawRecord.asNode, reduceCtorEq,
      Option.some.injEq] at fromFirst fromSecond
    subst fromFirst fromSecond
    exact RawKey.node_le_iff.mpr (.inr ⟨same, before⟩)

theorem asEdge_ordered : OrderedView RawRecord.asEdge := by
  constructor
  · intro first second a b fromFirst fromSecond le
    cases first <;> cases second <;> simp only [RawRecord.asEdge, reduceCtorEq,
      Option.some.injEq] at fromFirst fromSecond
    subst fromFirst fromSecond
    exact le_of_lt_or_eq (RawKey.edge_le_iff.mp le)
  · intro first second a b fromFirst fromSecond same before
    cases first <;> cases second <;> simp only [RawRecord.asEdge, reduceCtorEq,
      Option.some.injEq] at fromFirst fromSecond
    subst fromFirst fromSecond
    exact RawKey.edge_le_iff.mpr (.inr ⟨same, before⟩)

theorem asType_ordered : OrderedView RawRecord.asType := by
  constructor
  · intro first second a b fromFirst fromSecond le
    cases first <;> cases second <;> simp only [RawRecord.asType, reduceCtorEq,
      Option.some.injEq] at fromFirst fromSecond
    subst fromFirst fromSecond
    exact le_of_lt_or_eq (RawKey.nodeType_le_iff.mp le)
  · intro first second a b fromFirst fromSecond same before
    cases first <;> cases second <;> simp only [RawRecord.asType, reduceCtorEq,
      Option.some.injEq] at fromFirst fromSecond
    subst fromFirst fromSecond
    exact RawKey.nodeType_le_iff.mpr (.inr ⟨same, before⟩)

/-- A reading of the records that ignores source orders reads off the partitions. -/
theorem recordsFrom_filterMap {γ : Type} {view : RawRecord → Option γ}
    (nodeView : ManifestEntry → GraphNodeRow → List γ) (edgeView : GraphEdgeRow → List γ)
    (ofNode : ∀ entry order node,
      (nodeRecordsFrom entry order [node]).filterMap view = nodeView entry node)
    (ofEdge : ∀ order edge, (edgeRecordsFrom order [edge]).filterMap view = edgeView edge)
    (order : Nat) (partitions : List GraphPartition)
    : (recordsFrom order partitions).filterMap view
      = partitions.flatMap
          (fun partition =>
            partition.nodes.flatMap (nodeView partition.entry)
              ++ partition.edges.flatMap edgeView) := by
  have nodes (entry : ManifestEntry) (order : Nat) (nodes : List GraphNodeRow)
      : (nodeRecordsFrom entry order nodes).filterMap view = nodes.flatMap (nodeView entry) := by
    induction nodes generalizing order with
    | nil => rfl
    | cons node rest ih =>
        rw [List.flatMap_cons, ← ofNode entry order node, ← ih (order + 1),
          ← List.filterMap_append]
        rfl
  have edges (order : Nat) (edges : List GraphEdgeRow)
      : (edgeRecordsFrom order edges).filterMap view = edges.flatMap edgeView := by
    induction edges generalizing order with
    | nil => rfl
    | cons edge rest ih =>
        rw [List.flatMap_cons, ← ofEdge order edge, ← ih (order + 1), ← List.filterMap_append]
        rfl
  induction partitions generalizing order with
  | nil => rfl
  | cons partition rest ih =>
      rw [recordsFrom, partitionRecordsFrom, List.filterMap_append, List.filterMap_append, nodes,
        edges, ih, List.flatMap_cons]

theorem recordsFrom_asNode (order : Nat) (partitions : List GraphPartition)
    : (recordsFrom order partitions).filterMap RawRecord.asNode
      = partitions.flatMap partitionNodeRows := by
  rw [recordsFrom_filterMap
    (fun entry node =>
      [(toLex (node.table, node.id),
        nodeFields node (if node.table = "File" then some entry.contentHash else none))])
    (fun _ => []) (fun _ _ _ => rfl) (fun _ _ => rfl) order partitions]
  simp only [List.flatMap_eq_nil_iff.mpr (fun _ _ => rfl), List.append_nil,
    ← List.map_eq_flatMap]
  rfl

theorem recordsFrom_asEdge (order : Nat) (partitions : List GraphPartition)
    : (recordsFrom order partitions).filterMap RawRecord.asEdge
      = partitions.flatMap partitionEdgeRows := by
  rw [recordsFrom_filterMap (fun _ _ => [])
    (fun edge => [(toLex (edge.edgeType, edge.id), edgeFields edge)]) (fun _ _ _ => rfl)
    (fun _ _ => rfl) order partitions]
  simp only [List.flatMap_eq_nil_iff.mpr (fun _ _ => rfl), List.nil_append,
    ← List.map_eq_flatMap]
  rfl

theorem recordsFrom_asType (order : Nat) (partitions : List GraphPartition)
    : (recordsFrom order partitions).filterMap RawRecord.asType
      = (sourceNodes partitions).map (fun node => (node.id, node.table)) := by
  rw [recordsFrom_filterMap (fun _ node => [(node.id, node.table)]) (fun _ => [])
    (fun _ _ _ => rfl) (fun _ _ => rfl) order partitions]
  simp only [List.flatMap_eq_nil_iff.mpr (fun _ _ => rfl), List.append_nil,
    ← List.map_eq_flatMap, sourceNodes, List.map_flatMap]

end CodebaseGraph.Staging
