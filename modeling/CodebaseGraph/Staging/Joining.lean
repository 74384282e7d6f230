import CodebaseGraph.Staging.SourceOrder

/-! The first loop of `finish`: on the sorted records the three group slots are used one
after the other, and together they write the merged nodes, the merged edges with their
endpoint requests, and the first type of each node.
-/

namespace CodebaseGraph.Staging

open CodebaseGraph.Sorting

section Slots

variable (encodings : Encodings) (stagingDir : String)

def nodeSlot : GroupSlot GroupingState RowKey NodeStagedRow where
  group state := state.nodeGroup
  set state group := { state with nodeGroup := group }
  write := writeNode encodings stagingDir
  group_set _ _ := rfl
  set_group _ := rfl
  set_set _ _ _ := rfl
  set_write _ _ _ := rfl

def edgeSlot : GroupSlot GroupingState RowKey EdgeStagedRow where
  group state := state.edgeGroup
  set state group := { state with edgeGroup := group }
  write state group := writeMergedEdge encodings state (toMergedEdge group)
  group_set _ _ := rfl
  set_group _ := rfl
  set_set _ _ _ := rfl
  set_write _ _ _ := rfl

def typeSlot : GroupSlot GroupingState String String where
  group state := state.typeGroup
  set state group := { state with typeGroup := group }
  write := writeNodeType
  group_set _ _ := rfl
  set_group _ := rfl
  set_set _ _ _ := rfl
  set_write _ _ _ := rfl

theorem flushNodeGroup_eq (state : GroupingState)
    : flushNodeGroup encodings stagingDir state
      = (nodeSlot encodings stagingDir).flush state := by
  cases opened : state.nodeGroup <;> simp [flushNodeGroup, GroupSlot.flush, nodeSlot, opened]

theorem flushEdgeGroup_eq (state : GroupingState)
    : flushEdgeGroup encodings state = (edgeSlot encodings).flush state := by
  cases opened : state.edgeGroup <;> simp [flushEdgeGroup, GroupSlot.flush, edgeSlot, opened]

theorem flushTypeGroup_eq (state : GroupingState)
    : flushTypeGroup state = typeSlot.flush state := by
  cases opened : state.typeGroup <;> simp [flushTypeGroup, GroupSlot.flush, typeSlot, opened]

/-- Every step is a step of one slot, after the flush of the slot before. -/
theorem groupRecord_node (state : GroupingState) (table id : String) (order : Nat)
    (row : NodeStagedRow)
    : groupRecord encodings stagingDir state (.node table id order row)
      = (nodeSlot encodings stagingDir).absorb mergeNodeValue state
          (toLex (table, id), row) := by
  rw [groupRecord, GroupSlot.absorb, flushNodeGroup_eq]
  cases opened : state.nodeGroup with
  | none => simp [nodeSlot, opened]
  | some group =>
      by_cases same : group.1 = toLex (table, id) <;>
        simp [nodeSlot, opened, Option.filter_some, same]

theorem groupRecord_edge (state : GroupingState) (table id : String) (order : Nat)
    (row : EdgeStagedRow)
    : groupRecord encodings stagingDir state (.edge table id order row)
      = (edgeSlot encodings).absorb mergeEdgeValue (flushNodeGroup encodings stagingDir state)
          (toLex (table, id), row) := by
  rw [groupRecord, GroupSlot.absorb]
  generalize flushNodeGroup encodings stagingDir state = flushed
  rw [flushEdgeGroup_eq]
  cases opened : flushed.edgeGroup with
  | none => simp [edgeSlot, opened]
  | some group =>
      by_cases same : group.1 = toLex (table, id) <;>
        simp [edgeSlot, opened, Option.filter_some, same]

theorem groupRecord_nodeType (state : GroupingState) (id table : String) (order : Nat)
    : groupRecord encodings stagingDir state (.nodeType id table order)
      = typeSlot.absorb (fun first _ => first) (flushEdgeGroup encodings state)
          (id, table) := by
  rw [groupRecord, GroupSlot.absorb]
  generalize flushEdgeGroup encodings state = flushed
  rw [flushTypeGroup_eq]
  cases opened : flushed.typeGroup with
  | none => simp [typeSlot, opened]
  | some group =>
      by_cases same : group.1 = id
      · have kept : { flushed with typeGroup := some group } = flushed := by
          rw [← opened]
        subst same
        simp [typeSlot, opened, Option.filter_some, kept]
      · simp [typeSlot, opened, Option.filter_some, same]

/-- The slots are separate. -/
theorem edgeSlot_commutes
    : (edgeSlot encodings).Commutes (flushNodeGroup encodings stagingDir) := by
  constructor
  · intro state
    cases opened : state.nodeGroup <;> simp [edgeSlot, flushNodeGroup, writeNode, opened]
  · intro state group
    cases opened : state.nodeGroup <;> simp [edgeSlot, flushNodeGroup, writeNode, opened]
  · intro state closed
    cases opened : state.nodeGroup <;>
      simp [edgeSlot, writeMergedEdge, flushNodeGroup, writeNode, opened]

theorem typeSlot_commutes_node
    : typeSlot.Commutes (flushNodeGroup encodings stagingDir) := by
  constructor
  · intro state
    cases opened : state.nodeGroup <;> simp [typeSlot, flushNodeGroup, writeNode, opened]
  · intro state group
    cases opened : state.nodeGroup <;> simp [typeSlot, flushNodeGroup, writeNode, opened]
  · intro state closed
    cases opened : state.nodeGroup <;>
      simp [typeSlot, writeNodeType, flushNodeGroup, writeNode, opened]

theorem typeSlot_commutes_edge : typeSlot.Commutes (flushEdgeGroup encodings) := by
  constructor
  · intro state
    cases opened : state.edgeGroup <;> simp [typeSlot, flushEdgeGroup, writeMergedEdge, opened]
  · intro state group
    cases opened : state.edgeGroup <;> simp [typeSlot, flushEdgeGroup, writeMergedEdge, opened]
  · intro state closed
    cases opened : state.edgeGroup <;>
      simp [typeSlot, writeNodeType, flushEdgeGroup, writeMergedEdge, opened]

/-- A record that is no node row may as well find the node group flushed. -/
theorem flushNodeGroup_groupRecord (state : GroupingState) {record : RawRecord}
    (other : record.asNode = none)
    : flushNodeGroup encodings stagingDir (groupRecord encodings stagingDir state record)
      = groupRecord encodings stagingDir (flushNodeGroup encodings stagingDir state)
          record := by
  cases record with
  | node table id order row => simp [RawRecord.asNode] at other
  | edge table id order row =>
      rw [groupRecord_edge, groupRecord_edge,
        (edgeSlot_commutes encodings stagingDir).absorb mergeEdgeValue]
  | nodeType id table order =>
      rw [groupRecord_nodeType, groupRecord_nodeType,
        (typeSlot_commutes_node encodings stagingDir).absorb, flushEdgeGroup_eq,
        flushEdgeGroup_eq, (edgeSlot_commutes encodings stagingDir).flush]

/-- A type record may as well find the edge group flushed. -/
theorem flushEdgeGroup_groupRecord (state : GroupingState) {record : RawRecord}
    (ofType : record.asType.isSome)
    : flushEdgeGroup encodings (groupRecord encodings stagingDir state record)
      = groupRecord encodings stagingDir (flushEdgeGroup encodings state) record := by
  cases record with
  | node table id order row => simp [RawRecord.asType] at ofType
  | edge table id order row => simp [RawRecord.asType] at ofType
  | nodeType id table order =>
      rw [groupRecord_nodeType, groupRecord_nodeType,
        (typeSlot_commutes_edge encodings).absorb]

theorem flushNodeGroup_foldl (records : List RawRecord)
    (others : ∀ record ∈ records, record.asNode = none) (state : GroupingState)
    : flushNodeGroup encodings stagingDir
        (records.foldl (groupRecord encodings stagingDir) state)
      = records.foldl (groupRecord encodings stagingDir)
          (flushNodeGroup encodings stagingDir state) := by
  induction records generalizing state with
  | nil => rfl
  | cons record rest ih =>
      obtain ⟨other, others⟩ := List.forall_mem_cons.mp others
      rw [List.foldl_cons, List.foldl_cons, ih others,
        flushNodeGroup_groupRecord encodings stagingDir state other]

theorem flushEdgeGroup_foldl (records : List RawRecord)
    (types : ∀ record ∈ records, record.asType.isSome) (state : GroupingState)
    : flushEdgeGroup encodings (records.foldl (groupRecord encodings stagingDir) state)
      = records.foldl (groupRecord encodings stagingDir) (flushEdgeGroup encodings state) := by
  induction records generalizing state with
  | nil => rfl
  | cons record rest ih =>
      obtain ⟨ofType, others⟩ := List.forall_mem_cons.mp types
      rw [List.foldl_cons, List.foldl_cons, ih others,
        flushEdgeGroup_groupRecord encodings stagingDir state ofType]

/-- Node rows only use the node slot. -/
theorem foldl_nodes (records : List RawRecord)
    (nodes : ∀ record ∈ records, record.asNode.isSome) (state : GroupingState)
    : records.foldl (groupRecord encodings stagingDir) state
      = (records.filterMap RawRecord.asNode).foldl
          ((nodeSlot encodings stagingDir).absorb mergeNodeValue) state := by
  induction records generalizing state with
  | nil => rfl
  | cons record rest ih =>
      obtain ⟨isNode, others⟩ := List.forall_mem_cons.mp nodes
      cases record with
      | node table id order row =>
          rw [List.foldl_cons, ih others, groupRecord_node]
          rfl
      | edge table id order row => simp [RawRecord.asNode] at isNode
      | nodeType id table order => simp [RawRecord.asNode] at isNode

/-- Edge rows only use the edge slot, once no node group is open. -/
theorem foldl_edges (records : List RawRecord)
    (edges : ∀ record ∈ records, record.asEdge.isSome) (state : GroupingState)
    (closed : flushNodeGroup encodings stagingDir state = state)
    : records.foldl (groupRecord encodings stagingDir) state
      = (records.filterMap RawRecord.asEdge).foldl
          ((edgeSlot encodings).absorb mergeEdgeValue) state := by
  induction records generalizing state with
  | nil => rfl
  | cons record rest ih =>
      obtain ⟨isEdge, others⟩ := List.forall_mem_cons.mp edges
      cases record with
      | node table id order row => simp [RawRecord.asEdge] at isEdge
      | edge table id order row =>
          rw [List.foldl_cons, groupRecord_edge, closed, ih others]
          · rfl
          · rw [(edgeSlot_commutes encodings stagingDir).absorb, closed]
      | nodeType id table order => simp [RawRecord.asEdge] at isEdge

/-- Types only use the type slot, once no edge group is open. -/
theorem foldl_types (records : List RawRecord)
    (types : ∀ record ∈ records, record.asType.isSome) (state : GroupingState)
    (closed : flushEdgeGroup encodings state = state)
    : records.foldl (groupRecord encodings stagingDir) state
      = (records.filterMap RawRecord.asType).foldl
          (typeSlot.absorb (fun first _ => first)) state := by
  induction records generalizing state with
  | nil => rfl
  | cons record rest ih =>
      obtain ⟨isType, others⟩ := List.forall_mem_cons.mp types
      cases record with
      | node table id order row => simp [RawRecord.asType] at isType
      | edge table id order row => simp [RawRecord.asType] at isType
      | nodeType id table order =>
          rw [List.foldl_cons, groupRecord_nodeType, closed, ih others]
          · rfl
          · rw [(typeSlot_commutes_edge encodings).absorb, closed]

theorem foldl_writeNode (groups : List (RowKey × NodeStagedRow)) (state : GroupingState)
    : groups.foldl (writeNode encodings stagingDir) state
      = { state with
          nodes :=
            (groups.map (fun group => ((ofLex group.1).1, group.2))).foldl
              (fun sink row =>
                sink.push (jsonFormat stagingDir encodings.nodeRowBytes) row.1 row.2)
              state.nodes } := by
  induction groups generalizing state with
  | nil => rfl
  | cons group rest ih => rw [List.foldl_cons, ih]; rfl

theorem foldl_writeMergedEdge (edges : List MergedEdge) (state : GroupingState)
    : edges.foldl (writeMergedEdge encodings) state
      = { state with
          mergedEdges := state.mergedEdges ++ edges
          endpoints :=
            (edges.flatMap endpointRequests).foldl (SortedSpool.push encodings.endpoint)
              state.endpoints } := by
  induction edges generalizing state with
  | nil => simp
  | cons edge rest ih =>
      rw [List.foldl_cons, ih]
      simp [writeMergedEdge, endpointRequests]

theorem foldl_writeNodeType (groups : List (String × String)) (state : GroupingState)
    : groups.foldl writeNodeType state
      = { state with
          nodeTypes :=
            state.nodeTypes ++ groups.map (fun group => { id := group.1, table := group.2 })
          uniqueNodeCount := state.uniqueNodeCount + groups.length } := by
  induction groups generalizing state with
  | nil => simp
  | cons group rest ih =>
      rw [List.foldl_cons, ih]
      simp [writeNodeType]
      omega

end Slots

theorem not_edge_le_node {table id table' id' : String} {order order' : Nat}
    : ¬ RawKey.edge table id order ≤ .node table' id' order' := by
  simp [RawKey.le_iff, RawKey.rank, Prod.Lex.toLex_le_toLex]

theorem not_nodeType_le_node {id table' id' : String} {order order' : Nat}
    : ¬ RawKey.nodeType id order ≤ .node table' id' order' := by
  simp [RawKey.le_iff, RawKey.rank, Prod.Lex.toLex_le_toLex]

theorem not_nodeType_le_edge {id table' id' : String} {order order' : Nat}
    : ¬ RawKey.nodeType id order ≤ .edge table' id' order' := by
  simp [RawKey.le_iff, RawKey.rank, Prod.Lex.toLex_le_toLex]

/-- In sorted order all node rows come first, then all edge rows, then all types. -/
theorem exists_segments {records : List RawRecord} (sorted : SortedBy sortKey records)
    : ∃ nodes edges types : List RawRecord,
        records = nodes ++ (edges ++ types)
        ∧ (∀ record ∈ nodes, record.asNode.isSome)
        ∧ (∀ record ∈ edges, record.asEdge.isSome)
        ∧ (∀ record ∈ types, record.asType.isSome) := by
  induction records with
  | nil => exact ⟨[], [], [], rfl, by simp, by simp, by simp⟩
  | cons record rest ih =>
      obtain ⟨least, restSorted⟩ := List.pairwise_cons.mp sorted
      obtain ⟨nodes, edges, types, rfl, allNodes, allEdges, allTypes⟩ := ih restSorted
      -- A record of a later kind leaves no room for records of an earlier one behind it.
      have noNodes (later : ∀ table id order row,
          ¬ sortKey record ≤ sortKey (RawRecord.node table id order row))
          : nodes = [] := by
        cases nodes with
        | nil => rfl
        | cons node others =>
            have isNode := allNodes node List.mem_cons_self
            cases node with
            | node table id order row =>
                exact absurd (least _ (by simp)) (later table id order row)
            | edge _ _ _ _ => simp [RawRecord.asNode] at isNode
            | nodeType _ _ _ => simp [RawRecord.asNode] at isNode
      have noEdges (later : ∀ table id order row,
          ¬ sortKey record ≤ sortKey (RawRecord.edge table id order row))
          : edges = [] := by
        cases edges with
        | nil => rfl
        | cons edge others =>
            have isEdge := allEdges edge List.mem_cons_self
            cases edge with
            | node _ _ _ _ => simp [RawRecord.asEdge] at isEdge
            | edge table id order row =>
                exact absurd (least _ (by simp)) (later table id order row)
            | nodeType _ _ _ => simp [RawRecord.asEdge] at isEdge
      cases record with
      | node table id order row =>
          exact ⟨_ :: nodes, edges, types, rfl, List.forall_mem_cons.mpr ⟨rfl, allNodes⟩,
            allEdges, allTypes⟩
      | edge table id order row =>
          obtain rfl := noNodes (fun _ _ _ _ => not_edge_le_node)
          exact ⟨[], _ :: edges, types, rfl, by simp,
            List.forall_mem_cons.mpr ⟨rfl, allEdges⟩, allTypes⟩
      | nodeType id table order =>
          obtain rfl := noNodes (fun _ _ _ _ => not_nodeType_le_node)
          obtain rfl := noEdges (fun _ _ _ _ => not_nodeType_le_edge)
          exact ⟨[], [], _ :: types, rfl, by simp, by simp,
            List.forall_mem_cons.mpr ⟨rfl, allTypes⟩⟩

theorem others_of_asNode {record : RawRecord} (isNode : record.asNode.isSome)
    : record.asEdge = none ∧ record.asType = none := by
  cases record <;> simp_all [RawRecord.asNode, RawRecord.asEdge, RawRecord.asType]

theorem others_of_asEdge {record : RawRecord} (isEdge : record.asEdge.isSome)
    : record.asNode = none ∧ record.asType = none := by
  cases record <;> simp_all [RawRecord.asNode, RawRecord.asEdge, RawRecord.asType]

theorem others_of_asType {record : RawRecord} (isType : record.asType.isSome)
    : record.asNode = none ∧ record.asEdge = none := by
  cases record <;> simp_all [RawRecord.asNode, RawRecord.asEdge, RawRecord.asType]

/-- Each view reads its own segment only. -/
theorem filterMap_segments {nodes edges types : List RawRecord}
    (allNodes : ∀ record ∈ nodes, record.asNode.isSome)
    (allEdges : ∀ record ∈ edges, record.asEdge.isSome)
    (allTypes : ∀ record ∈ types, record.asType.isSome)
    : (nodes ++ (edges ++ types)).filterMap RawRecord.asNode = nodes.filterMap RawRecord.asNode
      ∧ (nodes ++ (edges ++ types)).filterMap RawRecord.asEdge
        = edges.filterMap RawRecord.asEdge
      ∧ (nodes ++ (edges ++ types)).filterMap RawRecord.asType
        = types.filterMap RawRecord.asType := by
  have unread {γ : Type} {view : RawRecord → Option γ} {records : List RawRecord}
      (none : ∀ record ∈ records, view record = none)
      : records.filterMap view = [] :=
    List.filterMap_eq_nil_iff.mpr none
  simp only [List.filterMap_append]
  refine ⟨?_, ?_, ?_⟩
  · rw [unread (fun record inside => (others_of_asEdge (allEdges record inside)).1),
      unread (fun record inside => (others_of_asType (allTypes record inside)).1),
      List.append_nil, List.append_nil]
  · rw [unread (fun record inside => (others_of_asNode (allNodes record inside)).1),
      unread (fun record inside => (others_of_asType (allTypes record inside)).2),
      List.append_nil, List.nil_append]
  · rw [unread (fun record inside => (others_of_asNode (allNodes record inside)).2),
      unread (fun record inside => (others_of_asEdge (allEdges record inside)).2),
      List.nil_append, List.nil_append]

section Result

variable (encodings : Encodings) (stagingDir : String)

/-- A pass over one segment with an empty slot writes its closed groups. -/
theorem flush_segment {κ β : Type} [LinearOrder κ] (slot : GroupSlot GroupingState κ β)
    (merge : β → β → β) (records : List (κ × β)) {state : GroupingState}
    (empty : slot.group state = none)
    : slot.flush (records.foldl (slot.absorb merge) state)
      = (closeGroups merge none records).foldl slot.write state := by
  have unset := slot.set_group state
  rw [empty] at unset
  rw [slot.flush_foldl_absorb, empty, unset]

theorem flush_nodes {records : List RawRecord} {state : GroupingState}
    (nodes : ∀ record ∈ records, record.asNode.isSome) (empty : state.nodeGroup = none)
    : flushNodeGroup encodings stagingDir
        (records.foldl (groupRecord encodings stagingDir) state)
      = (closeGroups mergeNodeValue none (records.filterMap RawRecord.asNode)).foldl
          (writeNode encodings stagingDir) state := by
  rw [foldl_nodes encodings stagingDir records nodes, flushNodeGroup_eq]
  exact flush_segment (nodeSlot encodings stagingDir) mergeNodeValue _ empty

theorem flush_edges {records : List RawRecord} {state : GroupingState}
    (edges : ∀ record ∈ records, record.asEdge.isSome) (noNode : state.nodeGroup = none)
    (empty : state.edgeGroup = none)
    : flushEdgeGroup encodings (records.foldl (groupRecord encodings stagingDir) state)
      = ((closeGroups mergeEdgeValue none (records.filterMap RawRecord.asEdge)).map
          toMergedEdge).foldl (writeMergedEdge encodings) state := by
  have closed : flushNodeGroup encodings stagingDir state = state := by
    simp only [flushNodeGroup, noNode]
  rw [foldl_edges encodings stagingDir records edges state closed, flushEdgeGroup_eq,
    List.foldl_map]
  exact flush_segment (edgeSlot encodings) mergeEdgeValue _ empty

theorem flush_types {records : List RawRecord} {state : GroupingState}
    (types : ∀ record ∈ records, record.asType.isSome) (noEdge : state.edgeGroup = none)
    (empty : state.typeGroup = none)
    : flushTypeGroup (records.foldl (groupRecord encodings stagingDir) state)
      = (closeGroups (fun first _ => first) none (records.filterMap RawRecord.asType)).foldl
          writeNodeType state := by
  have closed : flushEdgeGroup encodings state = state := by
    simp only [flushEdgeGroup, noEdge]
  rw [foldl_types encodings stagingDir records types state closed, flushTypeGroup_eq]
  exact flush_segment typeSlot (fun first _ => first) _ empty

/-- What the first loop leaves behind, from a state with empty slots: each kind of group is
written as if it were alone.
-/
theorem groupRecords_sortBy {records : List RawRecord} (pushed : InSourceOrder records)
    {start : GroupingState} (noNode : start.nodeGroup = none) (noEdge : start.edgeGroup = none)
    (noType : start.typeGroup = none)
    : groupRecords encodings stagingDir start (sortBy sortKey records)
      = (mergedGroups (fun first _ => first) (records.filterMap RawRecord.asType)).foldl
          writeNodeType
          (((mergedGroups mergeEdgeValue (records.filterMap RawRecord.asEdge)).map
            toMergedEdge).foldl (writeMergedEdge encodings)
            ((mergedGroups mergeNodeValue (records.filterMap RawRecord.asNode)).foldl
              (writeNode encodings stagingDir) start)) := by
  obtain ⟨nodes, edges, types, segments, allNodes, allEdges, allTypes⟩ :=
    exists_segments (sortBy_sorted sortKey records)
  obtain ⟨readNodes, readEdges, readTypes⟩ := filterMap_segments allNodes allEdges allTypes
  rw [← segments] at readNodes readEdges readTypes
  have notNode : ∀ record ∈ edges ++ types, record.asNode = none := by
    intro record inside
    rcases List.mem_append.mp inside with inEdges | inTypes
    · exact (others_of_asEdge (allEdges record inEdges)).1
    · exact (others_of_asType (allTypes record inTypes)).1
  rw [groupRecords, segments, List.foldl_append, flushNodeGroup_foldl _ _ _ notNode,
    flush_nodes encodings stagingDir allNodes noNode, ← readNodes,
    asNode_ordered.closeGroups_sortBy mergeNodeValue pushed, foldl_writeNode,
    List.foldl_append, flushEdgeGroup_foldl _ _ _ allTypes,
    flush_edges encodings stagingDir allEdges (by exact noNode) (by exact noEdge), ← readEdges,
    asEdge_ordered.closeGroups_sortBy mergeEdgeValue pushed, foldl_writeMergedEdge,
    flush_types encodings stagingDir allTypes (by exact noEdge) (by exact noType), ← readTypes,
    asType_ordered.closeGroups_sortBy (fun first _ => first) pushed]

end Result

end CodebaseGraph.Staging

/-! The merge join of endpoint requests with node types, and the lock-step pass over the
merged edges and their resolved endpoints.
-/

namespace CodebaseGraph.Staging

open CodebaseGraph.Sorting

/-- The table under an id in a list of node types. -/
def lookupType (nodeTypes : List ResolvedNodeType) (id : String) : Option String :=
  (nodeTypes.find? (fun nodeType => nodeType.id = id)).map ResolvedNodeType.table

/-- Ids increase strictly. -/
def IncreasingTypes (nodeTypes : List ResolvedNodeType) : Prop :=
  nodeTypes.Pairwise (fun first second => first.id < second.id)

/-- Types below a requested id are of no use for it or for larger ids. -/
theorem lookupType_dropWhile (nodeTypes : List ResolvedNodeType) {id later : String}
    (le : id ≤ later)
    : lookupType (nodeTypes.dropWhile (fun nodeType => nodeType.id < id)) later
      = lookupType nodeTypes later := by
  induction nodeTypes with
  | nil => rfl
  | cons nodeType rest ih =>
      by_cases below : nodeType.id < id
      · have other : nodeType.id ≠ later := (below.trans_le le).ne
        rw [List.dropWhile_cons_of_pos (by simpa using below), ih]
        simp [lookupType, other]
      · rw [List.dropWhile_cons_of_neg (by simpa using below)]

/-- The current node type answers a request exactly if its id does. -/
theorem head_dropWhile {nodeTypes : List ResolvedNodeType}
    (increasing : IncreasingTypes nodeTypes) (id : String)
    : ((nodeTypes.dropWhile (fun nodeType => nodeType.id < id)).head?.filter
        (fun nodeType => nodeType.id = id)).map ResolvedNodeType.table
      = lookupType nodeTypes id := by
  induction nodeTypes with
  | nil => rfl
  | cons nodeType rest ih =>
      obtain ⟨above, others⟩ := List.pairwise_cons.mp increasing
      by_cases below : nodeType.id < id
      · rw [List.dropWhile_cons_of_pos (by simpa using below), ih others]
        simp [lookupType, below.ne]
      · rw [List.dropWhile_cons_of_neg (by simpa using below)]
        by_cases same : nodeType.id = id
        · simp [lookupType, Option.filter_some, same]
        · have larger : id < nodeType.id := lt_of_le_of_ne (not_lt.mp below) (Ne.symm same)
          have absent : rest.find? (fun nodeType => nodeType.id = id) = none := by
            apply List.find?_eq_none.mpr
            intro other inside
            simpa using (larger.trans (above other inside)).ne'
          simp [lookupType, Option.filter_some, same, absent]

def resolveRequest (lookup : String → Option String) (request : EndpointRequest)
    : Option ResolvedEndpoint :=
  (lookup request.nodeId).map
    (fun nodeType =>
      { relation := request.relation, edgeId := request.edgeId, side := request.side, nodeType })

/-- The join fails at the first request without a type and otherwise resolves them all, by
induction on the sorted requests.
-/
theorem resolveEndpoints_eq (encodings : Encodings) (lookup : String → Option String)
    (requests : List EndpointRequest) (nodeTypes : List ResolvedNodeType)
    (resolved : SortedSpool ResolvedEndpoint) (sorted : SortedBy sortKey requests)
    (increasing : IncreasingTypes nodeTypes)
    (same : ∀ request ∈ requests, lookupType nodeTypes request.nodeId = lookup request.nodeId)
    : resolveEndpoints encodings requests nodeTypes resolved
      = match requests.find? (fun request => (lookup request.nodeId).isNone) with
        | some request => .error request.missingError
        | none =>
            .ok
              ((requests.filterMap (resolveRequest lookup)).foldl
                (SortedSpool.push encodings.resolvedEndpoint) resolved) := by
  induction requests generalizing nodeTypes resolved with
  | nil => rfl
  | cons request rest ih =>
      obtain ⟨least, restSorted⟩ := List.pairwise_cons.mp sorted
      obtain ⟨here, others⟩ := List.forall_mem_cons.mp same
      have answered := head_dropWhile increasing request.nodeId
      rw [here] at answered
      rw [resolveEndpoints]
      cases found : (nodeTypes.dropWhile (fun nodeType => nodeType.id < request.nodeId)).head?.filter
          (fun nodeType => nodeType.id = request.nodeId) with
      | none =>
          rw [found] at answered
          simp [← answered]
      | some nodeType =>
          rw [found] at answered
          have later : ∀ other ∈ rest,
              lookupType
                  (nodeTypes.dropWhile (fun nodeType => nodeType.id < request.nodeId))
                  other.nodeId
                = lookup other.nodeId := by
            intro other inside
            have le : request.nodeId ≤ other.nodeId := by
              rcases Prod.Lex.le_iff.mp (least other inside) with lt | eq
              · exact lt.le
              · exact eq.1.le
            rw [lookupType_dropWhile nodeTypes le, others other inside]
          have dropped : IncreasingTypes
              (nodeTypes.dropWhile (fun nodeType => nodeType.id < request.nodeId)) :=
            List.Pairwise.sublist (List.dropWhile_sublist _) increasing
          simp only [ih _ _ restSorted dropped later, List.find?_cons, ← answered,
            Option.map_some, Option.isNone_some, List.filterMap_cons, resolveRequest,
            List.foldl_cons]

/-- Identities increase strictly. -/
def IncreasingEdges (edges : List MergedEdge) : Prop :=
  edges.Pairwise
    (fun first second => toLex (first.table, first.id) < toLex (second.table, second.id))

/-- An edge's two endpoints as the second join reads them. -/
def resolvedEndpoints (resolved : ResolvedEdge) : List ResolvedEndpoint :=
  [
    {
      relation := resolved.edge.table
      edgeId := resolved.edge.id
      side := .source
      nodeType := resolved.sourceType
    },
    {
      relation := resolved.edge.table
      edgeId := resolved.edge.id
      side := .target
      nodeType := resolved.targetType
    }
  ]

theorem takeResolvedEndpoint_eq {stream : SortedStream ResolvedEndpoint}
    {endpoint : ResolvedEndpoint} {rest : List ResolvedEndpoint}
    (left : stream.records = endpoint :: rest)
    : ∃ following,
        takeResolvedEndpoint stream endpoint.relation endpoint.edgeId endpoint.side
          = .ok (endpoint, following)
        ∧ following.records = rest := by
  obtain ⟨following, delivered, remaining⟩ := SortedStream.next_of_records left
  refine ⟨following, ?_, remaining⟩
  simp [takeResolvedEndpoint, delivered]

/-- On endpoints in the order of the edges the pass accepts the allowed edges, by induction
on the edges.
-/
theorem acceptEdges_eq (encodings : Encodings) (stagingDir : String)
    (constraints : RelationConstraints) (edges : List ResolvedEdge)
    (stream : SortedStream ResolvedEndpoint) (state : AcceptingState)
    (aligned : stream.records = edges.flatMap resolvedEndpoints)
    : acceptEdges encodings stagingDir constraints (edges.map ResolvedEdge.edge) stream state
      = .ok
          ((edges.filter
            (fun resolved =>
              constraints.allows resolved.edge.table resolved.sourceType
                resolved.targetType)).foldl
            (fun state resolved =>
              acceptEdge encodings stagingDir state resolved.edge resolved.sourceType
                resolved.targetType)
            state) := by
  induction edges generalizing stream state with
  | nil => rfl
  | cons resolved rest ih =>
      obtain ⟨afterSource, source, left⟩ := takeResolvedEndpoint_eq aligned
      obtain ⟨afterTarget, target, others⟩ := takeResolvedEndpoint_eq left
      rw [List.map_cons, acceptEdges, source]
      simp only [bind, Except.bind, target]
      by_cases allowed
        : constraints.allows resolved.edge.table resolved.sourceType resolved.targetType
      · rw [if_pos allowed, ih _ _ others, List.filter_cons, if_pos allowed, List.foldl_cons]
      · rw [if_neg allowed, ih _ _ others, List.filter_cons, if_neg allowed]

/-- What the accepted edges leave in the outputs. -/
theorem foldl_acceptEdge (encodings : Encodings) (stagingDir : String)
    (kept : List ResolvedEdge) (state : AcceptingState)
    : kept.foldl
        (fun state resolved =>
          acceptEdge encodings stagingDir state resolved.edge resolved.sourceType
            resolved.targetType)
        state
      = {
          edges :=
            (kept.map (fun resolved => (resolved.edge.table, resolved.edge.row))).foldl
              (fun sink row =>
                sink.push (jsonFormat stagingDir encodings.edgeRowBytes) row.1 row.2)
              state.edges
          acceptedEdgeIds :=
            (kept.map (fun resolved => { id := resolved.edge.id })).foldl
              (SortedSpool.push encodings.edgeIdentity) state.acceptedEdgeIds
          connectors :=
            (kept.flatMap edgeConnectors).foldl (SortedSpool.push encodings.connector)
              state.connectors
        } := by
  induction kept generalizing state with
  | nil => rfl
  | cons resolved rest ih =>
      rw [List.foldl_cons, ih]
      rfl

theorem sortKey_lt_of_edge {first second : ResolvedEndpoint}
    (before
      : toLex (first.relation, first.edgeId) < toLex (second.relation, second.edgeId))
    : sortKey first < sortKey second := by
  simp only [sortKey, Prod.Lex.toLex_lt_toLex] at before ⊢
  tauto

theorem identity_of_mem {resolved : ResolvedEdge} {endpoint : ResolvedEndpoint}
    (inside : endpoint ∈ resolvedEndpoints resolved)
    : endpoint.relation = resolved.edge.table ∧ endpoint.edgeId = resolved.edge.id := by
  simp only [resolvedEndpoints, List.mem_cons, List.not_mem_nil, or_false] at inside
  rcases inside with rfl | rfl <;> exact ⟨rfl, rfl⟩

/-- The resolved endpoints of increasing edges are already sorted, and their keys differ. -/
theorem resolvedEndpoints_increasing {edges : List ResolvedEdge}
    (increasing : IncreasingEdges (edges.map ResolvedEdge.edge))
    : (edges.flatMap resolvedEndpoints).Pairwise
        (fun first second => sortKey first < sortKey second) := by
  induction edges with
  | nil => exact .nil
  | cons resolved rest ih =>
      obtain ⟨above, others⟩ := List.pairwise_cons.mp increasing
      rw [List.flatMap_cons]
      apply List.pairwise_append.mpr
      refine ⟨?_, ih others, ?_⟩
      · have sides : EndpointSide.source < EndpointSide.target := Nat.zero_lt_one
        simp [resolvedEndpoints, sortKey, Prod.Lex.toLex_lt_toLex, sides]
      · intro first inFirst second inSecond
        obtain ⟨later, inRest, inLater⟩ := List.mem_flatMap.mp inSecond
        obtain ⟨relation, edgeId⟩ := identity_of_mem inFirst
        obtain ⟨relation', edgeId'⟩ := identity_of_mem inLater
        apply sortKey_lt_of_edge
        rw [relation, edgeId, relation', edgeId']
        exact above later.edge (List.mem_map_of_mem inRest)

end CodebaseGraph.Staging
