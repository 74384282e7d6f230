import CodebaseGraph.Staging.Joining

/-! Staging refines its in-memory reference: where spills and output chunks fall has no
influence on the tables.
-/

namespace CodebaseGraph.Staging

open CodebaseGraph.Sorting

section Reference

variable (partitions : List GraphPartition)

/-- The types the first loop writes: the first table of each id, in the order of ids. -/
def nodeTypes : List ResolvedNodeType :=
  (mergedGroups (fun first _ => first)
    ((sourceNodes partitions).map (fun node => (node.id, node.table)))).map
    (fun group => { id := group.1, table := group.2 })

theorem nodeTypes_increasing : IncreasingTypes (nodeTypes partitions) :=
  List.pairwise_map.mpr (mergedGroups_isGrouping _ _).increasing

theorem foldGroup_first (tables : List String)
    : foldGroup (fun first _ => first) tables = tables.head? := by
  have kept (rest : List String) (first : String)
      : rest.foldl (fun first _ => first) first = first := by
    induction rest with
    | nil => rfl
    | cons _ rest ih => exact ih
  cases tables with
  | nil => rfl
  | cons first rest => simp [foldGroup, kept]

/-- Looking an id up among the types finds the table of its first node. -/
theorem lookupType_nodeTypes (id : String)
    : lookupType (nodeTypes partitions) id = firstTable partitions id := by
  have found :=
    (mergedGroups_isGrouping (fun first _ => first)
      ((sourceNodes partitions).map (fun node => (node.id, node.table)))).find? id
  rw [foldGroup_first] at found
  simp only [lookupType, nodeTypes, List.find?_map, Option.map_map]
  simp only [Function.comp_def]
  rw [found, valuesOf, List.filter_map, List.map_map, List.head?_map, List.head?_filter]
  rfl

theorem mergedEdges_increasing : IncreasingEdges (mergedEdges partitions) :=
  List.pairwise_map.mpr (mergedGroups_isGrouping _ _).increasing

/-- Edges all of whose endpoints have a table. -/
def AllResolved (edges : List MergedEdge) : Prop :=
  ∀ edge ∈ edges, ∀ request ∈ endpointRequests edge,
    (firstTable partitions request.nodeId).isSome

/-- Resolved edges are the edges with the types of their endpoints. -/
theorem resolveEdge_of_allResolved {edges : List MergedEdge}
    (resolved : AllResolved partitions edges)
    : (edges.filterMap (resolveEdge partitions)).map ResolvedEdge.edge = edges
      ∧ (edges.flatMap endpointRequests).filterMap (resolveRequest (firstTable partitions))
        = (edges.filterMap (resolveEdge partitions)).flatMap resolvedEndpoints := by
  induction edges with
  | nil => exact ⟨rfl, rfl⟩
  | cons edge rest ih =>
      obtain ⟨here, others⟩ := List.forall_mem_cons.mp resolved
      obtain ⟨sameEdges, sameEndpoints⟩ := ih others
      obtain ⟨sourceType, source⟩ :=
        Option.isSome_iff_exists.mp (here (sourceRequest edge) (by simp [endpointRequests]))
      obtain ⟨targetType, target⟩ :=
        Option.isSome_iff_exists.mp (here (targetRequest edge) (by simp [endpointRequests]))
      have both : resolveEdge partitions edge = some { edge, sourceType, targetType } := by
        simp only [sourceRequest] at source
        simp only [targetRequest] at target
        simp only [resolveEdge, source, target]
      rw [List.filterMap_cons, both]
      refine ⟨?_, ?_⟩
      · rw [List.map_cons, sameEdges]
      · rw [List.flatMap_cons, List.flatMap_cons, List.filterMap_append, sameEndpoints]
        congr 1
        simp [endpointRequests, resolveRequest, source, target, resolvedEndpoints]
        simp [sourceRequest, targetRequest]

end Reference

section Counting

/-- Over sorted ids the count is that of the distinct ids, by induction on the ids. -/
theorem foldl_countUniqueEdge (edges : List EdgeIdentity) (previous : String) (count : Nat)
    (sorted : SortedBy sortKey edges) (least : ∀ edge ∈ edges, previous ≤ edge.id)
    : (edges.foldl countUniqueEdge (some previous, count)).2
      = count + ((edges.map EdgeIdentity.id).toFinset.erase previous).card := by
  induction edges generalizing previous count with
  | nil => simp
  | cons edge rest ih =>
      obtain ⟨first, others⟩ := List.pairwise_cons.mp sorted
      obtain ⟨here, later⟩ := List.forall_mem_cons.mp least
      rw [List.foldl_cons, countUniqueEdge]
      by_cases same : previous = edge.id
      · subst same
        rw [if_pos rfl, ih edge.id count others first]
        simp
      · rw [if_neg (by simpa using same), ih edge.id (count + 1) others first]
        have below : previous < edge.id := lt_of_le_of_ne here same
        have absent : previous ∉ ((edge :: rest).map EdgeIdentity.id).toFinset := by
          rw [List.mem_toFinset, List.mem_map]
          intro ⟨other, inside, eq⟩
          rcases List.mem_cons.mp inside with rfl | further
          · exact same eq.symm
          · exact absurd (first other further) (not_le.mpr (eq.trans_lt below))
        rw [Finset.erase_eq_of_notMem absent, List.map_cons, List.toFinset_cons,
          ← Finset.card_erase_add_one (Finset.mem_insert_self edge.id _),
          Finset.erase_insert_eq_erase]
        omega

theorem uniqueEdgeCount_eq {edges : List EdgeIdentity} (sorted : SortedBy sortKey edges)
    : (edges.foldl countUniqueEdge (none, 0)).2
      = (edges.map EdgeIdentity.id).toFinset.card := by
  cases edges with
  | nil => rfl
  | cons edge rest =>
      obtain ⟨first, others⟩ := List.pairwise_cons.mp sorted
      rw [List.foldl_cons, countUniqueEdge, if_neg (by simp),
        foldl_countUniqueEdge rest edge.id _ others first, List.map_cons, List.toFinset_cons,
        ← Finset.card_erase_add_one (Finset.mem_insert_self edge.id _),
        Finset.erase_insert_eq_erase]
      omega

/-- Connectors whose keys increase strictly are all written. -/
theorem foldl_pushConnector (stagingDir : String) (connectors : List ConnectorRecord)
    (previous : Option ConnectorKey) (sink : ConnectorSink)
    (increasing : connectors.Pairwise (fun first second => sortKey first < sortKey second))
    (above : ∀ connector ∈ connectors, ∀ key ∈ previous, key < sortKey connector)
    : (connectors.foldl (pushConnector stagingDir) (previous, sink)).2
      = (connectors.map (fun connector => (connectorGroup connector, connector))).foldl
          (fun sink row => sink.push (connectorFormat stagingDir) row.1 row.2) sink := by
  induction connectors generalizing previous sink with
  | nil => rfl
  | cons connector rest ih =>
      obtain ⟨first, others⟩ := List.pairwise_cons.mp increasing
      have fresh : previous ≠ some (sortKey connector) := by
        intro same
        exact lt_irrefl _ (above connector List.mem_cons_self _ same)
      rw [List.foldl_cons, pushConnector, if_neg fresh, ih _ _ others]
      · rfl
      · intro later inside key same
        obtain rfl := Option.some.inj same
        exact first later inside

/-- The relation and the edge a connector belongs to. -/
def connectorEdge (connector : ConnectorRecord) : String × String :=
  match connector.side with
  | .source => (connector.relation, connector.toId)
  | .target => (connector.relation, connector.fromId)

theorem connectorEdge_of_mem {resolved : ResolvedEdge} {connector : ConnectorRecord}
    (inside : connector ∈ edgeConnectors resolved)
    : connectorEdge connector = (resolved.edge.table, resolved.edge.id) := by
  simp only [edgeConnectors, List.mem_cons, List.not_mem_nil, or_false] at inside
  rcases inside with rfl | rfl <;> rfl

theorem connector_injective {first second : ConnectorRecord}
    (same : sortKey first = sortKey second)
    : first = second := by
  cases first
  cases second
  simpa [sortKey] using same

/-- The connectors of increasing edges have distinct keys. -/
theorem edgeConnectors_distinct {kept : List ResolvedEdge}
    (increasing : IncreasingEdges (kept.map ResolvedEdge.edge))
    : (kept.flatMap edgeConnectors).Nodup := by
  induction kept with
  | nil => exact .nil
  | cons resolved rest ih =>
      obtain ⟨above, others⟩ := List.pairwise_cons.mp increasing
      rw [List.flatMap_cons]
      apply List.nodup_append'.mpr
      refine ⟨?_, ih others, ?_⟩
      · simp [edgeConnectors, sourceConnector, targetConnector]
      · intro connector here there
        obtain ⟨later, inRest, inLater⟩ := List.mem_flatMap.mp there
        have same := (connectorEdge_of_mem here).symm.trans (connectorEdge_of_mem inLater)
        exact (above later.edge (List.mem_map_of_mem inRest)).ne (congrArg toLex same)

theorem sortBy_edgeConnectors_increasing {kept : List ResolvedEdge}
    (increasing : IncreasingEdges (kept.map ResolvedEdge.edge))
    : (sortBy sortKey (kept.flatMap edgeConnectors)).Pairwise
        (fun first second => sortKey first < sortKey second) := by
  have distinct : (sortBy sortKey (kept.flatMap edgeConnectors)).Nodup :=
    (sortBy_perm sortKey _).nodup_iff.mpr (edgeConnectors_distinct increasing)
  have sorted := sortBy_sorted sortKey (kept.flatMap edgeConnectors)
  refine (List.Pairwise.and sorted distinct).imp ?_
  intro first second both
  exact lt_of_le_of_ne both.1 (fun same => both.2 (connector_injective same))

end Counting

section Finishing

variable (encodings : Encodings)

/-- The sorted requests find a missing endpoint unless all edges are resolved. -/
theorem allResolved_of_find?_eq_none {partitions : List GraphPartition}
    (found
      : (sortBy sortKey ((mergedEdges partitions).flatMap endpointRequests)).find?
          (fun request => (firstTable partitions request.nodeId).isNone) = none)
    : AllResolved partitions (mergedEdges partitions) := by
  intro edge inside request asked
  have listed : request ∈ sortBy sortKey ((mergedEdges partitions).flatMap endpointRequests) :=
    (sortBy_perm sortKey _).mem_iff.mpr (List.mem_flatMap.mpr ⟨edge, inside, asked⟩)
  have carried := List.find?_eq_none.mp found request listed
  simpa [Option.isSome_iff_ne_none] using carried

theorem endpointRequest_injective {first second : EndpointRequest}
    (same : sortKey first = sortKey second)
    : first = second := by
  cases first
  cases second
  simpa [sortKey] using same

theorem keptEdges_increasing {partitions : List GraphPartition}
    (relationTypes : List RelationType)
    (resolved : AllResolved partitions (mergedEdges partitions))
    : IncreasingEdges ((keptEdges partitions relationTypes).map ResolvedEdge.edge) := by
  have increasing := mergedEdges_increasing partitions
  rw [← (resolveEdge_of_allResolved partitions resolved).1] at increasing
  exact increasing.sublist (List.filter_sublist.map ResolvedEdge.edge)

/-- The tail of `finish` after a join that resolved every endpoint. -/
theorem acceptEdges_resolved (stagingDir : String) (constraints : RelationConstraints)
    {partitions : List GraphPartition}
    (resolved : AllResolved partitions (mergedEdges partitions))
    {spool : SortedSpool ResolvedEndpoint}
    (has
      : spool.Has
          ((sortBy sortKey ((mergedEdges partitions).flatMap endpointRequests)).filterMap
            (resolveRequest (firstTable partitions))))
    (state : AcceptingState)
    : ∃ stream,
        spool.finish = .ok stream
        ∧ acceptEdges encodings stagingDir constraints (mergedEdges partitions) stream state
          = .ok
              ((((mergedEdges partitions).filterMap (resolveEdge partitions)).filter
                (fun resolved =>
                  constraints.allows resolved.edge.table resolved.sourceType
                    resolved.targetType)).foldl
                (fun state resolved =>
                  acceptEdge encodings stagingDir state resolved.edge resolved.sourceType
                    resolved.targetType)
                state) := by
  obtain ⟨sameEdges, sameEndpoints⟩ := resolveEdge_of_allResolved partitions resolved
  have endpoints := has.perm ((sortBy_perm sortKey _).filterMap _)
  rw [sameEndpoints] at endpoints
  have increasing := mergedEdges_increasing partitions
  rw [← sameEdges] at increasing
  have strict := resolvedEndpoints_increasing increasing
  have sorted : SortedBy sortKey
      (((mergedEdges partitions).filterMap (resolveEdge partitions)).flatMap
        resolvedEndpoints) :=
    strict.imp le_of_lt
  obtain ⟨stream, finished, ordered, same⟩ := endpoints.finish
  refine ⟨stream, finished, ?_⟩
  have aligned := ordered.eq_of_perm sorted same
    (List.inj_on_of_nodup_map ((List.pairwise_map.mpr strict).imp ne_of_lt))
  have accepted := acceptEdges_eq encodings stagingDir constraints _ stream state aligned
  rwa [sameEdges] at accepted

/-- What the first loop leaves of the partitions' records. -/
theorem groupRecords_partitions (stagingDir : String) (outputChunkLimit : Nat)
    (endpoints : SortedSpool EndpointRequest) (partitions : List GraphPartition)
    : groupRecords encodings stagingDir (GroupingState.start outputChunkLimit endpoints)
        (sortBy sortKey (recordsFrom 0 partitions))
      = {
          nodeGroup := none
          edgeGroup := none
          typeGroup := none
          nodes :=
            ((mergedNodes partitions).map (fun group => ((ofLex group.1).1, group.2))).foldl
              (fun sink row =>
                sink.push (jsonFormat stagingDir encodings.nodeRowBytes) row.1 row.2)
              (ChunkSink.new outputChunkLimit)
          mergedEdges := mergedEdges partitions
          endpoints :=
            ((mergedEdges partitions).flatMap endpointRequests).foldl
              (SortedSpool.push encodings.endpoint) endpoints
          nodeTypes := nodeTypes partitions
          uniqueNodeCount := ((sourceNodes partitions).map GraphNodeRow.id).toFinset.card
        } := by
  rw [groupRecords_sortBy encodings stagingDir (recordsFrom_inSourceOrder 0 partitions) rfl rfl
    rfl, recordsFrom_asNode, recordsFrom_asEdge, recordsFrom_asType, foldl_writeNode,
    foldl_writeMergedEdge, foldl_writeNodeType, mergedGroups_length, List.map_map]
  simp only [GroupingState.start, List.nil_append, Nat.zero_add]
  rfl

/-- `finish` on the records of some partitions, at any positive spill limit. -/
theorem finish_tables {accumulator : StagingAccumulator} {partitions : List GraphPartition}
    {relationTypes : List RelationType} (positive : 0 < accumulator.chunkLimit)
    (constraints
      : accumulator.relationConstraints = RelationConstraints.fromDeclaredSchema relationTypes)
    (has : accumulator.rawRecords.Has (recordsFrom 0 partitions))
    : (accumulator.finish encodings).map StagingResult.tables
      = referenceStaging partitions relationTypes := by
  obtain ⟨rawStream, rawFinished, rawRecords⟩ :=
    has.finish_eq (recordsFrom_inSourceOrder 0 partitions).distinct
  obtain ⟨endpoints, newEndpoints, noEndpoints⟩ :=
    SortedSpool.new_has (T := EndpointRequest) positive
  obtain ⟨resolved, newResolved, noResolved⟩ :=
    SortedSpool.new_has (T := ResolvedEndpoint) positive
  obtain ⟨connectors, newConnectors, noConnectors⟩ :=
    SortedSpool.new_has (T := ConnectorRecord) positive
  obtain ⟨accepted, newAccepted, noAccepted⟩ := SortedSpool.new_has (T := EdgeIdentity) positive
  obtain ⟨endpointStream, endpointsFinished, requests⟩ :=
    (noEndpoints.foldl_push encodings.endpoint
      ((mergedEdges partitions).flatMap endpointRequests)).finish_eq
      (fun _ _ _ _ => endpointRequest_injective)
  rw [List.nil_append] at requests
  have joined := resolveEndpoints_eq encodings (firstTable partitions) endpointStream.records
    (nodeTypes partitions) resolved (requests ▸ sortBy_sorted sortKey _)
    (nodeTypes_increasing partitions)
    (fun request _ => lookupType_nodeTypes partitions request.nodeId)
  rw [requests] at joined
  rw [StagingAccumulator.finish, rawFinished, newEndpoints]
  simp only [bind, Except.bind, rawRecords, groupRecords_partitions, endpointsFinished,
    newResolved, requests, joined, referenceStaging]
  cases missing
    : (sortBy sortKey ((mergedEdges partitions).flatMap endpointRequests)).find?
        (fun request => (firstTable partitions request.nodeId).isNone) with
  | some request => rfl
  | none =>
      have endpointsHeld := noResolved.foldl_push encodings.resolvedEndpoint
        ((sortBy sortKey ((mergedEdges partitions).flatMap endpointRequests)).filterMap
          (resolveRequest (firstTable partitions)))
      obtain ⟨resolvedStream, resolvedFinished, acceptance⟩ :=
        acceptEdges_resolved encodings accumulator.stagingDir accumulator.relationConstraints
          (allResolved_of_find?_eq_none missing) endpointsHeld
          { edges := ChunkSink.new accumulator.outputChunkLimit, acceptedEdgeIds := accepted,
            connectors }
      rw [constraints, ← keptEdges, foldl_acceptEdge] at acceptance
      obtain ⟨acceptedStream, acceptedFinished, acceptedSorted, acceptedIds⟩ :=
        (noAccepted.foldl_push encodings.edgeIdentity
          ((keptEdges partitions relationTypes).map
            (fun resolved => { id := resolved.edge.id }))).finish
      obtain ⟨connectorStream, connectorsFinished, connectorRecords⟩ :=
        (noConnectors.foldl_push encodings.connector
          ((keptEdges partitions relationTypes).flatMap edgeConnectors)).finish_eq
          (fun _ _ _ _ => connector_injective)
      rw [List.nil_append] at acceptedIds connectorRecords
      simp only [resolvedFinished, newConnectors, newAccepted, constraints, acceptance,
        acceptedFinished, connectorsFinished]
      have increasing := keptEdges_increasing relationTypes (allResolved_of_find?_eq_none missing)
      have connectorSink := foldl_pushConnector accumulator.stagingDir _ none
        (ChunkSink.new accumulator.outputChunkLimit)
        (sortBy_edgeConnectors_increasing increasing) (by simp)
      have uniqueEdges := uniqueEdgeCount_eq acceptedSorted
      rw [List.toFinset_eq_of_perm _ _ (acceptedIds.map EdgeIdentity.id), List.map_map]
        at uniqueEdges
      simp only [connectorRecords, connectorSink, uniqueEdges, Except.map, pure, Except.pure,
        StagingResult.tables, stagedTables, ChunkSink.finish_foldl_push, List.length_map]
      rfl

/-- A whole run yields the tables of the reference, at any positive spill limit. -/
theorem stagePartitions_tables (relationTypes : List RelationType) (stagingDir : String)
    {chunkLimit : Nat} (positive : 0 < chunkLimit) (outputChunkLimit : Nat)
    (partitions : List GraphPartition)
    : (stagePartitions encodings relationTypes stagingDir chunkLimit outputChunkLimit
        partitions).map StagingResult.tables
      = referenceStaging partitions relationTypes := by
  obtain ⟨spool, fresh, empty⟩ := SortedSpool.new_has (T := RawRecord) positive
  rw [stagePartitions, StagingAccumulator.withLimits, fresh]
  simp only [bind, Except.bind, pure, Except.pure]
  obtain ⟨pushed, order, added, has⟩ :=
    foldl_addPartition encodings partitions
      {
        stagingDir
        chunkLimit
        outputChunkLimit
        rawRecords := spool
        nextSourceOrder := 0
        relationConstraints := RelationConstraints.fromDeclaredSchema relationTypes
      }
      empty
  rw [added]
  exact finish_tables encodings positive rfl has

/-- The reference fails exactly if some merged edge names an id that no node carries. -/
theorem referenceStaging_fails_iff (partitions : List GraphPartition)
    (relationTypes : List RelationType)
    : (∃ problem, referenceStaging partitions relationTypes = .error problem)
      ↔ ∃ edge ∈ mergedEdges partitions,
          ∃ id ∈ [edge.row.sourceId, edge.row.targetId],
            ∀ partition ∈ partitions, ∀ node ∈ partition.nodes, node.id ≠ id := by
  have uncarried (id : String)
      : firstTable partitions id = none
        ↔ ∀ partition ∈ partitions, ∀ node ∈ partition.nodes, node.id ≠ id := by
    simp only [firstTable, sourceNodes, Option.map_eq_none_iff, List.find?_eq_none,
      List.mem_flatMap, decide_eq_true_eq]
    constructor
    · intro unfound partition inside node inNodes
      exact unfound node ⟨partition, inside, inNodes⟩
    · rintro uncarried node ⟨partition, inside, inNodes⟩
      exact uncarried partition inside node inNodes
  rw [referenceStaging]
  constructor
  · rintro ⟨problem, failed⟩
    split at failed
    next request found =>
        have missing := List.find?_some found
        obtain ⟨edge, inside, asked⟩ :=
          List.mem_flatMap.mp ((sortBy_perm sortKey _).mem_iff.mp (List.mem_of_find?_eq_some found))
        refine ⟨edge, inside, request.nodeId, ?_, (uncarried request.nodeId).mp (by simpa using missing)⟩
        simp only [endpointRequests, List.mem_cons, List.not_mem_nil, or_false] at asked
        rcases asked with rfl | rfl <;> simp [sourceRequest, targetRequest]
    next => simp at failed
  · rintro ⟨edge, inside, id, endpoint, unknown⟩
    split
    next request _ => exact ⟨request.missingError, rfl⟩
    next found =>
        have resolved := allResolved_of_find?_eq_none found edge inside
        have absent := (uncarried id).mpr unknown
        simp only [List.mem_cons, List.not_mem_nil, or_false] at endpoint
        rcases endpoint with rfl | rfl
        · have carried := resolved (sourceRequest edge) (by simp [endpointRequests])
          simp [sourceRequest, absent] at carried
        · have carried := resolved (targetRequest edge) (by simp [endpointRequests])
          simp [targetRequest, absent] at carried

end Finishing

/-- Staging is independent of its spill and output limits: two runs with positive limits
fail alike or emit the same rows in the same order with the same counts. Both equal the
in-memory reference, which fails exactly if a merged edge names an id no node carries.
Witness: a node and an edge given twice, staged record by record and in one go.
-/
theorem staging_refines_reference (encodings : Encodings) (relationTypes : List RelationType)
    (stagingDir : String) (partitions : List GraphPartition)
    {chunkLimit outputChunkLimit chunkLimit' outputChunkLimit' : Nat}
    (positive : 0 < chunkLimit) (positive' : 0 < chunkLimit')
    : (stagePartitions encodings relationTypes stagingDir chunkLimit outputChunkLimit
          partitions).map StagingResult.tables
        = (stagePartitions encodings relationTypes stagingDir chunkLimit' outputChunkLimit'
            partitions).map StagingResult.tables
      ∧ (stagePartitions encodings relationTypes stagingDir chunkLimit outputChunkLimit
          partitions).map StagingResult.tables
        = referenceStaging partitions relationTypes
      ∧ ((∃ problem,
            stagePartitions encodings relationTypes stagingDir chunkLimit outputChunkLimit
              partitions
            = .error problem)
          ↔ ∃ edge ∈ mergedEdges partitions,
              ∃ id ∈ [edge.row.sourceId, edge.row.targetId],
                ∀ partition ∈ partitions, ∀ node ∈ partition.nodes, node.id ≠ id) := by
  have tables := stagePartitions_tables encodings relationTypes stagingDir positive
    outputChunkLimit partitions
  have tables' := stagePartitions_tables encodings relationTypes stagingDir positive'
    outputChunkLimit' partitions
  refine ⟨tables.trans tables'.symm, tables, ?_⟩
  rw [← referenceStaging_fails_iff partitions relationTypes, ← tables]
  cases stagePartitions encodings relationTypes stagingDir chunkLimit outputChunkLimit
      partitions with
  | error problem => simp [Except.map]
  | ok result => simp [Except.map]

section Example

def plainNode (id table : String) : GraphNodeRow :=
  {
    id
    table
    label := ""
    kind := ""
    language := ""
    grammarVersion := none
    path := ""
    qualifiedName := ""
    scopeId := ""
    lineStart := none
    lineEnd := none
    byteStart := none
    byteEnd := none
    treeSitterNodeType := ""
    captureName := ""
    summary := ""
    metadata := .null
  }

def plainEdge (id edgeType sourceId targetId : String) : GraphEdgeRow :=
  {
    id
    edgeType
    sourceId
    targetId
    kind := ""
    confidence := 1.0
    fieldName := none
    childIndex := none
    lineStart := none
    lineEnd := none
    byteStart := none
    byteEnd := none
    metadata := .null
  }

/-- A file and a symbol in it, both given by two partitions. -/
def repeatedPartition (contentHash : String) : GraphPartition :=
  {
    entry := { contentHash }
    nodes := [plainNode "file" "File", plainNode "symbol" "Symbol"]
    edges := [plainEdge "edge" "Contains" "file" "symbol"]
  }

def plainEncodings : Encodings :=
  {
    raw := ⟨fun _ => 1, 1⟩
    endpoint := ⟨fun _ => 1, 1⟩
    resolvedEndpoint := ⟨fun _ => 1, 1⟩
    connector := ⟨fun _ => 1, 1⟩
    edgeIdentity := ⟨fun _ => 1, 1⟩
    nodeRowBytes := fun _ => 1
    edgeRowBytes := fun _ => 1
  }

theorem staging_refines_reference_repeated
    : (stagePartitions plainEncodings [] "staging" 1 1
          [repeatedPartition "a", repeatedPartition "b"]).map StagingResult.tables
        = (stagePartitions plainEncodings [] "staging" 4096 4096
            [repeatedPartition "a", repeatedPartition "b"]).map StagingResult.tables :=
  (staging_refines_reference plainEncodings [] "staging" _ (by decide) (by decide)).1

end Example

end CodebaseGraph.Staging
