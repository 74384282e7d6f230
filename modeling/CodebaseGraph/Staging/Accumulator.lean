import Mathlib.Data.Finset.Basic
import Mathlib.Data.Finset.Card
import CodebaseGraph.Sorting.Groups
import CodebaseGraph.Staging.Sinks

/-! Staging of graph partitions (`src/staging_writer/accumulator.rs`).
Each loop of `finish` reads a sorted stream to its end; the records of two side files are
kept as lists in the order in which they were written. Source orders and counts are natural
numbers, so pushes cannot fail and no pending error arises.
-/

namespace CodebaseGraph.Staging

open CodebaseGraph.Sorting

/-- What serialization makes of the records and rows of a run. -/
structure Encodings where
  raw : Encoding RawRecord
  endpoint : Encoding EndpointRequest
  resolvedEndpoint : Encoding ResolvedEndpoint
  connector : Encoding ConnectorRecord
  edgeIdentity : Encoding EdgeIdentity
  nodeRowBytes : NodeStagedRow → Nat
  edgeRowBytes : EdgeStagedRow → Nat

/-- A relation type as the embedded schema declares it. -/
structure RelationType where
  name : String
  sourceTypes : Finset String
  targetTypes : Finset String

structure RelationConstraints where
  pairsByRelation : String → Option (Finset String × Finset String)

namespace RelationConstraints

/-- Relations without source or target types are unconstrained; of two declarations of one
name the later counts.
-/
def fromDeclaredSchema (relationTypes : List RelationType) : RelationConstraints where
  pairsByRelation relation :=
    (relationTypes.reverse.find?
      (fun declared =>
        declared.name = relation ∧ declared.sourceTypes ≠ ∅ ∧ declared.targetTypes ≠ ∅)).map
      (fun declared => (declared.sourceTypes, declared.targetTypes))

def allows (constraints : RelationConstraints) (relation sourceType targetType : String)
    : Bool :=
  match constraints.pairsByRelation relation with
  | none => true
  | some (sources, targets) => sourceType ∈ sources && targetType ∈ targets

end RelationConstraints

structure StagingAccumulator where
  stagingDir : String
  chunkLimit : Nat
  outputChunkLimit : Nat
  rawRecords : SortedSpool RawRecord
  nextSourceOrder : Nat
  relationConstraints : RelationConstraints

/-- The files written and the counts reported. -/
structure StagingResult where
  nodeChunks : List (OutputChunk String NodeStagedRow)
  edgeChunks : List (OutputChunk String EdgeStagedRow)
  connectorChunks : List (OutputChunk ConnectorGroup ConnectorRecord)
  copyStatements : List String
  copyCalls : Nat
  nodeRows : Nat
  edgeRows : Nat
  connectorRows : Nat
  uniqueNodeCount : Nat
  uniqueEdgeCount : Nat

namespace StagingAccumulator

def withLimits (relationTypes : List RelationType) (stagingDir : String)
    (chunkLimit outputChunkLimit : Nat)
    : Except NativeError StagingAccumulator := do
  let rawRecords ← SortedSpool.new chunkLimit
  pure
    {
      stagingDir
      chunkLimit
      outputChunkLimit
      rawRecords
      nextSourceOrder := 0
      relationConstraints := RelationConstraints.fromDeclaredSchema relationTypes
    }

variable (encodings : Encodings)

def takeSourceOrder (accumulator : StagingAccumulator) : Nat × StagingAccumulator :=
  (accumulator.nextSourceOrder,
    { accumulator with nextSourceOrder := accumulator.nextSourceOrder + 1 })

def pushRaw (accumulator : StagingAccumulator) (record : RawRecord) : StagingAccumulator :=
  { accumulator with rawRecords := accumulator.rawRecords.push encodings.raw record }

/-- Every node declares its type; the row of a retained node is left out. Only files carry
the content hash.
-/
def addNode (entry : ManifestEntry) (retainedNodes : Finset String)
    (accumulator : StagingAccumulator) (node : GraphNodeRow)
    : StagingAccumulator :=
  let (sourceOrder, accumulator) := accumulator.takeSourceOrder
  let accumulator := accumulator.pushRaw encodings (.nodeType node.id node.table sourceOrder)
  if node.id ∈ retainedNodes then accumulator
  else
    let row :=
      nodeFields node (if node.table = "File" then some entry.contentHash else none)
    accumulator.pushRaw encodings (.node node.table node.id sourceOrder row)

/-- A retained edge takes no source order. -/
def addEdge (retainedEdges : Finset String) (accumulator : StagingAccumulator)
    (edge : GraphEdgeRow)
    : StagingAccumulator :=
  if edge.id ∈ retainedEdges then accumulator
  else
    let (sourceOrder, accumulator) := accumulator.takeSourceOrder
    accumulator.pushRaw encodings
      (.edge edge.edgeType edge.id sourceOrder (edgeFields edge))

def addPartitionFiltered (accumulator : StagingAccumulator) (partition : GraphPartition)
    (retainedNodes retainedEdges : Finset String)
    : StagingAccumulator :=
  let accumulator :=
    partition.nodes.foldl (addNode encodings partition.entry retainedNodes) accumulator
  partition.edges.foldl (addEdge encodings retainedEdges) accumulator

def addPartition (accumulator : StagingAccumulator) (partition : GraphPartition)
    : StagingAccumulator :=
  accumulator.addPartitionFiltered encodings partition ∅ ∅

end StagingAccumulator

/-- The table and the id under which rows merge. -/
abbrev RowKey := String ×ₗ String

/-- What the first loop of `finish` carries: an open group of each kind and the outputs. -/
structure GroupingState where
  nodeGroup : Option (RowKey × NodeStagedRow)
  edgeGroup : Option (RowKey × EdgeStagedRow)
  typeGroup : Option (String × String)
  nodes : JsonTableSink NodeStagedRow
  mergedEdges : List MergedEdge
  endpoints : SortedSpool EndpointRequest
  nodeTypes : List ResolvedNodeType
  uniqueNodeCount : Nat

/-- Nothing grouped yet. -/
def GroupingState.start (outputChunkLimit : Nat) (endpoints : SortedSpool EndpointRequest)
    : GroupingState :=
  {
    nodeGroup := none
    edgeGroup := none
    typeGroup := none
    nodes := ChunkSink.new outputChunkLimit
    mergedEdges := []
    endpoints
    nodeTypes := []
    uniqueNodeCount := 0
  }

section Grouping

variable (encodings : Encodings) (stagingDir : String)

def sourceRequest (edge : MergedEdge) : EndpointRequest :=
  { nodeId := edge.row.sourceId, relation := edge.table, edgeId := edge.id, side := .source }

def targetRequest (edge : MergedEdge) : EndpointRequest :=
  { nodeId := edge.row.targetId, relation := edge.table, edgeId := edge.id, side := .target }

/-- An edge asks for both its endpoints before it is written. -/
def writeMergedEdge (state : GroupingState) (edge : MergedEdge) : GroupingState :=
  { state with
    endpoints :=
      (state.endpoints.push encodings.endpoint (sourceRequest edge)).push encodings.endpoint
        (targetRequest edge)
    mergedEdges := state.mergedEdges ++ [edge] }

def writeNode (state : GroupingState) (group : RowKey × NodeStagedRow) : GroupingState :=
  { state with
    nodes :=
      state.nodes.push (jsonFormat stagingDir encodings.nodeRowBytes) (ofLex group.1).1
        group.2 }

def toMergedEdge (group : RowKey × EdgeStagedRow) : MergedEdge :=
  { table := (ofLex group.1).1, id := (ofLex group.1).2, row := group.2 }

def writeNodeType (state : GroupingState) (group : String × String) : GroupingState :=
  { state with
    nodeTypes := state.nodeTypes ++ [{ id := group.1, table := group.2 }]
    uniqueNodeCount := state.uniqueNodeCount + 1 }

def flushNodeGroup (state : GroupingState) : GroupingState :=
  match state.nodeGroup with
  | none => state
  | some group => writeNode encodings stagingDir { state with nodeGroup := none } group

def flushEdgeGroup (state : GroupingState) : GroupingState :=
  match state.edgeGroup with
  | none => state
  | some group =>
      writeMergedEdge encodings { state with edgeGroup := none } (toMergedEdge group)

def flushTypeGroup (state : GroupingState) : GroupingState :=
  match state.typeGroup with
  | none => state
  | some group => writeNodeType { state with typeGroup := none } group

/-- One record of the sorted stream. An edge closes the last node group, a node type the last
edge group; of several types of one node the first is kept.
-/
def groupRecord (state : GroupingState) : RawRecord → GroupingState
  | .node table id _ row =>
      match state.nodeGroup.filter (fun group => group.1 = toLex (table, id)) with
      | some (key, current) =>
          { state with nodeGroup := some (key, mergeNodeValue current row) }
      | none =>
          { flushNodeGroup encodings stagingDir state with
            nodeGroup := some (toLex (table, id), row) }
  | .edge table id _ row =>
      let state := flushNodeGroup encodings stagingDir state
      match state.edgeGroup.filter (fun group => group.1 = toLex (table, id)) with
      | some (key, current) =>
          { state with edgeGroup := some (key, mergeEdgeValue current row) }
      | none =>
          { flushEdgeGroup encodings state with
            edgeGroup := some (toLex (table, id), row) }
  | .nodeType id table _ =>
      let state := flushEdgeGroup encodings state
      match state.typeGroup.filter (fun group => group.1 = id) with
      | some _ => state
      | none => { flushTypeGroup state with typeGroup := some (id, table) }

/-- The first loop and the flushes after it. -/
def groupRecords (start : GroupingState) (records : List RawRecord) : GroupingState :=
  flushTypeGroup
    (flushEdgeGroup encodings
      (flushNodeGroup encodings stagingDir
        (records.foldl (groupRecord encodings stagingDir) start)))

/-- The merge join of the sorted endpoint requests with the node types. -/
def resolveEndpoints
    : List EndpointRequest
      → List ResolvedNodeType
      → SortedSpool ResolvedEndpoint
      → Except NativeError (SortedSpool ResolvedEndpoint)
  | [], _, resolved => .ok resolved
  | endpoint :: rest, nodeTypes, resolved =>
      let nodeTypes := nodeTypes.dropWhile (fun nodeType => nodeType.id < endpoint.nodeId)
      match nodeTypes.head?.filter (fun nodeType => nodeType.id = endpoint.nodeId) with
      | none => .error endpoint.missingError
      | some nodeType =>
          resolveEndpoints rest nodeTypes
            (resolved.push encodings.resolvedEndpoint
              {
                relation := endpoint.relation
                edgeId := endpoint.edgeId
                side := endpoint.side
                nodeType := nodeType.table
              })

end Grouping

def takeResolvedEndpoint (stream : SortedStream ResolvedEndpoint) (relation edgeId : String)
    (side : EndpointSide)
    : Except NativeError (ResolvedEndpoint × SortedStream ResolvedEndpoint) :=
  match stream.next with
  | (none, _) =>
      .error
        (.invalidInput
          ("edge " ++ edgeId ++ " is missing its " ++ side.asStr ++ " endpoint resolution"))
  | (some endpoint, stream) =>
      if endpoint.relation ≠ relation ∨ endpoint.edgeId ≠ edgeId ∨ endpoint.side ≠ side then
        .error
          (.invalidInput
            ("edge " ++ edgeId ++ " has inconsistent " ++ side.asStr
              ++ " endpoint resolution"))
      else .ok (endpoint, stream)

/-- What the loop over the merged edges carries. -/
structure AcceptingState where
  edges : JsonTableSink EdgeStagedRow
  acceptedEdgeIds : SortedSpool EdgeIdentity
  connectors : SortedSpool ConnectorRecord

section Accepting

variable (encodings : Encodings) (stagingDir : String)

def sourceConnector (edge : MergedEdge) (sourceType : String) : ConnectorRecord :=
  {
    relation := edge.table
    side := .source
    fromType := sourceType
    toType := edge.table
    fromId := edge.row.sourceId
    toId := edge.id
    role := "source"
  }

def targetConnector (edge : MergedEdge) (targetType : String) : ConnectorRecord :=
  {
    relation := edge.table
    side := .target
    fromType := edge.table
    toType := targetType
    fromId := edge.id
    toId := edge.row.targetId
    role := "target"
  }

def acceptEdge (state : AcceptingState) (edge : MergedEdge) (sourceType targetType : String)
    : AcceptingState :=
  {
    edges := state.edges.push (jsonFormat stagingDir encodings.edgeRowBytes) edge.table edge.row
    acceptedEdgeIds := state.acceptedEdgeIds.push encodings.edgeIdentity { id := edge.id }
    connectors :=
      (state.connectors.push encodings.connector (sourceConnector edge sourceType)).push
        encodings.connector (targetConnector edge targetType)
  }

/-- Each merged edge takes its two endpoints off the stream, kept or not. -/
def acceptEdges (constraints : RelationConstraints)
    : List MergedEdge
      → SortedStream ResolvedEndpoint
      → AcceptingState
      → Except NativeError AcceptingState
  | [], _, state => .ok state
  | edge :: rest, stream, state => do
      let (source, stream) ← takeResolvedEndpoint stream edge.table edge.id .source
      let (target, stream) ← takeResolvedEndpoint stream edge.table edge.id .target
      if constraints.allows edge.table source.nodeType target.nodeType then
        acceptEdges constraints rest stream
          (acceptEdge encodings stagingDir state edge source.nodeType target.nodeType)
      else acceptEdges constraints rest stream state

/-- Neighbouring equal ids count once. -/
def countUniqueEdge (counted : Option String × Nat) (edge : EdgeIdentity)
    : Option String × Nat :=
  if counted.1 = some edge.id then counted else (some edge.id, counted.2 + 1)

/-- Neighbouring equal connectors are written once. -/
def pushConnector (state : Option ConnectorKey × ConnectorSink) (connector : ConnectorRecord)
    : Option ConnectorKey × ConnectorSink :=
  let key := sortKey connector
  if state.1 = some key then state
  else
    (some key,
      state.2.push (connectorFormat stagingDir)
        (connector.relation, connector.side, connector.fromType, connector.toType) connector)

end Accepting

def StagingAccumulator.finish (encodings : Encodings) (accumulator : StagingAccumulator)
    : Except NativeError StagingResult := do
  let rawStream ← accumulator.rawRecords.finish
  let endpoints ← SortedSpool.new accumulator.chunkLimit
  let grouped :=
    groupRecords encodings accumulator.stagingDir
      (GroupingState.start accumulator.outputChunkLimit endpoints) rawStream.records
  let (nodeChunks, nodeCopyStatements, nodeRows) := grouped.nodes.finish
  let endpointStream ← grouped.endpoints.finish
  let resolvedEndpoints ← SortedSpool.new accumulator.chunkLimit
  let resolvedEndpoints ←
    resolveEndpoints encodings endpointStream.records grouped.nodeTypes resolvedEndpoints
  let resolvedStream ← resolvedEndpoints.finish
  let connectors ← SortedSpool.new accumulator.chunkLimit
  let acceptedEdgeIds ← SortedSpool.new accumulator.chunkLimit
  let accepted ←
    acceptEdges encodings accumulator.stagingDir accumulator.relationConstraints
      grouped.mergedEdges resolvedStream
      { edges := ChunkSink.new accumulator.outputChunkLimit, acceptedEdgeIds, connectors }
  let (edgeChunks, edgeCopyStatements, edgeRows) := accepted.edges.finish
  let acceptedEdgeStream ← accepted.acceptedEdgeIds.finish
  let (_, uniqueEdgeCount) := acceptedEdgeStream.records.foldl countUniqueEdge (none, 0)
  let connectorStream ← accepted.connectors.finish
  let (_, connectorSink) :=
    connectorStream.records.foldl (pushConnector accumulator.stagingDir)
      (none, ChunkSink.new accumulator.outputChunkLimit)
  let (connectorChunks, connectorCopyStatements, connectorRows) := connectorSink.finish
  let copyStatements := nodeCopyStatements ++ edgeCopyStatements ++ connectorCopyStatements
  pure
    {
      nodeChunks
      edgeChunks
      connectorChunks
      copyStatements
      copyCalls := copyStatements.length
      nodeRows
      edgeRows
      connectorRows
      uniqueNodeCount := grouped.uniqueNodeCount
      uniqueEdgeCount
    }

/-- A whole run: set up with limits, add the partitions, finish. -/
def stagePartitions (encodings : Encodings) (relationTypes : List RelationType)
    (stagingDir : String) (chunkLimit outputChunkLimit : Nat)
    (partitions : List GraphPartition)
    : Except NativeError StagingResult := do
  let accumulator ←
    StagingAccumulator.withLimits relationTypes stagingDir chunkLimit outputChunkLimit
  (partitions.foldl (StagingAccumulator.addPartition encodings) accumulator).finish encodings

end CodebaseGraph.Staging

/-! What staging is for, without spools, streams or chunks: the merged tables of a list of
partitions, computed in memory.
-/

namespace CodebaseGraph.Staging

open CodebaseGraph.Sorting

/-- The rows of a table group in order, the connectors with their groups, and the counts. -/
structure StagedTables where
  nodeRows : List (String × NodeStagedRow)
  edgeRows : List (String × EdgeStagedRow)
  connectorRows : List (ConnectorGroup × ConnectorRecord)
  nodeRowCount : Nat
  edgeRowCount : Nat
  connectorRowCount : Nat
  uniqueNodeCount : Nat
  uniqueEdgeCount : Nat

/-- What a run emits: the rows of its chunks put together, and the counts it reports. -/
def StagingResult.tables (result : StagingResult) : StagedTables :=
  {
    nodeRows := ChunkSink.concatenated result.nodeChunks
    edgeRows := ChunkSink.concatenated result.edgeChunks
    connectorRows := ChunkSink.concatenated result.connectorChunks
    nodeRowCount := result.nodeRows
    edgeRowCount := result.edgeRows
    connectorRowCount := result.connectorRows
    uniqueNodeCount := result.uniqueNodeCount
    uniqueEdgeCount := result.uniqueEdgeCount
  }

variable (partitions : List GraphPartition)

/-- All nodes in source order. -/
def sourceNodes : List GraphNodeRow :=
  partitions.flatMap GraphPartition.nodes

def partitionNodeRows (partition : GraphPartition) : List (RowKey × NodeStagedRow) :=
  partition.nodes.map
    (fun node =>
      (toLex (node.table, node.id),
        nodeFields node
          (if node.table = "File" then some partition.entry.contentHash else none)))

def partitionEdgeRows (partition : GraphPartition) : List (RowKey × EdgeStagedRow) :=
  partition.edges.map (fun edge => (toLex (edge.edgeType, edge.id), edgeFields edge))

/-- The node rows, grouped by table and id and folded in source order. -/
def mergedNodes : List (RowKey × NodeStagedRow) :=
  mergedGroups mergeNodeValue (partitions.flatMap partitionNodeRows)

/-- The edge rows, grouped and folded likewise. -/
def mergedEdges : List MergedEdge :=
  (mergedGroups mergeEdgeValue (partitions.flatMap partitionEdgeRows)).map toMergedEdge

/-- The table of the first node with an id. -/
def firstTable (id : String) : Option String :=
  ((sourceNodes partitions).find? (fun node => node.id = id)).map GraphNodeRow.table

def endpointRequests (edge : MergedEdge) : List EndpointRequest :=
  [sourceRequest edge, targetRequest edge]

/-- An edge with the tables of its two endpoints. -/
structure ResolvedEdge where
  edge : MergedEdge
  sourceType : String
  targetType : String

def resolveEdge (edge : MergedEdge) : Option ResolvedEdge :=
  match firstTable partitions edge.row.sourceId, firstTable partitions edge.row.targetId with
  | some sourceType, some targetType => some { edge, sourceType, targetType }
  | _, _ => none

/-- The merged edges whose endpoint tables their relation allows. -/
def keptEdges (relationTypes : List RelationType) : List ResolvedEdge :=
  ((mergedEdges partitions).filterMap (resolveEdge partitions)).filter
    (fun resolved =>
      (RelationConstraints.fromDeclaredSchema relationTypes).allows resolved.edge.table
        resolved.sourceType resolved.targetType)

def edgeConnectors (resolved : ResolvedEdge) : List ConnectorRecord :=
  [sourceConnector resolved.edge resolved.sourceType,
    targetConnector resolved.edge resolved.targetType]

def connectorGroup (connector : ConnectorRecord) : ConnectorGroup :=
  (connector.relation, connector.side, connector.fromType, connector.toType)

/-- The tables, given the edges that are kept. -/
def stagedTables (kept : List ResolvedEdge) : StagedTables :=
  let connectors := sortBy sortKey (kept.flatMap edgeConnectors)
  {
    nodeRows := (mergedNodes partitions).map (fun group => ((ofLex group.1).1, group.2))
    edgeRows := kept.map (fun resolved => (resolved.edge.table, resolved.edge.row))
    connectorRows := connectors.map (fun connector => (connectorGroup connector, connector))
    nodeRowCount := (mergedNodes partitions).length
    edgeRowCount := kept.length
    connectorRowCount := connectors.length
    uniqueNodeCount := ((sourceNodes partitions).map GraphNodeRow.id).toFinset.card
    uniqueEdgeCount := (kept.map (fun resolved => resolved.edge.id)).toFinset.card
  }

/-- Staging fails at the first endpoint, in the order of node ids, that no node carries. -/
def referenceStaging (relationTypes : List RelationType) : Except NativeError StagedTables :=
  match
    (sortBy sortKey ((mergedEdges partitions).flatMap endpointRequests)).find?
      (fun request => (firstTable partitions request.nodeId).isNone)
  with
  | some request => .error request.missingError
  | none => .ok (stagedTables partitions (keptEdges partitions relationTypes))

end CodebaseGraph.Staging
