import CodebaseGraph.Partition.Builder
import CodebaseGraph.Staging.Refinement
import CodebaseGraph.Syntax.Emission

/-! Every partition that is built is a closed graph, so that staging finds the ends of all edges.
-/

namespace CodebaseGraph.Partition

open CodebaseGraph.Collections
open CodebaseGraph.Protocol
open CodebaseGraph.Sorting
open CodebaseGraph.Staging (GraphNodeRow GraphEdgeRow)
open CodebaseGraph.Syntax

/-- The rows have distinct ids, and every edge joins two of the nodes in tables its relation
allows.
-/
structure ClosedRows (allowlist : RelationAllowlist) (nodes : List GraphNodeRow)
    (edges : List GraphEdgeRow)
    : Prop where
  nodeIds : (nodes.map GraphNodeRow.id).Nodup
  edgeIds : (edges.map GraphEdgeRow.id).Nodup
  joined : ∀ edge ∈ edges,
    ∃ source ∈ nodes, ∃ target ∈ nodes,
      source.id = edge.sourceId
      ∧ target.id = edge.targetId
      ∧ allowlist.allows edge.edgeType source.table target.table = true

theorem closedRows_of_closed {allowlist : RelationAllowlist} {builder : NativeBuilder}
    (closed : Closed allowlist builder)
    : ClosedRows allowlist builder.intoRows.nodes builder.intoRows.edges := by
  have nodes := sortBy_perm (fun row : GraphNodeRow => toLex (row.table, row.id))
    builder.nodes.rows
  have edges := sortBy_perm (fun row : GraphEdgeRow => toLex (row.edgeType, row.id))
    builder.edges.rows
  refine ⟨?_, ?_, ?_⟩
  · exact (nodes.map _).nodup_iff.mpr builder.nodes.distinct
  · exact (edges.map _).nodup_iff.mpr builder.edges.distinct
  · intro edge inside
    obtain ⟨_, _, ⟨source, isSource, rfl⟩, ⟨target, isTarget, rfl⟩, allowed⟩ :=
      closed.joined edge (edges.mem_iff.mp inside)
    obtain ⟨inSource, sameSource⟩ := Keyed.get?_eq_some_iff.mp isSource
    obtain ⟨inTarget, sameTarget⟩ := Keyed.get?_eq_some_iff.mp isTarget
    exact ⟨source, nodes.mem_iff.mpr inSource, target, nodes.mem_iff.mpr inTarget, sameSource,
      sameTarget, allowed⟩

/-- A build succeeds with closed rows, or fails where a required relation is not allowed. -/
theorem buildSyntaxTreeGraphRows_run (environment : Environment) {metadata : Metadata}
    {allowlist : RelationAllowlist} (root : SyntaxNode)
    (decoded : relationAllowlistFromMeta environment metadata = .ok allowlist)
    : match buildSyntaxTreeGraphRows environment metadata root with
      | .error _ => ¬ Permissive allowlist
      | .ok rows => ClosedRows allowlist rows.nodes rows.edges := by
  have run := buildSyntaxTreeGraphRows_traces environment root decoded
  cases built : buildSyntaxTreeGraphRows environment metadata root with
  | error problem =>
      rw [built] at run
      exact run
  | ok rows =>
      rw [built] at run
      obtain ⟨builder, rfl, traced⟩ := run
      exact closedRows_of_closed traced.closed

theorem buildSyntaxTreeGraphRows_closed {environment : Environment} {metadata : Metadata}
    {root : SyntaxNode} {rows : BuiltGraphRows}
    (built : buildSyntaxTreeGraphRows environment metadata root = .ok rows)
    : ∃ allowlist,
        relationAllowlistFromMeta environment metadata = .ok allowlist
        ∧ ClosedRows allowlist rows.nodes rows.edges := by
  cases decoded : relationAllowlistFromMeta environment metadata with
  | error problem =>
      rw [buildSyntaxTreeGraphRows, NativeBuilder.new, decoded] at built
      cases built
  | ok allowlist =>
      have run := buildSyntaxTreeGraphRows_run environment root decoded
      rw [built] at run
      exact ⟨allowlist, rfl, run⟩

theorem buildSyntaxTreeGraphRows_succeeds {environment : Environment} {metadata : Metadata}
    {allowlist : RelationAllowlist} (root : SyntaxNode)
    (decoded : relationAllowlistFromMeta environment metadata = .ok allowlist)
    (permissive : Permissive allowlist)
    : ∃ rows, buildSyntaxTreeGraphRows environment metadata root = .ok rows := by
  have run := buildSyntaxTreeGraphRows_run environment root decoded
  cases built : buildSyntaxTreeGraphRows environment metadata root with
  | error problem =>
      rw [built] at run
      exact absurd permissive run
  | ok rows => exact ⟨rows, rfl⟩

theorem buildPartition_valid {environment : Environment}
    {request : NativeSyntaxMaterializationRequest} {snapshot : SourceSnapshot}
    {root : SyntaxNode} {partition : GraphPartition}
    (built : buildPartition environment request snapshot root = .ok partition)
    : partition.validateRawRows = .ok () := by
  obtain ⟨rows, -, rfl⟩ := buildPartition_eq_ok built
  simp [GraphPartition.validateRawRows, manifestEntry]

/-- The ends of an edge merged from several rows are ends of some of these rows. -/
theorem merged_ends (head : Staging.EdgeStagedRow) (tail : List Staging.EdgeStagedRow)
    : (∃ row ∈ head :: tail, (tail.foldl Staging.mergeEdgeValue head).sourceId = row.sourceId)
      ∧ ∃ row ∈ head :: tail,
          (tail.foldl Staging.mergeEdgeValue head).targetId = row.targetId := by
  have one (first second : String)
      : Staging.mergeString first second = first ∨ Staging.mergeString first second = second := by
    rw [Staging.mergeString]
    split
    · exact Or.inr rfl
    · exact Or.inl rfl
  induction tail generalizing head with
  | nil => exact ⟨⟨head, by simp, rfl⟩, ⟨head, by simp, rfl⟩⟩
  | cons next rest ih =>
      obtain ⟨⟨source, inSource, sameSource⟩, ⟨target, inTarget, sameTarget⟩⟩ :=
        ih (Staging.mergeEdgeValue head next)
      rw [List.foldl_cons, sameSource, sameTarget]
      constructor
      · rcases List.mem_cons.mp inSource with rfl | later
        · rcases one head.sourceId next.sourceId with first | second
          · exact ⟨head, by simp, first⟩
          · exact ⟨next, by simp, second⟩
        · exact ⟨source, by simp [later], rfl⟩
      · rcases List.mem_cons.mp inTarget with rfl | later
        · rcases one head.targetId next.targetId with first | second
          · exact ⟨head, by simp, first⟩
          · exact ⟨next, by simp, second⟩
        · exact ⟨target, by simp [later], rfl⟩

/-- The ends of a merged edge are ends of edges of the partitions. -/
theorem mergedEdges_ends {partitions : List Staging.GraphPartition} {edge : Staging.MergedEdge}
    (merged : edge ∈ Staging.mergedEdges partitions) {id : String}
    (isEnd : id ∈ [edge.row.sourceId, edge.row.targetId])
    : ∃ partition ∈ partitions, ∃ given ∈ partition.edges,
        id = given.sourceId ∨ id = given.targetId := by
  obtain ⟨group, grouped, rfl⟩ := List.mem_map.mp merged
  have folded := ((mergedGroups_isGrouping _ _).mem_iff group.1 group.2).mp grouped
  cases values : valuesOf group.1 (partitions.flatMap Staging.partitionEdgeRows) with
  | nil =>
      rw [values] at folded
      exact nomatch folded
  | cons head tail =>
      rw [values] at folded
      have same : tail.foldl Staging.mergeEdgeValue head = group.2 := Option.some.inj folded
      obtain ⟨⟨source, inSource, sameSource⟩, ⟨target, inTarget, sameTarget⟩⟩ :=
        merged_ends head tail
      rw [same] at sameSource sameTarget
      have given (row : Staging.EdgeStagedRow) (inside : row ∈ head :: tail)
          : ∃ partition ∈ partitions, ∃ edge ∈ partition.edges, Staging.edgeFields edge = row := by
        rw [← values] at inside
        obtain ⟨record, chosen, rfl⟩ := List.mem_map.mp inside
        obtain ⟨partition, inPartitions, inRows⟩ :=
          List.mem_flatMap.mp (List.mem_filter.mp chosen).1
        obtain ⟨edge, inEdges, rfl⟩ := List.mem_map.mp inRows
        exact ⟨partition, inPartitions, edge, inEdges, rfl⟩
      simp only [List.mem_cons, List.not_mem_nil, or_false, Staging.toMergedEdge] at isEnd
      rcases isEnd with rfl | rfl
      · obtain ⟨partition, inside, edge, inEdges, rfl⟩ := given source inSource
        exact ⟨partition, inside, edge, inEdges, Or.inl sameSource⟩
      · obtain ⟨partition, inside, edge, inEdges, rfl⟩ := given target inTarget
        exact ⟨partition, inside, edge, inEdges, Or.inr sameTarget⟩

/-- Closed partitions are staged without a missing endpoint. -/
theorem stagePartitions_succeeds (encodings : Staging.Encodings)
    (relationTypes : List Staging.RelationType) (stagingDir : String) {chunkLimit : Nat}
    (positive : 0 < chunkLimit) (outputChunkLimit : Nat)
    {partitions : List Staging.GraphPartition}
    (closed : ∀ partition ∈ partitions,
      ∃ allowlist, ClosedRows allowlist partition.nodes partition.edges)
    : ∃ result,
        Staging.stagePartitions encodings relationTypes stagingDir chunkLimit outputChunkLimit
          partitions
        = .ok result := by
  have tables := Staging.stagePartitions_tables encodings relationTypes stagingDir positive
    outputChunkLimit partitions
  cases ran : Staging.stagePartitions encodings relationTypes stagingDir chunkLimit
      outputChunkLimit partitions with
  | ok result => exact ⟨result, rfl⟩
  | error problem =>
      rw [ran] at tables
      obtain ⟨edge, merged, id, isEnd, unknown⟩ :=
        (Staging.referenceStaging_fails_iff partitions relationTypes).mp ⟨problem, tables.symm⟩
      obtain ⟨partition, inside, given, inEdges, ends⟩ := mergedEdges_ends merged isEnd
      obtain ⟨allowlist, rows⟩ := closed partition inside
      obtain ⟨source, inNodes, target, inNodes', isSource, isTarget, -⟩ :=
        rows.joined given inEdges
      rcases ends with rfl | rfl
      · exact absurd isSource (unknown partition inside source inNodes)
      · exact absurd isTarget (unknown partition inside target inNodes')

/-- Every partition that is built is a closed graph: ids are distinct and each edge joins two of
its nodes in tables the allowlist of its metadata allows. So the partition passes its own
validation, and staging any list of such partitions, with any positive spill limit, finds the
ends of all edges. Witness: the graph of a single node, built, validated and staged.
-/
theorem builtPartitions_closed (environment : Environment)
    : (∀ metadata root rows,
        buildSyntaxTreeGraphRows environment metadata root = .ok rows →
        (rows.nodes.map GraphNodeRow.id).Nodup
        ∧ (rows.edges.map GraphEdgeRow.id).Nodup
        ∧ ∃ allowlist,
            relationAllowlistFromMeta environment metadata = .ok allowlist
            ∧ ∀ edge ∈ rows.edges,
                ∃ source ∈ rows.nodes, ∃ target ∈ rows.nodes,
                  source.id = edge.sourceId
                  ∧ target.id = edge.targetId
                  ∧ allowlist.allows edge.edgeType source.table target.table = true)
      ∧ (∀ request snapshot root partition,
          buildPartition environment request snapshot root = .ok partition →
          partition.validateRawRows = .ok ())
      ∧ ∀ partitions : List GraphPartition,
          (∀ partition ∈ partitions,
            ∃ request snapshot root,
              buildPartition environment request snapshot root = .ok partition) →
          ∀ encodings relationTypes stagingDir chunkLimit outputChunkLimit,
            0 < chunkLimit →
            ∃ result,
              Staging.stagePartitions encodings relationTypes stagingDir chunkLimit
                outputChunkLimit (partitions.map GraphPartition.staged)
              = .ok result := by
  refine ⟨?_, ?_, ?_⟩
  · intro metadata root rows built
    obtain ⟨allowlist, decoded, closed⟩ := buildSyntaxTreeGraphRows_closed built
    exact ⟨closed.nodeIds, closed.edgeIds, allowlist, decoded, closed.joined⟩
  · intro request snapshot root partition built
    exact buildPartition_valid built
  · intro partitions built encodings relationTypes stagingDir chunkLimit outputChunkLimit positive
    apply stagePartitions_succeeds encodings relationTypes stagingDir positive outputChunkLimit
    intro staged inside
    obtain ⟨partition, inPartitions, rfl⟩ := List.mem_map.mp inside
    obtain ⟨request, snapshot, root, ran⟩ := built partition inPartitions
    obtain ⟨rows, rowsBuilt, rfl⟩ := buildPartition_eq_ok ran
    obtain ⟨allowlist, -, closed⟩ := buildSyntaxTreeGraphRows_closed rowsBuilt
    exact ⟨allowlist, closed⟩

section Example

/-- The JSON of relation types whose names need no escapes. -/
def relationTypesJson (relations : List OntologyRelationType) : String :=
  let quoted (text : String) := "\"" ++ text ++ "\""
  let array (items : List String) := "[" ++ ",".intercalate items ++ "]"
  array
    (relations.map (fun relation =>
      "\x7b\"name\":" ++ quoted relation.name
        ++ ",\"source_types\":" ++ array (relation.sourceTypes.map quoted)
        ++ ",\"target_types\":" ++ array (relation.targetTypes.map quoted) ++ "\x7d"))

/-- ASCII text, and JSON that decodes to the given relations. -/
def asciiEnvironment (relations : List OntologyRelationType) : Environment where
  unicode := asciiUnicode
  encodeRelations := relationTypesJson
  decodeRelations text :=
    if text = relationTypesJson relations then .ok relations
    else .error "expected value at line 1 column 1"

def plainRequest : NativeSyntaxMaterializationRequest :=
  {
    sourceRoot := "."
    repositoryLabel := "demo"
    parserVersion := "1"
    manifestSchemaVersion := 1
    ontology := "code"
    profiles := []
    excludedParts := []
    includeFts := false
  }

def pythonSnapshot : SourceSnapshot :=
  {
    path := "a.py"
    absolutePath := "/demo/a.py"
    contentHash := "hash"
    language := some "python"
    byteLen := 1
    source := some "x"
  }

/-- A module with one identifier in it. -/
def identifierModule : SyntaxNode :=
  {
    nodeType := "module"
    text := "x"
    children := [{ nodeType := "identifier", text := "x" }]
  }

theorem builtPartitions_closed_identifier
    : ∃ partition,
        buildPartition (asciiEnvironment []) plainRequest pythonSnapshot identifierModule
          = .ok partition
        ∧ (partition.nodes.map GraphNodeRow.id).Nodup
        ∧ partition.validateRawRows = .ok ()
        ∧ ∃ result,
            Staging.stagePartitions Staging.plainEncodings [] "staging" 1 1 [partition.staged]
            = .ok result := by
  have closed := builtPartitions_closed (asciiEnvironment [])
  have absent
      : (graphMeta (asciiEnvironment []) plainRequest pythonSnapshot).lookup "ontology_relations"
        = none := by
    decide
  have decoded
      : relationAllowlistFromMeta (asciiEnvironment [])
          (graphMeta (asciiEnvironment []) plainRequest pythonSnapshot)
        = .ok (.fromMeta none) := by
    rw [relationAllowlistFromMeta, absent]
  obtain ⟨rows, built⟩ :=
    buildSyntaxTreeGraphRows_succeeds identifierModule decoded permissive_default
  obtain ⟨partition, made, same⟩
      : ∃ partition,
          buildPartition (asciiEnvironment []) plainRequest pythonSnapshot identifierModule
            = .ok partition
          ∧ partition.nodes = rows.nodes := by
    rw [buildPartition, built]
    exact ⟨_, rfl, rfl⟩
  refine ⟨partition, made, ?_, closed.2.1 _ _ _ _ made, ?_⟩
  · rw [same]
    exact (closed.1 _ _ _ built).1
  · apply closed.2.2 [partition]
    · intro other inside
      rw [List.mem_singleton] at inside
      exact ⟨plainRequest, pythonSnapshot, identifierModule, inside ▸ made⟩
    · decide

end Example

end CodebaseGraph.Partition
