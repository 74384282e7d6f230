import CodebaseGraph.Basic
import CodebaseGraph.Protocol.Profiles
import CodebaseGraph.Syntax.Traversal

/-! The partition of one source file: its graph rows and the manifest entry that lists them
(`src/partition_builder.rs`).
-/

namespace CodebaseGraph.Partition

open CodebaseGraph.Collections
open CodebaseGraph.Hashing
open CodebaseGraph.Protocol
open CodebaseGraph.Sorting (sortBy)
open CodebaseGraph.Staging (GraphNodeRow GraphEdgeRow)
open CodebaseGraph.Syntax

structure SourceSnapshot where
  path : String
  absolutePath : String
  contentHash : String
  language : Option String
  byteLen : Nat
  source : Option String

/-- The maps list their entries in the order of the ids. -/
structure ManifestEntry where
  path : String
  contentHash : String
  language : String
  partitionId : String
  artifactKey : Option String
  nodeIds : List String
  edgeIds : List String
  nodeTypes : List (String × String)
  edgeTypes : List (String × String)
  nodeCount : Nat
  edgeCount : Nat
  materializedAt : String
deriving DecidableEq

structure GraphPartition where
  entry : ManifestEntry
  nodes : List GraphNodeRow
  edges : List GraphEdgeRow

/-- The rows with the part of the entry that staging reads. -/
def GraphPartition.staged (partition : GraphPartition) : Staging.GraphPartition where
  entry := { contentHash := partition.entry.contentHash }
  nodes := partition.nodes
  edges := partition.edges

def GraphPartition.setArtifactKey (partition : GraphPartition) (artifactKey : String)
    : GraphPartition :=
  { partition with entry := { partition.entry with artifactKey := some artifactKey } }

def partitionId (path : String) : String := sha1Hex path

/-- A map with the entries of a list, of which the later ones count. -/
def mapOf (entries : List (String × String)) : List (String × String) :=
  entries.foldl (fun map entry => insertSorted entry.1 entry.2 map) []

def nodeTypesOf (nodes : List GraphNodeRow) : List (String × String) :=
  mapOf (nodes.map (fun node => (node.id, node.table)))

def edgeTypesOf (edges : List GraphEdgeRow) : List (String × String) :=
  mapOf (edges.map (fun edge => (edge.id, edge.edgeType)))

/-- The entry must list exactly the rows. -/
def GraphPartition.validateRawRows (partition : GraphPartition) : Except String Unit :=
  let entry := partition.entry
  if entry.partitionId ≠ partitionId entry.path then
    .error ("partition " ++ entry.partitionId ++ " does not match path " ++ entry.path)
  else if entry.nodeIds ≠ sortBy id (partition.nodes.map GraphNodeRow.id) then
    .error "entry node_ids do not match raw node rows"
  else if entry.edgeIds ≠ sortBy id (partition.edges.map GraphEdgeRow.id) then
    .error "entry edge_ids do not match raw edge rows"
  else if entry.nodeTypes ≠ nodeTypesOf partition.nodes then
    .error "entry node_types do not match raw node rows"
  else if entry.edgeTypes ≠ edgeTypesOf partition.edges then
    .error "entry edge_types do not match raw edge rows"
  else if entry.nodeCount ≠ partition.nodes.length then
    .error "entry node_count does not match raw node rows"
  else if entry.edgeCount ≠ partition.edges.length then
    .error "entry edge_count does not match raw edge rows"
  else .ok ()

/-- The version of the grammar is that of the request's profile for the language. -/
def graphMeta (environment : Environment) (request : NativeSyntaxMaterializationRequest)
    (snapshot : SourceSnapshot)
    : Metadata :=
  let grammarVersion :=
    (snapshot.language.bind
      (ProfileSet.new environment.unicode.toTextFunctions request.profiles).profileForLanguage).map
        LanguageProfile.grammarVersion
  mapOf
    ([("path", snapshot.path), ("language", snapshot.language.getD "")]
      ++ (grammarVersion.map (fun version => ("grammar_version", version))).toList
      ++ [("source_root", request.sourceRoot), ("repository_label", request.repositoryLabel)]
      ++ (if request.ontologySchema.relationTypes ≠ [] then
            [("ontology_relations",
              environment.encodeRelations request.ontologySchema.relationTypes)]
          else []))

def manifestEntry (snapshot : SourceSnapshot) (nodes : List GraphNodeRow)
    (edges : List GraphEdgeRow)
    : ManifestEntry where
  path := snapshot.path
  contentHash := snapshot.contentHash
  language := snapshot.language.getD ""
  partitionId := partitionId snapshot.path
  artifactKey := none
  nodeIds := sortBy id (nodes.map GraphNodeRow.id)
  edgeIds := sortBy id (edges.map GraphEdgeRow.id)
  nodeTypes := nodeTypesOf nodes
  edgeTypes := edgeTypesOf edges
  nodeCount := nodes.length
  edgeCount := edges.length
  materializedAt := "unix:0"

/-- The tree is the part of a parse that the partition is built from. -/
def buildPartition (environment : Environment) (request : NativeSyntaxMaterializationRequest)
    (snapshot : SourceSnapshot) (root : SyntaxNode)
    : Except NativeError GraphPartition :=
  match buildSyntaxTreeGraphRows environment (graphMeta environment request snapshot) root with
  | .error problem => .error (.invalidInput problem)
  | .ok rows =>
      .ok
        {
          entry := manifestEntry snapshot rows.nodes rows.edges
          nodes := rows.nodes
          edges := rows.edges
        }

theorem buildPartition_eq_ok {environment : Environment}
    {request : NativeSyntaxMaterializationRequest} {snapshot : SourceSnapshot}
    {root : SyntaxNode} {partition : GraphPartition}
    (built : buildPartition environment request snapshot root = .ok partition)
    : ∃ rows,
        buildSyntaxTreeGraphRows environment (graphMeta environment request snapshot) root = .ok rows
        ∧ partition
          = {
              entry := manifestEntry snapshot rows.nodes rows.edges
              nodes := rows.nodes
              edges := rows.edges
            } := by
  rw [buildPartition] at built
  split at built
  next => exact nomatch built
  next rows ran =>
      cases built
      exact ⟨rows, ran, rfl⟩

end CodebaseGraph.Partition
