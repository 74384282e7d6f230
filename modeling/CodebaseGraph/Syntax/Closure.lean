import CodebaseGraph.Syntax.Traversal
import Mathlib.Data.String.Lemmas

/-! The graph under construction stays closed: every edge joins two stored nodes whose tables
its relation allows. Along the walk it is known which ids are stored in which tables, and a
strict edge can fail only under an allowlist that lacks one of the required relations.
-/

namespace CodebaseGraph.Syntax

open CodebaseGraph.Collections
open CodebaseGraph.Staging (GraphNodeRow GraphEdgeRow JsonValue)
open CodebaseGraph.Transition

/-- The tables of the nodes that own others. -/
def ownerTables : List String := ["File", "Module", "Class", "Function", "Method", "Component"]

/-- The tables of the nodes made for captures, node types and assignment targets. -/
def semanticTables : List String :=
  ["Class", "Module", "Component", "Method", "Function", "Parameter", "ReturnType",
    "TypeAnnotation", "TypeAlias", "Symbol", "Constant", "Variable", "Decorator",
    "ImportDeclaration", "ExportDeclaration", "CallExpression", "APIEndpoint", "Route",
    "DocumentationSource", "Literal", "ControlFlowBlock", "ExceptionFlow", "Query", "SecretRef",
    "DocumentationChunk", "Reference", "Assignment", "ClassAttribute", "InstanceAttribute"]

/-- The tables of all nodes. -/
def nodeTables : List String :=
  ["Repository", "SourceRoot", "File", "Dependency", "Scope", "SyntaxCapture"] ++ semanticTables

/-- The relations with the source and target tables between which the builder asks for an edge
without checking the relation before.
-/
def requiredRelations : List (String × List String × List String) :=
  [("Contains", ["Repository"], ["SourceRoot"]),
    ("Contains", ["SourceRoot"], ["File"]),
    ("Contains", ["Module", "Class", "Function", "Method", "Component"], ["Scope"]),
    ("Contains", "Scope" :: ownerTables, semanticTables),
    ("HasScope", ownerTables, ["Scope"]),
    ("Defines", ownerTables, ["Class", "Function", "Method"]),
    ("Declares", ["Module", "Class", "Function", "Method"], ["Class", "Function", "Method"]),
    ("DerivedFrom", semanticTables, ["SyntaxCapture"]),
    ("DependsOn", ["ImportDeclaration"], ["Dependency"]),
    ("EvidencedBy", ["File", "Dependency"], ["SyntaxCapture"]),
    ("SyntaxChild", ["SyntaxCapture"], ["SyntaxCapture"])]

def Required (edgeType source target : String) : Prop :=
  ∃ relation ∈ requiredRelations,
    relation.1 = edgeType ∧ source ∈ relation.2.1 ∧ target ∈ relation.2.2

def Permissive (allowlist : RelationAllowlist) : Prop :=
  ∀ edgeType source target,
    Required edgeType source target → allowlist.allows edgeType source target = true

/-- The built-in rules restrict only how a few relations are used. -/
theorem permissive_default : Permissive (.fromMeta none) := by
  intro edgeType source target required
  obtain ⟨relation, inside, rfl, isSource, isTarget⟩ := required
  have allowed
      : ∀ relation ∈ requiredRelations, ∀ source ∈ relation.2.1, ∀ target ∈ relation.2.2,
          (RelationAllowlist.fromMeta none).allows relation.1 source target = true := by
    decide
  exact allowed relation inside source isSource target isTarget

/-- An id that a node of a table carries. -/
def HasTable (builder : NativeBuilder) (id table : String) : Prop :=
  ∃ row, builder.nodes.get? id = some row ∧ row.table = table

/-- A row's id starts with its table, and both ends of an edge are stored in allowed tables. -/
structure Closed (allowlist : RelationAllowlist) (builder : NativeBuilder) : Prop where
  allowlisted : builder.relationAllowlist = allowlist
  named : ∀ row ∈ builder.nodes.rows,
    row.table ∈ nodeTables ∧ ∃ stableKey, row.id = graphId row.table stableKey
  joined : ∀ row ∈ builder.edges.rows,
    ∃ source target,
      HasTable builder row.sourceId source
      ∧ HasTable builder row.targetId target
      ∧ allowlist.allows row.edgeType source target = true

/-- What is known along the walk are ids with their tables. -/
def building (allowlist : RelationAllowlist) : Discipline NativeBuilder (String × String) where
  holds builder fact := HasTable builder fact.1 fact.2
  sound := Closed allowlist
  excused _ := ¬ Permissive allowlist

/-- The table can be read off an id. -/
theorem table_of_graphId {table table' stableKey stableKey' : String} (listed : table ∈ nodeTables)
    (listed' : table' ∈ nodeTables) (same : graphId table stableKey = graphId table' stableKey')
    : table = table' := by
  have plain : ∀ name ∈ nodeTables, (name.toList.all (· ≠ ':')) = true := by decide
  have start (name key : String) (inside : name ∈ nodeTables)
      : (graphId name key).toList.takeWhile (· ≠ ':') = name.toList := by
    rw [graphId, String.toList_append, String.toList_append, List.append_assoc,
      List.takeWhile_append_of_pos]
    · simp
    · intro letter found
      exact List.all_eq_true.mp (plain name inside) letter found
  have letters := congrArg (fun id : String => id.toList.takeWhile (· ≠ ':')) same
  simp only [start _ _ listed, start _ _ listed'] at letters
  exact String.toList_inj.mp letters

section Rows

variable {environment : Environment} {allowlist : RelationAllowlist}
  {known : List (String × String)}

/-- A grown map of nodes keeps all facts, and the same edges stay closed. -/
theorem grows_of_nodes {first second : NativeBuilder}
    (kept : ∀ id row, first.nodes.get? id = some row → second.nodes.get? id = some row)
    : (building allowlist).Grows first second := by
  refine ⟨?_, fun excused => excused⟩
  intro fact held
  obtain ⟨row, stored, tabled⟩ := held
  exact ⟨row, kept fact.1 row stored, tabled⟩

theorem addNode_yields {row : GraphNodeRow} (listed : row.table ∈ nodeTables)
    (named : ∃ stableKey, row.id = graphId row.table stableKey)
    : (building allowlist).Yields known (addNode environment row) (fun added => added.id = row.id)
        (fun added => [(added.id, row.table)]) := by
  intro builder closed _
  obtain ⟨stored, found, origin⟩ := Keyed.get?_orInsert_self builder.nodes row
  have keyed := (Keyed.get?_eq_some_iff.mp found).2
  have tabled : stored.table = row.table := by
    rcases origin with rfl | before
    · rfl
    · obtain ⟨listed', _, named'⟩ :=
        closed.named stored (Keyed.get?_eq_some_iff.mp before).1
      obtain ⟨_, named⟩ := named
      exact table_of_graphId listed' listed (named'.symm.trans (keyed.trans named))
  have grown
      : ∀ id other, builder.nodes.get? id = some other →
          (builder.nodes.orInsert row).get? id = some other :=
    fun id other before => Keyed.get?_orInsert_of_some row before
  have answer : ((builder.nodes.orInsert row).get? row.id).getD row = stored := by
    rw [found, Option.getD_some]
  refine ⟨grows_of_nodes grown, ⟨closed.allowlisted, ?_, ?_⟩,
    (congrArg GraphNodeRow.id answer).trans keyed, ?_⟩
  · intro other inside
    rcases Keyed.mem_orInsert inside with old | rfl
    · exact closed.named other old
    · exact ⟨listed, named⟩
  · intro joint inside
    obtain ⟨source, target, ⟨first, isFirst, firstTable⟩, ⟨second, isSecond, secondTable⟩,
      allowed⟩ := closed.joined joint inside
    exact ⟨source, target, ⟨first, grown _ _ isFirst, firstTable⟩,
      ⟨second, grown _ _ isSecond, secondTable⟩, allowed⟩
  · intro fact member
    rw [List.mem_singleton, answer, keyed] at member
    subst member
    exact ⟨stored, found, tabled⟩

/-- The facts that can be read off the stored rows. -/
def storedFacts (builder : NativeBuilder) : List (String × String) :=
  builder.nodes.rows.map (fun row => (row.id, row.table))

theorem holds_storedFacts (builder : NativeBuilder) (fact : String × String)
    (member : fact ∈ storedFacts builder)
    : (building allowlist).holds builder fact := by
  obtain ⟨row, inside, rfl⟩ := List.mem_map.mp member
  exact ⟨row, Keyed.get?_eq_some_iff.mpr ⟨inside, rfl⟩, rfl⟩

theorem mem_storedFacts {builder : NativeBuilder} {id : String} {row : GraphNodeRow}
    (found : builder.nodes.get? id = some row)
    : (id, row.table) ∈ storedFacts builder := by
  obtain ⟨inside, rfl⟩ := Keyed.get?_eq_some_iff.mp found
  exact List.mem_map.mpr ⟨row, inside, rfl⟩

theorem syntaxCapture_emits (environment : Environment) (capture : Capture)
    : (building allowlist).Yields known (syntaxCapture environment capture) (fun _ => True)
        (fun id => [(id, "SyntaxCapture")]) := by
  have inside : "SyntaxCapture" ∈ nodeTables := by decide
  apply Discipline.Yields.inspect (fun builder _ => holds_storedFacts builder)
  intro builder closed
  dsimp only
  split
  next stored =>
      obtain ⟨row, found⟩ := Option.isSome_iff_exists.mp stored
      obtain ⟨member, sameId⟩ := Keyed.get?_eq_some_iff.mp found
      obtain ⟨listed, _, named⟩ := closed.named row member
      have tabled : row.table = "SyntaxCapture" :=
        table_of_graphId listed inside (named.symm.trans sameId)
      have known := mem_storedFacts found
      rw [tabled] at known
      apply Discipline.Yields.pure trivial
      simpa using Or.inl known
  next =>
      apply Discipline.Yields.bind (addNode_yields inside ⟨_, rfl⟩)
      intro added sameId
      apply Discipline.Yields.pure trivial
      simp [sameId]

theorem edge_run {builder : NativeBuilder} {edgeType sourceId targetId : String} (kind : String)
    (further : List (String × JsonValue)) {source target : GraphNodeRow}
    (isSource : builder.nodes.get? sourceId = some source)
    (isTarget : builder.nodes.get? targetId = some target)
    : (edge edgeType sourceId targetId kind further).run builder
      = if builder.relationAllowlist.allows edgeType source.table target.table then
          let row := edgeRow edgeType sourceId targetId kind further
          let edges := builder.edges.orInsert row
          .ok ((edges.get? row.id).getD row, { builder with edges })
        else .error (relationError edgeType source.table target.table) := by
  by_cases allowed : builder.relationAllowlist.allows edgeType source.table target.table
  · simp [edge, checkRelation, isSource, isTarget, allowed]
    rfl
  · simp [edge, checkRelation, isSource, isTarget, allowed]
    rfl

/-- An allowed edge between stored nodes is stored. -/
theorem edge_succeeds {builder : NativeBuilder} (closed : Closed allowlist builder)
    {edgeType sourceId targetId : String} (kind : String) (further : List (String × JsonValue))
    {source target : GraphNodeRow} (isSource : builder.nodes.get? sourceId = some source)
    (isTarget : builder.nodes.get? targetId = some target)
    (allowed : allowlist.allows edgeType source.table target.table = true)
    : ∃ row next,
        (edge edgeType sourceId targetId kind further).run builder = .ok (row, next)
        ∧ (building allowlist).Grows builder next
        ∧ Closed allowlist next := by
  rw [← closed.allowlisted] at allowed
  rw [edge_run kind further isSource isTarget, if_pos allowed]
  refine ⟨_, _, rfl, grows_of_nodes (fun _ _ stored => stored), closed.allowlisted, closed.named,
    ?_⟩
  intro joint inside
  rcases Keyed.mem_orInsert inside with old | rfl
  · exact closed.joined joint old
  · exact ⟨source.table, target.table, ⟨source, isSource, rfl⟩, ⟨target, isTarget, rfl⟩,
      closed.allowlisted ▸ allowed⟩

theorem edge_emits {edgeType sourceId targetId source target : String} (kind : String)
    (further : List (String × JsonValue)) (hasSource : (sourceId, source) ∈ known)
    (hasTarget : (targetId, target) ∈ known) (required : Required edgeType source target)
    : (building allowlist).Runs known (edge edgeType sourceId targetId kind further) := by
  intro builder closed held
  obtain ⟨first, isFirst, rfl⟩ := held _ hasSource
  obtain ⟨second, isSecond, rfl⟩ := held _ hasTarget
  by_cases allowed : allowlist.allows edgeType first.table second.table
  · obtain ⟨row, next, ran, grown, closed'⟩ :=
      edge_succeeds closed kind further isFirst isSecond allowed
    rw [ran]
    exact ⟨grown, closed', trivial, by simp⟩
  · rw [edge_run kind further isFirst isSecond, closed.allowlisted, if_neg allowed]
    intro permissive
    exact allowed (permissive _ _ _ required)

/-- An edge that is asked for only if it is allowed needs no knowledge of its ends. -/
theorem edgeIfAllowed_emits (edgeType sourceId targetId kind : String)
    (further : List (String × JsonValue))
    : (building allowlist).Runs known (edgeIfAllowed edgeType sourceId targetId kind further) := by
  intro builder closed held
  have unchanged
      : (building allowlist).Grows builder builder
        ∧ (building allowlist).sound builder
        ∧ True
        ∧ ∀ fact ∈ ([] : List (String × String)), (building allowlist).holds builder fact :=
    ⟨Discipline.Grows.refl builder, closed, trivial, by simp⟩
  cases isSource : builder.nodes.get? sourceId with
  | none =>
      simp only [edgeIfAllowed, StateT.run_bind, StateT.run_get, pure_bind, isSource]
      exact unchanged
  | some source =>
      cases isTarget : builder.nodes.get? targetId with
      | none =>
          simp only [edgeIfAllowed, StateT.run_bind, StateT.run_get, pure_bind, isSource, isTarget]
          exact unchanged
      | some target =>
          simp only [edgeIfAllowed, StateT.run_bind, StateT.run_get, pure_bind, isSource, isTarget,
            onlyIf, closed.allowlisted]
          by_cases allowed : allowlist.allows edgeType source.table target.table
          · obtain ⟨row, next, ran, grown, closed'⟩ :=
              edge_succeeds closed kind further isSource isTarget allowed
            rw [if_pos allowed, StateT.run_bind, ran]
            exact ⟨grown, closed', trivial, by simp⟩
          · rw [if_neg allowed]
            exact unchanged

end Rows

end CodebaseGraph.Syntax
