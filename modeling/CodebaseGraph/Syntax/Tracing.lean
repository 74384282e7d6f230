import CodebaseGraph.Syntax.Closure
import CodebaseGraph.Transition.Fallible
import Mathlib.Logic.Relation

/-! What the walk leaves behind of every node it makes: the capture that the node comes from, and
a way to the node from the row of the file. Until both are asked for, a node is pending.
-/

namespace CodebaseGraph.Syntax

open CodebaseGraph.Collections
open CodebaseGraph.Staging (GraphNodeRow GraphEdgeRow JsonValue)
open CodebaseGraph.Transition

-- Rows of captures

/-- The text from which a capture's id is made. -/
def captureKey (path : String) (capture : Capture) : String :=
  "|".intercalate
    [path, capture.nodeType, stableOptionalI64 capture.lineStart,
      stableOptionalI64 capture.byteStart, capture.label]

def captureId (path : String) (capture : Capture) : String :=
  graphId "SyntaxCapture" (captureKey path capture)

/-- The row that is stored for a capture, unless its id is taken. -/
def captureRow (builder : NativeBuilder) (capture : Capture) : GraphNodeRow :=
  {
    id := captureId builder.path capture
    table := "SyntaxCapture"
    label := if capture.captureName = "" then capture.nodeType else capture.captureName
    kind := capture.nodeType
    language := builder.language
    grammarVersion := builder.grammarVersion
    path := builder.path
    qualifiedName := ""
    scopeId := ""
    lineStart := capture.lineStart
    lineEnd := capture.lineEnd
    byteStart := capture.byteStart
    byteEnd := capture.byteEnd
    treeSitterNodeType := capture.nodeType
    captureName := capture.captureName
    summary := String.ofList (capture.text.toList.take 160)
    metadata :=
      metadataOf (captureKey builder.path capture)
        [("fields", .array (capture.fields.map JsonValue.string))]
  }

theorem syntaxCapture_eq (environment : Environment) (capture : Capture)
    : syntaxCapture environment capture
      = (do
          let builder ← get
          if (builder.nodes.get? (captureId builder.path capture)).isSome then
            pure (captureId builder.path capture)
          else
            let _ ← addNode environment (captureRow builder capture)
            pure (captureId builder.path capture)) :=
  rfl

theorem syntaxCapture_run (environment : Environment) (builder : NativeBuilder) (capture : Capture)
    : (syntaxCapture environment capture).run builder
      = .ok
          (captureId builder.path capture,
            { builder with nodes := builder.nodes.orInsert (captureRow builder capture) }) := by
  rw [syntaxCapture_eq]
  simp only [StateT.run_bind, StateT.run_get, pure_bind]
  cases found : builder.nodes.get? (captureId builder.path capture) with
  | some row =>
      have kept : builder.nodes.orInsert (captureRow builder capture) = builder.nodes :=
        Keyed.orInsert_of_some found
      rw [kept]
      rfl
  | none =>
      have stored
          : ((builder.nodes.orInsert (captureRow builder capture)).get?
              (captureId builder.path capture)).getD (captureRow builder capture)
            = captureRow builder capture := by
        obtain ⟨row, isRow, rfl | before⟩ :=
          Keyed.get?_orInsert_self builder.nodes (captureRow builder capture)
        · exact congrArg (Option.getD · _) isRow
        · cases found.symm.trans before
      have registered (symbols : String → List String)
          : registerResolvable environment symbols (captureRow builder capture) = symbols := rfl
      have added
          : (addNode environment (captureRow builder capture)).run builder
            = .ok
                (((builder.nodes.orInsert (captureRow builder capture)).get?
                    (captureId builder.path capture)).getD (captureRow builder capture),
                  { builder with
                    nodes := builder.nodes.orInsert (captureRow builder capture)
                    symbolsByName :=
                      registerResolvable environment builder.symbolsByName
                        (((builder.nodes.orInsert (captureRow builder capture)).get?
                          (captureId builder.path capture)).getD (captureRow builder capture)) }) :=
        rfl
      rw [stored, registered] at added
      simp only [Option.isSome_none, Bool.false_eq_true, if_false, StateT.run_bind, added]
      rfl

-- Edges that were asked for

/-- The text from which an edge's id is made. -/
def edgeKey (edgeType sourceId targetId kind : String) : String :=
  edgeType ++ "|" ++ sourceId ++ "|" ++ targetId ++ "|" ++ kind

/-- The text of an edge that is stored. -/
def storedKey (row : GraphEdgeRow) : String :=
  edgeKey row.edgeType row.sourceId row.targetId row.kind

theorem checkRelation_eq_ok {builder next : NativeBuilder} {edgeType sourceId targetId : String}
    {answer : PUnit}
    (ran : (checkRelation edgeType sourceId targetId).run builder = .ok (answer, next))
    : next = builder := by
  simp only [checkRelation, StateT.run_bind, StateT.run_get, pure_bind] at ran
  split at ran
  · split at ran
    · cases ran
      rfl
    · cases ran
  · cases ran
    rfl

theorem edge_eq_ok {builder next : NativeBuilder} {edgeType sourceId targetId kind : String}
    {further : List (String × JsonValue)} {stored : GraphEdgeRow}
    (ran : (edge edgeType sourceId targetId kind further).run builder = .ok (stored, next))
    : stored.id = graphId "edge" (edgeKey edgeType sourceId targetId kind)
      ∧ next = { builder with
          edges := builder.edges.orInsert (edgeRow edgeType sourceId targetId kind further) } := by
  rw [edge, StateT.run_bind] at ran
  obtain ⟨⟨_, middle⟩, checked, rest⟩ := bind_eq_ok.mp ran
  obtain rfl := checkRelation_eq_ok checked
  cases rest
  refine ⟨?_, rfl⟩
  obtain ⟨row, isRow, -⟩ :=
    Keyed.get?_orInsert_self middle.edges (edgeRow edgeType sourceId targetId kind further)
  rw [isRow]
  exact (Keyed.get?_eq_some_iff.mp isRow).2

/-- An edge that is asked for only if it is allowed is stored, or its ends do not allow it. -/
theorem edgeIfAllowed_eq_ok {builder next : NativeBuilder}
    {edgeType sourceId targetId kind : String} {further : List (String × JsonValue)}
    {answer : PUnit}
    (ran : (edgeIfAllowed edgeType sourceId targetId kind further).run builder
      = .ok (answer, next))
    : (next = builder
        ∧ ∀ source target,
            builder.nodes.get? sourceId = some source →
            builder.nodes.get? targetId = some target →
            builder.relationAllowlist.allows edgeType source.table target.table = false)
      ∨ next
        = { builder with
            edges :=
              builder.edges.orInsert (edgeRow edgeType sourceId targetId kind further) } := by
  simp only [edgeIfAllowed, StateT.run_bind, StateT.run_get, pure_bind] at ran
  split at ran
  next source target isSource isTarget =>
      cases allowed : builder.relationAllowlist.allows edgeType source.table target.table with
      | true =>
          rw [allowed, onlyIf, if_pos rfl, StateT.run_bind] at ran
          obtain ⟨⟨stored, middle⟩, asked, rest⟩ := bind_eq_ok.mp ran
          cases rest
          exact Or.inr (edge_eq_ok asked).2
      | false =>
          rw [allowed] at ran
          cases ran
          refine Or.inl ⟨rfl, fun source' target' isSource' isTarget' => ?_⟩
          rw [isSource] at isSource'
          rw [isTarget] at isTarget'
          cases isSource'
          cases isTarget'
          exact allowed
  next unknown =>
      cases ran
      exact Or.inl ⟨rfl, fun source target isSource isTarget =>
        absurd isTarget (unknown source target isSource)⟩

/-- An edge whose id is taken; it is the edge itself unless two texts share a hash. -/
def Asked (builder : NativeBuilder) (edgeType sourceId targetId kind : String) : Prop :=
  ∃ row ∈ builder.edges.rows, row.id = graphId "edge" (edgeKey edgeType sourceId targetId kind)

theorem mem_orInsert_edges (edges : Keyed GraphEdgeRow GraphEdgeRow.id) (row : GraphEdgeRow)
    : ∃ other ∈ (edges.orInsert row).rows, other.id = row.id := by
  obtain ⟨other, found, -⟩ := Keyed.get?_orInsert_self edges row
  exact ⟨other, Keyed.get?_eq_some_iff.mp found⟩

-- The ways to a node

/-- An edge along which the walk comes from an owner to what it owns. -/
structure Link where
  edgeType : String
  sources : List String
  targets : List String
  kind : String

/-- The tables of the nodes that have type annotations. -/
def typedTables : List String :=
  ["Parameter", "ReturnType", "Variable", "Constant", "ClassAttribute", "InstanceAttribute"]

def fileLink : Link :=
  { edgeType := "Contains", sources := ["File"], targets := ["Module"], kind := "file_module" }

def parameterLink : Link :=
  {
    edgeType := "HasParameter"
    sources := ["Function", "Method"]
    targets := ["Parameter"]
    kind := "callable_parameter"
  }

def returnLink : Link :=
  {
    edgeType := "HasReturnType"
    sources := ["Function", "Method"]
    targets := ["ReturnType"]
    kind := "callable_return_type"
  }

def annotationLink (kind : String) : Link :=
  { edgeType := "HasTypeAnnotation", sources := typedTables, targets := ["TypeAnnotation"], kind }

variable (environment : Environment)

def ownerLink (table : String) : Link :=
  {
    edgeType := "Contains"
    sources := ownerTables
    targets := [table]
    kind := "contains_" ++ environment.unicode.toLowercase table
  }

def annotationKinds : List String :=
  ["return_type_annotation", "assignment_annotation", "parameter_annotation"]

def links : List Link :=
  [fileLink, parameterLink, returnLink]
    ++ annotationKinds.map annotationLink
    ++ semanticTables.map (ownerLink environment)

def Linked (builder : NativeBuilder) (sourceId targetId : String) : Prop :=
  ∃ link ∈ links environment, ∃ source ∈ link.sources, ∃ target ∈ link.targets,
    HasTable builder sourceId source
    ∧ HasTable builder targetId target
    ∧ Asked builder link.edgeType sourceId targetId link.kind

def Reached (path : String) (builder : NativeBuilder) (id : String) : Prop :=
  Relation.ReflTransGen (Linked environment builder) (graphId "File" path) id

omit environment

def Derived (builder : NativeBuilder) (id : String) : Prop :=
  ∃ syntaxId,
    HasTable builder syntaxId "SyntaxCapture"
    ∧ Asked builder "DerivedFrom" id syntaxId "parser_capture"

/-- The links that are asked for only if they are allowed. -/
def Annotating (allowlist : RelationAllowlist) : Prop :=
  ∀ link ∈ [parameterLink, returnLink] ++ annotationKinds.map annotationLink,
    ∀ source ∈ link.sources, ∀ target ∈ link.targets,
      allowlist.allows link.edgeType source target = true

/-- The tables of the nodes that stand for no piece of the source. -/
def exemptTables : List String :=
  ["Repository", "SourceRoot", "File", "Module", "Scope", "Symbol", "Dependency",
    "SyntaxCapture"]

-----------------------------------------------------------------------------------------
-- What is known along the walk

inductive Fact where
  | table (id name : String)
  | asked (edgeType sourceId targetId kind : String)
  | derived (id : String)
  | reached (id : String)

/-- The parameters of a walk: the file's path and the rules that edges obey. -/
structure Walk where
  environment : Environment
  allowlist : RelationAllowlist
  path : String

def Walk.holds (walk : Walk) (builder : NativeBuilder) : Fact → Prop
  | .table id name => HasTable builder id name
  | .asked edgeType sourceId targetId kind => Asked builder edgeType sourceId targetId kind
  | .derived id => Derived builder id
  | .reached id => Annotating walk.allowlist → Reached walk.environment walk.path builder id

/-- The graph is closed, its rows belong to the file, and every node that stands for a piece of
the source is pending or can be traced.
-/
structure Traced (walk : Walk) (pending : String → Prop) (builder : NativeBuilder) : Prop where
  closed : Closed walk.allowlist builder
  path : builder.path = walk.path
  placed : ∀ row ∈ builder.nodes.rows,
    row.table ∉ exemptTables ∨ row.table = "SyntaxCapture" → row.path = walk.path
  keyed : ∀ row ∈ builder.edges.rows, row.id = graphId "edge" (storedKey row)
  traced : ∀ row ∈ builder.nodes.rows,
    row.table ∉ exemptTables →
    pending row.id ∨ (walk.holds builder (.derived row.id) ∧ walk.holds builder (.reached row.id))

def tracing (walk : Walk) (pending : String → Prop) : Discipline NativeBuilder Fact where
  holds := walk.holds
  sound := Traced walk pending
  excused _ := ¬ Permissive walk.allowlist

/-- No row of the earlier graph is gone, and no id of an edge. -/
structure Extends (first second : NativeBuilder) : Prop where
  nodes : ∀ id row, first.nodes.get? id = some row → second.nodes.get? id = some row
  edges : ∀ row ∈ first.edges.rows, ∃ row' ∈ second.edges.rows, row'.id = row.id

section Rules

variable {walk : Walk} {pending : String → Prop} {known : List Fact} {first second : NativeBuilder}

theorem Extends.hasTable (grown : Extends first second) {id name : String}
    (tabled : HasTable first id name)
    : HasTable second id name := by
  obtain ⟨row, stored, named⟩ := tabled
  exact ⟨row, grown.nodes id row stored, named⟩

theorem Extends.asked (grown : Extends first second) {edgeType sourceId targetId kind : String}
    (asked : Asked first edgeType sourceId targetId kind)
    : Asked second edgeType sourceId targetId kind := by
  obtain ⟨row, stored, named⟩ := asked
  obtain ⟨row', stored', same⟩ := grown.edges row stored
  exact ⟨row', stored', same.trans named⟩

theorem Extends.holds (grown : Extends first second) (fact : Fact) (held : walk.holds first fact)
    : walk.holds second fact := by
  cases fact with
  | table id name => exact grown.hasTable held
  | asked edgeType sourceId targetId kind => exact grown.asked held
  | derived id =>
      obtain ⟨syntaxId, tabled, asked⟩ := held
      exact ⟨syntaxId, grown.hasTable tabled, grown.asked asked⟩
  | reached id =>
      intro annotating
      refine Relation.ReflTransGen.mono ?_ _ _ (held annotating)
      rintro sourceId targetId
        ⟨link, listed, source, isSource, target, isTarget, tabled, tabled', asked⟩
      exact ⟨link, listed, source, isSource, target, isTarget, grown.hasTable tabled,
        grown.hasTable tabled', grown.asked asked⟩

theorem Extends.grows (grown : Extends first second) : (tracing walk pending).Grows first second :=
  ⟨grown.holds, fun excused => excused⟩

/-- Under more pending nodes less is asked of a graph. -/
theorem Traced.wait {more : String → Prop} (traced : Traced walk pending first)
    (fewer : ∀ id, pending id → more id)
    : Traced walk more first where
  closed := traced.closed
  path := traced.path
  placed := traced.placed
  keyed := traced.keyed
  traced row inside listed := (traced.traced row inside listed).imp_left (fewer row.id)

/-- A node that can be traced in the end may be pending meanwhile. -/
theorem settle {α : Type} {action : Build α} {about : α → Prop} {facts : α → List Fact}
    (id : String)
    (met : (tracing walk (fun other => pending other ∨ other = id)).Yields known action about facts)
    (derived : ∀ result, about result → Fact.derived id ∈ facts result)
    (reached : ∀ result, about result → Fact.reached id ∈ facts result)
    : (tracing walk pending).Yields known action about facts := by
  intro builder traced held
  have start := met builder (traced.wait (fun _ => Or.inl)) held
  cases ran : action.run builder with
  | error problem =>
      rw [ran] at start
      exact start
  | ok answer =>
      obtain ⟨result, next⟩ := answer
      rw [ran] at start
      obtain ⟨grown, traced', described, learnt⟩ := start
      refine ⟨grown, ⟨traced'.closed, traced'.path, traced'.placed, traced'.keyed, ?_⟩, described,
        learnt⟩
      intro row inside listed
      rcases traced'.traced row inside listed with (waiting | rfl) | settled
      · exact Or.inl waiting
      · exact Or.inr ⟨learnt _ (derived result described), learnt _ (reached result described)⟩
      · exact Or.inr settled

/-- One more row, if it waits to be traced. -/
theorem Traced.orInsert {row : GraphNodeRow} (traced : Traced walk pending first)
    (closed : Closed walk.allowlist second) (nodes : second.nodes = first.nodes.orInsert row)
    (edges : second.edges = first.edges) (path : second.path = first.path)
    (placed : row.table ∉ exemptTables ∨ row.table = "SyntaxCapture" → row.path = walk.path)
    (waits : row.table ∉ exemptTables → pending row.id)
    : Extends first second ∧ Traced walk pending second := by
  have extended : Extends first second := by
    refine ⟨fun id other before => ?_, fun other inside => ⟨other, edges ▸ inside, rfl⟩⟩
    rw [nodes]
    exact Keyed.get?_orInsert_of_some row before
  refine ⟨extended, ⟨closed, path.trans traced.path, ?_, edges ▸ traced.keyed, ?_⟩⟩
  · intro other inside
    rcases Keyed.mem_orInsert (nodes ▸ inside) with old | rfl
    · exact traced.placed other old
    · exact placed
  · intro other inside listed
    rcases Keyed.mem_orInsert (nodes ▸ inside) with old | rfl
    · exact (traced.traced other old listed).imp_right
        (fun settled => ⟨extended.holds _ settled.1, extended.holds _ settled.2⟩)
    · exact Or.inl (waits listed)

theorem addNode_traces {row : GraphNodeRow} (listed : row.table ∈ nodeTables)
    (named : ∃ stableKey, row.id = graphId row.table stableKey)
    (placed : row.table ∉ exemptTables ∨ row.table = "SyntaxCapture" → row.path = walk.path)
    (waits : row.table ∉ exemptTables → pending row.id)
    : (tracing walk pending).Yields known (addNode walk.environment row)
        (fun added => added.id = row.id ∧ added.table = row.table)
        (fun added => [.table added.id row.table]) := by
  intro builder traced held
  obtain ⟨grown, closed, sameId, tabled⟩ :=
    addNode_yields listed named builder traced.closed (List.forall_mem_nil _)
  obtain ⟨extended, traced'⟩ := traced.orInsert closed rfl rfl rfl placed waits
  obtain ⟨stored, found, tableStored⟩ := tabled _ List.mem_cons_self
  refine ⟨extended.grows, traced', ⟨sameId, ?_⟩, ?_⟩
  · rw [sameId] at found
    have added : ((builder.nodes.orInsert row).get? row.id).getD row = stored := by
      rw [found, Option.getD_some]
    exact (congrArg GraphNodeRow.table added).trans tableStored
  · intro fact member
    rw [List.mem_singleton] at member
    subst member
    exact tabled _ List.mem_cons_self

/-- The id of the node that is made for a capture under an owner of this name. -/
def semanticId (path table : String) (capture : Capture) (label ownerName : String) : String :=
  graphId table
    ("|".intercalate
      [path, table, qualifiedName ownerName label, capture.nodeType,
        stableOptionalI64 capture.lineStart, stableOptionalI64 capture.byteStart, label])

/-- An action that reads the graph may use what holds throughout. -/
theorem reads {α : Type} {rest : NativeBuilder → Build α} {about : α → Prop}
    {facts : α → List Fact}
    (continued : ∀ builder, Traced walk pending builder →
      (tracing walk pending).Yields known (rest builder) about facts)
    : (tracing walk pending).Yields known (get >>= rest) about facts :=
  Discipline.Yields.inspect (fun _ _ => List.forall_mem_nil _) continued

theorem semanticNode_traces {table label ownerId ownerName : String} {capture : Capture}
    {further : List (String × JsonValue)} (listed : table ∈ semanticTables)
    (waits : table ∉ exemptTables → pending (semanticId walk.path table capture label ownerName))
    : (tracing walk pending).Yields known
        (semanticNode walk.environment table capture label ownerId ownerName further)
        (fun row =>
          row.id = semanticId walk.path table capture label ownerName ∧ row.table = table)
        (fun row => [.table row.id table]) := by
  apply reads
  intro builder traced
  have path := traced.path
  have inside : table ∈ nodeTables := List.mem_append_right _ listed
  simp only [path]
  exact addNode_traces inside ⟨_, rfl⟩ (fun _ => rfl) waits

/-- A node that stands for no piece of the source is never pending. -/
theorem addExempt_traces (table : String) {row : GraphNodeRow} {stableKey : String}
    (listed : table ∈ ["Repository", "SourceRoot", "File", "Dependency", "Symbol", "Scope"])
    (tabled : row.table = table) (named : row.id = graphId table stableKey)
    : (tracing walk pending).Yields known (addNode walk.environment row)
        (fun added => added.id = graphId table stableKey ∧ added.table = table)
        (fun added => [.table added.id table]) := by
  have inside : table ∈ nodeTables :=
    (show ["Repository", "SourceRoot", "File", "Dependency", "Symbol", "Scope"] ⊆ nodeTables by
      decide) listed
  have exempt : table ∈ exemptTables :=
    (show ["Repository", "SourceRoot", "File", "Dependency", "Symbol", "Scope"] ⊆ exemptTables by
      decide) listed
  subst tabled
  rw [← named]
  refine addNode_traces inside ⟨stableKey, named⟩ ?_ (fun unlisted => absurd exempt unlisted)
  rintro (unlisted | captured)
  · exact absurd exempt unlisted
  · rw [captured] at listed
    exact absurd listed (by decide)

theorem symbolNode_traces {label : String}
    : (tracing walk pending).Runs known (symbolNode walk.environment label) := by
  apply reads
  intro builder _
  exact (addExempt_traces "Symbol" (by decide) rfl rfl).runs

theorem scopeFor_traces {owner : GraphNodeRow}
    : (tracing walk pending).Yields known (scopeFor walk.environment owner) (fun _ => True)
        (fun row => [.table row.id "Scope"]) := by
  apply reads
  intro builder _
  exact (addExempt_traces "Scope" (by decide) rfl rfl).forget

theorem supportNode_traces {table stableKey label path : String}
    (listed : table ∈ ["Repository", "SourceRoot", "File", "Dependency", "Symbol", "Scope"])
    : (tracing walk pending).Yields known
        (supportNode walk.environment table stableKey label path)
        (fun row => row.id = graphId table stableKey ∧ row.table = table)
        (fun row => [.table row.id table]) :=
  addExempt_traces table listed rfl rfl

theorem syntaxCapture_traces {capture : Capture}
    : (tracing walk pending).Yields known (syntaxCapture walk.environment capture)
        (fun _ => True) (fun id => [.table id "SyntaxCapture"]) := by
  have exempt : "SyntaxCapture" ∈ exemptTables := by decide
  intro builder traced held
  have start :=
    syntaxCapture_emits walk.environment capture builder traced.closed (List.forall_mem_nil _)
  rw [syntaxCapture_run] at start ⊢
  obtain ⟨-, closed, -, tabled⟩ := start
  obtain ⟨extended, traced'⟩ :=
    traced.orInsert closed rfl rfl rfl (fun _ => traced.path)
      (fun unlisted => absurd exempt unlisted)
  refine ⟨extended.grows, traced', trivial, ?_⟩
  intro fact member
  rw [List.mem_singleton] at member
  subst member
  exact tabled _ List.mem_cons_self

/-- One more edge. -/
theorem Traced.orInsertEdge {row : GraphEdgeRow} (traced : Traced walk pending first)
    (closed : Closed walk.allowlist second) (nodes : second.nodes = first.nodes)
    (edges : second.edges = first.edges.orInsert row) (path : second.path = first.path)
    (named : row.id = graphId "edge" (storedKey row))
    : Extends first second
      ∧ Traced walk pending second
      ∧ Asked second row.edgeType row.sourceId row.targetId row.kind := by
  have extended : Extends first second := by
    refine ⟨fun id other before => nodes ▸ before, fun other inside => ⟨other, ?_, rfl⟩⟩
    rw [edges]
    exact Keyed.subset_orInsert _ _ inside
  refine ⟨extended, ⟨closed, path.trans traced.path, nodes ▸ traced.placed, ?_, ?_⟩, ?_⟩
  · intro other inside
    rcases Keyed.mem_orInsert (edges ▸ inside) with old | rfl
    · exact traced.keyed other old
    · exact named
  · intro other inside listed
    exact (traced.traced other (nodes ▸ inside) listed).imp_right
      (fun settled => ⟨extended.holds _ settled.1, extended.holds _ settled.2⟩)
  · obtain ⟨other, inside, same⟩ := mem_orInsert_edges first.edges row
    exact ⟨other, edges ▸ inside, same.trans named⟩

/-- A strict edge between ends of known tables is asked for. -/
theorem edge_traces {edgeType sourceId targetId kind source target : String}
    {further : List (String × JsonValue)} (hasSource : Fact.table sourceId source ∈ known)
    (hasTarget : Fact.table targetId target ∈ known) (required : Required edgeType source target)
    : (tracing walk pending).Yields known (edge edgeType sourceId targetId kind further)
        (fun _ => True) (fun _ => [.asked edgeType sourceId targetId kind]) := by
  intro builder traced held
  have ends
      : ∀ fact ∈ [(sourceId, source), (targetId, target)],
          (building walk.allowlist).holds builder fact := by
    intro fact member
    rcases List.mem_cons.mp member with rfl | last
    · exact held _ hasSource
    · obtain rfl := List.mem_singleton.mp last
      exact held _ hasTarget
  have start :=
    edge_emits kind further List.mem_cons_self (List.mem_cons_of_mem _ List.mem_cons_self) required
      builder traced.closed ends
  cases ran : (edge edgeType sourceId targetId kind further).run builder with
  | error problem =>
      rw [ran] at start
      exact start
  | ok answer =>
      obtain ⟨stored, next⟩ := answer
      rw [ran] at start
      obtain ⟨-, closed, -⟩ := start
      obtain ⟨-, rfl⟩ := edge_eq_ok ran
      obtain ⟨extended, traced', asked⟩ := traced.orInsertEdge closed rfl rfl rfl rfl
      refine ⟨extended.grows, traced', trivial, ?_⟩
      intro fact member
      rw [List.mem_singleton] at member
      subst member
      exact asked

theorem edgeIfAllowed_traced {builder : NativeBuilder} (traced : Traced walk pending builder)
    (edgeType sourceId targetId kind : String) (further : List (String × JsonValue))
    : match (edgeIfAllowed edgeType sourceId targetId kind further).run builder with
      | .error _ => ¬ Permissive walk.allowlist
      | .ok (_, next) =>
          Extends builder next
          ∧ Traced walk pending next
          ∧ (Asked next edgeType sourceId targetId kind
            ∨ ∀ source target,
                HasTable builder sourceId source →
                HasTable builder targetId target →
                walk.allowlist.allows edgeType source target = false) := by
  have start :=
    edgeIfAllowed_emits edgeType sourceId targetId kind further builder traced.closed
      (List.forall_mem_nil _)
  cases ran : (edgeIfAllowed edgeType sourceId targetId kind further).run builder with
  | error problem =>
      rw [ran] at start
      exact start
  | ok answer =>
      obtain ⟨_, next⟩ := answer
      rw [ran] at start
      obtain ⟨-, closed, -⟩ := start
      rcases edgeIfAllowed_eq_ok ran with ⟨same, refused⟩ | stored
      · subst same
        refine ⟨⟨fun _ _ before => before, fun row inside => ⟨row, inside, rfl⟩⟩, traced, Or.inr ?_⟩
        rintro source target ⟨first, isFirst, rfl⟩ ⟨second, isSecond, rfl⟩
        rw [← traced.closed.allowlisted]
        exact refused first second isFirst isSecond
      · subst stored
        obtain ⟨extended, traced', asked⟩ := traced.orInsertEdge closed rfl rfl rfl rfl
        exact ⟨extended, traced', Or.inl asked⟩

/-- An edge that is asked for only if it is allowed needs no knowledge of its ends. -/
theorem edgeIfAllowed_traces {edgeType sourceId targetId kind : String}
    {further : List (String × JsonValue)}
    : (tracing walk pending).Runs known
        (edgeIfAllowed edgeType sourceId targetId kind further) := by
  intro builder traced held
  have start := edgeIfAllowed_traced traced edgeType sourceId targetId kind further
  cases ran : (edgeIfAllowed edgeType sourceId targetId kind further).run builder with
  | error problem =>
      rw [ran] at start
      exact start
  | ok answer =>
      rw [ran] at start
      exact ⟨start.1.grows, start.2.1, trivial, by simp⟩

/-- A link leads on from where the walk has been. -/
theorem reached_of_asked {builder : NativeBuilder} {link : Link}
    {sourceId targetId source target : String} (listed : link ∈ links walk.environment)
    (isSource : source ∈ link.sources) (isTarget : target ∈ link.targets)
    (hasSource : HasTable builder sourceId source) (hasTarget : HasTable builder targetId target)
    (reached : walk.holds builder (.reached sourceId))
    (asked : Asked builder link.edgeType sourceId targetId link.kind)
    : walk.holds builder (.reached targetId) :=
  fun annotating =>
    (reached annotating).tail
      ⟨link, listed, source, isSource, target, isTarget, hasSource, hasTarget, asked⟩

/-- An annotating link is asked for where it is allowed. -/
theorem linkIfAllowed_traces {link : Link} {sourceId targetId source target : String}
    (annotates : link ∈ [parameterLink, returnLink] ++ annotationKinds.map annotationLink)
    (isSource : source ∈ link.sources) (isTarget : target ∈ link.targets)
    (hasSource : Fact.table sourceId source ∈ known)
    (hasTarget : Fact.table targetId target ∈ known) (reached : Fact.reached sourceId ∈ known)
    : (tracing walk pending).Yields known
        (edgeIfAllowed link.edgeType sourceId targetId link.kind []) (fun _ => True)
        (fun _ => [.reached targetId]) := by
  have listed : link ∈ links walk.environment := by
    refine List.mem_append_left _ ?_
    rcases List.mem_append.mp annotates with first | last
    · exact List.mem_append_left _ (List.mem_cons_of_mem _ first)
    · exact List.mem_append_right _ last
  intro builder traced held
  have start := edgeIfAllowed_traced traced link.edgeType sourceId targetId link.kind []
  cases ran : (edgeIfAllowed link.edgeType sourceId targetId link.kind []).run builder with
  | error problem =>
      rw [ran] at start
      exact start
  | ok answer =>
      rw [ran] at start
      obtain ⟨extended, traced', asked⟩ := start
      refine ⟨extended.grows, traced', trivial, ?_⟩
      intro fact member
      rw [List.mem_singleton] at member
      subst member
      intro annotating
      rcases asked with stored | refused
      · exact reached_of_asked listed isSource isTarget (extended.hasTable (held _ hasSource))
          (extended.hasTable (held _ hasTarget)) (extended.holds _ (held _ reached)) stored
          annotating
      · have allowed := annotating link annotates source isSource target isTarget
        rw [refused source target (held _ hasSource) (held _ hasTarget)] at allowed
        cases allowed

/-- A strict link. -/
theorem link_traces {link : Link} {sourceId targetId source target : String}
    (listed : link ∈ links walk.environment) (required : Required link.edgeType source target)
    (isSource : source ∈ link.sources) (isTarget : target ∈ link.targets)
    (hasSource : Fact.table sourceId source ∈ known)
    (hasTarget : Fact.table targetId target ∈ known) (reached : Fact.reached sourceId ∈ known)
    : (tracing walk pending).Yields known (edge link.edgeType sourceId targetId link.kind [])
        (fun _ => True)
        (fun _ => [.reached targetId, .asked link.edgeType sourceId targetId link.kind]) := by
  refine Discipline.Yields.conclude (fun _ => Fact.reached targetId)
    (edge_traces hasSource hasTarget required) ?_
  intro _ builder _ traced held
  exact reached_of_asked listed isSource isTarget
    (held _ (List.mem_append_right _ hasSource)) (held _ (List.mem_append_right _ hasTarget))
    (held _ (List.mem_append_right _ reached)) (held _ (List.mem_append_left _ List.mem_cons_self))

theorem derivedFrom_traces {semanticId syntaxId : String} (table : String)
    (hasSemantic : Fact.table semanticId table ∈ known) (listed : table ∈ semanticTables)
    (hasSyntax : Fact.table syntaxId "SyntaxCapture" ∈ known)
    : (tracing walk pending).Yields known (derivedFrom semanticId syntaxId) (fun _ => True)
        (fun _ => [.derived semanticId]) := by
  have required : Required "DerivedFrom" table "SyntaxCapture" :=
    ⟨("DerivedFrom", semanticTables, ["SyntaxCapture"]), by decide, rfl, listed, by decide⟩
  intro builder traced held
  obtain ⟨row, stored, tabled⟩ := held _ hasSyntax
  have asks
      : (tracing walk pending).Yields known
          (do
            let _ ← edge "DerivedFrom" semanticId syntaxId "parser_capture" [])
          (fun _ => True) (fun _ => [.derived semanticId]) := by
    apply Discipline.Yields.bind
      (Discipline.Yields.conclude (fun _ => Fact.derived semanticId)
        (edge_traces hasSemantic hasSyntax required) ?_)
    · intro _ _
      exact Discipline.Yields.pure trivial (by simp)
    · intro _ builder _ _ held
      exact ⟨syntaxId, held _ (List.mem_append_right _ hasSyntax),
        held _ (List.mem_append_left _ List.mem_cons_self)⟩
  have same
      : (derivedFrom semanticId syntaxId).run builder
        = (do
            let _ ← edge "DerivedFrom" semanticId syntaxId "parser_capture" [] : Build PUnit).run
              builder := by
    simp only [derivedFrom, StateT.run_bind, StateT.run_get, pure_bind, onlyIf, stored,
      Option.isSome_some, if_true]
  rw [same]
  exact asks builder traced held

theorem syntaxChild_traces {parentId childId : String} {fieldName : Option String}
    {childIndex : Nat} (hasParent : Fact.table parentId "SyntaxCapture" ∈ known)
    (hasChild : Fact.table childId "SyntaxCapture" ∈ known)
    : (tracing walk pending).Runs known (syntaxChild parentId childId fieldName childIndex) := by
  have required : Required "SyntaxChild" "SyntaxCapture" "SyntaxCapture" :=
    ⟨("SyntaxChild", ["SyntaxCapture"], ["SyntaxCapture"]), by decide, rfl, by decide, by decide⟩
  apply Discipline.Yields.bind (edge_traces hasParent hasChild required)
  intro stored _ builder traced held
  have extended
      : Extends builder
          { builder with
            edges :=
              builder.edges.modify stored.id
                (fun row => { row with fieldName, childIndex := some (childIndex : Int) })
                (fun _ => rfl) } := by
    refine ⟨fun _ _ before => before, fun row inside => ?_⟩
    refine ⟨_, List.mem_map_of_mem inside, ?_⟩
    split <;> rfl
  refine ⟨extended.grows, ⟨⟨traced.closed.allowlisted, traced.closed.named, ?_⟩, traced.path,
    traced.placed, ?_, ?_⟩, trivial, by simp⟩
  · intro joint inside
    obtain ⟨before, member, rfl | rfl⟩ := Keyed.mem_modify (by intro row; rfl) inside
    · exact traced.closed.joined _ member
    · exact traced.closed.joined before member
  · intro row inside
    obtain ⟨before, member, rfl | rfl⟩ := Keyed.mem_modify (by intro row; rfl) inside
    · exact traced.keyed _ member
    · exact traced.keyed before member
  · intro row inside listed
    exact (traced.traced row inside listed).imp_right
      (fun settled => ⟨extended.holds _ settled.1, extended.holds _ settled.2⟩)

/-- What is known of an owner: its node and its scope are stored, and its node was reached. -/
def ownerTrace (owner : Owner) : List Fact :=
  [.table owner.nodeId owner.table, .table owner.scopeId "Scope", .reached owner.nodeId]

theorem connectOwner_traces {owner : Owner} {semantic : GraphNodeRow} (table : String)
    (owned : ownerTrace owner ⊆ known) (owns : owner.table ∈ ownerTables)
    (hasSemantic : Fact.table semantic.id table ∈ known) (tabled : semantic.table = table)
    (listed : table ∈ semanticTables)
    : (tracing walk pending).Yields known (connectOwner walk.environment owner semantic)
        (fun _ => True) (fun _ => [.reached semantic.id]) := by
  have required (source : String) (inside : source ∈ "Scope" :: ownerTables)
      : Required "Contains" source table :=
    ⟨("Contains", "Scope" :: ownerTables, semanticTables), by decide, rfl, inside, listed⟩
  have hasOwner : Fact.table owner.nodeId owner.table ∈ known := owned (by simp [ownerTrace])
  have hasScope : Fact.table owner.scopeId "Scope" ∈ known := owned (by simp [ownerTrace])
  have reached : Fact.reached owner.nodeId ∈ known := owned (by simp [ownerTrace])
  have inLinks : ownerLink walk.environment table ∈ links walk.environment :=
    List.mem_append_right _ (List.mem_map_of_mem listed)
  have contains := required _ (List.mem_cons_of_mem _ owns)
  subst tabled
  apply Discipline.Yields.bind
    (link_traces inLinks contains owns (List.mem_singleton.mpr rfl) hasOwner hasSemantic reached)
  intro _ _
  refine Discipline.Yields.keep [Fact.reached semantic.id]
    (Discipline.Yields.onlyIf fun _ => ?_) (by simp)
  apply Discipline.Yields.bind
    (edge_traces (List.mem_append_right _ hasScope) (List.mem_append_right _ hasSemantic)
      (required "Scope" List.mem_cons_self))
  intro _ _
  exact Discipline.Yields.pure trivial (List.nil_subset _)

end Rules

end CodebaseGraph.Syntax
