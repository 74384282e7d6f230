import CodebaseGraph.Hashing.Sha1
import CodebaseGraph.Syntax.Emission
import CodebaseGraph.Syntax.Preorder
import CodebaseGraph.Transition.Fallible
import Mathlib.Data.Finset.Card
import Mathlib.Logic.Relation

/-! The syntax layer of the graph as a copy of the parsed tree. A capture's row is known by its
path, node type, first line, first byte and label; nodes that agree on these share one row.
-/

namespace CodebaseGraph.Syntax

open CodebaseGraph.Collections
open CodebaseGraph.Hashing
open CodebaseGraph.Sorting (sortBy SortedBy)
open CodebaseGraph.Staging (GraphNodeRow GraphEdgeRow JsonValue)
open CodebaseGraph.Transition
open NativeSyntaxArena (Visit ownVisits visits preorder)

variable {environment : Environment}

-- The edge to a child

def childKey (parentId childId : String) : String :=
  edgeKey "SyntaxChild" parentId childId "syntax_child"

/-- The edges after a child's edge is stored and its name and place are written to it. -/
def storeChild (edges : Keyed GraphEdgeRow GraphEdgeRow.id) (parentId childId : String)
    (fieldName : Option String) (childIndex : Nat)
    : Keyed GraphEdgeRow GraphEdgeRow.id :=
  (edges.orInsert (edgeRow "SyntaxChild" parentId childId "syntax_child" [])).modify
    (graphId "edge" (childKey parentId childId))
    (fun row => { row with fieldName, childIndex := some (childIndex : Int) })
    (id_placed fieldName childIndex)

theorem syntaxChild_eq_ok {builder next : NativeBuilder} {parentId childId : String}
    {fieldName : Option String} {childIndex : Nat}
    (ran : (syntaxChild parentId childId fieldName childIndex).run builder = .ok (⟨⟩, next))
    : next = { builder with
        edges := storeChild builder.edges parentId childId fieldName childIndex } := by
  rw [syntaxChild, StateT.run_bind] at ran
  obtain ⟨⟨stored, middle⟩, asked, rest⟩ := bind_eq_ok.mp ran
  obtain ⟨named, rfl⟩ := edge_eq_ok asked
  cases rest
  simp only [storeChild, childKey, named]

-----------------------------------------------------------------------------------------
-- One child after the other

variable (environment) (arena : NativeSyntaxArena)

/-- The id of a node's row. -/
def rowId (path : String) (id : Nat) : String :=
  match arena.getNode id with
  | none => ""
  | some node => captureId path (treeCapture environment.unicode node)

/-- The graph after a child's row and the edge to it are stored. -/
def visit (builder : NativeBuilder) (step : Visit) : NativeBuilder :=
  match arena.getNode step.childId with
  | none => builder
  | some child =>
      { builder with
        nodes :=
          builder.nodes.orInsert (captureRow builder (treeCapture environment.unicode child))
        edges :=
          storeChild builder.edges (rowId environment arena builder.path step.parentId)
            (rowId environment arena builder.path step.childId) child.node.fieldName
            step.childIndex }

variable {environment arena}

theorem rowId_of_found {id : Nat} {node : TreeNodeRef} (found : arena.getNode id = some node)
    (path : String)
    : rowId environment arena path id = captureId path (treeCapture environment.unicode node) := by
  rw [rowId, found]

theorem visit_path (builder : NativeBuilder) (step : Visit)
    : (visit environment arena builder step).path = builder.path := by
  rw [visit]
  split <;> rfl

theorem visit_captureRow (builder : NativeBuilder) (step : Visit)
    : captureRow (visit environment arena builder step) = captureRow builder := by
  rw [visit]
  split <;> rfl

theorem foldl_visit_path (steps : List Visit) (builder : NativeBuilder)
    : (steps.foldl (visit environment arena) builder).path = builder.path := by
  induction steps generalizing builder with
  | nil => rfl
  | cons step rest ih => rw [List.foldl_cons, ih, visit_path]

/-- What is stored for a child before the recursion goes into it. -/
theorem storeChild_eq_ok {builder next : NativeBuilder} (step : Visit) {child : TreeNodeRef}
    (found : arena.getNode step.childId = some child) {α : Type} {rest : String → Build α}
    {answer : α}
    (ran : (do
        let childSyntaxId ← syntaxCapture environment (treeCapture environment.unicode child)
        syntaxChild (rowId environment arena builder.path step.parentId) childSyntaxId
          child.node.fieldName step.childIndex
        rest childSyntaxId : Build α).run builder = .ok (answer, next))
    : (rest (captureId builder.path (treeCapture environment.unicode child))).run
        (visit environment arena builder step) = .ok (answer, next) := by
  rw [StateT.run_bind, syntaxCapture_run] at ran
  obtain ⟨_, same, ran⟩ := bind_eq_ok.mp ran
  cases same
  rw [StateT.run_bind] at ran
  obtain ⟨⟨_, middle⟩, joined, ran⟩ := bind_eq_ok.mp ran
  obtain rfl := syntaxChild_eq_ok joined
  rw [visit, found]
  simpa only [rowId_of_found found] using ran

/-- The recursion stores the children that the walk comes to, one after the other. -/
theorem materializeSyntaxChildren_eq_ok {fuel id : Nat} {parent : TreeNodeRef}
    {builder next : NativeBuilder} (found : arena.getNode id = some parent)
    (ran : (materializeSyntaxChildren environment arena fuel parent
      (captureId builder.path (treeCapture environment.unicode parent))).run builder
        = .ok (⟨⟩, next))
    : next = (visits arena fuel id).foldl (visit environment arena) builder := by
  induction fuel generalizing id parent builder next with
  | zero => cases ran
  | succ fuel ih =>
      rw [materializeSyntaxChildren, ← rowId_of_found found] at ran
      rw [visits, ownVisits, found]
      simp only [List.flatMap_map]
      generalize parent.children.zipIdx = listed at ran ⊢
      generalize located : builder.path = path at ran
      induction listed generalizing builder with
      | nil =>
          cases ran
          rfl
      | cons numbered rest others =>
          obtain ⟨childId, childIndex⟩ := numbered
          rw [List.forM_eq_forM, List.forM_cons, StateT.run_bind] at ran
          obtain ⟨⟨_, middle⟩, turn, ran⟩ := bind_eq_ok.mp ran
          cases stored : arena.getNode childId with
          | none =>
              simp only [stored] at turn
              cases turn
          | some child =>
              simp only [stored] at turn
              subst located
              have below :=
                storeChild_eq_ok { parentId := id, childId, childIndex } stored turn
              rw [← visit_path builder { parentId := id, childId, childIndex }] at below
              obtain rfl := ih stored below
              rw [List.flatMap_cons, List.foldl_append, List.foldl_cons]
              exact others (by rw [foldl_visit_path, visit_path]) ran

variable (environment arena) in
/-- The graph after the row of the root is stored as evidence for the file. -/
def storeRoot (builder : NativeBuilder) (root : TreeNodeRef) (fileId : String) : NativeBuilder :=
  { builder with
    nodes := builder.nodes.orInsert (captureRow builder (treeCapture environment.unicode root))
    edges :=
      builder.edges.orInsert
        (edgeRow "EvidencedBy" fileId
          (captureId builder.path (treeCapture environment.unicode root)) "syntax_root" []) }

theorem materializeSyntaxTree_eq_ok {rootId : Nat} {root : TreeNodeRef} {fileId : String}
    {builder next : NativeBuilder} (found : arena.getNode rootId = some root)
    (ran : (materializeSyntaxTree environment arena rootId fileId).run builder = .ok (⟨⟩, next))
    : next
      = (visits arena arena.nodes.length rootId).foldl (visit environment arena)
          (storeRoot environment builder root fileId) := by
  simp only [materializeSyntaxTree, found] at ran
  rw [StateT.run_bind, syntaxCapture_run] at ran
  obtain ⟨_, same, ran⟩ := bind_eq_ok.mp ran
  cases same
  rw [StateT.run_bind] at ran
  obtain ⟨⟨stored, middle⟩, asked, ran⟩ := bind_eq_ok.mp ran
  obtain ⟨-, rfl⟩ := edge_eq_ok asked
  exact materializeSyntaxChildren_eq_ok found ran

-----------------------------------------------------------------------------------------
-- The rows that are stored

/-- A row that was not there before carries the id of a child. -/
theorem mem_foldl_visit {steps : List Visit} {builder : NativeBuilder} {row : GraphNodeRow}
    (inside : row ∈ (steps.foldl (visit environment arena) builder).nodes.rows)
    : row ∈ builder.nodes.rows
      ∨ ∃ step ∈ steps, row.id = rowId environment arena builder.path step.childId := by
  induction steps generalizing builder with
  | nil => exact Or.inl inside
  | cons step rest ih =>
      rcases ih inside with before | ⟨later, member, named⟩
      · rw [visit] at before
        split at before
        · exact Or.inl before
        · next child found =>
            rcases Keyed.mem_orInsert before with old | rfl
            · exact Or.inl old
            · exact Or.inr ⟨step, List.mem_cons_self, (rowId_of_found found _).symm⟩
      · rw [visit_path] at named
        exact Or.inr ⟨later, List.mem_cons_of_mem _ member, named⟩

/-- The edge to a child as it is stored in the end. -/
def childEdge (environment : Environment) (arena : NativeSyntaxArena) (path : String)
    (step : Visit)
    : GraphEdgeRow :=
  { edgeRow "SyntaxChild" (rowId environment arena path step.parentId)
      (rowId environment arena path step.childId) "syntax_child" [] with
    fieldName := (arena.getNode step.childId).bind (fun child => child.node.fieldName)
    childIndex := some (step.childIndex : Int) }

theorem rows_storeChild {edges : Keyed GraphEdgeRow GraphEdgeRow.id} {parentId childId : String}
    {fieldName : Option String} {childIndex : Nat}
    (fresh : graphId "edge" (childKey parentId childId) ∉ edges.rows.map GraphEdgeRow.id)
    : (storeChild edges parentId childId fieldName childIndex).rows
      = edges.rows
        ++ [{ edgeRow "SyntaxChild" parentId childId "syntax_child" [] with
              fieldName, childIndex := some (childIndex : Int) }] := by
  have absent : edges.get? (edgeRow "SyntaxChild" parentId childId "syntax_child" []).id = none :=
    Keyed.get?_eq_none_iff.mpr fresh
  have kept : ∀ row ∈ edges.rows, row.id ≠ graphId "edge" (childKey parentId childId) :=
    fun row inside same => fresh (List.mem_map.mpr ⟨row, inside, same⟩)
  rw [storeChild, Keyed.rows_modify, Keyed.rows_orInsert_of_none absent, List.map_append,
    List.map_singleton]
  refine congrArg₂ (· ++ ·) ?_ ?_
  · exact (List.map_congr_left (fun row inside => if_neg (kept row inside))).trans (List.map_id _)
  · exact congrArg (fun row => [row]) (if_pos rfl)

/-- Under ids that are all new, each child gets its row and its edge, in the order of the walk. -/
theorem rows_foldl_visit (steps : List Visit) (builder : NativeBuilder)
    (held : ∀ step ∈ steps, ∃ child, arena.getNode step.childId = some child)
    (newRows
      : (builder.nodes.rows.map GraphNodeRow.id
          ++ steps.map (fun step => rowId environment arena builder.path step.childId)).Nodup)
    (newEdges
      : (builder.edges.rows.map GraphEdgeRow.id
          ++ steps.map (fun step => (childEdge environment arena builder.path step).id)).Nodup)
    : (steps.foldl (visit environment arena) builder).nodes.rows
        = builder.nodes.rows
          ++ ((steps.map Visit.childId).filterMap arena.getNode).map (fun child =>
            captureRow builder (treeCapture environment.unicode child))
      ∧ (steps.foldl (visit environment arena) builder).edges.rows
        = builder.edges.rows ++ steps.map (childEdge environment arena builder.path) := by
  induction steps generalizing builder with
  | nil => simp
  | cons step rest ih =>
      obtain ⟨child, found⟩ := held step List.mem_cons_self
      have absent
          : builder.nodes.get?
              (captureRow builder (treeCapture environment.unicode child)).id = none := by
        rw [Keyed.get?_eq_none_iff]
        intro taken
        refine (List.nodup_append.mp newRows).2.2 _ taken _ List.mem_cons_self ?_
        exact (rowId_of_found found _).symm
      have fresh
          : graphId "edge" (childKey (rowId environment arena builder.path step.parentId)
              (rowId environment arena builder.path step.childId))
            ∉ builder.edges.rows.map GraphEdgeRow.id :=
        fun taken => (List.nodup_append.mp newEdges).2.2 _ taken _ List.mem_cons_self rfl
      have nodes
          : (visit environment arena builder step).nodes.rows
            = builder.nodes.rows
              ++ [captureRow builder (treeCapture environment.unicode child)] := by
        rw [visit, found]
        exact Keyed.rows_orInsert_of_none absent
      have edges
          : (visit environment arena builder step).edges.rows
            = builder.edges.rows ++ [childEdge environment arena builder.path step] := by
        rw [visit, found]
        simp only [rows_storeChild fresh, childEdge, found, Option.bind_some]
      obtain ⟨nodes', edges'⟩ := ih (visit environment arena builder step)
        (fun later member => held later (List.mem_cons_of_mem _ member))
        (by
          rw [nodes, visit_path, List.map_append, List.append_assoc]
          simpa [captureRow, ← rowId_of_found found] using newRows)
        (by
          rw [edges, visit_path, List.map_append, List.append_assoc]
          simpa using newEdges)
      rw [List.foldl_cons, nodes', edges', nodes, edges, visit_path]
      simp [found, visit_captureRow]

-- Ids

theorem length_sha1Hex (text : String) : (sha1Hex text).toList.length = 20 := by
  have digits (bytes : List UInt8) : (bytes.flatMap hexByte).length = 2 * bytes.length := by
    induction bytes with
    | nil => rfl
    | cons byte rest ih =>
        rw [List.flatMap_cons, List.length_append, ih, List.length_cons]
        simp only [hexByte, List.length_cons, List.length_nil]
        omega
  have bytes (input : List UInt8) : (sha1 input).length = 20 := by
    simp [sha1, Sha1.wordBytes]
  rw [sha1Hex, String.toList_ofList, digits, List.length_take, bytes]
  rfl

/-- The text of a child's edge tells the ids of both ends. -/
theorem childKey_inj {path path' : String} {parent parent' : Capture} {childId childId' : String}
    (same : childKey (captureId path parent) childId = childKey (captureId path' parent') childId')
    : captureId path parent = captureId path' parent' ∧ childId = childId' := by
  have letters := congrArg String.toList same
  simp only [childKey, edgeKey, String.toList_append, List.append_assoc] at letters
  have rest := List.append_cancel_left (List.append_cancel_left letters)
  have sized : (captureId path parent).toList.length = (captureId path' parent').toList.length := by
    simp [captureId, graphId, length_sha1Hex]
  obtain ⟨first, later⟩ := List.append_inj rest sized
  have second := List.append_cancel_right (List.append_cancel_left later)
  exact ⟨String.toList_inj.mp first, String.toList_inj.mp second⟩

theorem edgeKey_ne_childKey {edgeType sourceId targetId kind parentId childId : String}
    (other : edgeType ∈ ["Contains", "EvidencedBy"])
    : edgeKey edgeType sourceId targetId kind ≠ childKey parentId childId := by
  intro same
  have first := congrArg (fun text : String => text.toList.head?) same
  rcases List.mem_cons.mp other with rfl | rest
  · simp [edgeKey, childKey] at first
  · obtain rfl := List.mem_singleton.mp rest
    simp [edgeKey, childKey] at first

-- The copy

/-- The ids of all nodes in the order of the walk, as rows. -/
theorem map_rowId_range (path : String)
    : (List.range arena.nodes.length).map (rowId environment arena path)
      = arena.nodes.map (fun node => captureId path (treeCapture environment.unicode node)) := by
  apply List.ext_getElem
  · simp
  · intro id inside inside'
    have bound : id < arena.nodes.length := by simpa using inside
    have found : arena.getNode id = some arena.nodes[id] := List.getElem?_eq_getElem bound
    simp [rowId_of_found found]

variable (environment) (arena)

/-- The texts from which the ids of the tree's rows are made. -/
def treeKeys (path : String) : List String :=
  arena.nodes.map (fun node => captureKey path (treeCapture environment.unicode node))

/-- The texts of the edges to all children. -/
def childKeys (path : String) : List String :=
  (visits arena arena.nodes.length arena.rootId).map (fun step =>
    childKey (rowId environment arena path step.parentId)
      (rowId environment arena path step.childId))

/-- The texts that are hashed for a tree, and those of the edges that are there before. -/
def askedTexts (builder : NativeBuilder) (root : TreeNodeRef) (fileId : String) : List String :=
  (storeRoot environment builder root fileId).edges.rows.map storedKey
    ++ treeKeys environment arena builder.path
    ++ childKeys environment arena builder.path

variable {environment} {arena}

/-- The edges that leave a row of the syntax layer, in the order of their places. -/
def childEdges (built : NativeBuilder) (rowId : String) : List GraphEdgeRow :=
  sortBy (fun edge => edge.childIndex.getD 0)
    (built.edges.rows.filter (fun edge =>
      edge.edgeType = "SyntaxChild" && edge.sourceId = rowId))

def ChildOf (built : NativeBuilder) (parentId childId : String) : Prop :=
  ∃ edge ∈ built.edges.rows,
    edge.edgeType = "SyntaxChild" ∧ edge.sourceId = parentId ∧ edge.targetId = childId

/-- The syntax layer copies the tree: rows stand for nodes one by one, and the edges that leave
the row of a node lead to the rows of its children, with their names and places.
-/
structure Copies (arena : NativeSyntaxArena) (built : NativeBuilder) (rowOf : Nat → GraphNodeRow)
    : Prop where
  onto : ∀ row,
    (row ∈ built.nodes.rows ∧ row.table = "SyntaxCapture")
      ↔ ∃ id < arena.nodes.length, rowOf id = row
  distinct : ∀ id < arena.nodes.length, ∀ id' < arena.nodes.length, rowOf id = rowOf id' → id = id'
  described : ∀ id node, arena.getNode id = some node →
    (rowOf id).treeSitterNodeType = node.nodeType
    ∧ (rowOf id).lineStart = node.node.lineStart
    ∧ (rowOf id).lineEnd = node.node.lineEnd
    ∧ (rowOf id).byteStart = node.node.byteStart
    ∧ (rowOf id).byteEnd = node.node.byteEnd
  children : ∀ id node, arena.getNode id = some node →
    (childEdges built (rowOf id).id).map (fun edge =>
        (edge.targetId, edge.fieldName, edge.childIndex))
      = node.children.zipIdx.map (fun numbered =>
          ((rowOf numbered.1).id,
            (arena.getNode numbered.1).bind (fun child => child.node.fieldName),
            some (numbered.2 : Int)))
  acyclic : ∀ rowId, ¬ Relation.TransGen (ChildOf built) rowId rowId

-- The graph before the tree is copied

/-- No row of the syntax layer is there, and every edge carries the id of its text. -/
structure Opened (builder : NativeBuilder) : Prop where
  rows : ∀ row ∈ builder.nodes.rows,
    row.table ∈ ["Repository", "SourceRoot", "File"]
    ∧ ∃ stableKey, row.id = graphId row.table stableKey
  edges : ∀ row ∈ builder.edges.rows,
    row.edgeType ∈ ["Contains", "EvidencedBy"]
    ∧ row.id = graphId "edge" (storedKey row)

theorem Opened.captureId_fresh {builder : NativeBuilder} (opened : Opened builder) {path : String}
    {capture : Capture}
    : captureId path capture ∉ builder.nodes.rows.map GraphNodeRow.id := by
  intro taken
  obtain ⟨row, inside, same⟩ := List.mem_map.mp taken
  obtain ⟨listed, stableKey, named⟩ := opened.rows row inside
  have known : row.table ∈ nodeTables :=
    (show ["Repository", "SourceRoot", "File"] ⊆ nodeTables by decide) listed
  have table : row.table = "SyntaxCapture" :=
    table_of_graphId known (by decide) (named.symm.trans same)
  rw [table] at listed
  exact absurd listed (by decide)

/-- The root's evidence is one more edge of a kind that leads to no child. -/
theorem Opened.storeRoot_edges {builder : NativeBuilder} (opened : Opened builder)
    {root : TreeNodeRef} {fileId : String}
    : ∀ row ∈ (storeRoot environment builder root fileId).edges.rows,
        row.edgeType ∈ ["Contains", "EvidencedBy"]
        ∧ row.id = graphId "edge" (storedKey row) := by
  intro row inside
  rcases Keyed.mem_orInsert inside with old | rfl
  · exact opened.edges row old
  · exact ⟨List.mem_cons_of_mem _ List.mem_cons_self, rfl⟩

theorem supportNode_opened {builder next : NativeBuilder} (opened : Opened builder)
    {table stableKey label path : String} {stored : GraphNodeRow}
    (listed : table ∈ ["Repository", "SourceRoot", "File"])
    (ran : (supportNode environment table stableKey label path).run builder = .ok (stored, next))
    : Opened next
      ∧ stored.id = graphId table stableKey
      ∧ next.edges = builder.edges
      ∧ next.path = builder.path := by
  cases ran
  refine ⟨⟨?_, opened.edges⟩, ?_, rfl, rfl⟩
  · intro row inside
    rcases Keyed.mem_orInsert inside with old | rfl
    · exact opened.rows row old
    · exact ⟨listed, stableKey, rfl⟩
  · generalize named : graphId table stableKey = name
    generalize isRow : GraphNodeRow.mk name _ _ _ _ _ _ _ _ _ _ _ _ _ _ _ _ = row
    obtain ⟨other, found, -⟩ := Keyed.get?_orInsert_self builder.nodes row
    have keyed : row.id = name := by rw [← isRow]
    rw [found, Option.getD_some, ← keyed]
    exact (Keyed.get?_eq_some_iff.mp found).2

theorem contains_opened {builder next : NativeBuilder} (opened : Opened builder)
    {sourceId targetId kind : String} {stored : GraphEdgeRow}
    (ran : (edge "Contains" sourceId targetId kind []).run builder = .ok (stored, next))
    : Opened next
      ∧ next.path = builder.path
      ∧ ∀ row ∈ next.edges.rows,
          row ∈ builder.edges.rows ∨ storedKey row = edgeKey "Contains" sourceId targetId kind := by
  obtain ⟨-, rfl⟩ := edge_eq_ok ran
  refine ⟨⟨opened.rows, ?_⟩, rfl, ?_⟩
  · intro row inside
    rcases Keyed.mem_orInsert inside with old | rfl
    · exact opened.edges row old
    · exact ⟨List.mem_cons_self, rfl⟩
  · intro row inside
    rcases Keyed.mem_orInsert inside with old | rfl
    · exact Or.inl old
    · exact Or.inr rfl

/-- The texts of the edges above the file. -/
def openedKeys (builder : NativeBuilder) : List String :=
  [edgeKey "Contains" (graphId "Repository" builder.repositoryLabel)
      (graphId "SourceRoot" builder.sourceRoot) "repository_source_root",
    edgeKey "Contains" (graphId "SourceRoot" builder.sourceRoot) (graphId "File" builder.path)
      "source_root_file"]

theorem openTree_opened {builder next : NativeBuilder} {file : GraphNodeRow}
    (opened : Opened builder) (ran : (openTree environment).run builder = .ok (file, next))
    : Opened next
      ∧ file.id = graphId "File" builder.path
      ∧ next.path = builder.path
      ∧ ∀ row ∈ next.edges.rows, row ∈ builder.edges.rows ∨ storedKey row ∈ openedKeys builder := by
  simp only [openTree, StateT.run_bind, StateT.run_get, pure_bind] at ran
  obtain ⟨⟨repository, first⟩, made, ran⟩ := bind_eq_ok.mp ran
  obtain ⟨opened, repositoryId, edges, path⟩ := supportNode_opened opened (by decide) made
  obtain ⟨⟨source, second⟩, made, ran⟩ := bind_eq_ok.mp ran
  obtain ⟨opened, sourceId, edges', path'⟩ := supportNode_opened opened (by decide) made
  obtain ⟨⟨file, third⟩, made, ran⟩ := bind_eq_ok.mp ran
  obtain ⟨opened, fileId, edges'', path''⟩ := supportNode_opened opened (by decide) made
  obtain ⟨⟨_, fourth⟩, joined, ran⟩ := bind_eq_ok.mp ran
  obtain ⟨opened, same, stored⟩ := contains_opened opened joined
  obtain ⟨⟨_, fifth⟩, joined, ran⟩ := bind_eq_ok.mp ran
  obtain ⟨opened, same', stored'⟩ := contains_opened opened joined
  cases ran
  refine ⟨opened, fileId, by rw [same', same, path'', path', path], ?_⟩
  intro row inside
  rw [sourceId, fileId] at stored'
  rw [repositoryId, sourceId, edges'', edges', edges] at stored
  rcases stored' row inside with early | named
  · rcases stored row early with old | named
    · exact Or.inl old
    · exact Or.inr (named ▸ List.mem_cons_self)
  · exact Or.inr (named ▸ List.mem_cons_of_mem _ List.mem_cons_self)

-----------------------------------------------------------------------------------------
-- When the copy is faithful

section Copied

variable {root : SyntaxNode} {opened built : NativeBuilder} {fileId : String}

/-- The arena of a tree, with the node of its root. -/
theorem new_root (root : SyntaxNode)
    : ∃ node,
        (NativeSyntaxArena.new root).getNode (NativeSyntaxArena.new root).rootId = some node :=
  (NativeSyntaxArena.new root).getNode_of_lt (NativeSyntaxArena.new_wellFormed root).root

/-- The root and the children that the walk comes to are all the nodes. -/
theorem root_cons_visits (root : SyntaxNode)
    : (NativeSyntaxArena.new root).rootId
        :: (visits (.new root) (NativeSyntaxArena.new root).nodes.length
          (NativeSyntaxArena.new root).rootId).map Visit.childId
      = List.range (NativeSyntaxArena.new root).nodes.length := by
  rw [← NativeSyntaxArena.preorder_eq_cons_visits]
  exact NativeSyntaxArena.preorder_new root (Nat.le_succ _)

/-- Every row of the syntax layer carries the id of some node. -/
theorem captured_rowId (before : Opened opened) {node : TreeNodeRef}
    (found : (NativeSyntaxArena.new root).getNode (NativeSyntaxArena.new root).rootId = some node)
    (ran : (materializeSyntaxTree environment (.new root) (NativeSyntaxArena.new root).rootId
      fileId).run opened = .ok (⟨⟩, built))
    {row : GraphNodeRow} (inside : row ∈ built.nodes.rows) (captured : row.table = "SyntaxCapture")
    : ∃ id < (NativeSyntaxArena.new root).nodes.length,
        row.id = rowId environment (.new root) opened.path id := by
  have all := root_cons_visits root
  rw [materializeSyntaxTree_eq_ok found ran] at inside
  rcases mem_foldl_visit inside with early | ⟨step, member, named⟩
  · rcases Keyed.mem_orInsert early with old | rfl
    · have listed := (before.rows row old).1
      rw [captured] at listed
      exact absurd listed (by decide)
    · refine ⟨(NativeSyntaxArena.new root).rootId, ?_, (rowId_of_found found _).symm⟩
      rw [← List.mem_range, ← all]
      exact List.mem_cons_self
  · refine ⟨step.childId, ?_, named⟩
    rw [← List.mem_range, ← all]
    exact List.mem_cons_of_mem _ (List.mem_map_of_mem member)

/-- Rows that stand for the nodes one by one are as many as there are texts. -/
theorem Copies.treeKeys_nodup {rowOf : Nat → GraphNodeRow} (before : Opened opened)
    (copied : Copies (.new root) built rowOf)
    (ran : (materializeSyntaxTree environment (.new root) (NativeSyntaxArena.new root).rootId
      fileId).run opened = .ok (⟨⟩, built))
    : (treeKeys environment (.new root) opened.path).Nodup := by
  obtain ⟨node, found⟩ := new_root root
  generalize size : (NativeSyntaxArena.new root).nodes.length = count
  have stored (id : Nat) (bound : id < count)
      : rowOf id ∈ built.nodes.rows ∧ (rowOf id).table = "SyntaxCapture" :=
    (copied.onto _).mpr ⟨id, size ▸ bound, rfl⟩
  have among
      : (Finset.range count).image (fun id => (rowOf id).id)
        ⊆ (Finset.range count).image (rowId environment (.new root) opened.path) := by
    intro name member
    obtain ⟨id, bound, rfl⟩ := Finset.mem_image.mp member
    obtain ⟨inside, captured⟩ := stored id (Finset.mem_range.mp bound)
    obtain ⟨other, bound', named⟩ := captured_rowId before found ran inside captured
    exact Finset.mem_image.mpr ⟨other, Finset.mem_range.mpr (size ▸ bound'), named.symm⟩
  have apart : Set.InjOn (fun id => (rowOf id).id) (Finset.range count) := by
    intro id bound id' bound' same
    have bound := Finset.mem_range.mp bound
    have bound' := Finset.mem_range.mp bound'
    have rows :=
      List.inj_on_of_nodup_map built.nodes.distinct (stored id bound).1 (stored id' bound').1 same
    exact copied.distinct id (size ▸ bound) id' (size ▸ bound') rows
  have many : ((Finset.range count).image (rowId environment (.new root) opened.path)).card = count := by
    apply Nat.le_antisymm (Finset.card_image_le.trans (Finset.card_range count).le)
    calc
      count = ((Finset.range count).image (fun id => (rowOf id).id)).card := by
        rw [Finset.card_image_of_injOn apart, Finset.card_range]
      _ ≤ _ := Finset.card_le_card among
  have names : ((List.range count).map (rowId environment (.new root) opened.path)).Nodup := by
    rw [List.nodup_map_iff_inj_on List.nodup_range]
    intro id bound id' bound' same
    have injective := Finset.card_image_iff.mp (many.trans (Finset.card_range count).symm)
    exact injective (by simpa using bound) (by simpa using bound') same
  rw [← size, map_rowId_range] at names
  have keys : ((treeKeys environment (.new root) opened.path).map
      (graphId "SyntaxCapture")).Nodup := by
    rwa [treeKeys, List.map_map]
  exact keys.of_map _

/-- Distinct texts give distinct ids, when no two of them have one hash. -/
theorem rowIds_nodup {node : TreeNodeRef}
    (collisionless
      : Collisionless (askedTexts environment (.new root) opened node fileId))
    (keys : (treeKeys environment (.new root) opened.path).Nodup)
    : ((List.range (NativeSyntaxArena.new root).nodes.length).map
        (rowId environment (.new root) opened.path)).Nodup := by
  have named
      : (treeKeys environment (.new root) opened.path).map (graphId "SyntaxCapture")
        = (NativeSyntaxArena.new root).nodes.map (fun node =>
          captureId opened.path (treeCapture environment.unicode node)) := by
    rw [treeKeys, List.map_map]
    rfl
  rw [map_rowId_range, ← named]
  refine keys.map_on (fun text inside text' inside' same => ?_)
  have hashed : sha1Hex text = sha1Hex text' := by simpa [graphId] using same
  exact collisionless text (List.mem_append_left _ (List.mem_append_right _ inside)) text'
    (List.mem_append_left _ (List.mem_append_right _ inside')) hashed

theorem mem_visits {step : Visit}
    (member : step ∈ visits (.new root) (NativeSyntaxArena.new root).nodes.length
      (NativeSyntaxArena.new root).rootId)
    : step.parentId < (NativeSyntaxArena.new root).nodes.length
      ∧ step.childId < (NativeSyntaxArena.new root).nodes.length
      ∧ ∃ node,
          (NativeSyntaxArena.new root).getNode step.parentId = some node
          ∧ (step.childId, step.childIndex) ∈ node.children.zipIdx := by
  have listed :=
    (NativeSyntaxArena.visits_perm (.new root) (NativeSyntaxArena.new root).nodes.length
      (NativeSyntaxArena.new root).rootId).subset member
  rw [NativeSyntaxArena.preorder_new root (Nat.le_refl _)] at listed
  obtain ⟨id, inside, own⟩ := List.mem_flatMap.mp listed
  rw [ownVisits] at own
  cases found : (NativeSyntaxArena.new root).getNode id with
  | none => simp [found] at own
  | some node =>
      simp only [found] at own
      obtain ⟨numbered, place, rfl⟩ := List.mem_map.mp own
      have child : numbered.1 ∈ node.children := List.fst_mem_of_mem_zipIdx place
      have bound :=
        (NativeSyntaxArena.new_wellFormed root).children id node (Nat.zero_le _) found _ child
      exact ⟨List.mem_range.mp inside, bound.2, node, found, place⟩

theorem rowId_found (environment : Environment) (path : String) {id : Nat}
    (bound : id < (NativeSyntaxArena.new root).nodes.length)
    : ∃ node,
        (NativeSyntaxArena.new root).getNode id = some node
        ∧ rowId environment (.new root) path id
          = captureId path (treeCapture environment.unicode node) := by
  obtain ⟨node, found⟩ := (NativeSyntaxArena.new root).getNode_of_lt bound
  exact ⟨node, found, rowId_of_found found path⟩

/-- No two children share the id of an edge, and none has the id of an earlier edge. -/
theorem childEdge_ids_nodup (before : Opened opened) {node : TreeNodeRef}
    (collisionless
      : Collisionless (askedTexts environment (.new root) opened node fileId))
    (keys : (treeKeys environment (.new root) opened.path).Nodup)
    : ((storeRoot environment opened node fileId).edges.rows.map GraphEdgeRow.id
        ++ (visits (.new root) (NativeSyntaxArena.new root).nodes.length
            (NativeSyntaxArena.new root).rootId).map (fun step =>
              (childEdge environment (.new root) opened.path step).id)).Nodup := by
  have names := rowIds_nodup collisionless keys
  have all := root_cons_visits root
  have once := (List.nodup_cons.mp (all ▸ List.nodup_range)).2
  rw [List.nodup_append]
  refine ⟨(storeRoot environment opened node fileId).edges.distinct, ?_, ?_⟩
  · refine (List.Nodup.of_map _ once).map_on (fun step member step' member' same => ?_)
    obtain ⟨parent, child, -⟩ := mem_visits member
    obtain ⟨parent', child', -⟩ := mem_visits member'
    have hashed
        : sha1Hex
              (childKey (rowId environment (.new root) opened.path step.parentId)
                (rowId environment (.new root) opened.path step.childId))
            = sha1Hex
              (childKey (rowId environment (.new root) opened.path step'.parentId)
                (rowId environment (.new root) opened.path step'.childId)) := by
      simpa [childEdge, edgeRow, graphId, childKey, edgeKey] using same
    have texts := collisionless _
      (List.mem_append_right _ (List.mem_map_of_mem member)) _
      (List.mem_append_right _ (List.mem_map_of_mem member')) hashed
    obtain ⟨_, -, isParent⟩ := rowId_found environment opened.path parent
    obtain ⟨_, -, isParent'⟩ :=
      rowId_found environment opened.path parent'
    rw [isParent, isParent'] at texts
    have ends := (childKey_inj texts).2
    have sameChild :=
      List.inj_on_of_nodup_map names (List.mem_range.mpr child) (List.mem_range.mpr child') ends
    exact List.inj_on_of_nodup_map once member member' sameChild
  · intro taken inside taken' inside' same
    obtain ⟨row, stored, rfl⟩ := List.mem_map.mp inside
    obtain ⟨step, member, rfl⟩ := List.mem_map.mp inside'
    obtain ⟨listed, named⟩ := before.storeRoot_edges row stored
    have hashed
        : sha1Hex (storedKey row)
            = sha1Hex
              (childKey (rowId environment (.new root) opened.path step.parentId)
                (rowId environment (.new root) opened.path step.childId)) := by
      rw [named] at same
      simpa [childEdge, edgeRow, graphId, childKey, edgeKey] using same
    have texts := collisionless _
      (List.mem_append_left _ (List.mem_append_left _ (List.mem_map_of_mem stored))) _
      (List.mem_append_right _ (List.mem_map_of_mem member)) hashed
    exact edgeKey_ne_childKey listed texts

/-- With distinct texts every node gets its own row, and every child its own edge. -/
theorem rows_of_treeKeys_nodup (before : Opened opened) {node : TreeNodeRef}
    (found : (NativeSyntaxArena.new root).getNode (NativeSyntaxArena.new root).rootId = some node)
    (collisionless
      : Collisionless (askedTexts environment (.new root) opened node fileId))
    (keys : (treeKeys environment (.new root) opened.path).Nodup)
    (ran : (materializeSyntaxTree environment (.new root) (NativeSyntaxArena.new root).rootId
      fileId).run opened = .ok (⟨⟩, built))
    : built.nodes.rows
        = opened.nodes.rows
          ++ (NativeSyntaxArena.new root).nodes.map (fun node =>
            captureRow opened (treeCapture environment.unicode node))
      ∧ built.edges.rows
        = (storeRoot environment opened node fileId).edges.rows
          ++ (visits (.new root) (NativeSyntaxArena.new root).nodes.length
            (NativeSyntaxArena.new root).rootId).map
              (childEdge environment (.new root) opened.path) := by
  have all := root_cons_visits root
  have names := rowIds_nodup collisionless keys
  have started
      : (storeRoot environment opened node fileId).nodes.rows
        = opened.nodes.rows ++ [captureRow opened (treeCapture environment.unicode node)] :=
    Keyed.rows_orInsert_of_none (Keyed.get?_eq_none_iff.mpr before.captureId_fresh)
  have isRoot : rowId environment (.new root) opened.path _ = _ := rowId_of_found found opened.path
  rw [materializeSyntaxTree_eq_ok found ran]
  obtain ⟨nodes, edges⟩ :=
    rows_foldl_visit
      (visits (.new root) (NativeSyntaxArena.new root).nodes.length
        (NativeSyntaxArena.new root).rootId)
      (storeRoot environment opened node fileId)
      (fun step member => (NativeSyntaxArena.new root).getNode_of_lt (mem_visits member).2.1)
      (by
        have apart
            : ∀ taken ∈ opened.nodes.rows.map GraphNodeRow.id,
                ∀ name ∈ (List.range (NativeSyntaxArena.new root).nodes.length).map
                  (rowId environment (.new root) opened.path),
                taken ≠ name := by
          intro taken inside name member same
          obtain ⟨id, bound, rfl⟩ := List.mem_map.mp member
          obtain ⟨_, -, named⟩ := rowId_found environment _ (List.mem_range.mp bound)
          exact before.captureId_fresh (named ▸ same ▸ inside)
        rw [← all, List.map_cons, List.map_map, isRoot] at names apart
        rw [started, List.map_append, List.append_assoc]
        exact List.nodup_append.mpr ⟨opened.nodes.distinct, names, apart⟩)
      (childEdge_ids_nodup before collisionless keys)
  refine ⟨?_, edges⟩
  rw [nodes, started, List.append_assoc]
  have every := NativeSyntaxArena.filterMap_getNode_range (.new root)
  rw [← all, List.filterMap_cons_some found] at every
  exact congrArg
    (fun nodes => opened.nodes.rows
      ++ nodes.map (fun node => captureRow opened (treeCapture environment.unicode node))) every

/-- The edges that leave a node's row, when every child has its own edge. -/
theorem childEdges_of_rows {node : TreeNodeRef} {earlier : List GraphEdgeRow}
    (names : ((List.range (NativeSyntaxArena.new root).nodes.length).map
        (rowId environment (.new root) opened.path)).Nodup)
    (others : ∀ row ∈ earlier, row.edgeType ∈ ["Contains", "EvidencedBy"])
    (edges : built.edges.rows
      = earlier
        ++ (visits (.new root) (NativeSyntaxArena.new root).nodes.length
          (NativeSyntaxArena.new root).rootId).map
            (childEdge environment (.new root) opened.path))
    {id : Nat} (found : (NativeSyntaxArena.new root).getNode id = some node)
    : childEdges built (rowId environment (.new root) opened.path id)
      = (ownVisits (.new root) id).map (childEdge environment (.new root) opened.path) := by
  have bound : id < (NativeSyntaxArena.new root).nodes.length :=
    (List.getElem?_eq_some_iff.mp found).1
  have ordered := NativeSyntaxArena.ownVisits_ordered (.new root) id
  have left
      : (built.edges.rows.filter (fun edge => edge.edgeType = "SyntaxChild"
            && edge.sourceId = rowId environment (.new root) opened.path id)).Perm
          ((ownVisits (.new root) id).map (childEdge environment (.new root) opened.path)) := by
    have none
        : earlier.filter (fun edge => edge.edgeType = "SyntaxChild"
            && edge.sourceId = rowId environment (.new root) opened.path id) = [] := by
      rw [List.filter_eq_nil_iff]
      intro row inside asked
      have listed := others row inside
      simp only [Bool.and_eq_true, decide_eq_true_eq] at asked
      rw [asked.1] at listed
      exact absurd listed (by decide)
    rw [edges, List.filter_append, none, List.nil_append, List.filter_map]
    apply List.Perm.map
    have listed :=
      NativeSyntaxArena.visits_perm (.new root) (NativeSyntaxArena.new root).nodes.length
        (NativeSyntaxArena.new root).rootId
    rw [NativeSyntaxArena.preorder_new root (Nat.le_refl _)] at listed
    rw [← NativeSyntaxArena.filter_flatMap_ownVisits (.new root) List.nodup_range
      (List.mem_range.mpr bound)]
    refine List.Perm.trans (List.Perm.of_eq (List.filter_congr ?_))
      (listed.filter (fun visit => visit.parentId = id))
    intro step member
    have leaves
        : ((fun edge : GraphEdgeRow => edge.edgeType = "SyntaxChild"
              && edge.sourceId = rowId environment (.new root) opened.path id)
            ∘ childEdge environment (.new root) opened.path) step = true
          ↔ rowId environment (.new root) opened.path step.parentId
            = rowId environment (.new root) opened.path id := by
      rw [Function.comp_apply, Bool.and_eq_true, decide_eq_true_iff, decide_eq_true_iff]
      exact and_iff_right rfl
    rw [Bool.eq_iff_iff, leaves, decide_eq_true_iff]
    constructor
    · exact List.inj_on_of_nodup_map names (List.mem_range.mpr (mem_visits member).1)
        (List.mem_range.mpr bound)
    · exact congrArg (rowId environment (.new root) opened.path)
  symm
  apply SortedBy.eq_sortBy _ left.symm
  · intro first inside second inside' same
    obtain ⟨visit, own, rfl⟩ := List.mem_map.mp (left.subset inside)
    obtain ⟨visit', own', rfl⟩ := List.mem_map.mp (left.subset inside')
    have places : ((ownVisits (.new root) id).map Visit.childIndex).Nodup :=
      List.pairwise_map.mpr (ordered.imp Nat.ne_of_lt)
    have place : visit.childIndex = visit'.childIndex :=
      Int.ofNat.inj (by simpa [childEdge] using same)
    rw [List.inj_on_of_nodup_map places own own' place]
  · exact List.pairwise_map.mpr (ordered.imp (fun earlier => by
      simpa [childEdge] using Nat.le_of_lt earlier))

/-- Edges to children lead away from the root. -/
theorem childOf_acyclic {earlier : List GraphEdgeRow}
    (names : ((List.range (NativeSyntaxArena.new root).nodes.length).map
        (rowId environment (.new root) opened.path)).Nodup)
    (others : ∀ row ∈ earlier, row.edgeType ∈ ["Contains", "EvidencedBy"])
    (edges : built.edges.rows
      = earlier
        ++ (visits (.new root) (NativeSyntaxArena.new root).nodes.length
          (NativeSyntaxArena.new root).rootId).map
            (childEdge environment (.new root) opened.path))
    (name : String)
    : ¬ Relation.TransGen (ChildOf built) name name := by
  have step {parentId childId : String} (child : ChildOf built parentId childId)
      : ∃ id id',
          id < id'
          ∧ id' < (NativeSyntaxArena.new root).nodes.length
          ∧ parentId = rowId environment (.new root) opened.path id
          ∧ childId = rowId environment (.new root) opened.path id' := by
    obtain ⟨edge, inside, typed, rfl, rfl⟩ := child
    rw [edges] at inside
    rcases List.mem_append.mp inside with early | late
    · have listed := others edge early
      rw [typed] at listed
      exact absurd listed (by decide)
    · obtain ⟨visit, member, rfl⟩ := List.mem_map.mp late
      obtain ⟨-, -, node, found, place⟩ := mem_visits member
      have behind :=
        (NativeSyntaxArena.new_wellFormed root).children _ node (Nat.zero_le _) found _
          (List.fst_mem_of_mem_zipIdx place)
      exact ⟨visit.parentId, visit.childId, behind.1, behind.2, rfl, rfl⟩
  have path {first last : String} (walked : Relation.TransGen (ChildOf built) first last)
      : ∃ id id',
          id < id'
          ∧ id' < (NativeSyntaxArena.new root).nodes.length
          ∧ first = rowId environment (.new root) opened.path id
          ∧ last = rowId environment (.new root) opened.path id' := by
    induction walked with
    | single child => exact step child
    | tail _ child ih =>
        obtain ⟨id, middle, below, bound, isFirst, isMiddle⟩ := ih
        obtain ⟨middle', id', below', bound', isMiddle', isLast⟩ := step child
        have same :=
          List.inj_on_of_nodup_map names (List.mem_range.mpr bound)
            (List.mem_range.mpr (below'.trans bound')) (isMiddle.symm.trans isMiddle')
        exact ⟨id, id', by omega, bound', isFirst, isLast⟩
  intro cycle
  obtain ⟨id, id', below, bound, isFirst, isLast⟩ := path cycle
  have same :=
    List.inj_on_of_nodup_map names (List.mem_range.mpr (below.trans bound))
      (List.mem_range.mpr bound) (isFirst.symm.trans isLast)
  omega

/-- With distinct texts the syntax layer copies the tree. -/
theorem copies_of_treeKeys_nodup (before : Opened opened) {node : TreeNodeRef}
    (found : (NativeSyntaxArena.new root).getNode (NativeSyntaxArena.new root).rootId = some node)
    (collisionless
      : Collisionless (askedTexts environment (.new root) opened node fileId))
    (keys : (treeKeys environment (.new root) opened.path).Nodup)
    (ran : (materializeSyntaxTree environment (.new root) (NativeSyntaxArena.new root).rootId
      fileId).run opened = .ok (⟨⟩, built))
    : ∃ rowOf, Copies (.new root) built rowOf := by
  have names := rowIds_nodup collisionless keys
  obtain ⟨nodes, edges⟩ := rows_of_treeKeys_nodup before found collisionless keys ran
  have others : ∀ row ∈ (storeRoot environment opened node fileId).edges.rows,
      row.edgeType ∈ ["Contains", "EvidencedBy"] :=
    fun row inside => (before.storeRoot_edges row inside).1
  let rowOf (id : Nat) : GraphNodeRow :=
    captureRow opened
      (treeCapture environment.unicode (((NativeSyntaxArena.new root).getNode id).getD node))
  have isRow {id : Nat} {node' : TreeNodeRef}
      (found' : (NativeSyntaxArena.new root).getNode id = some node')
      : rowOf id = captureRow opened (treeCapture environment.unicode node') := by
    simp only [rowOf, found', Option.getD_some]
  have named {id : Nat} (bound : id < (NativeSyntaxArena.new root).nodes.length)
      : (rowOf id).id = rowId environment (.new root) opened.path id := by
    obtain ⟨node', found', same⟩ := rowId_found environment _ bound
    rw [isRow found', same]
    rfl
  refine ⟨rowOf, ⟨?_, ?_, ?_, ?_, childOf_acyclic names others edges⟩⟩
  · intro row
    rw [nodes]
    constructor
    · rintro ⟨inside, captured⟩
      rcases List.mem_append.mp inside with early | late
      · have listed := (before.rows row early).1
        rw [captured] at listed
        exact absurd listed (by decide)
      · obtain ⟨node', member, rfl⟩ := List.mem_map.mp late
        obtain ⟨id, bound, same⟩ := List.getElem_of_mem member
        exact ⟨id, bound, isRow (List.getElem?_eq_some_iff.mpr ⟨bound, same⟩)⟩
    · rintro ⟨id, bound, rfl⟩
      obtain ⟨node', found'⟩ := (NativeSyntaxArena.new root).getNode_of_lt bound
      rw [isRow found']
      exact ⟨List.mem_append_right _ (List.mem_map_of_mem (List.mem_of_getElem? found')), rfl⟩
  · intro id bound id' bound' same
    have ids := congrArg GraphNodeRow.id same
    rw [named bound, named bound'] at ids
    exact List.inj_on_of_nodup_map names (List.mem_range.mpr bound) (List.mem_range.mpr bound') ids
  · intro id node' found'
    rw [isRow found']
    exact ⟨rfl, rfl, rfl, rfl, rfl⟩
  · intro id node' found'
    have bound := (List.getElem?_eq_some_iff.mp found').1
    rw [named bound, childEdges_of_rows names others edges found', ownVisits, found', List.map_map,
      List.map_map]
    refine List.map_congr_left (fun numbered place => ?_)
    have child := List.fst_mem_of_mem_zipIdx place
    have bound' :=
      ((NativeSyntaxArena.new_wellFormed root).children id node' (Nat.zero_le _) found' _ child).2
    simp [childEdge, edgeRow, named bound']

end Copied

variable (environment) in
/-- The rows above the file and the copy of the tree. -/
def copyTree (root : SyntaxNode) : Build PUnit := do
  let file ← openTree environment
  materializeSyntaxTree environment (.new root) (NativeSyntaxArena.new root).rootId file.id

/-- A copy into a new builder fails only where a required relation is not allowed. -/
theorem copyTree_runs {metadata : Metadata} {builder : NativeBuilder} (root : SyntaxNode)
    (fresh : NativeBuilder.new environment metadata = .ok builder)
    : match (copyTree environment root).run builder with
      | .error _ => ¬ Permissive builder.relationAllowlist
      | .ok _ => True := by
  have wellFormed := NativeSyntaxArena.new_wellFormed root
  have walk
      : (tracing ⟨environment, builder.relationAllowlist, builder.path⟩ (fun _ => False)).Runs []
          (copyTree environment root) := by
    apply Discipline.Yields.bind openTree_traces
    intro file _
    exact materializeSyntaxTree_runs wellFormed wellFormed.root (by simp)
  have walked := walk builder (NativeBuilder.new_traced fresh) (fun _ inside => nomatch inside)
  cases ran : (copyTree environment root).run builder with
  | error problem =>
      rw [ran] at walked
      exact walked
  | ok answer => trivial

variable (environment) in
/-- The texts that are hashed for the edges above a tree, for its rows and for its edges. -/
def hashedTexts (builder : NativeBuilder) (root : SyntaxNode) : List String :=
  let arena := NativeSyntaxArena.new root
  edgeKey "EvidencedBy" (graphId "File" builder.path)
      (rowId environment arena builder.path arena.rootId) "syntax_root"
    :: openedKeys builder
    ++ treeKeys environment arena builder.path
    ++ childKeys environment arena builder.path

/-- The copy was made right after the rows above the file. -/
theorem copyTree_eq_ok {builder built : NativeBuilder} {root : SyntaxNode}
    (empty : builder.nodes.rows = [] ∧ builder.edges.rows = [])
    (ran : (copyTree environment root).run builder = .ok (⟨⟩, built))
    : ∃ opened,
        Opened opened
        ∧ (materializeSyntaxTree environment (.new root) (NativeSyntaxArena.new root).rootId
            (graphId "File" builder.path)).run opened = .ok (⟨⟩, built)
        ∧ opened.path = builder.path
        ∧ ∀ row ∈ opened.edges.rows, storedKey row ∈ openedKeys builder := by
  have start : Opened builder := ⟨by simp [empty.1], by simp [empty.2]⟩
  rw [copyTree, StateT.run_bind] at ran
  obtain ⟨⟨file, opened⟩, opening, ran⟩ := bind_eq_ok.mp ran
  obtain ⟨before, fileId, path, stored⟩ := openTree_opened start opening
  refine ⟨opened, before, fileId ▸ ran, path, fun row inside => ?_⟩
  rcases stored row inside with early | listed
  · simp [empty.2] at early
  · exact listed

theorem treeKeys_nodup_of_copies {builder built : NativeBuilder} {root : SyntaxNode}
    (empty : builder.nodes.rows = [] ∧ builder.edges.rows = [])
    (ran : (copyTree environment root).run builder = .ok (⟨⟩, built))
    {rowOf : Nat → GraphNodeRow} (copied : Copies (.new root) built rowOf)
    : (treeKeys environment (.new root) builder.path).Nodup := by
  obtain ⟨opened, before, ran', path, -⟩ := copyTree_eq_ok empty ran
  rw [← path]
  exact copied.treeKeys_nodup before ran'

/-- The syntax layer copies the tree exactly when no two of its nodes agree on node type, first
line, first byte and label, joined to one text; it is always made under a permissive allowlist.
Witness: a module with one name.
-/
theorem copyTree_copies_iff {metadata : Metadata} {builder : NativeBuilder} (root : SyntaxNode)
    (fresh : NativeBuilder.new environment metadata = .ok builder)
    (collisionless : Collisionless (hashedTexts environment builder root))
    : match (copyTree environment root).run builder with
      | .error _ => ¬ Permissive builder.relationAllowlist
      | .ok (_, built) =>
          (∃ rowOf, Copies (.new root) built rowOf)
          ↔ (treeKeys environment (.new root) builder.path).Nodup := by
  obtain ⟨nodes, edges, -⟩ := NativeBuilder.new_empty fresh
  have empty := And.intro nodes edges
  have runs := copyTree_runs root fresh
  cases ran : (copyTree environment root).run builder with
  | error problem =>
      rw [ran] at runs
      exact runs
  | ok answer =>
      obtain ⟨_, built⟩ := answer
      constructor
      · rintro ⟨rowOf, copied⟩
        exact treeKeys_nodup_of_copies empty ran copied
      · intro keys
        obtain ⟨opened, before, ran', path, stored⟩ := copyTree_eq_ok empty ran
        obtain ⟨node, found⟩ := new_root root
        have asked
            : ∀ text ∈ askedTexts environment (.new root) opened node (graphId "File" builder.path),
                text ∈ hashedTexts environment builder root := by
          intro text inside
          rw [askedTexts, path] at inside
          rw [hashedTexts]
          rcases List.mem_append.mp inside with early | child
          · rcases List.mem_append.mp early with edge | capture
            · obtain ⟨row, inside', rfl⟩ := List.mem_map.mp edge
              refine List.mem_append_left _ (List.mem_append_left _ ?_)
              rcases Keyed.mem_orInsert inside' with old | rfl
              · exact List.mem_cons_of_mem _ (stored row old)
              · rw [rowId_of_found found, ← path]
                exact List.mem_cons_self
            · exact List.mem_append_left _ (List.mem_append_right _ capture)
          · exact List.mem_append_right _ child
        rw [← path] at keys
        exact copies_of_treeKeys_nodup before found (collisionless.mono asked) keys ran'

section Example

/-- Text functions for ASCII, and metadata without relations. -/
def plainEnvironment : Environment where
  unicode := asciiUnicode
  encodeRelations _ := "[]"
  decodeRelations _ := .ok []

def pythonMetadata : Metadata :=
  [("language", "python"), ("path", "a.py"), ("source_root", ".")]

/-- A module with one name in it. -/
def nameModule : SyntaxNode :=
  {
    nodeType := "module"
    text := "x"
    children := [{ nodeType := "identifier", text := "x", fieldName := some "body" }]
  }

theorem nameModule_collisionless {builder : NativeBuilder}
    (fresh : NativeBuilder.new plainEnvironment pythonMetadata = .ok builder)
    : Collisionless (hashedTexts plainEnvironment builder nameModule) := by
  cases fresh
  apply collisionless_of_nodup
  have numbers : sha1Hex = sha1HexNumbers := funext sha1Hex_eq_numbers
  delta hashedTexts openedKeys rowId captureId graphId edgeKey childKey
  simp only [treeKeys, childKeys]
  generalize sha1Hex = hash at numbers ⊢
  subst numbers
  decide +kernel

theorem pythonMetadata_fresh
    : ∃ builder,
        NativeBuilder.new plainEnvironment pythonMetadata = .ok builder
        ∧ builder.relationAllowlist = .fromMeta none
        ∧ builder.path = "a.py" :=
  ⟨_, rfl, rfl, rfl⟩

theorem copyTree_copies_iff_nameModule
    : ∃ builder built,
        NativeBuilder.new plainEnvironment pythonMetadata = .ok builder
        ∧ (copyTree plainEnvironment nameModule).run builder = .ok (⟨⟩, built)
        ∧ ∃ rowOf, Copies (.new nameModule) built rowOf := by
  obtain ⟨builder, fresh, allowlist, path⟩ := pythonMetadata_fresh
  have copied := copyTree_copies_iff nameModule fresh (nameModule_collisionless fresh)
  cases ran : (copyTree plainEnvironment nameModule).run builder with
  | error problem =>
      rw [ran, allowlist] at copied
      exact absurd permissive_default copied
  | ok answer =>
      obtain ⟨_, built⟩ := answer
      rw [ran, path] at copied
      exact ⟨builder, built, fresh, ran, copied.mpr (by decide)⟩

/-- A node of the grammar at a place in the first line. -/
def pythonNode (nodeType text : String) (byteStart byteEnd : Int) (fieldName : Option String)
    (children : List SyntaxNode) (fields : List (String × Value))
    : SyntaxNode :=
  {
    nodeType
    text
    lineStart := some 1
    lineEnd := some 1
    byteStart := some byteStart
    byteEnd := some byteEnd
    fieldName
    children
    fields
  }

/-- The module `a.b.b`: two attributes of one name start at one byte and end at two. -/
def nestedAttributes : SyntaxNode :=
  let inner :=
    pythonNode "attribute" "a.b" 0 3 (some "object")
      [pythonNode "identifier" "a" 0 1 (some "object") [] [],
        pythonNode "identifier" "b" 2 3 (some "attribute") [] []]
      [("attr", .string "b"), ("attribute", .string "b"), ("object", .string "a"),
        ("value", .string "a")]
  let outer :=
    pythonNode "attribute" "a.b.b" 0 5 none
      [inner, pythonNode "identifier" "b" 4 5 (some "attribute") [] []]
      [("attr", .string "b"), ("attribute", .string "b"), ("object", .string "a.b"),
        ("value", .string "a.b")]
  pythonNode "module" "a.b.b" 0 5 none
    [pythonNode "expression_statement" "a.b.b" 0 5 none [outer] []] []

/-- No two nodes agree on node type, first byte and last byte. -/
def DistinctPlaces (arena : NativeSyntaxArena) : Prop :=
  (arena.nodes.map (fun node =>
    (node.nodeType, node.node.byteStart, node.node.byteEnd))).Nodup

instance (arena : NativeSyntaxArena) : Decidable (DistinctPlaces arena) :=
  inferInstanceAs (Decidable (List.Nodup _))

theorem nestedAttributes_not_copied
    : DistinctPlaces (.new nestedAttributes)
      ∧ ∃ builder built,
          NativeBuilder.new plainEnvironment pythonMetadata = .ok builder
          ∧ (copyTree plainEnvironment nestedAttributes).run builder = .ok (⟨⟩, built)
          ∧ ¬ ∃ rowOf, Copies (.new nestedAttributes) built rowOf := by
  refine ⟨by decide, ?_⟩
  obtain ⟨builder, fresh, allowlist, path⟩ := pythonMetadata_fresh
  obtain ⟨nodes, edges, -⟩ := NativeBuilder.new_empty fresh
  have empty := And.intro nodes edges
  have runs := copyTree_runs nestedAttributes fresh
  cases ran : (copyTree plainEnvironment nestedAttributes).run builder with
  | error problem =>
      rw [ran, allowlist] at runs
      exact absurd permissive_default runs
  | ok answer =>
      obtain ⟨_, built⟩ := answer
      refine ⟨builder, built, fresh, ran, ?_⟩
      rintro ⟨rowOf, copied⟩
      have keys := treeKeys_nodup_of_copies empty ran copied
      rw [path] at keys
      exact absurd keys (by decide)

end Example

end CodebaseGraph.Syntax
