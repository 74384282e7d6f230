import CodebaseGraph.Syntax.Arena
import Mathlib.Data.List.Nodup
import Mathlib.Data.List.Perm.Basic
import Mathlib.Data.List.Range

/-! The order in which a walk over the arena of a tree meets its nodes: each node once, in the
order of the ids.
-/

namespace CodebaseGraph.Syntax

namespace NativeSyntaxArena

/-- A child is listed by its parent under its place. -/
structure Visit where
  parentId : Nat
  childId : Nat
  childIndex : Nat

/-- The children of a node, as their parent lists them. -/
def ownVisits (arena : NativeSyntaxArena) (id : Nat) : List Visit :=
  match arena.getNode id with
  | none => []
  | some node =>
      node.children.zipIdx.map (fun numbered =>
        { parentId := id, childId := numbered.1, childIndex := numbered.2 })

/-- The ids a walk from a node meets, the node first. -/
def preorder (arena : NativeSyntaxArena) : Nat → Nat → List Nat
  | 0, _ => []
  | fuel + 1, id =>
      id :: (ownVisits arena id).flatMap (fun visit => preorder arena fuel visit.childId)

theorem childId_ownVisits {arena : NativeSyntaxArena} {id : Nat} {node : TreeNodeRef}
    (found : arena.getNode id = some node)
    : (ownVisits arena id).map Visit.childId = node.children := by
  simp [ownVisits, found, Function.comp_def]

theorem preorder_succ {arena : NativeSyntaxArena} {fuel id : Nat} {node : TreeNodeRef}
    (found : arena.getNode id = some node)
    : preorder arena (fuel + 1) id = id :: node.children.flatMap (preorder arena fuel) := by
  rw [preorder, ← childId_ownVisits found, List.flatMap_map]

/-- The ids of a part of the arena, in their order. -/
def span (first last : Nat) : List Nat := List.range' first (last - first)

theorem span_append {first middle last : Nat} (early : first ≤ middle) (late : middle ≤ last)
    : span first middle ++ span middle last = span first last := by
  have joined := List.range'_append_1 (s := first) (m := middle - first) (n := last - middle)
  rw [Nat.add_sub_cancel' early] at joined
  rw [span, span, span, joined, Nat.add_comm, Nat.sub_add_sub_cancel late early]

theorem span_eq_cons {first last : Nat} (below : first < last)
    : span first last = first :: span (first + 1) last := by
  obtain ⟨count, rfl⟩ := Nat.exists_eq_add_of_lt below
  rw [span, span, Nat.add_assoc, Nat.add_sub_cancel_left, List.range'_succ,
    Nat.add_comm count 1, ← Nat.add_assoc, Nat.add_sub_cancel_left]

/-- The arena holds these nodes from the id on. -/
def Holds (arena : NativeSyntaxArena) (nodes : List NativeSyntaxNode) (start : Nat) : Prop :=
  ∀ id, start ≤ id → id < nodes.length → arena.nodes[id]? = nodes[id]?

mutual

/-- The walk from a stored tree meets the ids that storing it has used, in their order. -/
theorem append_preorder (nodes : List NativeSyntaxNode) (parentId : Option Nat)
    : ∀ (node : SyntaxNode) {arena : NativeSyntaxArena} {fuel : Nat},
        arena.Holds (append nodes parentId node).1 nodes.length →
        (append nodes parentId node).1.length ≤ fuel + nodes.length →
        preorder arena fuel nodes.length
        = span nodes.length (append nodes parentId node).1.length
  | ⟨nodeType, text, lineStart, lineEnd, byteStart, byteEnd, captureName, fieldName, children,
      fields⟩, arena, fuel => by
      simp only [append]
      generalize placeholder
        : (⟨parentId, ⟨nodeType, text, lineStart, lineEnd, byteStart, byteEnd, captureName,
            fieldName, children, fields⟩, []⟩ : NativeSyntaxNode) = stored
      have below := @appendChildren_preorder (nodes ++ [stored]) nodes.length children arena
      obtain ⟨atLeast, kept, -, -⟩ :=
        appendChildren_after (nodes ++ [stored]) nodes.length children
      generalize appendChildren (nodes ++ [stored]) nodes.length children = answer
        at below atLeast kept
      obtain ⟨extended, childIds⟩ := answer
      simp only [List.length_append, List.length_singleton] at below atLeast kept ⊢
      intro held enough
      simp only [Holds, List.length_modify] at held enough ⊢
      have place : extended[nodes.length]? = some stored := by
        obtain ⟨tail, rfl⟩ := kept
        simp
      have here : arena.getNode nodes.length = some { stored with children := childIds } := by
        rw [getNode, held nodes.length (Nat.le_refl _) (by omega), List.getElem?_modify_eq,
          place]
        rfl
      have behind : arena.Holds extended (nodes.length + 1) := by
        intro id later inside
        rw [held id (by omega) inside, List.getElem?_modify_ne _ _ (by omega)]
      cases fuel with
      | zero => omega
      | succ fuel =>
          rw [preorder_succ here, span_eq_cons (by omega), below behind (by omega)]

theorem appendChildren_preorder (nodes : List NativeSyntaxNode) (parentId : Nat)
    : ∀ (children : List SyntaxNode) {arena : NativeSyntaxArena} {fuel : Nat},
        arena.Holds (appendChildren nodes parentId children).1 nodes.length →
        (appendChildren nodes parentId children).1.length ≤ fuel + nodes.length →
        (appendChildren nodes parentId children).2.flatMap (preorder arena fuel)
        = span nodes.length (appendChildren nodes parentId children).1.length
  | [], arena, fuel => by
      intro _ _
      simp [appendChildren, span]
  | child :: rest, arena, fuel => by
      simp only [appendChildren]
      obtain ⟨first, longer, -, -⟩ := append_after nodes (some parentId) child
      have one := @append_preorder nodes (some parentId) child arena fuel
      generalize append nodes (some parentId) child = answer at first longer one
      obtain ⟨middle, childId⟩ := answer
      subst first
      obtain ⟨longer', ⟨tail, kept⟩, -, -⟩ := appendChildren_after middle parentId rest
      have others := @appendChildren_preorder middle parentId rest arena fuel
      generalize appendChildren middle parentId rest = answer at longer' kept others
      obtain ⟨last, childIds⟩ := answer
      simp only at longer longer' kept one others ⊢
      intro held enough
      have early : arena.Holds middle nodes.length := by
        intro id later inside
        rw [held id later (by omega), ← kept, List.getElem?_append_left inside]
      have late : arena.Holds last middle.length :=
        fun id later inside => held id (by omega) inside
      rw [List.flatMap_cons, one early (by omega), others late (by omega),
        span_append (by omega) longer']

end

/-- The syntax nodes that the arena stores under the ids. -/
def stored (nodes : List NativeSyntaxNode) (ids : List Nat) : List (Option SyntaxNode) :=
  ids.map (fun id => nodes[id]?.map NativeSyntaxNode.node)

theorem stored_eq_of_kept {first second : List NativeSyntaxNode} (kept : first <+: second)
    {ids : List Nat} (inside : ∀ id ∈ ids, id < first.length)
    : stored second ids = stored first ids := by
  obtain ⟨tail, rfl⟩ := kept
  refine List.map_congr_left (fun id member => ?_)
  rw [List.getElem?_append_left (inside id member)]

/-- From the id on, the children of a stored node are the children of its syntax node. -/
def CopiesChildren (nodes : List NativeSyntaxNode) (start : Nat) : Prop :=
  ∀ id node,
    start ≤ id →
    nodes[id]? = some node →
    stored nodes node.children = node.node.children.map some

mutual

theorem append_copiesChildren (nodes : List NativeSyntaxNode) (parentId : Option Nat)
    : ∀ node : SyntaxNode,
        stored (append nodes parentId node).1 [nodes.length] = [some node]
        ∧ CopiesChildren (append nodes parentId node).1 nodes.length
  | ⟨nodeType, text, lineStart, lineEnd, byteStart, byteEnd, captureName, fieldName, children,
      fields⟩ => by
      simp only [append]
      generalize placeholder
        : (⟨parentId, ⟨nodeType, text, lineStart, lineEnd, byteStart, byteEnd, captureName,
            fieldName, children, fields⟩, []⟩ : NativeSyntaxNode) = fresh
      obtain ⟨atLeast, kept, -, -⟩ :=
        appendChildren_after (nodes ++ [fresh]) nodes.length children
      obtain ⟨listed, copied⟩ :=
        appendChildren_copiesChildren (nodes ++ [fresh]) nodes.length children
      generalize appendChildren (nodes ++ [fresh]) nodes.length children = answer
        at atLeast kept listed copied
      obtain ⟨extended, childIds⟩ := answer
      simp only [List.length_append, List.length_singleton] at atLeast kept listed copied ⊢
      have place : extended[nodes.length]? = some fresh := by
        obtain ⟨tail, rfl⟩ := kept
        simp
      have same (ids : List Nat)
          : stored
              (extended.modify nodes.length (fun node => { node with children := childIds })) ids
            = stored extended ids := by
        refine List.map_congr_left (fun id _ => ?_)
        by_cases here : nodes.length = id
        · subst here
          rw [List.getElem?_modify_eq, place]
          rfl
        · rw [List.getElem?_modify_ne _ _ here]
      constructor
      · rw [same]
        simp [stored, place, ← placeholder]
      · intro id node atLeast' lookup
        rw [same]
        by_cases here : nodes.length = id
        · subst here
          rw [List.getElem?_modify_eq, place] at lookup
          cases lookup
          rw [← placeholder]
          exact listed
        · rw [List.getElem?_modify_ne _ _ here] at lookup
          exact copied id node (by omega) lookup

theorem appendChildren_copiesChildren (nodes : List NativeSyntaxNode) (parentId : Nat)
    : ∀ children : List SyntaxNode,
        stored (appendChildren nodes parentId children).1
            (appendChildren nodes parentId children).2
          = children.map some
        ∧ CopiesChildren (appendChildren nodes parentId children).1 nodes.length
  | [] => by
      refine ⟨rfl, ?_⟩
      intro id node atLeast lookup
      have bound := (List.getElem?_eq_some_iff.mp lookup).1
      simp only [appendChildren] at bound
      omega
  | child :: rest => by
      simp only [appendChildren]
      obtain ⟨first, longer, -, after⟩ := append_after nodes (some parentId) child
      obtain ⟨here, copied⟩ := append_copiesChildren nodes (some parentId) child
      generalize append nodes (some parentId) child = answer at first longer after here copied
      obtain ⟨middle, childId⟩ := answer
      subst first
      obtain ⟨-, kept, -, -⟩ := appendChildren_after middle parentId rest
      obtain ⟨listed, copied'⟩ := appendChildren_copiesChildren middle parentId rest
      generalize appendChildren middle parentId rest = answer at kept listed copied'
      obtain ⟨last, childIds⟩ := answer
      simp only at longer after here copied kept listed copied' ⊢
      have split (ids : List Nat) : stored last (nodes.length :: ids)
          = stored last [nodes.length] ++ stored last ids := rfl
      refine ⟨?_, ?_⟩
      · rw [split, listed, stored_eq_of_kept kept (by simpa using longer), here]
        rfl
      · intro id node atLeast lookup
        by_cases early : id < middle.length
        · have same : middle[id]? = some node := by
            obtain ⟨tail, rfl⟩ := kept
            rwa [List.getElem?_append_left early] at lookup
          have inside := after id node atLeast same
          rw [stored_eq_of_kept kept (fun other member => (inside other member).2)]
          exact copied id node atLeast same
        · exact copied' id node (by omega) lookup

end

/-- The arena of a tree stores the tree: its root, and with each node the node's children. -/
theorem new_copies (root : SyntaxNode)
    : stored (new root).nodes [(new root).rootId] = [some root]
      ∧ CopiesChildren (new root).nodes 0 := by
  have first : (new root).rootId = 0 := (append_after [] none root).1
  rw [first]
  exact append_copiesChildren [] none root

/-- A walk from the root of a tree meets all of its ids, in their order. -/
theorem preorder_new (root : SyntaxNode) {fuel : Nat}
    (enough : (new root).nodes.length ≤ fuel)
    : preorder (new root) fuel (new root).rootId = List.range (new root).nodes.length := by
  have first : (new root).rootId = 0 := (append_after [] none root).1
  rw [first, List.range_eq_range']
  exact append_preorder [] none root (fun _ _ _ => rfl) enough

theorem filterMap_getNode_range (arena : NativeSyntaxArena)
    : (List.range arena.nodes.length).filterMap arena.getNode = arena.nodes := by
  have all
      : (List.range arena.nodes.length).map arena.getNode = arena.nodes.map some := by
    apply List.ext_getElem
    · simp
    · intro id inside inside'
      rw [List.getElem_map, List.getElem_range, List.getElem_map]
      exact List.getElem?_eq_getElem _
  calc
    (List.range arena.nodes.length).filterMap arena.getNode
    _ = ((List.range arena.nodes.length).map arena.getNode).filterMap (fun node => node) := by
      rw [List.filterMap_map]
      rfl
    _ = (arena.nodes.map some).filterMap (fun node => node) := by rw [all]
    _ = arena.nodes := by
      rw [List.filterMap_map]
      exact List.filterMap_some

/-- The children that a walk below a node comes to. -/
def visits (arena : NativeSyntaxArena) : Nat → Nat → List Visit
  | 0, _ => []
  | fuel + 1, id =>
      (ownVisits arena id).flatMap (fun visit => visit :: visits arena fuel visit.childId)

/-- The walk meets a node and then the children it comes to. -/
theorem preorder_eq_cons_visits (arena : NativeSyntaxArena) (fuel id : Nat)
    : preorder arena (fuel + 1) id = id :: (visits arena fuel id).map Visit.childId := by
  induction fuel generalizing id with
  | zero => simp [preorder, visits]
  | succ fuel ih =>
      rw [preorder, visits, List.map_flatMap]
      simp only [List.map_cons, ih]

/-- The walk comes to the children of all nodes it meets. -/
theorem visits_perm (arena : NativeSyntaxArena) (fuel id : Nat)
    : (visits arena fuel id).Perm ((preorder arena fuel id).flatMap (ownVisits arena)) := by
  induction fuel generalizing id with
  | zero => exact List.Perm.refl _
  | succ fuel ih =>
      have split :=
        List.map_append_flatMap_perm (ownVisits arena id) (fun visit => visit)
          (fun visit => visits arena fuel visit.childId)
      rw [List.map_id'] at split
      have below
          : ((ownVisits arena id).flatMap (fun visit => visits arena fuel visit.childId)).Perm
              (((ownVisits arena id).flatMap (fun visit =>
                preorder arena fuel visit.childId)).flatMap (ownVisits arena)) := by
        rw [List.flatMap_assoc]
        exact List.Perm.flatMap_left _ (fun visit _ => ih visit.childId)
      rw [visits, preorder, List.flatMap_cons]
      exact split.symm.trans (below.append_left _)

theorem parentId_ownVisits {arena : NativeSyntaxArena} {id : Nat} {visit : Visit}
    (own : visit ∈ ownVisits arena id)
    : visit.parentId = id := by
  rw [ownVisits] at own
  split at own
  · cases own
  · obtain ⟨numbered, -, rfl⟩ := List.mem_map.mp own
    rfl

theorem ownVisits_ordered (arena : NativeSyntaxArena) (id : Nat)
    : (ownVisits arena id).Pairwise (fun first second => first.childIndex < second.childIndex) := by
  rw [ownVisits]
  split
  · exact List.Pairwise.nil
  · rw [List.pairwise_map, List.pairwise_iff_getElem]
    intro first second _ _ earlier
    simpa using earlier

/-- The children that one parent lists, among those that several list. -/
theorem filter_flatMap_ownVisits (arena : NativeSyntaxArena) {ids : List Nat} (nodup : ids.Nodup)
    {id : Nat} (inside : id ∈ ids)
    : (ids.flatMap (ownVisits arena)).filter (fun visit => visit.parentId = id)
      = ownVisits arena id := by
  have own
      : (ownVisits arena id).filter (fun visit => visit.parentId = id) = ownVisits arena id :=
    List.filter_eq_self.mpr (fun visit mine => decide_eq_true (parentId_ownVisits mine))
  have others (other : Nat) (different : other ≠ id)
      : (ownVisits arena other).filter (fun visit => visit.parentId = id) = [] := by
    rw [List.filter_eq_nil_iff]
    intro visit mine
    simpa [parentId_ownVisits mine] using different
  induction ids with
  | nil => cases inside
  | cons first rest ih =>
      obtain ⟨fresh, nodup'⟩ := List.nodup_cons.mp nodup
      rw [List.flatMap_cons, List.filter_append]
      rcases List.mem_cons.mp inside with rfl | later
      · have gone
            : (rest.flatMap (ownVisits arena)).filter (fun visit => visit.parentId = id) = [] := by
          rw [List.filter_flatMap, List.flatMap_eq_nil_iff]
          intro other member
          exact others other (fun same => fresh (same ▸ member))
        rw [own, gone, List.append_nil]
      · rw [others first (fun same => fresh (same ▸ later)), List.nil_append, ih nodup' later]

end NativeSyntaxArena

end CodebaseGraph.Syntax
