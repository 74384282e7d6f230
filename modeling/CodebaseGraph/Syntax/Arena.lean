import Mathlib.Data.List.Basic
import Mathlib.Data.Nat.Notation

/-! Parsed syntax trees (`src/normalize.rs`) and the JSON values of their fields. -/

namespace CodebaseGraph.Syntax

/-- A JSON value; a number is kept as its text, and an object lists its entries in the order
of their keys.
-/
inductive Value where
  | null
  | bool (value : Bool)
  | number (text : String)
  | string (text : String)
  | array (items : List Value)
  | object (entries : List (String × Value))

namespace Value

def asStr : Value → Option String
  | .string text => some text
  | _ => none

def asArray : Value → Option (List Value)
  | .array items => some items
  | _ => none

def asObject : Value → Option (List (String × Value))
  | .object entries => some entries
  | _ => none

end Value

structure SyntaxNode where
  nodeType : String
  text : String := ""
  lineStart : Option Int := none
  lineEnd : Option Int := none
  byteStart : Option Int := none
  byteEnd : Option Int := none
  captureName : String := ""
  fieldName : Option String := none
  children : List SyntaxNode := []
  fields : List (String × Value) := []

/-- The functions of Rust's standard library on Unicode text that the sources call. -/
structure TextFunctions where
  toLowercase : String → String
  trim : String → String

/-- The same with the tests of single characters. -/
structure UnicodeFunctions extends TextFunctions where
  isAlphabetic : Char → Bool
  isUppercase : Char → Bool

/-- The text functions on ASCII text. -/
def asciiText : TextFunctions where
  toLowercase text := text.map Char.toLower
  trim text :=
    String.ofList
      ((text.toList.dropWhile Char.isWhitespace).reverse.dropWhile Char.isWhitespace).reverse

def asciiUnicode : UnicodeFunctions where
  toTextFunctions := asciiText
  isAlphabetic := Char.isAlpha
  isUppercase := Char.isUpper

/-- `str::strip_prefix`. -/
def stripPrefix (text start : String) : Option String :=
  if start.toList.isPrefixOf text.toList then
    some (String.ofList (text.toList.drop start.toList.length))
  else none

/-! The flat form of a parsed tree that the builder walks (`src/syntax_materializer/arena.rs`).
-/

structure NativeSyntaxNode where
  parentId : Option Nat
  node : SyntaxNode
  children : List Nat

/-- A stored node as `get_node` hands it out. -/
abbrev TreeNodeRef := NativeSyntaxNode

structure NativeSyntaxArena where
  nodes : List NativeSyntaxNode
  rootId : Nat

namespace NativeSyntaxArena

mutual

/-- Stores the node, then its children, then the ids of the children. -/
def append (nodes : List NativeSyntaxNode) (parentId : Option Nat)
    : SyntaxNode → List NativeSyntaxNode × Nat
  | ⟨nodeType, text, lineStart, lineEnd, byteStart, byteEnd, captureName, fieldName, children,
      fields⟩ =>
      let node : SyntaxNode :=
        ⟨nodeType, text, lineStart, lineEnd, byteStart, byteEnd, captureName, fieldName, children,
          fields⟩
      let nodeId := nodes.length
      let (nodes, childIds) :=
        appendChildren (nodes ++ [{ parentId, node, children := [] }]) nodeId children
      (nodes.modify nodeId (fun stored => { stored with children := childIds }), nodeId)

def appendChildren (nodes : List NativeSyntaxNode) (parentId : Nat)
    : List SyntaxNode → List NativeSyntaxNode × List Nat
  | [] => (nodes, [])
  | child :: rest =>
      let (nodes, childId) := append nodes (some parentId) child
      let (nodes, childIds) := appendChildren nodes parentId rest
      (nodes, childId :: childIds)

end

/-- The arena of a tree. -/
def new (root : SyntaxNode) : NativeSyntaxArena :=
  let (nodes, rootId) := append [] none root
  { nodes, rootId }

def getNode (arena : NativeSyntaxArena) (id : Nat) : Option TreeNodeRef :=
  arena.nodes[id]?

/-- Children stand behind their parents. -/
def ChildrenAfter (nodes : List NativeSyntaxNode) (start : Nat) : Prop :=
  ∀ id node,
    start ≤ id →
    nodes[id]? = some node →
    ∀ child ∈ node.children, id < child ∧ child < nodes.length

mutual

/-- Storing a tree leaves the nodes before it as they are, and keeps children behind. -/
theorem append_after (nodes : List NativeSyntaxNode) (parentId : Option Nat)
    : ∀ node : SyntaxNode,
        (append nodes parentId node).2 = nodes.length
        ∧ nodes.length < (append nodes parentId node).1.length
        ∧ nodes <+: (append nodes parentId node).1
        ∧ ChildrenAfter (append nodes parentId node).1 nodes.length
  | ⟨nodeType, text, lineStart, lineEnd, byteStart, byteEnd, captureName, fieldName, children,
      fields⟩ => by
      simp only [append]
      generalize placeholder
        : (⟨parentId, ⟨nodeType, text, lineStart, lineEnd, byteStart, byteEnd, captureName,
            fieldName, children, fields⟩, []⟩ : NativeSyntaxNode) = stored
      obtain ⟨longer, before, after, inside⟩ :=
        appendChildren_after (nodes ++ [stored]) nodes.length children
      generalize ran : appendChildren (nodes ++ [stored]) nodes.length children = answer
        at longer before after inside
      obtain ⟨extended, childIds⟩ := answer
      simp only [List.length_append, List.length_singleton] at longer after inside
      simp only
      refine ⟨trivial, by rw [List.length_modify]; omega, ?_, ?_⟩
      · rw [List.prefix_iff_getElem?]
        intro id early
        rw [List.getElem?_modify_ne _ _ (Nat.ne_of_gt early)]
        exact List.prefix_iff_getElem?.mp ((List.prefix_append nodes [stored]).trans before) id
          early
      · intro id found atLeast lookup child inChildren
        rw [List.length_modify]
        by_cases here : nodes.length = id
        · subst here
          rw [List.getElem?_modify_eq] at lookup
          obtain ⟨other, -, rfl⟩ := Option.map_eq_some_iff.mp lookup
          obtain ⟨behind, bound⟩ := inside child inChildren
          exact ⟨by omega, bound⟩
        · rw [List.getElem?_modify_ne _ _ here] at lookup
          exact after id found (by omega) lookup child inChildren

theorem appendChildren_after (nodes : List NativeSyntaxNode) (parentId : Nat)
    : ∀ children : List SyntaxNode,
        nodes.length ≤ (appendChildren nodes parentId children).1.length
        ∧ nodes <+: (appendChildren nodes parentId children).1
        ∧ ChildrenAfter (appendChildren nodes parentId children).1 nodes.length
        ∧ ∀ child ∈ (appendChildren nodes parentId children).2,
            nodes.length ≤ child ∧ child < (appendChildren nodes parentId children).1.length
  | [] => by
      refine ⟨Nat.le_refl _, List.prefix_rfl, ?_, ?_⟩
      · intro id node atLeast lookup
        have bound := (List.getElem?_eq_some_iff.mp lookup).1
        simp only [appendChildren] at bound
        omega
      · simp [appendChildren]
  | child :: rest => by
      simp only [appendChildren]
      obtain ⟨first, longer, before, after⟩ := append_after nodes (some parentId) child
      generalize append nodes (some parentId) child = answer at first longer before after
      obtain ⟨middle, childId⟩ := answer
      subst first
      obtain ⟨longer', before', after', inside⟩ := appendChildren_after middle parentId rest
      generalize appendChildren middle parentId rest = answer at longer' before' after' inside
      obtain ⟨last, childIds⟩ := answer
      simp only at longer' before' after' inside longer before after ⊢
      refine ⟨by omega, before.trans before', ?_, ?_⟩
      · intro id node atLeast lookup other inChildren
        by_cases early : id < middle.length
        · have same : middle[id]? = some node := by
            obtain ⟨tail, rfl⟩ := before'
            rwa [List.getElem?_append_left early] at lookup
          obtain ⟨behind, bound⟩ := after id node atLeast same other inChildren
          exact ⟨behind, by omega⟩
        · exact after' id node (by omega) lookup other inChildren
      · intro other inIds
        rcases List.mem_cons.mp inIds with rfl | later
        · exact ⟨Nat.le_refl _, by omega⟩
        · obtain ⟨behind, bound⟩ := inside other later
          exact ⟨by omega, bound⟩

end

/-- In the arena of a tree the root is stored and every child id leads behind its parent. -/
structure WellFormed (arena : NativeSyntaxArena) : Prop where
  root : arena.rootId < arena.nodes.length
  children : ChildrenAfter arena.nodes 0

theorem new_wellFormed (root : SyntaxNode) : (new root).WellFormed := by
  obtain ⟨first, longer, -, after⟩ := append_after [] none root
  refine ⟨?_, after⟩
  rw [new]
  simp only
  rw [first]
  exact longer

theorem getNode_of_lt (arena : NativeSyntaxArena) {id : Nat} (bound : id < arena.nodes.length)
    : ∃ node, arena.getNode id = some node :=
  ⟨arena.nodes[id], List.getElem?_eq_getElem bound⟩

end NativeSyntaxArena

namespace NativeSyntaxNode

def nodeType (node : NativeSyntaxNode) : String := node.node.nodeType

def text (node : NativeSyntaxNode) : String := node.node.text

def fieldKeys (node : NativeSyntaxNode) : List String := node.node.fields.map Prod.fst

def fieldValue (node : NativeSyntaxNode) (field : String) : Option Value :=
  node.node.fields.lookup field

end NativeSyntaxNode

end CodebaseGraph.Syntax
