import CodebaseGraph.Hashing.Sha1
import CodebaseGraph.Syntax.BuildingWalk
import CodebaseGraph.Syntax.TreeCopy

/-! What references are resolved to: the newest node that goes by the name of the reference, or by the
last part of that name, where neither the case of letters nor the space around a name counts.
-/

namespace CodebaseGraph.Syntax

open CodebaseGraph.Collections
open CodebaseGraph.Hashing
open CodebaseGraph.Staging (GraphNodeRow)
open CodebaseGraph.Transition

-- Names

/-- The tables whose nodes are found by their names. -/
def resolvableTables : List String :=
  ["Symbol", "Module", "Class", "Function", "Method", "Variable", "Constant", "Dependency"]

/-- The names that a node goes by. -/
def namesOf (node : GraphNodeRow) : List String :=
  [node.label, node.qualifiedName, importedName node]

section

variable (environment : Environment)

/-- Whether a node goes by a name, given as the key of that name. -/
def answersTo (key : String) (node : GraphNodeRow) : Bool :=
  resolvableTables.contains node.table
  && (namesOf node).any (fun name => symbolKey environment.unicode name = key)

/-- The node that was added last of those that go by a name; a blank name is none. -/
def newestNamed (builder : NativeBuilder) (name : String) : Option GraphNodeRow :=
  let key := symbolKey environment.unicode name
  if key = "" then none else (builder.nodes.rows.filter (answersTo environment key)).getLast?

/-- What a reference stands for: the newest node of its name, or else of the last part of its name,
or else a placeholder.
-/
inductive Resolves (builder : NativeBuilder) (label : String)
    : Option GraphNodeRow → NativeBuilder → Prop
  | blank (blank : environment.unicode.trim label = "") : Resolves builder label none builder
  | whole {node : GraphNodeRow} (named : environment.unicode.trim label ≠ "")
      (newest : newestNamed environment builder (environment.unicode.trim label) = some node)
      : Resolves builder label (some node) builder
  | last {node : GraphNodeRow} (named : environment.unicode.trim label ≠ "")
      (unknown : newestNamed environment builder (environment.unicode.trim label) = none)
      (newest : newestNamed environment builder
        (afterLast '.' (environment.unicode.trim label)) = some node)
      : Resolves builder label (some node) builder
  | placeholder {node : GraphNodeRow} {next : NativeBuilder}
      (named : environment.unicode.trim label ≠ "")
      (unknown : newestNamed environment builder (environment.unicode.trim label) = none)
      (unknown' : newestNamed environment builder
        (afterLast '.' (environment.unicode.trim label)) = none)
      (made : (symbolNode environment (environment.unicode.trim label)).run builder
        = .ok (node, next))
      : Resolves builder label (some node) next

-----------------------------------------------------------------------------------------
-- The index

/-- The nodes of each name, in the order in which they were added. -/
def Indexed (builder : NativeBuilder) : Prop :=
  ∀ key, builder.symbolsByName key
    = if key = "" then []
      else (builder.nodes.rows.filter (answersTo environment key)).map GraphNodeRow.id

variable {environment} {builder fresh : NativeBuilder} {node : GraphNodeRow}

/-- A node is listed under each of its names, once. -/
theorem registerNames_apply (names : List String) (symbols : String → List String) (key : String)
    : (names.foldl (registerName environment node) symbols) key
      = if key ≠ "" ∧ (names.any fun name => symbolKey environment.unicode name = key) = true
            ∧ node.id ∉ symbols key
        then symbols key ++ [node.id]
        else symbols key := by
  induction names generalizing symbols with
  | nil => simp
  | cons name rest ih =>
      have one (other : String)
          : registerName environment node symbols name other
            = if other ≠ "" ∧ symbolKey environment.unicode name = other ∧ node.id ∉ symbols other
              then symbols other ++ [node.id]
              else symbols other := by
        rw [registerName]
        by_cases same : symbolKey environment.unicode name = other
        · subst same
          by_cases skipped : symbolKey environment.unicode name = ""
              ∨ node.id ∈ symbols (symbolKey environment.unicode name)
          · rw [if_pos skipped, if_neg (by tauto)]
          · rw [if_neg skipped, if_pos rfl, if_pos (by tauto)]
        · by_cases skipped : symbolKey environment.unicode name = ""
              ∨ node.id ∈ symbols (symbolKey environment.unicode name)
          · rw [if_pos skipped]
            exact (if_neg fun whole => same whole.2.1).symm
          · rw [if_neg skipped, if_neg (fun here : other = _ => same here.symm)]
            exact (if_neg fun whole => same whole.2.1).symm
      rw [List.foldl_cons, ih, one, List.any_cons]
      by_cases known : node.id ∈ symbols key
      · simp [known]
      · by_cases blank : key = ""
        · simp [blank]
        · by_cases same : symbolKey environment.unicode name = key
          · simp [known, blank, same]
          · simp [known, blank, same]

theorem registerResolvable_apply (symbols : String → List String) (key : String)
    : registerResolvable environment symbols node key
      = if key ≠ "" ∧ answersTo environment key node = true ∧ node.id ∉ symbols key
        then symbols key ++ [node.id]
        else symbols key := by
  have unfolded : registerResolvable environment symbols node
      = if resolvableTables.contains node.table then
          (namesOf node).foldl (registerName environment node) symbols
        else symbols :=
    rfl
  rw [unfolded, answersTo]
  by_cases listed : resolvableTables.contains node.table = true
  · rw [if_pos listed, registerNames_apply, listed, Bool.true_and]
  · rw [if_neg listed, if_neg]
    intro whole
    rw [Bool.not_eq_true] at listed
    rw [listed, Bool.false_and] at whole
    cases whole.2.1

/-- A node is added at the end of the index. -/
theorem Indexed.withNode (indexed : Indexed environment builder) (row : GraphNodeRow)
    : Indexed environment (builder.withNode environment row) := by
  intro key
  have known {other : String}
      : other ∈ builder.symbolsByName key ↔ key ≠ ""
        ∧ ∃ stored ∈ builder.nodes.rows, answersTo environment key stored = true
          ∧ stored.id = other := by
    rw [indexed]
    split_ifs with blank
    · simp [blank]
    · simp [blank, and_assoc]
  cases found : builder.nodes.get? row.id with
  | some stored =>
      have member := (Keyed.get?_eq_some_iff.mp found).1
      have kept : builder.nodes.orInsert row = builder.nodes := Keyed.orInsert_of_some found
      rw [NativeBuilder.withNode]
      dsimp only
      rw [kept, found, Option.getD_some, registerResolvable_apply, if_neg, indexed]
      rintro ⟨named, answers, absent⟩
      exact absent (known.mpr ⟨named, stored, member, answers, rfl⟩)
  | none =>
      have rows := Keyed.rows_orInsert_of_none found
      have added : ((builder.nodes.orInsert row).get? row.id).getD row = row := by
        obtain ⟨stored, there, rfl | before⟩ := Keyed.get?_orInsert_self builder.nodes row
        · rw [there, Option.getD_some]
        · rw [found] at before
          cases before
      have absent : row.id ∉ builder.symbolsByName key := by
        intro inside
        obtain ⟨-, stored, member, -, same⟩ := known.mp inside
        exact Keyed.get?_eq_none_iff.mp found (List.mem_map.mpr ⟨stored, member, same⟩)
      rw [NativeBuilder.withNode]
      dsimp only
      rw [added, registerResolvable_apply, rows, List.filter_append, List.map_append, indexed key]
      by_cases blank : key = ""
      · simp [blank]
      · rw [indexed key, if_neg blank] at absent
        by_cases answers : answersTo environment key row = true
        · rw [if_pos ⟨blank, answers, by rwa [if_neg blank]⟩, if_neg blank, if_neg blank,
            List.filter_cons_of_pos answers]
          rfl
        · rw [if_neg (fun whole => answers whole.2.1), if_neg blank, if_neg blank,
            List.filter_cons_of_neg answers]
          simp

theorem Building.indexed (building : Building environment fresh builder)
    (start : Indexed environment fresh)
    : Indexed environment builder := by
  induction building with
  | start => exact start
  | node earlier made ih => exact ih.withNode _
  | edge _ _ _ _ _ ih => exact ih
  | reference _ _ _ _ _ _ _ _ ih => exact ih
  | place _ _ _ _ ih => exact ih

/-- The last of the ids under a name that is stored is the one of the newest node. -/
theorem Indexed.findSome? (indexed : Indexed environment builder) (name : String)
    : (builder.symbolsByName (symbolKey environment.unicode name)).reverse.findSome?
        builder.nodes.get?
      = newestNamed environment builder name := by
  rw [indexed, newestNamed]
  split_ifs with blank
  · rfl
  · have stored : ∀ row ∈ builder.nodes.rows.filter
          (answersTo environment (symbolKey environment.unicode name)),
        builder.nodes.get? row.id = some row := by
      intro row inside
      exact Keyed.get?_eq_some_iff.mpr ⟨List.mem_of_mem_filter inside, rfl⟩
    rw [← List.map_reverse, List.getLast?_eq_head?_reverse]
    generalize builder.nodes.rows.filter
      (answersTo environment (symbolKey environment.unicode name)) = rows at stored ⊢
    cases reversed : rows.reverse with
    | nil => rfl
    | cons newest rest =>
        have member : newest ∈ rows := by
          rw [← List.mem_reverse, reversed]
          exact List.mem_cons_self
        rw [List.map_cons, List.findSome?_cons_of_isSome, stored newest member, List.head?_cons]
        rw [stored newest member]
        rfl

/-- A call answers with what the reference stands for. -/
theorem Indexed.resolves (indexed : Indexed environment builder) (label : String)
    : ∃ resolved next,
        (resolveReferenceTarget environment label).run builder = .ok (resolved, next)
        ∧ Resolves environment builder label resolved next := by
  rw [resolveReferenceTarget]
  by_cases blank : environment.unicode.trim label = ""
  · rw [if_pos blank]
    exact ⟨none, builder, rfl, .blank blank⟩
  · rw [if_neg blank, StateT.run_bind, StateT.run_get]
    simp only [pure_bind, List.findSome?_cons, List.findSome?_nil, indexed.findSome?]
    cases whole : newestNamed environment builder (environment.unicode.trim label) with
    | some node => exact ⟨some node, builder, rfl, .whole blank whole⟩
    | none =>
        cases last : newestNamed environment builder
            (afterLast '.' (environment.unicode.trim label)) with
        | some node => exact ⟨some node, builder, rfl, .last blank whole last⟩
        | none =>
            obtain ⟨row, -, added, -⟩ :=
              symbolNode_run environment builder (environment.unicode.trim label)
            refine ⟨_, _, ?_, .placeholder blank whole last added⟩
            dsimp only
            rw [StateT.run_bind, added]
            rfl

theorem NativeBuilder.new_indexed {metadata : Metadata}
    (opened : NativeBuilder.new environment metadata = .ok fresh)
    : Indexed environment fresh := by
  have nodes := (NativeBuilder.new_empty opened).1
  have symbols : fresh.symbolsByName = fun _ => [] := by
    rw [NativeBuilder.new] at opened
    cases decoded : relationAllowlistFromMeta environment metadata with
    | error problem =>
        rw [decoded] at opened
        cases opened
    | ok allowlist =>
        rw [decoded] at opened
        cases opened
        rfl
  intro key
  rw [symbols, nodes]
  simp

/-- In every state of a build, a call finds the newest node that goes by the name of the reference, or
by the last part of that name, or makes a placeholder. All edges of the references of a tree lead from
a node to what such a call has found for the label of the node. Names are compared without the space
around them and without the case of their letters.
-/
theorem references_resolve_by_name {metadata : Metadata}
    (opened : NativeBuilder.new environment metadata = .ok fresh)
    : (∀ builder,
        Building environment fresh builder →
        ∀ label, ∃ resolved next,
          (resolveReferenceTarget environment label).run builder = .ok (resolved, next)
          ∧ Resolves environment builder label resolved next)
      ∧ ∀ root built,
          (buildTree environment (.new root) (NativeSyntaxArena.new root).rootId).run fresh
            = .ok (⟨⟩, built) →
          Building environment fresh built
          ∧ ∀ edge ∈ built.edges.rows,
              Resolving edge.edgeType edge.kind →
              ∃ before after : NativeBuilder, ∃ source target : GraphNodeRow,
                built.nodes.get? edge.sourceId = some source
                ∧ edge.targetId = target.id
                ∧ Building environment fresh before
                ∧ before.nodes.rows <+: built.nodes.rows
                ∧ Resolves environment before source.label (some target) after := by
  have start := NativeBuilder.new_indexed opened
  have answers {builder : NativeBuilder} (building : Building environment fresh builder)
      (label : String)
      : ∃ resolved next,
          (resolveReferenceTarget environment label).run builder = .ok (resolved, next)
          ∧ Resolves environment builder label resolved next :=
    (building.indexed start).resolves label
  refine ⟨fun builder building => answers building, ?_⟩
  intro root built ran
  have building := building_of_buildTree ran
  refine ⟨building, ?_⟩
  intro edge inside resolving
  obtain ⟨source, stored, same, before, after, target, started, grown, called, found⟩ :=
    building.referring (NativeBuilder.new_empty opened).2.1 edge inside resolving
  obtain ⟨resolved, next, called', resolves⟩ := answers started source.label
  rw [called] at called'
  cases called'
  rw [same] at stored
  exact ⟨before, after, source, target, stored, found.symm, started, grown, resolves⟩

end

-----------------------------------------------------------------------------------------
-- A class and a variable of one name

/-- The newest node of which a name is the very text of a label, but for the space around both. -/
def newestExactly (environment : Environment) (builder : NativeBuilder) (label : String)
    : Option GraphNodeRow :=
  let trimmed := environment.unicode.trim label
  (builder.nodes.rows.filter fun node =>
    resolvableTables.contains node.table
    && (namesOf node).any (fun name => environment.unicode.trim name = trimmed)).getLast?

/-- The module `class Service: pass` and `service = 1`. -/
def serviceModule : SyntaxNode :=
  {
    nodeType := "module"
    text := "class Service: pass\nservice = 1"
    lineStart := some 1
    byteStart := some 0
    children :=
      [{
          nodeType := "class_definition"
          text := "class Service: pass"
          lineStart := some 1
          byteStart := some 0
          fields := [("name", .string "Service")]
        },
        {
          nodeType := "assignment"
          text := "service = 1"
          lineStart := some 2
          byteStart := some 20
          fields := [("target", .string "service")]
        }]
  }

theorem serviceModule_newest {fresh : NativeBuilder}
    (opened : NativeBuilder.new plainEnvironment pythonMetadata = .ok fresh)
    : ∃ built,
        (buildTree plainEnvironment (.new serviceModule)
            (NativeSyntaxArena.new serviceModule).rootId).run fresh
          = .ok (⟨⟩, built)
        ∧ (newestExactly plainEnvironment built "Service").map GraphNodeRow.table = some "Class"
        ∧ (newestNamed plainEnvironment built "Service").map GraphNodeRow.table
          = some "Variable" := by
  have numbers : sha1Hex = sha1HexNumbers := funext sha1Hex_eq_numbers
  cases opened
  apply exists_of_checked
  delta buildTree buildModule
  have length : (NativeSyntaxArena.new serviceModule).nodes.length = 2 + 1 := rfl
  simp only [length, traverseTreeNode, materializeSyntaxTree, materializeSyntaxChildren]
  delta emitTreeNode
  delta emitSemantic openScope
  delta emitDeclaration emitTreeAssignment emitTreeParameters
  delta emitAssignmentTarget emitTreeParameter emitSimpleSemantic emitCall emitImport emitReference
  delta supportNode syntaxChild scopeFor syntaxCapture semanticNode connectOwner
    derivedFrom edgeIfAllowed
  delta edge
  delta edgeRow graphId
  generalize sha1Hex = hash at numbers ⊢
  subst numbers
  decide +kernel

/-- A reference to the class is resolved to the variable. -/
theorem references_not_resolved_exactly
    : ¬ ∀ (environment : Environment) (metadata : Metadata) (fresh builder : NativeBuilder)
        (label : String) (node : GraphNodeRow),
        NativeBuilder.new environment metadata = .ok fresh →
        Building environment fresh builder →
        newestExactly environment builder label = some node →
        (resolveReferenceTarget environment label).run builder = .ok (some node, builder) := by
  intro exact_
  obtain ⟨fresh, opened, -⟩ := pythonMetadata_fresh
  obtain ⟨built, ran, class_, variable_⟩ := serviceModule_newest opened
  obtain ⟨node, newest, isClass⟩ := Option.map_eq_some_iff.mp class_
  obtain ⟨other, newest', isVariable⟩ := Option.map_eq_some_iff.mp variable_
  have building := building_of_buildTree ran
  have called := exact_ _ _ _ built "Service" node opened building newest
  obtain ⟨resolved, next, called', resolves⟩ :=
    (building.indexed (NativeBuilder.new_indexed opened)).resolves "Service"
  rw [called] at called'
  cases called'
  have trimmed : plainEnvironment.unicode.trim "Service" = "Service" := by decide
  cases resolves with
  | whole _ found =>
      rw [trimmed, newest', Option.some.injEq] at found
      rw [← found, isVariable] at isClass
      exact absurd isClass (by decide)
  | last _ unknown _ =>
      rw [trimmed, newest'] at unknown
      cases unknown
  | placeholder _ unknown _ _ =>
      rw [trimmed, newest'] at unknown
      cases unknown

theorem references_resolve_by_name_serviceModule
    : ∃ fresh built node next,
        NativeBuilder.new plainEnvironment pythonMetadata = .ok fresh
        ∧ Building plainEnvironment fresh built
        ∧ (resolveReferenceTarget plainEnvironment "Service").run built = .ok (some node, next)
        ∧ node.table = "Variable" := by
  obtain ⟨fresh, opened, -⟩ := pythonMetadata_fresh
  obtain ⟨built, ran, -, variable_⟩ := serviceModule_newest opened
  obtain ⟨other, newest, isVariable⟩ := Option.map_eq_some_iff.mp variable_
  obtain ⟨answers, trees⟩ := references_resolve_by_name opened
  have building := (trees serviceModule built ran).1
  obtain ⟨resolved, next, called, resolves⟩ := answers built building "Service"
  have trimmed : plainEnvironment.unicode.trim "Service" = "Service" := by decide
  cases resolves with
  | blank blank =>
      rw [trimmed] at blank
      exact absurd blank (by decide)
  | whole _ found =>
      rw [trimmed, newest, Option.some.injEq] at found
      exact ⟨fresh, built, _, _, opened, building, called, found ▸ isVariable⟩
  | last _ unknown _ =>
      rw [trimmed, newest] at unknown
      cases unknown
  | placeholder _ unknown _ _ =>
      rw [trimmed, newest] at unknown
      cases unknown

end CodebaseGraph.Syntax
