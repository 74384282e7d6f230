import CodebaseGraph.Syntax.Building

/-! The walk over a tree leads from one state of a build to another. -/

namespace CodebaseGraph.Syntax

open CodebaseGraph.Collections
open CodebaseGraph.Staging (GraphNodeRow GraphEdgeRow JsonValue)
open CodebaseGraph.Transition
open CodebaseGraph.Transition.Discipline

/-- What is known along the walk: rows that are stored, and ids that calls have found. -/
inductive Learnt where
  | stored (row : GraphNodeRow)
  | found (label targetId : String)

def assembling (environment : Environment) (fresh : NativeBuilder)
    : Discipline NativeBuilder Learnt where
  holds builder
    | .stored row => builder.nodes.get? row.id = some row
    | .found label targetId => Found environment fresh builder label targetId
  sound := Building environment fresh
  excused _ := True

section

variable {environment : Environment} {fresh : NativeBuilder} {known : List Learnt}

theorem grows_of_extension {first second : NativeBuilder}
    (grown : first.nodes.rows <+: second.nodes.rows)
    : (assembling environment fresh).Grows first second := by
  refine ⟨?_, fun excused => excused⟩
  intro fact held
  cases fact with
  | stored row => exact get?_of_prefix grown held
  | found label targetId => exact Found.mono grown held

/-- An action is in order if each of its answers leaves a grown state of the build. -/
theorem yields_of_ok {α : Type} {action : Build α} {facts : α → List Learnt}
    (step : ∀ builder result next,
      Building environment fresh builder →
      (∀ fact ∈ known, (assembling environment fresh).holds builder fact) →
      action.run builder = .ok (result, next) →
      builder.nodes.rows <+: next.nodes.rows
      ∧ Building environment fresh next
      ∧ ∀ fact ∈ facts result, (assembling environment fresh).holds next fact)
    : (assembling environment fresh).Yields known action (fun _ => True) facts := by
  intro builder building held
  cases ran : action.run builder with
  | error problem => exact trivial
  | ok answer =>
      obtain ⟨grown, building', found⟩ := step builder _ _ building held ran
      exact ⟨grows_of_extension grown, building', trivial, found⟩

/-- The path of a state is that of the fresh one. -/
theorem readsPath {α : Type} {rest : NativeBuilder → Build α} {facts : α → List Learnt}
    (continued : ∀ builder : NativeBuilder,
      builder.path = fresh.path →
      (assembling environment fresh).Yields known (rest builder) (fun _ => True) facts)
    : (assembling environment fresh).Yields known (get >>= rest) (fun _ => True) facts :=
  fun builder building held => continued builder building.path_eq builder building held

-- Rows

/-- A row that is made is stored, or one with its id is. -/
theorem addNode_stores {row : GraphNodeRow} (made : Made fresh.path row)
    : (assembling environment fresh).Yields known (addNode environment row) (fun _ => True)
        (fun added => [.stored added]) := by
  apply yields_of_ok
  rintro builder added next building - ran
  cases ran
  refine ⟨rows_withNode builder row, building.node (building.path_eq ▸ made), ?_⟩
  intro fact inside
  rw [List.mem_singleton.mp inside]
  obtain ⟨stored, there, -⟩ := Keyed.get?_orInsert_self builder.nodes row
  rw [there, Option.getD_some]
  exact Keyed.get?_eq_some_iff.mpr ⟨(Keyed.get?_eq_some_iff.mp there).1, rfl⟩

theorem addNode_assembles {row : GraphNodeRow} (made : Made fresh.path row)
    : (assembling environment fresh).Runs known (addNode environment row) :=
  (addNode_stores made).runs

theorem supportNode_assembles {table stableKey label path : String}
    (named : table ∈ sharedTables ∨ NamesFile fresh.path stableKey)
    : (assembling environment fresh).Runs known
        (supportNode environment table stableKey label path) :=
  addNode_assembles ⟨stableKey, rfl,
    metadataText_metadataOf (fun _ none => absurd none List.not_mem_nil), named⟩

theorem semanticNode_stores {table label ownerId ownerName : String} {capture : Capture}
    {further : List (String × JsonValue)}
    (others : ∀ entry ∈ further, entry.1 ≠ "canonical_key")
    : (assembling environment fresh).Yields known
        (semanticNode environment table capture label ownerId ownerName further)
        (fun _ => True) (fun added => [.stored added]) := by
  apply readsPath
  intro builder path
  apply addNode_stores
  refine ⟨_, rfl, metadataText_metadataOf others, Or.inr ?_⟩
  rw [← path]
  exact intercalate_namesFile _ _ _

/-- The row of a placeholder is added, unless its id is taken. -/
theorem symbolNode_run (environment : Environment) (builder : NativeBuilder) (label : String)
    : ∃ row : GraphNodeRow,
        Made builder.path row
        ∧ (symbolNode environment label).run builder
          = .ok (((builder.nodes.orInsert row).get? row.id).getD row,
              builder.withNode environment row)
        ∧ row.id = graphId "Symbol"
          (builder.path ++ "|Symbol|" ++ environment.unicode.trim label)
        ∧ row.table = "Symbol"
        ∧ row.label = environment.unicode.trim label := by
  refine ⟨_, ?_, rfl, rfl, rfl, rfl⟩
  refine ⟨_, rfl, metadataText_metadataOf ?_,
    Or.inr (Or.inr ⟨"Symbol|" ++ environment.unicode.trim label, ?_⟩)⟩
  · intro entry inside
    rw [List.mem_singleton.mp inside]
    exact (show "resolution" ≠ "canonical_key" by decide)
  · simp only [String.append_assoc]
    rfl

theorem scopeFor_assembles {owner : GraphNodeRow}
    : (assembling environment fresh).Runs known (scopeFor environment owner) := by
  apply readsPath
  intro builder path
  apply addNode_assembles
  refine ⟨_, rfl, metadataText_metadataOf (fun _ none => absurd none List.not_mem_nil),
    Or.inr (Or.inr ⟨owner.id ++ "|scope", ?_⟩)⟩
  rw [path]
  simp only [String.append_assoc]

theorem syntaxCapture_assembles {capture : Capture}
    : (assembling environment fresh).Runs known (syntaxCapture environment capture) := by
  rw [syntaxCapture_eq]
  apply readsPath
  intro builder path
  split
  · exact Yields.pure trivial (List.nil_subset _)
  · refine Yields.bind (addNode_assembles ⟨captureKey builder.path capture, rfl, ?_, Or.inr ?_⟩) ?_
    · apply metadataText_metadataOf
      intro entry inside
      rw [List.mem_singleton.mp inside]
      exact (show "fields" ≠ "canonical_key" by decide)
    · rw [← path]
      exact intercalate_namesFile _ _ _
    · intro _ _
      exact Yields.pure trivial (List.nil_subset _)

-- Edges

theorem edge_assembles {edgeType sourceId targetId kind : String}
    {further : List (String × JsonValue)} (plain : ¬ Resolving edgeType kind)
    : (assembling environment fresh).Runs known (edge edgeType sourceId targetId kind further) := by
  apply yields_of_ok
  rintro builder stored next building - ran
  rw [(edge_eq_ok ran).2]
  exact ⟨List.prefix_rfl, building.edge sourceId targetId further plain,
    fun _ none => absurd none List.not_mem_nil⟩

theorem edgeIfAllowed_assembles {edgeType sourceId targetId kind : String}
    {further : List (String × JsonValue)} (plain : ¬ Resolving edgeType kind)
    : (assembling environment fresh).Runs known
        (edgeIfAllowed edgeType sourceId targetId kind further) := by
  apply yields_of_ok
  rintro builder answer next building - ran
  rcases edgeIfAllowed_eq_ok ran with ⟨rfl, -⟩ | rfl
  · exact ⟨List.prefix_rfl, building, fun _ none => absurd none List.not_mem_nil⟩
  · exact ⟨List.prefix_rfl, building.edge sourceId targetId further plain,
      fun _ none => absurd none List.not_mem_nil⟩

/-- An edge to what a call has found. -/
theorem referenceEdge_assembles {source : GraphNodeRow} {edgeType targetId kind : String}
    {further : List (String × JsonValue)} (stored : .stored source ∈ known)
    (found : .found source.label targetId ∈ known)
    : (assembling environment fresh).Runs known
        (edgeIfAllowed edgeType source.id targetId kind further) := by
  apply yields_of_ok
  intro builder answer next building held ran
  obtain ⟨before, after, target, started, grown, called, rfl⟩ := held _ found
  rcases edgeIfAllowed_eq_ok ran with ⟨rfl, -⟩ | rfl
  · exact ⟨List.prefix_rfl, building, fun _ none => absurd none List.not_mem_nil⟩
  · exact ⟨List.prefix_rfl,
      building.reference edgeType kind further (held _ stored) started grown called,
      fun _ none => absurd none List.not_mem_nil⟩

theorem derivedFrom_assembles {semanticId syntaxId : String}
    : (assembling environment fresh).Runs known (derivedFrom semanticId syntaxId) := by
  apply Yields.read
  intro builder
  apply Yields.onlyIf
  intro _
  apply Yields.bind (edge_assembles (by simp [Resolving]))
  intro _ _
  exact Yields.pure trivial (List.nil_subset _)

theorem syntaxChild_assembles {parentId childId : String} {fieldName : Option String}
    {childIndex : Nat}
    : (assembling environment fresh).Runs known
        (syntaxChild parentId childId fieldName childIndex) := by
  apply Yields.bind (edge_assembles (by simp [Resolving]))
  intro stored _
  apply yields_of_ok
  rintro builder answer next building - ran
  cases ran
  exact ⟨List.prefix_rfl, building.place stored.id fieldName childIndex,
    fun _ none => absurd none List.not_mem_nil⟩

theorem connectOwner_assembles {owner : Owner} {semantic : GraphNodeRow}
    : (assembling environment fresh).Runs known (connectOwner environment owner semantic) := by
  apply Yields.bind (edge_assembles (by simp [Resolving]))
  intro _ _
  apply Yields.onlyIf
  intro _
  apply Yields.bind (edge_assembles (by simp [Resolving]))
  intro _ _
  exact Yields.pure trivial (List.nil_subset _)

-- References

/-- The id of what a call has found, if it has found something. -/
def foundIds (label : String) (resolved : Option GraphNodeRow) : List Learnt :=
  (resolved.map fun target => Learnt.found label target.id).toList

theorem resolveReferenceTarget_assembles {label : String}
    : (assembling environment fresh).Yields known (resolveReferenceTarget environment label)
        (fun _ => True) (foundIds label) := by
  apply yields_of_ok
  intro builder resolved next building _ ran
  have grown : builder.nodes.rows <+: next.nodes.rows ∧ Building environment fresh next := by
    have kept : builder.nodes.rows <+: builder.nodes.rows ∧ Building environment fresh builder :=
      ⟨List.prefix_rfl, building⟩
    rw [resolveReferenceTarget] at ran
    dsimp only at ran
    split at ran
    · cases ran
      exact kept
    · rw [StateT.run_bind, StateT.run_get] at ran
      simp only [pure_bind] at ran
      split at ran
      · cases ran
        exact kept
      · obtain ⟨row, made, added, -⟩ :=
          symbolNode_run environment builder (environment.unicode.trim label)
        rw [StateT.run_bind, added] at ran
        cases ran
        exact ⟨rows_withNode builder row, building.node made⟩
  refine ⟨grown.1, grown.2, ?_⟩
  intro fact inside
  cases resolved with
  | none => exact absurd inside List.not_mem_nil
  | some target =>
      rw [List.mem_singleton.mp inside]
      exact ⟨builder, next, target, building, grown.1, ran, rfl⟩

theorem emitReferenceEdges_assembles {source : GraphNodeRow} {kindPrefix : String}
    (stored : .stored source ∈ known)
    : (assembling environment fresh).Yields known
        (emitReferenceEdges environment source source.label kindPrefix) (fun _ => True)
        (foundIds source.label) := by
  apply Yields.bind resolveReferenceTarget_assembles
  intro resolved _
  cases resolved with
  | none => exact Yields.pure trivial (List.nil_subset _)
  | some target =>
      dsimp only
      split
      · exact Yields.pure trivial (List.nil_subset _)
      · apply Yields.bind (referenceEdge_assembles (by simp [stored]) (by simp [foundIds]))
        intro _ _
        apply Yields.bind (referenceEdge_assembles (by simp [stored]) (by simp [foundIds]))
        intro _ _
        exact Yields.pure trivial (by simp [foundIds])

theorem emitTypeAnnotationCapture_assembles {capture : Capture} {ownerId ownerName : String}
    : (assembling environment fresh).Runs known
        (emitTypeAnnotationCapture environment capture ownerId ownerName) := by
  apply Yields.bind syntaxCapture_assembles
  intro syntaxId _
  apply Yields.bind (semanticNode_stores (fun _ none => absurd none List.not_mem_nil))
  intro typeNode _
  apply Yields.bind (emitReferenceEdges_assembles (by simp))
  intro _ _
  apply Yields.bind derivedFrom_assembles
  intro _ _
  exact Yields.pure trivial (List.nil_subset _)

-----------------------------------------------------------------------------------------
-- Nodes that are joined to an owner

variable {owner : Owner} {capture : Capture} {syntaxId : String}

theorem semanticNode_joined {table label ownerId ownerName : String} {α : Type}
    {further : List (String × JsonValue)} {rest : GraphNodeRow → Build α}
    (others : ∀ entry ∈ further, entry.1 ≠ "canonical_key")
    (continued : ∀ semantic : GraphNodeRow,
      (assembling environment fresh).Runs (.stored semantic :: known) (rest semantic))
    : (assembling environment fresh).Runs known
        (do
          let semantic ← semanticNode environment table capture label ownerId ownerName further
          connectOwner environment owner semantic
          rest semantic) := by
  apply Yields.bind (semanticNode_stores others)
  intro semantic _
  apply Yields.bind connectOwner_assembles
  intro _ _
  exact continued semantic

theorem emitImport_assembles
    : (assembling environment fresh).Runs known
        (emitImport environment capture owner syntaxId) := by
  apply semanticNode_joined
  · intro entry inside
    rw [List.mem_singleton.mp inside]
    exact (show "imported_name" ≠ "canonical_key" by decide)
  intro semantic
  apply Yields.bind (edgeIfAllowed_assembles (by simp [Resolving]))
  intro _ _
  apply Yields.bind derivedFrom_assembles
  intro _ _
  refine Yields.bind (Yields.onlyIf fun _ => ?_) ?_
  · apply Yields.read
    intro builder
    apply Yields.bind (supportNode_assembles (Or.inl (by decide)))
    intro dependency _
    apply Yields.bind (edge_assembles (by simp [Resolving]))
    intro _ _
    apply Yields.bind (edge_assembles (by simp [Resolving]))
    intro _ _
    exact Yields.pure trivial (List.nil_subset _)
  · intro _ _
    exact Yields.pure trivial (List.nil_subset _)

theorem emitDeclaration_assembles {table : String}
    : (assembling environment fresh).Runs known
        (emitDeclaration environment table capture owner syntaxId) := by
  apply semanticNode_joined (fun _ none => absurd none List.not_mem_nil)
  intro semantic
  apply Yields.bind (edge_assembles (by simp [Resolving]))
  intro _ _
  refine Yields.bind (Yields.onlyIf fun _ => ?_) ?_
  · apply Yields.bind (edge_assembles (by simp [Resolving]))
    intro _ _
    exact Yields.pure trivial (List.nil_subset _)
  · intro _ _
    apply Yields.bind derivedFrom_assembles
    intro _ _
    exact Yields.pure trivial (List.nil_subset _)

theorem emitCall_assembles
    : (assembling environment fresh).Runs known
        (emitCall environment capture owner syntaxId) := by
  apply semanticNode_joined (fun _ none => absurd none List.not_mem_nil)
  intro call
  have body : ¬ Resolving "Calls" "body_call" := by simp [Resolving]
  apply Yields.bind (Yields.onlyIf fun _ => edgeIfAllowed_assembles body)
  intro _ _
  apply Yields.bind (emitReferenceEdges_assembles (by simp))
  intro resolved _
  refine Yields.bind (Yields.ifSome fun target found => ?_) ?_
  · exact referenceEdge_assembles (by simp) (by simp [found, foundIds])
  · intro _ _
    apply Yields.bind derivedFrom_assembles
    intro _ _
    exact Yields.pure trivial (List.nil_subset _)

theorem emitReference_assembles
    : (assembling environment fresh).Runs known
        (emitReference environment capture owner syntaxId) := by
  apply semanticNode_joined (fun _ none => absurd none List.not_mem_nil)
  intro reference
  apply Yields.bind (emitReferenceEdges_assembles (by simp))
  intro _ _
  apply Yields.bind derivedFrom_assembles
  intro _ _
  exact Yields.pure trivial (List.nil_subset _)

theorem emitSimpleSemantic_assembles {table : String}
    : (assembling environment fresh).Runs known
        (emitSimpleSemantic environment table capture owner syntaxId) := by
  apply semanticNode_joined (fun _ none => absurd none List.not_mem_nil)
  intro semantic
  have parameter : ¬ Resolving "HasParameter" "captured_parameter" := by simp [Resolving]
  apply Yields.bind (Yields.onlyIf fun _ => edgeIfAllowed_assembles parameter)
  intro _ _
  refine Yields.bind (Yields.onlyIf fun _ => ?_) ?_
  · apply Yields.bind (edgeIfAllowed_assembles (by simp [Resolving]))
    intro _ _
    apply Yields.bind emitTypeAnnotationCapture_assembles
    intro typeNode _
    exact edgeIfAllowed_assembles (by simp [Resolving])
  intro _ _
  refine Yields.bind (Yields.onlyIf fun _ => ?_) ?_
  · apply Yields.bind (edgeIfAllowed_assembles (by simp [Resolving]))
    intro _ _
    apply Yields.bind (emitReferenceEdges_assembles (by simp))
    intro _ _
    exact Yields.pure trivial (List.nil_subset _)
  intro _ _
  refine Yields.bind (Yields.onlyIf fun _ => ?_) ?_
  · apply Yields.bind (edgeIfAllowed_assembles (by simp [Resolving]))
    intro _ _
    exact edgeIfAllowed_assembles (by simp [Resolving])
  intro _ _
  apply Yields.bind derivedFrom_assembles
  intro _ _
  exact Yields.pure trivial (List.nil_subset _)

theorem emitAssignmentTarget_assembles {node : TreeNodeRef} {assignment : GraphNodeRow}
    {targetLabel : String}
    : (assembling environment fresh).Runs known
        (emitAssignmentTarget environment node capture owner syntaxId assignment targetLabel) := by
  apply semanticNode_joined (fun _ none => absurd none List.not_mem_nil)
  intro target
  apply Yields.bind (edgeIfAllowed_assembles (by simp [Resolving]))
  intro _ _
  apply Yields.bind (edgeIfAllowed_assembles (by simp [Resolving]))
  intro _ _
  apply Yields.bind derivedFrom_assembles
  intro _ _
  apply Yields.ifSome
  intro annotation _
  apply Yields.bind emitTypeAnnotationCapture_assembles
  intro typeNode _
  exact edgeIfAllowed_assembles (by simp [Resolving])

theorem emitTreeAssignment_assembles {arena : NativeSyntaxArena} {node : TreeNodeRef}
    : (assembling environment fresh).Runs known
        (emitTreeAssignment environment arena node owner syntaxId) := by
  apply Yields.read
  intro builder
  apply semanticNode_joined (fun _ none => absurd none List.not_mem_nil)
  intro assignment
  apply Yields.bind derivedFrom_assembles
  intro _ _
  apply Yields.bind (Yields.ifSome fun _ _ => emitAssignmentTarget_assembles)
  intro _ _
  refine Yields.bind (Yields.ifSome fun valueNode _ => ?_) ?_
  · apply Yields.bind syntaxCapture_assembles
    intro callSyntaxId _
    apply Yields.bind emitCall_assembles
    intro call _
    exact edgeIfAllowed_assembles (by simp [Resolving])
  · intro _ _
    exact Yields.pure trivial (List.nil_subset _)

-- Parameters and return types

theorem emitTreeParameters_assembles {arena : NativeSyntaxArena} {functionNode : TreeNodeRef}
    {callable : GraphNodeRow}
    : (assembling environment fresh).Runs known
        (emitTreeParameters environment arena functionNode callable) := by
  apply Yields.forM
  intro numbered _
  apply Yields.read
  intro builder
  apply Yields.ifSome
  intro parameterNode _
  apply Yields.bind syntaxCapture_assembles
  intro syntaxId _
  apply Yields.bind (semanticNode_stores (fun _ none => absurd none List.not_mem_nil))
  intro parameter _
  apply Yields.bind (edgeIfAllowed_assembles (by simp [Resolving]))
  intro _ _
  apply Yields.bind derivedFrom_assembles
  intro _ _
  apply Yields.ifSome
  intro annotation _
  apply Yields.bind emitTypeAnnotationCapture_assembles
  intro typeNode _
  exact edgeIfAllowed_assembles (by simp [Resolving])

theorem emitTreeReturnType_assembles {arena : NativeSyntaxArena} {functionNode : TreeNodeRef}
    {callable : GraphNodeRow}
    : (assembling environment fresh).Runs known
        (emitTreeReturnType environment arena functionNode callable) := by
  apply Yields.read
  intro builder
  apply Yields.ifSome
  intro capture _
  apply Yields.bind syntaxCapture_assembles
  intro syntaxId _
  apply Yields.bind (semanticNode_stores (fun _ none => absurd none List.not_mem_nil))
  intro returnNode _
  apply Yields.bind (edgeIfAllowed_assembles (by simp [Resolving]))
  intro _ _
  apply Yields.bind emitTypeAnnotationCapture_assembles
  intro typeNode _
  apply Yields.bind (edgeIfAllowed_assembles (by simp [Resolving]))
  intro _ _
  exact derivedFrom_assembles

-- Nodes of the tree

variable {arena : NativeSyntaxArena} {node : TreeNodeRef}

theorem emitParserLikeMetadataFields_assembles
    : (assembling environment fresh).Runs known
        (emitParserLikeMetadataFields environment node owner) := by
  apply Yields.read
  intro builder
  apply Yields.onlyIf
  intro _
  apply Yields.forM
  intro fieldName _
  apply Yields.ifSome
  intro capture _
  apply Yields.bind syntaxCapture_assembles
  intro syntaxId _
  apply Yields.ifSome
  intro table _
  apply Yields.bind emitSimpleSemantic_assembles
  intro _ _
  exact Yields.pure trivial (List.nil_subset _)

theorem emitSemantic_assembles {table : String}
    : (assembling environment fresh).Runs known
        (emitSemantic environment arena node capture owner syntaxId table) := by
  apply Yields.read
  intro builder
  split_ifs
  · apply Yields.read
    intro _
    exact emitImport_assembles
  · exact emitDeclaration_assembles
  · exact emitTreeAssignment_assembles
  · exact emitCall_assembles
  · exact emitReference_assembles
  · exact emitSimpleSemantic_assembles
  · exact emitSimpleSemantic_assembles
  · exact emitSimpleSemantic_assembles

theorem openScope_assembles {table : String} {fromCapture : Bool} {semantic : GraphNodeRow}
    : (assembling environment fresh).Runs known
        (openScope environment arena node table fromCapture semantic) := by
  apply Yields.read
  intro builder
  apply Yields.bind scopeFor_assembles
  intro scope _
  apply Yields.bind (edge_assembles (by simp [Resolving]))
  intro _ _
  apply Yields.bind (edge_assembles (by simp [Resolving]))
  intro _ _
  refine Yields.bind (Yields.onlyIf fun _ => ?_) ?_
  · apply Yields.bind emitTreeParameters_assembles
    intro _ _
    exact emitTreeReturnType_assembles
  · intro _ _
    exact Yields.pure trivial (List.nil_subset _)

theorem emitTreeNode_assembles
    : (assembling environment fresh).Runs known (emitTreeNode environment arena node owner) := by
  apply Yields.read
  intro builder
  apply Yields.bind syntaxCapture_assembles
  intro syntaxId _
  dsimp only
  split
  next => exact Yields.pure trivial (List.nil_subset _)
  next table found =>
      apply Yields.bind emitSemantic_assembles
      intro semantic _
      split
      · apply Yields.bind openScope_assembles
        intro inner _
        exact Yields.pure trivial (List.nil_subset _)
      · exact Yields.pure trivial (List.nil_subset _)

theorem fails_assembles {α : Type} (problem : String)
    : (assembling environment fresh).Runs known (throw problem : Build α) :=
  fun _ _ _ => trivial

theorem traverseTreeNode_assembles {fuel nodeId : Nat}
    : (assembling environment fresh).Runs known
        (traverseTreeNode environment arena fuel nodeId owner) := by
  induction fuel generalizing nodeId owner known with
  | zero => exact fails_assembles outOfFuel
  | succ fuel ih =>
      rw [traverseTreeNode]
      split
      · exact fails_assembles _
      · apply Yields.bind emitTreeNode_assembles
        intro inner _
        apply Yields.read
        intro builder
        split
        · exact fails_assembles _
        · apply Yields.bind (Yields.forM fun childId _ => ih)
          intro _ _
          exact emitParserLikeMetadataFields_assembles

-- Whole trees

theorem materializeSyntaxChildren_assembles {fuel : Nat} {parent : TreeNodeRef}
    {parentSyntaxId : String}
    : (assembling environment fresh).Runs known
        (materializeSyntaxChildren environment arena fuel parent parentSyntaxId) := by
  induction fuel generalizing parent parentSyntaxId known with
  | zero => exact fails_assembles outOfFuel
  | succ fuel ih =>
      apply Yields.forM
      intro numbered _
      split
      · exact fails_assembles _
      · apply Yields.bind syntaxCapture_assembles
        intro childSyntaxId _
        apply Yields.bind syntaxChild_assembles
        intro _ _
        exact ih

theorem materializeSyntaxTree_assembles {rootId : Nat} {fileId : String}
    : (assembling environment fresh).Runs known
        (materializeSyntaxTree environment arena rootId fileId) := by
  rw [materializeSyntaxTree]
  split
  · exact fails_assembles missingRoot
  · apply Yields.bind syntaxCapture_assembles
    intro rootSyntaxId _
    apply Yields.bind (edge_assembles (by simp [Resolving]))
    intro _ _
    exact materializeSyntaxChildren_assembles

theorem buildModule_assembles {root : TreeNodeRef} {file : GraphNodeRow}
    : (assembling environment fresh).Runs known (buildModule environment arena root file) := by
  apply Yields.read
  intro builder
  apply Yields.bind syntaxCapture_assembles
  intro syntaxId _
  apply Yields.bind (semanticNode_stores (fun _ none => absurd none List.not_mem_nil))
  intro moduleNode _
  apply Yields.bind scopeFor_assembles
  intro moduleScope _
  apply Yields.bind (edge_assembles (by simp [Resolving]))
  intro _ _
  apply Yields.bind (edge_assembles (by simp [Resolving]))
  intro _ _
  apply Yields.bind (edge_assembles (by simp [Resolving]))
  intro _ _
  apply Yields.bind (Yields.onlyIf fun _ => derivedFrom_assembles)
  intro _ _
  apply Yields.forM
  intro childId _
  exact traverseTreeNode_assembles

theorem buildFile_assembles {rootId : Nat} {file : GraphNodeRow}
    : (assembling environment fresh).Runs known (buildFile environment arena rootId file) := by
  apply Yields.bind scopeFor_assembles
  intro fileScope _
  apply Yields.bind (edge_assembles (by simp [Resolving]))
  intro _ _
  exact traverseTreeNode_assembles

theorem openTree_assembles
    : (assembling environment fresh).Runs known (openTree environment) := by
  apply readsPath
  intro builder path
  apply Yields.bind (supportNode_assembles (Or.inl (by decide)))
  intro repository _
  apply Yields.bind (supportNode_assembles (Or.inl (by decide)))
  intro source _
  apply Yields.bind (supportNode_assembles (Or.inr (Or.inl path)))
  intro file _
  apply Yields.bind (edge_assembles (by simp [Resolving]))
  intro _ _
  apply Yields.bind (edge_assembles (by simp [Resolving]))
  intro _ _
  exact Yields.pure trivial (List.nil_subset _)

theorem buildTree_assembles {rootId : Nat}
    : (assembling environment fresh).Runs known (buildTree environment arena rootId) := by
  cases found : arena.getNode rootId with
  | none =>
      rw [buildTree, found]
      exact fails_assembles missingRoot
  | some root =>
      rw [buildTree_eq environment arena found]
      apply Yields.bind openTree_assembles
      intro file _
      apply Yields.bind materializeSyntaxTree_assembles
      intro _ _
      split
      · exact buildModule_assembles
      · exact buildFile_assembles

/-- What a walk leaves of a fresh builder is a state of its build. -/
theorem building_of_buildTree {rootId : Nat} {built : NativeBuilder}
    (ran : (buildTree environment arena rootId).run fresh = .ok (⟨⟩, built))
    : Building environment fresh built := by
  have walked
      : (assembling environment fresh).Runs [] (buildTree environment arena rootId) :=
    buildTree_assembles
  have ended := walked fresh .start (fun _ none => absurd none List.not_mem_nil)
  rw [ran] at ended
  exact ended.2.1

end

end CodebaseGraph.Syntax
