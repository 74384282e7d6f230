import CodebaseGraph.Collections.Lists
import CodebaseGraph.Syntax.Tracing

/-! What each part of the walk needs to know of the graph, and what it makes known. Every part that
makes a node also asks for the edges by which the node is traced.
-/

namespace CodebaseGraph.Syntax

open CodebaseGraph.Collections
open CodebaseGraph.Staging (GraphNodeRow)
open CodebaseGraph.Transition
open CodebaseGraph.Transition.Discipline

variable {walk : Walk} {pending : String → Prop} {known : List Fact}

theorem resolveReferenceTarget_runs {label : String}
    : (tracing walk pending).Runs known (resolveReferenceTarget walk.environment label) := by
  rw [resolveReferenceTarget]
  dsimp only
  split
  · exact Yields.pure trivial (List.nil_subset _)
  · apply Yields.read
    intro builder
    split
    · exact Yields.pure trivial (List.nil_subset _)
    · apply Yields.bind symbolNode_traces
      intro node _
      exact Yields.pure trivial (List.nil_subset _)

theorem emitReferenceEdges_runs {source : GraphNodeRow} {label kindPrefix : String}
    : (tracing walk pending).Runs known
        (emitReferenceEdges walk.environment source label kindPrefix) := by
  apply Yields.bind resolveReferenceTarget_runs
  intro resolved _
  cases resolved with
  | none => exact Yields.pure trivial (List.nil_subset _)
  | some target =>
      dsimp only
      split
      · exact Yields.pure trivial (List.nil_subset _)
      · apply Yields.bind edgeIfAllowed_traces
        intro _ _
        apply Yields.bind edgeIfAllowed_traces
        intro _ _
        exact Yields.pure trivial (List.nil_subset _)

-- Type annotations

/-- The annotation waits for the edge that leads to it. -/
theorem emitTypeAnnotationCapture_traces {capture : Capture} {ownerId ownerName : String}
    (waits : pending (semanticId walk.path "TypeAnnotation" capture capture.label ownerName))
    : (tracing walk pending).Yields known
        (emitTypeAnnotationCapture walk.environment capture ownerId ownerName)
        (fun row => row.id = semanticId walk.path "TypeAnnotation" capture capture.label ownerName)
        (fun row => [.table row.id "TypeAnnotation", .derived row.id]) := by
  apply Yields.bind syntaxCapture_traces
  intro syntaxId _
  apply Yields.bind (semanticNode_traces (by decide) (fun _ => waits))
  intro typeNode made
  apply Yields.bind emitReferenceEdges_runs
  intro _ _
  apply Yields.bind (derivedFrom_traces "TypeAnnotation" (by simp) (by decide) (by simp))
  intro _ _
  exact Yields.pure made.1 (by simp)

/-- The annotation of a node that has been reached. -/
theorem annotation_runs {capture : Capture} {ownerId ownerName kind : String}
    (kinds : kind ∈ annotationKinds) (table : String) (typed : table ∈ typedTables)
    (hasOwner : Fact.table ownerId table ∈ known) (reached : Fact.reached ownerId ∈ known)
    : (tracing walk pending).Runs known
        (do
          let typeNode ← emitTypeAnnotationCapture walk.environment capture ownerId ownerName
          edgeIfAllowed "HasTypeAnnotation" ownerId typeNode.id kind []) := by
  have annotates : annotationLink kind
      ∈ [parameterLink, returnLink] ++ annotationKinds.map annotationLink :=
    List.mem_append_right _ (List.mem_map_of_mem kinds)
  have settled
      : (tracing walk pending).Yields known
          (do
            let typeNode ← emitTypeAnnotationCapture walk.environment capture ownerId ownerName
            edgeIfAllowed "HasTypeAnnotation" ownerId typeNode.id kind [])
          (fun _ => True)
          (fun _ =>
            [.derived (semanticId walk.path "TypeAnnotation" capture capture.label ownerName),
              .reached
                (semanticId walk.path "TypeAnnotation" capture capture.label ownerName)]) := by
    refine settle (semanticId walk.path "TypeAnnotation" capture capture.label ownerName) ?_
      (by simp) (by simp)
    apply Yields.bind (emitTypeAnnotationCapture_traces (Or.inr rfl))
    intro typeNode made
    rw [← made]
    refine Yields.keep [Fact.derived typeNode.id] ?_ (by simp)
    exact linkIfAllowed_traces annotates typed (List.mem_singleton.mpr rfl)
      (List.mem_append_right _ hasOwner) (by simp) (List.mem_append_right _ reached)
  exact settled.runs

-----------------------------------------------------------------------------------------
-- Nodes that are joined to an owner

/-- What the functions that emit a semantic node are given: an owner that is stored with its scope
and was reached, and a stored capture.
-/
structure Situated (known : List Fact) (owner : Owner) (syntaxId : String) : Prop where
  owned : ownerTrace owner ⊆ known
  owns : owner.table ∈ ownerTables
  evidence : Fact.table syntaxId "SyntaxCapture" ∈ known

variable {owner : Owner} {syntaxId : String}

theorem Situated.mono {known' : List Fact} (situated : Situated known owner syntaxId)
    (inside : known ⊆ known')
    : Situated known' owner syntaxId where
  owned := List.Subset.trans situated.owned inside
  owns := situated.owns
  evidence := inside situated.evidence

/-- The same owner with a capture just stored. -/
theorem Situated.moved {syntaxId' : String} (situated : Situated known owner syntaxId)
    : Situated (.table syntaxId' "SyntaxCapture" :: known) owner syntaxId' where
  owned := List.subset_cons_of_subset _ situated.owned
  owns := situated.owns
  evidence := List.mem_cons_self

theorem Situated.node (situated : Situated known owner syntaxId)
    : Fact.table owner.nodeId owner.table ∈ known :=
  situated.owned (by simp [ownerTrace])

/-- The action makes a node of the table and leaves nothing to be traced. -/
abbrev Settles (walk : Walk) (pending : String → Prop) (known : List Fact) (table : String)
    (action : Build GraphNodeRow)
    : Prop :=
  (tracing walk pending).Yields known action (fun row => row.table = table)
    (fun row => [.table row.id table, .reached row.id])

/-- The facts by which a node is traced. -/
def traceFacts (id table : String) : List Fact := [.derived id, .reached id, .table id table]

/-- A node waits until the rest has named the capture it comes from and a way to it. -/
theorem semanticNode_traced {table label ownerId ownerName : String} {capture : Capture}
    {further : List (String × Staging.JsonValue)} {α : Type} {rest : GraphNodeRow → Build α}
    (about : GraphNodeRow → α → Prop) (listed : table ∈ semanticTables)
    (continued : ∀ (pending' : String → Prop) (semantic : GraphNodeRow),
      semantic.table = table →
      (tracing walk pending').Yields (.table semantic.id table :: known) (rest semantic)
        (about semantic) (fun _ => traceFacts semantic.id table))
    : (tracing walk pending).Yields known
        (do
          let semantic ←
            semanticNode walk.environment table capture label ownerId ownerName further
          rest semantic)
        (fun result => ∃ semantic : GraphNodeRow,
          semantic.id = semanticId walk.path table capture label ownerName
          ∧ semantic.table = table
          ∧ about semantic result)
        (fun _ => traceFacts (semanticId walk.path table capture label ownerName) table) := by
  refine settle (semanticId walk.path table capture label ownerName) ?_ (by simp [traceFacts])
    (by simp [traceFacts])
  apply Yields.bind (semanticNode_traces listed (fun _ => Or.inr rfl))
  intro semantic made
  obtain ⟨named, tabled⟩ := made
  rw [← named]
  exact (continued _ semantic tabled).weaken (List.Subset.refl _)
    (fun result described => ⟨semantic, rfl, tabled, described⟩) (fun _ _ => List.Subset.refl _)

/-- The way most semantic nodes start: they are stored and joined to their owner. -/
theorem semanticNode_connected {table label ownerId ownerName : String} {capture : Capture}
    {further : List (String × Staging.JsonValue)} {α : Type} {rest : GraphNodeRow → Build α}
    (about : GraphNodeRow → α → Prop) (situated : Situated known owner syntaxId)
    (listed : table ∈ semanticTables)
    (continued : ∀ (pending' : String → Prop) (semantic : GraphNodeRow),
      (tracing walk pending').Yields (.reached semantic.id :: .table semantic.id table :: known)
        (rest semantic) (about semantic) (fun _ => [.derived semantic.id]))
    : (tracing walk pending).Yields known
        (do
          let semantic ←
            semanticNode walk.environment table capture label ownerId ownerName further
          connectOwner walk.environment owner semantic
          rest semantic)
        (fun result => ∃ semantic : GraphNodeRow,
          semantic.id = semanticId walk.path table capture label ownerName
          ∧ semantic.table = table
          ∧ about semantic result)
        (fun _ => traceFacts (semanticId walk.path table capture label ownerName) table) := by
  apply semanticNode_traced about listed
  intro pending' semantic tabled
  apply Yields.bind
    (connectOwner_traces table (List.subset_cons_of_subset _ situated.owned) situated.owns
      (by simp) tabled listed)
  intro _ _
  exact (Yields.keep [Fact.reached semantic.id, Fact.table semantic.id table]
    (continued _ semantic) (by simp)).weaken (List.Subset.refl _) (fun _ described => described)
    (fun _ _ => by simp [traceFacts])

theorem semanticNode_settles {table label ownerId ownerName : String} {capture : Capture}
    {further : List (String × Staging.JsonValue)} {rest : GraphNodeRow → Build GraphNodeRow}
    (situated : Situated known owner syntaxId) (listed : table ∈ semanticTables)
    (continued : ∀ (pending' : String → Prop) (semantic : GraphNodeRow),
      (tracing walk pending').Yields (.reached semantic.id :: .table semantic.id table :: known)
        (rest semantic) (fun row => row = semantic) (fun _ => [.derived semantic.id]))
    : Settles walk pending known table
        (do
          let semantic ←
            semanticNode walk.environment table capture label ownerId ownerName further
          connectOwner walk.environment owner semantic
          rest semantic) := by
  refine (semanticNode_connected _ situated listed continued).weaken (List.Subset.refl _) ?_ ?_
  · rintro row ⟨semantic, -, tabled, rfl⟩
    exact tabled
  · rintro row ⟨semantic, named, -, rfl⟩
    simp [named, traceFacts]

theorem emitImport_settles {capture : Capture} (situated : Situated known owner syntaxId)
    : Settles walk pending known "ImportDeclaration"
        (emitImport walk.environment capture owner syntaxId) := by
  apply semanticNode_settles situated (by decide)
  intro pending' semantic
  apply Yields.bind edgeIfAllowed_traces
  intro _ _
  apply Yields.bind
    (derivedFrom_traces "ImportDeclaration" (by simp) (by decide) (by simp [situated.evidence]))
  intro _ _
  refine Yields.bind (Yields.onlyIf fun _ => ?_) ?_
  · apply Yields.read
    intro builder
    apply Yields.bind (supportNode_traces (by decide))
    intro dependency _
    have depends : Required "DependsOn" "ImportDeclaration" "Dependency" :=
      ⟨("DependsOn", ["ImportDeclaration"], ["Dependency"]), by decide, rfl, by decide, by decide⟩
    apply Yields.bind (edge_traces (by simp) (by simp) depends)
    intro _ _
    have evidenced : Required "EvidencedBy" "Dependency" "SyntaxCapture" :=
      ⟨("EvidencedBy", ["File", "Dependency"], ["SyntaxCapture"]), by decide, rfl, by decide,
        by decide⟩
    apply Yields.bind (edge_traces (by simp) (by simp [situated.evidence]) evidenced)
    intro _ _
    exact Yields.pure trivial (List.nil_subset _)
  · intro _ _
    exact Yields.pure rfl (by simp)

/-- The tables of classes and callables. -/
def declarationTables : List String := ["Class", "Function", "Method"]

theorem emitDeclaration_settles {table : String} {capture : Capture}
    (situated : Situated known owner syntaxId) (declared : table ∈ declarationTables)
    : Settles walk pending known table
        (emitDeclaration walk.environment table capture owner syntaxId) := by
  have listed : table ∈ semanticTables :=
    (show declarationTables ⊆ semanticTables by decide) declared
  apply semanticNode_settles situated listed
  intro pending' semantic
  have hasOwner
      : Fact.table owner.nodeId owner.table
        ∈ Fact.reached semantic.id :: Fact.table semantic.id table :: known := by
    simp [situated.node]
  have defines : Required "Defines" owner.table table :=
    ⟨("Defines", ownerTables, declarationTables), by decide, rfl, situated.owns, declared⟩
  apply Yields.bind (edge_traces hasOwner (by simp) defines)
  intro _ _
  refine Yields.bind (Yields.onlyIf fun named => ?_) ?_
  · have unscoped
        : ∀ name ∈ ownerTables,
            ["Module", "Scope", "Class", "Function", "Method"].contains name = true →
            name ∈ ["Module", "Class", "Function", "Method"] := by decide
    have declares : Required "Declares" owner.table table :=
      ⟨("Declares", ["Module", "Class", "Function", "Method"], declarationTables), by decide, rfl,
        unscoped _ situated.owns named, declared⟩
    apply Yields.bind (edge_traces (List.mem_append_right _ hasOwner) (by simp) declares)
    intro _ _
    exact Yields.pure trivial (List.nil_subset _)
  · intro _ _
    apply Yields.bind (derivedFrom_traces table (by simp) listed (by simp [situated.evidence]))
    intro _ _
    exact Yields.pure rfl (by simp)

theorem emitCall_settles {capture : Capture} (situated : Situated known owner syntaxId)
    : Settles walk pending known "CallExpression"
        (emitCall walk.environment capture owner syntaxId) := by
  apply semanticNode_settles situated (by decide)
  intro pending' call
  apply Yields.bind (Yields.onlyIf fun _ => edgeIfAllowed_traces)
  intro _ _
  apply Yields.bind emitReferenceEdges_runs
  intro resolved _
  apply Yields.bind (Yields.ifSome fun _ _ => edgeIfAllowed_traces)
  intro _ _
  apply Yields.bind
    (derivedFrom_traces "CallExpression" (by simp) (by decide) (by simp [situated.evidence]))
  intro _ _
  exact Yields.pure rfl (by simp)

theorem emitReference_settles {capture : Capture} (situated : Situated known owner syntaxId)
    : Settles walk pending known "Reference"
        (emitReference walk.environment capture owner syntaxId) := by
  apply semanticNode_settles situated (by decide)
  intro pending' reference
  apply Yields.bind emitReferenceEdges_runs
  intro _ _
  apply Yields.bind
    (derivedFrom_traces "Reference" (by simp) (by decide) (by simp [situated.evidence]))
  intro _ _
  exact Yields.pure rfl (by simp)

theorem emitSimpleSemantic_settles {table : String} {capture : Capture}
    (situated : Situated known owner syntaxId) (listed : table ∈ semanticTables)
    : Settles walk pending known table
        (emitSimpleSemantic walk.environment table capture owner syntaxId) := by
  apply semanticNode_settles situated listed
  intro pending' semantic
  apply Yields.bind (Yields.onlyIf fun _ => edgeIfAllowed_traces)
  intro _ _
  refine Yields.bind (Yields.onlyIf fun isReturn => ?_) ?_
  · apply Yields.bind edgeIfAllowed_traces
    intro _ _
    have typed : table ∈ typedTables := by
      rw [of_decide_eq_true isReturn]
      decide
    exact annotation_runs (by decide) _ typed (by simp) (by simp)
  intro _ _
  refine Yields.bind (Yields.onlyIf fun _ => ?_) ?_
  · apply Yields.bind edgeIfAllowed_traces
    intro _ _
    apply Yields.bind emitReferenceEdges_runs
    intro _ _
    exact Yields.pure trivial (List.nil_subset _)
  intro _ _
  refine Yields.bind (Yields.onlyIf fun _ => ?_) ?_
  · apply Yields.bind edgeIfAllowed_traces
    intro _ _
    exact edgeIfAllowed_traces
  intro _ _
  apply Yields.bind (derivedFrom_traces table (by simp) listed (by simp [situated.evidence]))
  intro _ _
  exact Yields.pure rfl (by simp)

theorem emitAssignmentTarget_runs {node : TreeNodeRef} {capture : Capture}
    {assignment : GraphNodeRow} {targetLabel : String}
    (situated : Situated known owner syntaxId)
    : (tracing walk pending).Runs known
        (emitAssignmentTarget walk.environment node capture owner syntaxId assignment
          targetLabel) := by
  have typed
      : assignmentTargetTable walk.environment.unicode targetLabel owner capture.nodeType
        ∈ typedTables := by
    rw [assignmentTargetTable]
    split_ifs <;> decide
  have listed := (show typedTables ⊆ semanticTables by decide) typed
  refine (semanticNode_connected (fun _ _ => True) situated listed ?_).runs
  intro pending' target
  apply Yields.bind edgeIfAllowed_traces
  intro _ _
  apply Yields.bind edgeIfAllowed_traces
  intro _ _
  apply Yields.bind (derivedFrom_traces _ (by simp) listed (by simp [situated.evidence]))
  intro _ _
  refine Yields.keep [Fact.derived target.id] (Yields.ifSome fun annotation _ => ?_)
    (by simp)
  exact annotation_runs (by decide) _ typed (by simp) (by simp)

theorem emitTreeAssignment_settles {arena : NativeSyntaxArena} {node : TreeNodeRef}
    (situated : Situated known owner syntaxId)
    : Settles walk pending known "Assignment"
        (emitTreeAssignment walk.environment arena node owner syntaxId) := by
  apply Yields.read
  intro builder
  apply semanticNode_settles situated (by decide)
  intro pending' assignment
  apply Yields.bind
    (derivedFrom_traces "Assignment" (by simp) (by decide) (by simp [situated.evidence]))
  intro _ _
  have deeper
      : Situated
          (.derived assignment.id :: .reached assignment.id :: .table assignment.id "Assignment"
            :: known) owner syntaxId :=
    situated.mono (fun _ inside => by simp [inside])
  refine Yields.bind (Yields.ifSome fun _ _ => emitAssignmentTarget_runs deeper) ?_
  intro _ _
  refine Yields.bind (Yields.ifSome fun valueNode _ => ?_) ?_
  · apply Yields.bind syntaxCapture_traces
    intro callSyntaxId _
    apply Yields.bind (emitCall_settles deeper.moved)
    intro _ _
    exact edgeIfAllowed_traces
  · intro _ _
    exact Yields.pure rfl (by simp)

-- Parameters and return types

/-- The tables of the nodes with parameters and a return type. -/
def callableTables : List String := ["Function", "Method"]

theorem emitTreeParameters_runs {arena : NativeSyntaxArena} {functionNode : TreeNodeRef}
    {callable : GraphNodeRow} {table : String} (calls : table ∈ callableTables)
    (hasCallable : Fact.table callable.id table ∈ known)
    (reached : Fact.reached callable.id ∈ known)
    : (tracing walk pending).Runs known
        (emitTreeParameters walk.environment arena functionNode callable) := by
  apply Yields.forM
  intro numbered _
  apply Yields.read
  intro builder
  apply Yields.ifSome
  intro parameterNode _
  apply Yields.bind syntaxCapture_traces
  intro syntaxId _
  refine (semanticNode_traced (fun _ _ => True) (by decide) ?_).runs
  intro pending' parameter _
  have annotates : parameterLink ∈ [parameterLink, returnLink] ++ annotationKinds.map annotationLink :=
    List.mem_cons_self
  apply Yields.bind
    (linkIfAllowed_traces annotates calls (List.mem_singleton.mpr rfl) (by simp [hasCallable])
      (by simp) (by simp [reached]))
  intro _ _
  apply Yields.bind (derivedFrom_traces "Parameter" (by simp) (by decide) (by simp))
  intro _ _
  refine Yields.keep (traceFacts parameter.id "Parameter")
    (Yields.ifSome fun annotation _ => ?_) (by simp [traceFacts])
  exact annotation_runs (by decide) "Parameter" (by decide) (by simp) (by simp)

theorem emitTreeReturnType_runs {arena : NativeSyntaxArena} {functionNode : TreeNodeRef}
    {callable : GraphNodeRow} {table : String} (calls : table ∈ callableTables)
    (hasCallable : Fact.table callable.id table ∈ known)
    (reached : Fact.reached callable.id ∈ known)
    : (tracing walk pending).Runs known
        (emitTreeReturnType walk.environment arena functionNode callable) := by
  apply Yields.read
  intro builder
  apply Yields.ifSome
  intro capture _
  apply Yields.bind syntaxCapture_traces
  intro syntaxId _
  refine (semanticNode_traced (fun _ _ => True) (by decide) ?_).runs
  intro pending' returnNode _
  have annotates : returnLink ∈ [parameterLink, returnLink] ++ annotationKinds.map annotationLink :=
    List.mem_cons_of_mem _ List.mem_cons_self
  apply Yields.bind
    (linkIfAllowed_traces annotates calls (List.mem_singleton.mpr rfl) (by simp [hasCallable])
      (by simp) (by simp [reached]))
  intro _ _
  rw [← bind_assoc]
  apply Yields.bind
    (annotation_runs (by decide) "ReturnType" (by decide) (by simp) (by simp))
  intro _ _
  refine (Yields.keep [Fact.reached returnNode.id, Fact.table returnNode.id "ReturnType"]
    (derivedFrom_traces "ReturnType" (by simp) (by decide) (by simp)) (by simp)).weaken
      (List.Subset.refl _) (fun _ described => described) (fun _ _ => by simp [traceFacts])

-- Tables by node types

theorem callableTable_listed : callableTable owner ∈ semanticTables := by
  rw [callableTable]
  split <;> decide

/-- A table, if there is one, is among the semantic ones. -/
def Listed (table : Option String) : Prop := ∀ name, table = some name → name ∈ semanticTables

theorem listed_some {table : String} (listed : table ∈ semanticTables) : Listed (some table) := by
  intro name same
  cases same
  exact listed

theorem listed_ite {condition : Prop} [Decidable condition] {first second : Option String}
    (listed : Listed first) (listed' : Listed second)
    : Listed (if condition then first else second) := by
  split
  · exact listed
  · exact listed'

theorem tableForNodeType_listed (nodeType : String) (owner : Owner)
    : Listed (tableForNodeType nodeType owner) := by
  rw [tableForNodeType]
  repeat' apply listed_ite
  all_goals first
    | exact listed_some callableTable_listed
    | exact listed_some (by decide)
    | exact fun _ none => nomatch none

theorem tableForCapture_listed (capture : String) (owner : Owner)
    : Listed (tableForCapture capture owner) := by
  rw [tableForCapture]
  repeat' apply listed_ite
  all_goals first
    | exact listed_some callableTable_listed
    | exact listed_some (by decide)
    | exact fun _ none => nomatch none

-- Nodes of the tree

theorem emitParserLikeMetadataFields_runs {node : TreeNodeRef} (owned : ownerTrace owner ⊆ known)
    (owns : owner.table ∈ ownerTables)
    : (tracing walk pending).Runs known
        (emitParserLikeMetadataFields walk.environment node owner) := by
  apply Yields.read
  intro builder
  apply Yields.onlyIf
  intro _
  apply Yields.forM
  intro fieldName _
  apply Yields.ifSome
  intro capture _
  apply Yields.bind syntaxCapture_traces
  intro syntaxId _
  apply Yields.ifSome
  intro table found
  have situated : Situated (.table syntaxId "SyntaxCapture" :: known) owner syntaxId :=
    ⟨List.subset_cons_of_subset _ owned, owns, List.mem_cons_self⟩
  apply Yields.bind (emitSimpleSemantic_settles situated (tableForNodeType_listed _ _ _ found))
  intro _ _
  exact Yields.pure trivial (List.nil_subset _)

theorem emitSemantic_settles {arena : NativeSyntaxArena} {node : TreeNodeRef} {capture : Capture}
    {table : String} (situated : Situated known owner syntaxId) (listed : table ∈ semanticTables)
    : Settles walk pending known table
        (emitSemantic walk.environment arena node capture owner syntaxId table) := by
  apply Yields.read
  intro builder
  split_ifs with isImport isDeclaration isAssignment isCall isReference isLiteral
  · subst isImport
    apply Yields.read
    intro _
    exact emitImport_settles situated
  · exact emitDeclaration_settles situated (List.contains_iff_mem.mp isDeclaration)
  · subst isAssignment
    exact emitTreeAssignment_settles situated
  · subst isCall
    exact emitCall_settles situated
  · subst isReference
    exact emitReference_settles situated
  · subst isLiteral
    exact emitSimpleSemantic_settles situated listed
  · subst isLiteral
    exact emitSimpleSemantic_settles situated listed
  · exact emitSimpleSemantic_settles situated listed

/-- The tables of the nodes that open a scope. -/
def scopedTables : List String := ["Class", "Function", "Method", "Component"]

theorem openScope_yields {arena : NativeSyntaxArena} {node : TreeNodeRef} {table : String}
    {fromCapture : Bool} {semantic : GraphNodeRow} (opens : table ∈ scopedTables)
    (hasSemantic : Fact.table semantic.id table ∈ known)
    (reached : Fact.reached semantic.id ∈ known)
    : (tracing walk pending).Yields known
        (openScope walk.environment arena node table fromCapture semantic)
        (fun inner => inner.table ∈ ownerTables) ownerTrace := by
  apply Yields.read
  intro builder
  apply Yields.bind scopeFor_traces
  intro scope _
  have contains : Required "Contains" table "Scope" :=
    ⟨("Contains", ["Module", "Class", "Function", "Method", "Component"], ["Scope"]), by decide,
      rfl,
      (show scopedTables ⊆ ["Module", "Class", "Function", "Method", "Component"] by decide) opens,
      by decide⟩
  have owns : table ∈ ownerTables := (show scopedTables ⊆ ownerTables by decide) opens
  have hasScope : Required "HasScope" table "Scope" :=
    ⟨("HasScope", ownerTables, ["Scope"]), by decide, rfl, owns, by decide⟩
  apply Yields.bind (edge_traces (by simp [hasSemantic]) (by simp) contains)
  intro _ _
  apply Yields.bind (edge_traces (by simp [hasSemantic]) (by simp) hasScope)
  intro _ _
  refine Yields.bind (Yields.onlyIf fun calls => ?_) ?_
  · have callable : table ∈ callableTables :=
      List.contains_iff_mem.mp (Bool.and_eq_true_iff.mp calls).1
    apply Yields.bind
      (emitTreeParameters_runs callable (by simp [hasSemantic]) (by simp [reached]))
    intro _ _
    exact emitTreeReturnType_runs callable (by simp [hasSemantic]) (by simp [reached])
  · intro _ _
    exact Yields.pure owns (by simp [ownerTrace, hasSemantic, reached])

/-- What is known of an owner that was opened, if one was. -/
def innerTrace (inner : Option Owner) : List Fact :=
  match inner with
  | some owner => ownerTrace owner
  | none => []

theorem emitTreeNode_yields {arena : NativeSyntaxArena} {node : TreeNodeRef}
    (owned : ownerTrace owner ⊆ known) (owns : owner.table ∈ ownerTables)
    : (tracing walk pending).Yields known (emitTreeNode walk.environment arena node owner)
        (fun inner => (inner.getD owner).table ∈ ownerTables) innerTrace := by
  apply Yields.read
  intro builder
  apply Yields.bind syntaxCapture_traces
  intro syntaxId _
  have situated : Situated (.table syntaxId "SyntaxCapture" :: known) owner syntaxId :=
    ⟨List.subset_cons_of_subset _ owned, owns, List.mem_cons_self⟩
  dsimp only
  split
  next => exact Yields.pure owns (List.nil_subset _)
  next table found =>
      have listed : table ∈ semanticTables := by
        rcases Option.or_eq_some_iff.mp found with captured | ⟨-, typed⟩
        · exact tableForCapture_listed _ _ _ captured
        · exact tableForNodeType_listed _ _ _ typed
      apply Yields.bind (emitSemantic_settles situated listed)
      intro semantic _
      split
      next opens =>
          apply Yields.bind
            (openScope_yields (List.contains_iff_mem.mp opens) (by simp) (by simp))
          intro inner owns'
          exact Yields.pure owns' (List.subset_append_left _ _)
      next => exact Yields.pure owns (List.nil_subset _)

-----------------------------------------------------------------------------------------
-- The walk

section Walk

variable {arena : NativeSyntaxArena}

/-- The children to walk on to are found with enough fuel, and stand behind their parent. -/
theorem semanticChildIds_behind (unicode : UnicodeFunctions) (language : String)
    (wellFormed : arena.WellFormed) {fuel bound : Nat} {parent : TreeNodeRef}
    (behind : ∀ child ∈ parent.children, bound < child ∧ child < arena.nodes.length)
    (enough : arena.nodes.length ≤ fuel + bound) (started : 0 < fuel)
    : ∃ childIds,
        semanticChildIds unicode arena language fuel parent = some childIds
        ∧ ∀ child ∈ childIds, bound < child ∧ child < arena.nodes.length := by
  induction fuel generalizing bound parent with
  | zero => omega
  | succ fuel ih =>
      have each
          : ∀ childId ∈ parent.children,
              ∃ found,
                semanticChild unicode arena language
                    (semanticChildIds unicode arena language fuel) parent childId
                  = some found
                ∧ ∀ child ∈ found, bound < child ∧ child < arena.nodes.length := by
        intro childId inside
        obtain ⟨above, below⟩ := behind childId inside
        obtain ⟨child, stored⟩ := arena.getNode_of_lt below
        simp only [semanticChild, stored]
        split_ifs
        · obtain ⟨childIds, found, deeper⟩ :=
            ih (wellFormed.children childId child (Nat.zero_le _) stored) (by omega) (by omega)
          refine ⟨childIds, found, fun other member => ?_⟩
          obtain ⟨above', below'⟩ := deeper other member
          exact ⟨by omega, below'⟩
        · exact ⟨[childId], rfl, by simpa using ⟨above, below⟩⟩
        · exact ⟨[], rfl, by simp⟩
      obtain ⟨parts, mapped, inside⟩ := mapM_eq_some_of_forall each
      refine ⟨parts.flatten, ?_, ?_⟩
      · rw [semanticChildIds, mapped]
        rfl
      · intro child member
        obtain ⟨part, inParts, inPart⟩ := List.mem_flatten.mp member
        exact inside part inParts child inPart

/-- The walk from a stored node runs on what is known of its owner. -/
theorem traverseTreeNode_runs (wellFormed : arena.WellFormed) {fuel nodeId : Nat}
    (stored : nodeId < arena.nodes.length) (enough : arena.nodes.length ≤ fuel + nodeId)
    (owned : ownerTrace owner ⊆ known) (owns : owner.table ∈ ownerTables)
    : (tracing walk pending).Runs known
        (traverseTreeNode walk.environment arena fuel nodeId owner) := by
  induction fuel generalizing nodeId owner known with
  | zero => omega
  | succ fuel ih =>
      obtain ⟨node, found⟩ := arena.getNode_of_lt stored
      have behind := wellFormed.children nodeId node (Nat.zero_le _) found
      simp only [traverseTreeNode, found]
      apply Yields.bind (emitTreeNode_yields owned owns)
      intro inner owns'
      have owned' : ownerTrace (inner.getD owner) ⊆ innerTrace inner ++ known := by
        cases inner with
        | none => exact List.subset_append_of_subset_right _ owned
        | some opened => exact List.subset_append_left _ _
      apply Yields.read
      intro builder
      have enough' : arena.nodes.length ≤ arena.nodes.length + nodeId := Nat.le_add_right _ _
      obtain ⟨childIds, collected, children⟩ :=
        semanticChildIds_behind walk.environment.unicode builder.language wellFormed behind enough'
          (by omega)
      rw [collected]
      refine Yields.bind (Yields.forM fun childId member => ?_) ?_
      · obtain ⟨above, below⟩ := children childId member
        exact ih below (by omega) owned' owns'
      · intro _ _
        exact emitParserLikeMetadataFields_runs owned' owns'

theorem materializeSyntaxChildren_runs (wellFormed : arena.WellFormed) {fuel bound : Nat}
    {parent : TreeNodeRef} {parentSyntaxId : String}
    (behind : ∀ child ∈ parent.children, bound < child ∧ child < arena.nodes.length)
    (enough : arena.nodes.length ≤ fuel + bound) (started : 0 < fuel)
    (hasParent : Fact.table parentSyntaxId "SyntaxCapture" ∈ known)
    : (tracing walk pending).Runs known
        (materializeSyntaxChildren walk.environment arena fuel parent parentSyntaxId) := by
  induction fuel generalizing bound parent parentSyntaxId known with
  | zero => omega
  | succ fuel ih =>
      apply Yields.forM
      intro numbered member
      have inside : numbered.1 ∈ parent.children := List.fst_mem_of_mem_zipIdx member
      obtain ⟨above, below⟩ := behind numbered.1 inside
      obtain ⟨child, stored⟩ := arena.getNode_of_lt below
      simp only [stored]
      apply Yields.bind syntaxCapture_traces
      intro childSyntaxId _
      apply Yields.bind (syntaxChild_traces (by simp [hasParent]) (by simp))
      intro _ _
      exact ih (wellFormed.children numbered.1 child (Nat.zero_le _) stored) (by omega) (by omega)
        (by simp)

theorem materializeSyntaxTree_runs (wellFormed : arena.WellFormed) {rootId : Nat}
    {fileId : String} (stored : rootId < arena.nodes.length)
    (hasFile : Fact.table fileId "File" ∈ known)
    : (tracing walk pending).Runs known
        (materializeSyntaxTree walk.environment arena rootId fileId) := by
  obtain ⟨root, found⟩ := arena.getNode_of_lt stored
  simp only [materializeSyntaxTree, found]
  apply Yields.bind syntaxCapture_traces
  intro rootSyntaxId _
  have evidenced : Required "EvidencedBy" "File" "SyntaxCapture" :=
    ⟨("EvidencedBy", ["File", "Dependency"], ["SyntaxCapture"]), by decide, rfl, by decide,
      by decide⟩
  apply Yields.bind (edge_traces (by simp [hasFile]) (by simp) evidenced)
  intro _ _
  exact materializeSyntaxChildren_runs wellFormed
    (wellFormed.children rootId root (Nat.zero_le _) found) (by omega) (by omega) (by simp)

theorem buildModule_runs (wellFormed : arena.WellFormed) {rootId : Nat} {root : TreeNodeRef}
    {file : GraphNodeRow} (found : arena.getNode rootId = some root)
    (hasFile : Fact.table file.id "File" ∈ known) (reached : Fact.reached file.id ∈ known)
    : (tracing walk pending).Runs known (buildModule walk.environment arena root file) := by
  apply Yields.read
  intro builder
  apply Yields.bind syntaxCapture_traces
  intro syntaxId _
  apply Yields.bind
    (semanticNode_traces (by decide) (fun unlisted => absurd (by decide) unlisted))
  intro moduleNode _
  apply Yields.bind scopeFor_traces
  intro moduleScope _
  have fileContains : Required "Contains" "File" "Module" :=
    ⟨("Contains", "Scope" :: ownerTables, semanticTables), by decide, rfl, by decide, by decide⟩
  have inLinks : fileLink ∈ links walk.environment := List.mem_append_left _ List.mem_cons_self
  apply Yields.bind
    (link_traces inLinks fileContains List.mem_cons_self List.mem_cons_self (by simp [hasFile])
      (by simp) (by simp [reached]))
  intro _ _
  have moduleContains : Required "Contains" "Module" "Scope" :=
    ⟨("Contains", ["Module", "Class", "Function", "Method", "Component"], ["Scope"]), by decide,
      rfl, by decide, by decide⟩
  apply Yields.bind (edge_traces (by simp) (by simp) moduleContains)
  intro _ _
  have hasScope : Required "HasScope" "Module" "Scope" :=
    ⟨("HasScope", ownerTables, ["Scope"]), by decide, rfl, by decide, by decide⟩
  apply Yields.bind (edge_traces (by simp) (by simp) hasScope)
  intro _ _
  apply Yields.bind
    (Yields.onlyIf fun _ =>
      (derivedFrom_traces "Module" (by simp) (by decide) (by simp)).runs)
  intro _ _
  apply Yields.forM
  intro childId member
  obtain ⟨above, below⟩ := wellFormed.children rootId root (Nat.zero_le _) found childId member
  exact traverseTreeNode_runs wellFormed below (by omega) (by simp [ownerTrace])
    (by simp [ownerTables])

theorem buildFile_runs (wellFormed : arena.WellFormed) {rootId : Nat} {file : GraphNodeRow}
    (stored : rootId < arena.nodes.length) (hasFile : Fact.table file.id "File" ∈ known)
    (reached : Fact.reached file.id ∈ known)
    : (tracing walk pending).Runs known (buildFile walk.environment arena rootId file) := by
  apply Yields.bind scopeFor_traces
  intro fileScope _
  have hasScope : Required "HasScope" "File" "Scope" :=
    ⟨("HasScope", ownerTables, ["Scope"]), by decide, rfl, by decide, by decide⟩
  apply Yields.bind (edge_traces (by simp [hasFile]) (by simp) hasScope)
  intro _ _
  exact traverseTreeNode_runs wellFormed stored (by omega)
    (by simp [ownerTrace, hasFile, reached]) (by simp [ownerTables])

/-- The ways start at the row of the file. -/
theorem openTree_traces
    : (tracing walk pending).Yields known (openTree walk.environment)
        (fun file => file.id = graphId "File" walk.path)
        (fun file => [.reached file.id, .table file.id "File"]) := by
  apply reads
  intro builder traced
  rw [traced.path]
  apply Yields.bind (supportNode_traces (by decide))
  intro repository _
  apply Yields.bind (supportNode_traces (by decide))
  intro source _
  apply Yields.bind (supportNode_traces (by decide))
  intro file made
  have repositoryContains : Required "Contains" "Repository" "SourceRoot" :=
    ⟨("Contains", ["Repository"], ["SourceRoot"]), by decide, rfl, by decide, by decide⟩
  apply Yields.bind (edge_traces (by simp) (by simp) repositoryContains)
  intro _ _
  have rootContains : Required "Contains" "SourceRoot" "File" :=
    ⟨("Contains", ["SourceRoot"], ["File"]), by decide, rfl, by decide, by decide⟩
  apply Yields.bind (edge_traces (by simp) (by simp) rootContains)
  intro _ _
  refine Yields.conclude (fun row : GraphNodeRow => Fact.reached row.id)
    (Yields.pure made.1 (by simp)) ?_
  intro row _ named _ _ _
  rw [named]
  exact Relation.ReflTransGen.refl

/-- The graph of a well-formed arena is built, unless a required relation is not allowed, and
every node that stands for a piece of the source can be traced in it.
-/
theorem buildTree_runs (wellFormed : arena.WellFormed)
    : (tracing walk pending).Runs known (buildTree walk.environment arena arena.rootId) := by
  have stored := wellFormed.root
  obtain ⟨root, found⟩ := arena.getNode_of_lt stored
  rw [buildTree_eq walk.environment arena found]
  apply Yields.bind openTree_traces
  intro file _
  apply Yields.bind (materializeSyntaxTree_runs wellFormed stored (by simp))
  intro _ _
  split
  · exact buildModule_runs wellFormed found (by simp) (by simp)
  · exact buildFile_runs wellFormed stored (by simp) (by simp)

end Walk

-- Whole builds

theorem NativeBuilder.new_empty {environment : Environment} {metadata : Metadata}
    {builder : NativeBuilder} (fresh : NativeBuilder.new environment metadata = .ok builder)
    : builder.nodes.rows = []
      ∧ builder.edges.rows = []
      ∧ relationAllowlistFromMeta environment metadata = .ok builder.relationAllowlist := by
  rw [NativeBuilder.new] at fresh
  cases decoded : relationAllowlistFromMeta environment metadata with
  | error problem =>
      rw [decoded] at fresh
      exact nomatch fresh
  | ok allowlist =>
      rw [decoded] at fresh
      cases fresh
      exact ⟨rfl, rfl, rfl⟩

/-- A new builder has nothing to trace. -/
theorem NativeBuilder.new_traced {environment : Environment} {metadata : Metadata}
    {builder : NativeBuilder} (fresh : NativeBuilder.new environment metadata = .ok builder)
    : Traced ⟨environment, builder.relationAllowlist, builder.path⟩ (fun _ => False) builder := by
  obtain ⟨nodes, edges, -⟩ := NativeBuilder.new_empty fresh
  refine ⟨⟨rfl, ?_, ?_⟩, rfl, ?_, ?_, ?_⟩ <;> simp [nodes, edges]

/-- A build fails where a required relation is not allowed, or leaves nothing pending. -/
theorem buildSyntaxTreeGraphRows_traces (environment : Environment) {metadata : Metadata}
    {allowlist : RelationAllowlist} (root : SyntaxNode)
    (decoded : relationAllowlistFromMeta environment metadata = .ok allowlist)
    : match buildSyntaxTreeGraphRows environment metadata root with
      | .error _ => ¬ Permissive allowlist
      | .ok rows =>
          ∃ builder,
            rows = builder.intoRows
            ∧ Traced ⟨environment, allowlist, builder.path⟩ (fun _ => False) builder := by
  have started : ∃ builder,
      NativeBuilder.new environment metadata = .ok builder
      ∧ builder.relationAllowlist = allowlist := by
    rw [NativeBuilder.new, decoded]
    exact ⟨_, rfl, rfl⟩
  obtain ⟨builder, fresh, rfl⟩ := started
  have traced := NativeBuilder.new_traced fresh
  have walk
      : (tracing ⟨environment, builder.relationAllowlist, builder.path⟩ (fun _ => False)).Runs []
          (buildTree environment (NativeSyntaxArena.new root)
            (NativeSyntaxArena.new root).rootId) :=
    buildTree_runs (NativeSyntaxArena.new_wellFormed root)
  have walked := walk builder traced (fun _ inside => nomatch inside)
  simp only [buildSyntaxTreeGraphRows, fresh, bind, Except.bind]
  cases ran : (buildTree environment (NativeSyntaxArena.new root)
      (NativeSyntaxArena.new root).rootId).run builder with
  | error problem =>
      rw [ran] at walked
      exact walked
  | ok answer =>
      obtain ⟨_, built⟩ := answer
      rw [ran] at walked
      obtain ⟨-, traced', -⟩ := walked
      refine ⟨built, rfl, ?_⟩
      rw [traced'.path]
      exact traced'

end CodebaseGraph.Syntax
