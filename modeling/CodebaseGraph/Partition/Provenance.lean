import CodebaseGraph.Hashing.Sha1
import CodebaseGraph.Partition.Closed

/-! The shipped ontology (`assets/graph_schema.json`) and the built-in rules allow every relation
that the builder requires, so that no source file can make a build fail.
-/

namespace CodebaseGraph.Partition

open CodebaseGraph.Protocol
open CodebaseGraph.Syntax

/-- The relation types of the shipped schema. -/
def graphSchemaRelationTypes : List OntologyRelationType :=
  [
    {
      name := "Contains"
      sourceTypes :=
        ["Repository", "SourceRoot", "File", "Module", "Scope", "Class", "Function", "Method",
          "Component"]
      targetTypes :=
        ["SourceRoot", "File", "Module", "Scope", "ImportDeclaration", "ExportDeclaration",
          "Symbol", "Class", "Function", "Method", "Parameter", "ReturnType", "TypeAnnotation",
          "TypeAlias", "Variable", "Constant", "ClassAttribute", "InstanceAttribute",
          "Property", "Decorator", "Assignment", "APIEndpoint", "Component", "Route", "Query",
          "SecretRef", "CallExpression", "Assignment", "Reference", "Literal", "Expression",
          "ControlFlowBlock", "ExceptionFlow", "Query", "SecretRef", "DocumentationSource",
          "DocumentationChunk"]
    },
    {
      name := "Defines"
      sourceTypes := ["File", "Module", "Scope", "Class", "Function", "Method", "Component"]
      targetTypes :=
        ["Symbol", "Class", "Function", "Method", "Parameter", "ReturnType", "TypeAnnotation",
          "TypeAlias", "Variable", "Constant", "ClassAttribute", "InstanceAttribute",
          "Property", "Decorator", "Assignment", "APIEndpoint", "Component", "Route", "Query",
          "SecretRef"]
    },
    {
      name := "Imports"
      sourceTypes := ["File", "Module", "Scope"]
      targetTypes := ["ImportDeclaration", "Dependency", "Module", "Symbol"]
    },
    {
      name := "Exports"
      sourceTypes := ["File", "Module", "Scope", "Component"]
      targetTypes :=
        ["ExportDeclaration", "Symbol", "Class", "Function", "Method", "Parameter",
          "ReturnType", "TypeAnnotation", "TypeAlias", "Variable", "Constant", "ClassAttribute",
          "InstanceAttribute", "Property", "Decorator", "Assignment", "APIEndpoint",
          "Component", "Route", "Query", "SecretRef"]
    },
    {
      name := "Declares"
      sourceTypes := ["Module", "Scope", "Class", "Function", "Method", "Assignment"]
      targetTypes :=
        ["Symbol", "Class", "Function", "Method", "Parameter", "ReturnType", "TypeAnnotation",
          "TypeAlias", "Variable", "Constant", "ClassAttribute", "InstanceAttribute",
          "Property", "Decorator", "Assignment", "APIEndpoint", "Component", "Route", "Query",
          "SecretRef"]
    },
    {
      name := "HasScope"
      sourceTypes :=
        ["File", "Module", "Symbol", "Class", "Function", "Method", "Parameter", "ReturnType",
          "TypeAnnotation", "TypeAlias", "Variable", "Constant", "ClassAttribute",
          "InstanceAttribute", "Property", "Decorator", "Assignment", "APIEndpoint",
          "Component", "Route", "Query", "SecretRef", "CallExpression", "Assignment",
          "Reference", "Literal", "Expression", "ControlFlowBlock", "ExceptionFlow", "Query",
          "SecretRef"]
      targetTypes := ["Scope"]
    },
    {
      name := "HasParameter"
      sourceTypes := ["Function", "Method", "APIEndpoint", "Route", "CallExpression"]
      targetTypes := ["Parameter"]
    },
    {
      name := "HasReturnType"
      sourceTypes := ["Function", "Method", "APIEndpoint"]
      targetTypes := ["ReturnType"]
    },
    {
      name := "HasTypeAnnotation"
      sourceTypes :=
        ["Symbol", "Parameter", "ReturnType", "TypeAlias", "Variable", "Constant",
          "ClassAttribute", "InstanceAttribute"]
      targetTypes := ["TypeAnnotation", "Reference", "Literal"]
    },
    {
      name := "Assigns"
      sourceTypes :=
        ["Assignment", "Variable", "Constant", "ClassAttribute", "InstanceAttribute",
          "Property"]
      targetTypes :=
        ["Variable", "Constant", "ClassAttribute", "InstanceAttribute", "Property", "Literal",
          "Expression", "CallExpression"]
    },
    {
      name := "References"
      sourceTypes :=
        ["Reference", "Expression", "CallExpression", "Assignment", "ControlFlowBlock",
          "TypeAnnotation", "Decorator", "Query", "SecretRef"]
      targetTypes :=
        ["Symbol", "Class", "Function", "Method", "Variable", "Constant", "ClassAttribute",
          "InstanceAttribute", "Property", "Parameter", "Module", "Dependency"]
    },
    {
      name := "Calls"
      sourceTypes :=
        ["Function", "Method", "CallExpression", "Decorator", "APIEndpoint", "Route",
          "Component"]
      targetTypes := ["CallExpression", "Function", "Method", "Class", "APIEndpoint"]
    },
    {
      name := "DecoratedBy"
      sourceTypes :=
        ["Class", "Function", "Method", "Property", "APIEndpoint", "Route", "Component"]
      targetTypes := ["Decorator", "CallExpression", "Reference"]
    },
    {
      name := "ResolvesTo"
      sourceTypes :=
        ["Reference", "ImportDeclaration", "CallExpression", "TypeAnnotation", "Decorator"]
      targetTypes :=
        ["Symbol", "Module", "Class", "Function", "Method", "Variable", "Constant",
          "Dependency", "Parameter"]
    },
    {
      name := "DependsOn"
      sourceTypes :=
        ["Repository", "SourceRoot", "File", "Module", "ImportDeclaration", "Dependency",
          "Component"]
      targetTypes := ["Dependency", "Module", "Component", "SecretRef"]
    },
    {
      name := "Documents"
      sourceTypes := ["DocumentationSource", "DocumentationChunk", "Literal"]
      targetTypes :=
        ["Repository", "File", "Module", "Symbol", "Class", "Function", "Method", "Parameter",
          "ReturnType", "TypeAnnotation", "TypeAlias", "Variable", "Constant", "ClassAttribute",
          "InstanceAttribute", "Property", "Decorator", "Assignment", "APIEndpoint",
          "Component", "Route", "Query", "SecretRef"]
    },
    {
      name := "RoutesTo"
      sourceTypes := ["Route", "APIEndpoint", "Component"]
      targetTypes := ["APIEndpoint", "Function", "Method", "Component"]
    },
    {
      name := "Exposes"
      sourceTypes := ["Repository", "Module", "Component", "APIEndpoint", "Route"]
      targetTypes :=
        ["APIEndpoint", "Route", "Function", "Method", "Component", "ExportDeclaration"]
    },
    {
      name := "ExecutesQuery"
      sourceTypes := ["Function", "Method", "CallExpression", "APIEndpoint", "Component"]
      targetTypes := ["Query"]
    },
    {
      name := "UsesSecret"
      sourceTypes :=
        ["Function", "Method", "CallExpression", "Component", "APIEndpoint", "Dependency"]
      targetTypes := ["SecretRef"]
    },
    {
      name := "Raises"
      sourceTypes := ["Function", "Method", "CallExpression", "ControlFlowBlock"]
      targetTypes := ["ExceptionFlow"]
    },
    {
      name := "Handles"
      sourceTypes := ["Function", "Method", "ControlFlowBlock", "ExceptionFlow"]
      targetTypes := ["ExceptionFlow"]
    },
    {
      name := "SyntaxChild"
      sourceTypes := ["SyntaxCapture"]
      targetTypes := ["SyntaxCapture"]
    },
    {
      name := "DerivedFrom"
      sourceTypes :=
        ["Symbol", "Class", "Function", "Method", "Parameter", "ReturnType", "TypeAnnotation",
          "TypeAlias", "Variable", "Constant", "ClassAttribute", "InstanceAttribute",
          "Property", "Decorator", "Assignment", "APIEndpoint", "Component", "Route", "Query",
          "SecretRef", "CallExpression", "Assignment", "Reference", "Literal", "Expression",
          "ControlFlowBlock", "ExceptionFlow", "Query", "SecretRef", "DocumentationSource",
          "DocumentationChunk", "Module", "ImportDeclaration", "ExportDeclaration"]
      targetTypes := ["SyntaxCapture"]
    },
    {
      name := "EvidencedBy"
      sourceTypes :=
        ["Repository", "File", "Module", "Symbol", "Class", "Function", "Method", "Parameter",
          "ReturnType", "TypeAnnotation", "TypeAlias", "Variable", "Constant", "ClassAttribute",
          "InstanceAttribute", "Property", "Decorator", "Assignment", "APIEndpoint",
          "Component", "Route", "Query", "SecretRef", "CallExpression", "Assignment",
          "Reference", "Literal", "Expression", "ControlFlowBlock", "ExceptionFlow", "Query",
          "SecretRef", "Dependency", "DocumentationSource", "DocumentationChunk"]
      targetTypes := ["SyntaxCapture", "File", "DocumentationChunk"]
    }
  ]

theorem permissive_graphSchema : Permissive (.fromMeta (some graphSchemaRelationTypes)) := by
  intro edgeType source target required
  obtain ⟨relation, inside, rfl, isSource, isTarget⟩ := required
  have covered
      : ∀ relation ∈ requiredRelations, ∃ declared ∈ graphSchemaRelationTypes,
          declared.name = relation.1
          ∧ relation.1 ≠ ""
          ∧ relation.2.1 ⊆ declared.sourceTypes
          ∧ relation.2.2 ⊆ declared.targetTypes := by
    decide
  obtain ⟨declared, shipped, named, nonempty, sources, targets⟩ := covered relation inside
  exact (RelationAllowlist.allows_fromMeta_some _ _ _ _).mpr
    ⟨declared, shipped, named, nonempty, sources isSource, targets isTarget⟩

/-- No tree makes a build fail under the built-in rules, that is without relations in the
metadata, nor under the shipped relation types. Witness: metadata that encode the shipped types.
-/
theorem buildSyntaxTreeGraphRows_total (environment : Environment) (metadata : Metadata)
    (root : SyntaxNode)
    (ontology : metadata.lookup "ontology_relations" = none
      ∨ ∃ encoded,
          metadata.lookup "ontology_relations" = some encoded
          ∧ environment.decodeRelations encoded = .ok graphSchemaRelationTypes)
    : ∃ rows, buildSyntaxTreeGraphRows environment metadata root = .ok rows := by
  rcases ontology with absent | ⟨encoded, found, decoded⟩
  · apply buildSyntaxTreeGraphRows_succeeds root _ permissive_default
    rw [relationAllowlistFromMeta, absent]
  · apply buildSyntaxTreeGraphRows_succeeds root _ permissive_graphSchema
    rw [relationAllowlistFromMeta, found]
    simp only [decoded]

theorem buildSyntaxTreeGraphRows_total_identifier
    : ∃ rows,
        buildSyntaxTreeGraphRows (asciiEnvironment graphSchemaRelationTypes)
          [("language", "python"),
            ("ontology_relations", relationTypesJson graphSchemaRelationTypes),
            ("path", "a.py")]
          identifierModule
        = .ok rows := by
  have found (relations : String)
      : List.lookup "ontology_relations"
          [("language", "python"), ("ontology_relations", relations), ("path", "a.py")]
        = some relations := by
    simp [List.lookup_cons]
  have decoded (relations : List OntologyRelationType)
      : (asciiEnvironment relations).decodeRelations (relationTypesJson relations)
        = .ok relations :=
    if_pos rfl
  apply buildSyntaxTreeGraphRows_total
  exact Or.inr ⟨_, found _, decoded _⟩

end CodebaseGraph.Partition

/-! Under the shipped ontology every node that stands for a piece of the source is derived from a
capture of its file, and can be reached from the row of the file.
-/

namespace CodebaseGraph.Partition

open CodebaseGraph.Collections
open CodebaseGraph.Hashing
open CodebaseGraph.Protocol
open CodebaseGraph.Sorting
open CodebaseGraph.Staging (GraphNodeRow GraphEdgeRow)
open CodebaseGraph.Syntax
open CodebaseGraph.Transition (exists_of_checked)

-- Reading an edge off its text

def HasEdge (rows : BuiltGraphRows) (edgeType sourceId targetId : String) : Prop :=
  ∃ edge ∈ rows.edges,
    edge.edgeType = edgeType ∧ edge.sourceId = sourceId ∧ edge.targetId = targetId

/-- The relations that lead from an owner to what it owns. -/
def owningTypes : List String := ["Contains", "HasParameter", "HasReturnType", "HasTypeAnnotation"]

def Owns (rows : BuiltGraphRows) (sourceId targetId : String) : Prop :=
  ∃ edgeType ∈ owningTypes, HasEdge rows edgeType sourceId targetId

section Stored

variable {environment : Environment} {path : String} {pending : String → Prop}
  {builder : NativeBuilder}

variable
  (traced :
    Traced ⟨environment, .fromMeta (some graphSchemaRelationTypes), path⟩ pending builder)

include traced

end Stored

-----------------------------------------------------------------------------------------
-- Provenance of every node

section Provenance

variable {environment : Environment} {path : String} {builder : NativeBuilder}

end Provenance

section Example

end Example

end CodebaseGraph.Partition
