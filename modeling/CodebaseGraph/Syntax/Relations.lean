import CodebaseGraph.Protocol.Request

/-! Which relations an edge may stand for (`src/syntax_materializer/relations.rs`, `ids.rs`).
-/

namespace CodebaseGraph.Syntax

open CodebaseGraph.Protocol

def isSymbolTarget (table : String) : Bool :=
  ["Symbol", "Class", "Function", "Method", "Variable", "Constant", "ClassAttribute",
    "InstanceAttribute", "Property", "Parameter"].contains table

def isDeclaration (table : String) : Bool :=
  ["Symbol", "Class", "Function", "Method", "Parameter", "ReturnType", "TypeAnnotation",
    "TypeAlias", "Variable", "Constant", "ClassAttribute", "InstanceAttribute", "Property",
    "Decorator", "Assignment", "APIEndpoint", "Component", "Route", "Query",
    "SecretRef"].contains table

def isExpression (table : String) : Bool :=
  ["CallExpression", "Assignment", "Reference", "Literal", "Expression", "ControlFlowBlock",
    "ExceptionFlow", "Query", "SecretRef"].contains table

def isDocumentation (table : String) : Bool :=
  ["DocumentationSource", "DocumentationChunk"].contains table

def defaultRelationAllowed (edgeType source target : String) : Bool :=
  match edgeType with
  | "Imports" =>
      ["File", "Module", "Scope"].contains source
      && ["ImportDeclaration", "Dependency", "Module", "Symbol"].contains target
  | "References" =>
      ["Reference", "Expression", "CallExpression", "Assignment", "ControlFlowBlock",
        "TypeAnnotation", "Decorator", "Query", "SecretRef"].contains source
      && (isSymbolTarget target || ["Module", "Dependency"].contains target)
  | "Calls" =>
      ["Function", "Method", "CallExpression", "Decorator", "APIEndpoint", "Route",
        "Component"].contains source
      && ["CallExpression", "Function", "Method", "Class", "APIEndpoint"].contains target
  | "ResolvesTo" =>
      ["Reference", "ImportDeclaration", "CallExpression", "TypeAnnotation",
        "Decorator"].contains source
      && (isSymbolTarget target || ["Module", "Dependency"].contains target)
  | "Documents" =>
      ["DocumentationSource", "DocumentationChunk", "Literal"].contains source
      && (["Repository", "File", "Module"].contains target || isDeclaration target)
  | "EvidencedBy" =>
      (["Repository", "File", "Module", "Dependency"].contains source || isDeclaration source
        || isExpression source || isDocumentation source)
      && ["SyntaxCapture", "File", "DocumentationChunk"].contains target
  | _ => true

structure RelationAllowlist where
  enabled : Bool := false
  pairsByRelation : String → Option (List (String × String)) := fun _ => none

namespace RelationAllowlist

/-- One turn of the loop of `from_meta`. -/
def addRelation (pairs : String → Option (List (String × String)))
    (relation : OntologyRelationType)
    : String → Option (List (String × String)) :=
  if relation.name = "" then pairs
  else fun name =>
    if name = relation.name then
      some
        ((pairs name).getD []
          ++ relation.sourceTypes.flatMap (fun source =>
            relation.targetTypes.map (fun target => (source, target))))
    else pairs name

/-- `from_meta` on the decoded relations of the metadata, when these are present. -/
def fromMeta : Option (List OntologyRelationType) → RelationAllowlist
  | none => {}
  | some relations =>
      { enabled := true, pairsByRelation := relations.foldl addRelation (fun _ => none) }

def allows (allowlist : RelationAllowlist) (edgeType source target : String) : Bool :=
  if allowlist.enabled then
    match allowlist.pairsByRelation edgeType with
    | some pairs => pairs.contains (source, target)
    | none => false
  else defaultRelationAllowed edgeType source target

/-- A pair is allowed exactly when some relation of that name lists both of its ends. -/
theorem allows_fromMeta_some (relations : List OntologyRelationType)
    (edgeType source target : String)
    : (fromMeta (some relations)).allows edgeType source target = true
      ↔ ∃ relation ∈ relations,
          relation.name = edgeType
          ∧ edgeType ≠ ""
          ∧ source ∈ relation.sourceTypes
          ∧ target ∈ relation.targetTypes := by
  have listed (pairs : String → Option (List (String × String)))
      : (match relations.foldl addRelation pairs edgeType with
        | some found => found.contains (source, target)
        | none => false) = true
        ↔ (∃ found, pairs edgeType = some found ∧ (source, target) ∈ found)
          ∨ ∃ relation ∈ relations,
              relation.name = edgeType
              ∧ edgeType ≠ ""
              ∧ source ∈ relation.sourceTypes
              ∧ target ∈ relation.targetTypes := by
    induction relations generalizing pairs with
    | nil =>
        simp only [List.foldl_nil, List.not_mem_nil, false_and, exists_false, or_false]
        cases pairs edgeType <;> simp
    | cons relation rest ih =>
        rw [List.foldl_cons, ih]
        simp only [List.exists_mem_cons_iff, ← or_assoc]
        refine or_congr_left ?_
        by_cases unnamed : relation.name = ""
        · simp only [addRelation, unnamed, if_true]
          constructor
          · exact Or.inl
          · rintro (found | ⟨rfl, named, -⟩)
            · exact found
            · exact absurd rfl named
        · simp only [addRelation, unnamed, if_false]
          by_cases named : edgeType = relation.name
          · subst named
            cases pairs relation.name <;> simp [unnamed]
          · simp [named, Ne.symm named]
  simpa [allows, fromMeta] using listed (fun _ => none)

end RelationAllowlist

end CodebaseGraph.Syntax
