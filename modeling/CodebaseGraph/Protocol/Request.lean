import CodebaseGraph.Sorting.Cursors
import Mathlib.Data.String.Basic

/-! Materialization requests and the payload of their compatibility digest (`src/protocol.rs`).
-/

namespace CodebaseGraph.Protocol

open CodebaseGraph.Sorting

structure CaptureMapping where
  captureName : String
  parserNodeTypes : List String := []
  targetNodeType : String
  relationTypes : List String := []
  contextRule : String := ""
  construct : String := ""
deriving DecidableEq, Repr

structure LanguageProfile where
  language : String
  suffixes : List String := []
  grammarPackage : String := ""
  grammarVersion : String
  rootNodeTypes : List String
  captureMappings : List CaptureMapping := []
deriving DecidableEq, Repr

structure OntologyRelationType where
  name : String := ""
  sourceTypes : List String := []
  targetTypes : List String := []
deriving DecidableEq, Repr

structure OntologySchema where
  relationTypes : List OntologyRelationType := []
deriving DecidableEq, Repr

/-- The fields of a request that shape the graph; the others say where and how to build it. -/
structure NativeSyntaxMaterializationRequest where
  sourceRoot : String
  repositoryLabel : String
  parserVersion : String
  manifestSchemaVersion : Nat
  ontology : String
  ontologySchema : OntologySchema := {}
  profiles : List LanguageProfile
  excludedParts : List String
  includePatterns : List String := []
  excludePatterns : List String := []
  ignorePatterns : List String := []
  includeFts : Bool
  schemaStatements : List String := []
deriving DecidableEq, Repr

def graphBuildDigestFormatVersion : Nat := 5

def profileCompatibilityVersion : Nat := 2

def searchBackendFormatVersion : Nat := 1

structure GraphBuildDigestInput where
  formatVersion : Nat
  profileCompatibilityVersion : Nat
  sourceRoot : String
  repositoryLabel : String
  manifestSchemaVersion : Nat
  ontology : String
  ontologyRelationTypes : List OntologyRelationType
  parserVersion : String
  profiles : List LanguageProfile
  excludedParts : List String
  includePatterns : List String
  excludePatterns : List String
  ignorePatterns : List String
  includeFts : Bool
  searchBackendFormatVersion : Option Nat
  schemaStatements : List String
deriving DecidableEq, Repr

def OntologyRelationType.sorted (relation : OntologyRelationType) : OntologyRelationType :=
  {
    relation with
    sourceTypes := sortBy id relation.sourceTypes,
    targetTypes := sortBy id relation.targetTypes
  }

def CaptureMapping.sorted (mapping : CaptureMapping) : CaptureMapping :=
  {
    mapping with
    parserNodeTypes := sortBy id mapping.parserNodeTypes,
    relationTypes := sortBy id mapping.relationTypes
  }

def LanguageProfile.sorted (profile : LanguageProfile) : LanguageProfile :=
  {
    profile with
    suffixes := sortBy id profile.suffixes,
    rootNodeTypes := sortBy id profile.rootNodeTypes,
    captureMappings :=
      (sortBy CaptureMapping.captureName profile.captureMappings).map CaptureMapping.sorted
  }

/-- The value whose JSON `graph_build_compatibility_digest` hashes. -/
def NativeSyntaxMaterializationRequest.graphBuildDigestInput
    (request : NativeSyntaxMaterializationRequest)
    : GraphBuildDigestInput where
  formatVersion := graphBuildDigestFormatVersion
  profileCompatibilityVersion := profileCompatibilityVersion
  sourceRoot := request.sourceRoot
  repositoryLabel := request.repositoryLabel
  manifestSchemaVersion := request.manifestSchemaVersion
  ontology := request.ontology
  ontologyRelationTypes :=
    (sortBy OntologyRelationType.name request.ontologySchema.relationTypes).map
      OntologyRelationType.sorted
  parserVersion := request.parserVersion
  profiles :=
    (sortBy LanguageProfile.language request.profiles).map LanguageProfile.sorted
  excludedParts := sortBy id request.excludedParts
  includePatterns := sortBy id request.includePatterns
  excludePatterns := sortBy id request.excludePatterns
  ignorePatterns := sortBy id request.ignorePatterns
  includeFts := request.includeFts
  searchBackendFormatVersion :=
    if request.includeFts then some searchBackendFormatVersion else none
  schemaStatements := sortBy id request.schemaStatements

end CodebaseGraph.Protocol
