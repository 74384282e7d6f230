import CodebaseGraph.Transition.Fallible
import CodebaseGraph.Wiki.Model
import CodebaseGraph.Wiki.Text

/-! The metadata of agent memory (`crates/k-wiki/src/memory.rs`). -/

namespace CodebaseGraph.Wiki

open CodebaseGraph.Collections CodebaseGraph.Transition

def agentMemoryVersion : Nat := 1

inductive MemoryKind where
  | semantic
  | episodic
  | procedural
deriving DecidableEq, Repr

def MemoryKind.pathSegment : MemoryKind → String
  | .semantic => "semantic"
  | .episodic => "episodic"
  | .procedural => "procedural"

inductive MemoryStatus where
  | candidate
  | active
  | superseded
  | quarantined
deriving DecidableEq, Repr

structure MemorySource where
  kind : String
  reference : String
  contentHash : Option String
deriving DecidableEq, Repr

/-- One entry of a memory's history. -/
structure MemoryTransition where
  fromStatus : MemoryStatus
  toStatus : MemoryStatus
  actor : String
  at_ : String
  reason : String
deriving DecidableEq, Repr

structure AgentMemoryMetadata where
  version : Nat
  kind : MemoryKind
  scope : String
  status : MemoryStatus
  owner : String
  createdAt : String
  lastVerifiedAt : Option String
  verifiedBy : Option String
  reviewAfter : Option String
  supersedes : List String
  supersededBy : Option String
  sources : List MemorySource
  history : List MemoryTransition
deriving DecidableEq, Repr

end CodebaseGraph.Wiki
