import CodebaseGraph.Wiki.Documents

/-! A YAML library that knows a table of front matters and their texts, with the JSON form of a
memory's metadata.
-/

namespace CodebaseGraph.Wiki

open CodebaseGraph.Collections CodebaseGraph.Transition

-----------------------------------------------------------------------------------------
-- Metadata as JSON
-----------------------------------------------------------------------------------------

def MemoryKind.ofText : String → Option MemoryKind
  | "semantic" => some .semantic
  | "episodic" => some .episodic
  | "procedural" => some .procedural
  | _ => none

def MemoryStatus.text : MemoryStatus → String
  | .candidate => "candidate"
  | .active => "active"
  | .superseded => "superseded"
  | .quarantined => "quarantined"

def MemoryStatus.ofText : String → Option MemoryStatus
  | "candidate" => some .candidate
  | "active" => some .active
  | "superseded" => some .superseded
  | "quarantined" => some .quarantined
  | _ => none

def optionJson : Option String → Syntax.Value
  | some text => .string text
  | none => .null

def textOrNull : Syntax.Value → Option (Option String)
  | .string text => some (some text)
  | .null => some none
  | _ => none

def stringsJson (texts : List String) : Syntax.Value := .array (texts.map Syntax.Value.string)

def stringsOf (value : Syntax.Value) : Option (List String) :=
  value.asArray.bind (fun items => items.mapM Syntax.Value.asStr)

def MemorySource.json (source : MemorySource) : Syntax.Value :=
  .object
    [
      ("content_hash", optionJson source.contentHash),
      ("kind", .string source.kind),
      ("reference", .string source.reference)
    ]

def MemorySource.ofJson : Syntax.Value → Option MemorySource
  | .object [("content_hash", hash), ("kind", .string kind), ("reference", .string reference)] =>
      (textOrNull hash).map (fun contentHash => { kind, reference, contentHash })
  | _ => none

def MemoryTransition.json (transition : MemoryTransition) : Syntax.Value :=
  .object
    [
      ("actor", .string transition.actor),
      ("at", .string transition.at_),
      ("from", .string transition.fromStatus.text),
      ("reason", .string transition.reason),
      ("to", .string transition.toStatus.text)
    ]

def MemoryTransition.ofJson : Syntax.Value → Option MemoryTransition
  | .object
      [("actor", .string actor), ("at", .string at_), ("from", .string fromStatus),
        ("reason", .string reason), ("to", .string toStatus)] => do
      let fromStatus ← MemoryStatus.ofText fromStatus
      let toStatus ← MemoryStatus.ofText toStatus
      return { fromStatus, toStatus, actor, at_, reason }
  | _ => none

def AgentMemoryMetadata.json (metadata : AgentMemoryMetadata) : Syntax.Value :=
  .object
    [
      ("created_at", .string metadata.createdAt),
      ("history", .array (metadata.history.map MemoryTransition.json)),
      ("kind", .string metadata.kind.pathSegment),
      ("last_verified_at", optionJson metadata.lastVerifiedAt),
      ("owner", .string metadata.owner),
      ("review_after", optionJson metadata.reviewAfter),
      ("scope", .string metadata.scope),
      ("sources", .array (metadata.sources.map MemorySource.json)),
      ("status", .string metadata.status.text),
      ("superseded_by", optionJson metadata.supersededBy),
      ("supersedes", stringsJson metadata.supersedes),
      ("verified_by", optionJson metadata.verifiedBy),
      ("version", .number "1")
    ]

def AgentMemoryMetadata.ofJson : Syntax.Value → Option AgentMemoryMetadata
  | .object
      [("created_at", .string createdAt), ("history", .array history), ("kind", .string kind),
        ("last_verified_at", lastVerifiedAt), ("owner", .string owner),
        ("review_after", reviewAfter), ("scope", .string scope), ("sources", .array sources),
        ("status", .string status), ("superseded_by", supersededBy), ("supersedes", supersedes),
        ("verified_by", verifiedBy), ("version", .number "1")] => do
      let history ← history.mapM MemoryTransition.ofJson
      let kind ← MemoryKind.ofText kind
      let lastVerifiedAt ← textOrNull lastVerifiedAt
      let reviewAfter ← textOrNull reviewAfter
      let sources ← sources.mapM MemorySource.ofJson
      let status ← MemoryStatus.ofText status
      let supersededBy ← textOrNull supersededBy
      let supersedes ← stringsOf supersedes
      let verifiedBy ← textOrNull verifiedBy
      return {
        version := agentMemoryVersion, kind, scope, status, owner, createdAt, lastVerifiedAt,
        verifiedBy, reviewAfter, supersedes, supersededBy, sources, history
      }
  | _ => none

-- The library

inductive SampleYaml where
  | text (text : String)
  | texts (texts : List String)
  | memory (metadata : AgentMemoryMetadata)
deriving DecidableEq, Repr

namespace SampleYaml

def asStr : SampleYaml → Option String
  | .text value => some value
  | _ => none

def asSequence : SampleYaml → Option (List SampleYaml)
  | .texts values => some (values.map .text)
  | _ => none

def ofSequence (items : List SampleYaml) : SampleYaml := .texts (items.filterMap asStr)

def toJson : SampleYaml → Option Syntax.Value
  | .text value => some (.string value)
  | .texts values => some (stringsJson values)
  | .memory metadata => some metadata.json

def ofJson (value : Syntax.Value) : Option SampleYaml :=
  match AgentMemoryMetadata.ofJson value, value.asStr, stringsOf value with
  | some metadata, _, _ => some (.memory metadata)
  | none, some value, _ => some (.text value)
  | none, none, some values => some (.texts values)
  | none, none, none => none

def encodeMetadata (metadata : AgentMemoryMetadata) : Except String SampleYaml :=
  if metadata.version = agentMemoryVersion then .ok (.memory metadata)
  else .error "unknown version"

end SampleYaml

/-- Front matters and their texts. -/
abbrev SampleTable := List (SortedMap String SampleYaml × String)

def sampleLibrary (table : SampleTable) : YamlLibrary SampleYaml where
  string := .text
  sequence := SampleYaml.ofSequence
  asStr := SampleYaml.asStr
  asSequence := SampleYaml.asSequence
  toText map := (table.find? (fun entry => entry.1 = map)).map Prod.snd
  fromText text :=
    match table.find? (fun entry => entry.2 = text) with
    | some entry => .ok entry.1
    | none => .error "frontmatter must be a valid YAML mapping"
  mapping text :=
    (table.find? (fun entry => entry.2 = text)).map
      (fun entry => entry.1.entries.map (fun field => (.text field.1, field.2)))
  toJson := SampleYaml.toJson
  ofJson := SampleYaml.ofJson
  encodeMetadata := SampleYaml.encodeMetadata
  decodeMetadata := AgentMemoryMetadata.ofJson

variable {pages : List (SortedMap String SampleYaml × List String)}

end CodebaseGraph.Wiki
