import CodebaseGraph.Setup.Json
import Mathlib.Algebra.Ring.Nat
import Mathlib.Data.List.Infix

/-! The hooks that are installed for the agents' clients (`src/agent_hooks.rs`): how they are merged
into a client's configuration and removed from it. Commands are quoted as on Unix.
-/

namespace CodebaseGraph.Setup

open CodebaseGraph.Collections CodebaseGraph.Syntax

def managedId : String := "codebase-graph-v1"

inductive AgentHookClient where
  | codex
  | claude
  | githubCopilot
deriving DecidableEq, Repr

def AgentHookClient.id : AgentHookClient → String
  | .codex => "codex"
  | .claude => "claude"
  | .githubCopilot => "github-copilot"

def eventNames : AgentHookClient → List String
  | .codex | .claude => ["SessionStart", "UserPromptSubmit", "PreToolUse", "SubagentStart"]
  | .githubCopilot =>
      ["sessionStart", "userPromptSubmitted", "preToolUse", "postToolUse", "subagentStart"]

-- Managed handlers

def containsText (text part : String) : Bool := decide (part.toList <:+: text.toList)

def apostrophe : Char := Char.ofNat 39

/-- A text between apostrophes; those within it are written differently. -/
def quoteWith (written value : String) : String :=
  "'"
    ++ String.ofList
      (value.toList.flatMap
        (fun character => if character = apostrophe then written.toList else [character]))
    ++ "'"

def shellQuote (value : String) : String := quoteWith "'\\''" value

def powershellQuote (value : String) : String := quoteWith "''" value

def hookCommand (client : AgentHookClient) (configPath serverCommand : String) : String :=
  shellQuote serverCommand ++ " agent-hooks run --client " ++ client.id ++ " --config "
    ++ shellQuote configPath ++ " --managed-id " ++ managedId

def windowsHookCommand (client : AgentHookClient) (configPath serverCommand : String) : String :=
  "& " ++ powershellQuote serverCommand ++ " agent-hooks run --client " ++ client.id
    ++ " --config " ++ powershellQuote configPath ++ " --managed-id " ++ managedId

def promptVariable : String := "$\x7bCOPILOT_AGENT_PROMPT:-\x7d"

def bashHook (serverCommand command : String) : String :=
  "if [ -n \"" ++ promptVariable ++ "\" ] || ! command -v " ++ shellQuote serverCommand
    ++ " >/dev/null 2>&1; then exit 0; fi; " ++ command

def powershellHook (serverCommand command : String) : String :=
  "if ($env:COPILOT_AGENT_PROMPT -or -not (Get-Command " ++ powershellQuote serverCommand
    ++ " -ErrorAction SilentlyContinue)) \x7b exit 0 \x7d; " ++ command

def managedHook (client : AgentHookClient) (configPath serverCommand : String) : Value :=
  let command := hookCommand client configPath serverCommand
  let commandWindows := windowsHookCommand client configPath serverCommand
  match client with
  | .codex =>
      .object
        [
          ("command", .string command), ("commandWindows", .string commandWindows),
          ("timeout", .number "3"), ("type", .string "command")
        ]
  | .claude =>
      .object
        [
          (
            "args",
            .array
              [
                .string "agent-hooks", .string "run", .string "--client", .string client.id,
                .string "--config", .string configPath, .string "--managed-id",
                .string managedId
              ]
          ),
          ("command", .string serverCommand), ("timeout", .number "3"),
          ("type", .string "command")
        ]
  | .githubCopilot =>
      .object
        [
          ("bash", .string (bashHook serverCommand command)),
          ("powershell", .string (powershellHook serverCommand commandWindows)),
          ("timeout", .number "3"), ("type", .string "command")
        ]

/-- A field holds a command line with our identity. -/
def namesManagedId (value : Value) (key : String) : Bool :=
  ((value.get? key).bind Value.asStr).any
    (fun command => containsText command "--managed-id" && containsText command managedId)

/-- Two neighbouring arguments are our identity. -/
def passesManagedId (items : List Value) : Bool :=
  (items.zip items.tail).any
    (fun pair => pair.1.asStr = some "--managed-id" && pair.2.asStr = some managedId)

def managedCommand (value : Value) : Bool :=
  namesManagedId value "command" || namesManagedId value "bash"
    || namesManagedId value "powershell" || (value.items? "args").any passesManagedId

-- Removing

/-- The entries that are not managed. -/
def retainForeign (entries : List Value) : List Value :=
  entries.filter (fun entry => !managedCommand entry)

/-- The entries that are no groups without handlers. -/
def retainFilled (entries : List Value) : List Value :=
  entries.filter (fun entry => (entry.items? "hooks").all (fun children => !children.isEmpty))

/-- A group without its managed handlers. -/
def stripNested (hook : Value) : Value :=
  match hook.items? "hooks" with
  | some nested => hook.modify "hooks" (fun _ => .array (retainForeign nested))
  | none => hook

/-- Whether the group has managed handlers of its own. -/
def nestsManaged (hook : Value) : Bool :=
  (hook.items? "hooks").any (fun nested => (retainForeign nested).length ≠ nested.length)

def removeManagedFromEvent (event : Value) : Value × Bool :=
  match event.items? "hooks" with
  | some hooks =>
      let kept := retainForeign hooks
      let filled := retainFilled (kept.map stripNested)
      (
        event.modify "hooks" (fun _ => .array filled),
        kept.any nestsManaged || filled.length ≠ hooks.length
      )
  | none => (event, false)

/-- The entries of an event without the managed handlers. -/
def stripEntries (entries : List Value) : List Value :=
  retainFilled ((retainForeign entries).map (fun entry => (removeManagedFromEvent entry).1))

/-- Whether stripping the entries counts as a change. -/
def stripsEntries (entries : List Value) : Bool :=
  (retainForeign entries).length ≠ entries.length
    || (retainForeign entries).any (fun entry => (removeManagedFromEvent entry).2)

def stripEvent (event : Value) : Value :=
  match event with
  | .array entries => .array (stripEntries entries)
  | other => other

/-- The pass of `remove_agent_hooks` over a configuration. -/
def removeHooks (root : Value) : Value × Bool :=
  match (root.get? "hooks").bind Value.asObject with
  | some hooks =>
      (
        root.modify "hooks"
          (fun _ => .object (hooks.map (fun event => (event.1, stripEvent event.2)))),
        hooks.any (fun event => event.2.asArray.any stripsEntries)
      )
  | none => (root, false)

-- Merging

/-- The entry that an event gets. -/
def generatedEntry (client : AgentHookClient) (configPath serverCommand name : String) : Value :=
  let hook := managedHook client configPath serverCommand
  let generated :=
    if client = .githubCopilot then hook else .object [("hooks", .array [hook])]
  if name ∈ ["PreToolUse", "PostToolUse", "preToolUse", "postToolUse"] then
    generated.insert "matcher" (.string ".*")
  else generated

def mergeEvent (client : AgentHookClient) (configPath serverCommand : String)
    (hooks : List (String × Value)) (name : String)
    : Except String (List (String × Value)) :=
  let event :=
    ((hooks.find? (fun entry => entry.1 = name)).map Prod.snd).getD (.array [])
  match event.asArray with
  | some entries =>
      .ok
        (insertSorted name
          (.array
            (stripEntries entries ++ [generatedEntry client configPath serverCommand name]))
          hooks)
  | none => .error ("agent hook event " ++ name ++ " must be an array")

/-- The root that the events are entered into. -/
def preparedRoot (client : AgentHookClient) (root : Value) : Value :=
  let root :=
    if client = .githubCopilot && (root.get? "version").isNone then
      root.insert "version" (.number "1")
    else root
  if (root.get? "hooks").any Value.isObject then root else root.insert "hooks" (.object [])

/-- The merged configuration, which counts as changed when there is an event. -/
def mergeHooks (client : AgentHookClient) (root : Value) (configPath serverCommand : String)
    : Except String (Value × Bool) :=
  if !root.isObject then .error "agent hook configuration must be a JSON object"
  else
    let root := preparedRoot client root
    match (root.get? "hooks").bind Value.asObject with
    | some hooks => do
        let merged ← (eventNames client).foldlM (mergeEvent client configPath serverCommand) hooks
        return (root.modify "hooks" (fun _ => .object merged), !(eventNames client).isEmpty)
    | none => .error "agent hook configuration hooks must be an object"

/-- The managed handlers of an event. -/
def countManagedHandlers (event : Value) : Nat :=
  ((event.asArray.getD []).map
    (fun entry =>
      (if managedCommand entry then 1 else 0)
        + ((entry.items? "hooks").getD []).countP managedCommand)).sum

end CodebaseGraph.Setup
