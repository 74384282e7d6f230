import Mathlib.Data.UInt
import CodebaseGraph.Setup.Json
import CodebaseGraph.Wiki.Render.Routes
import CodebaseGraph.Wiki.Search.SearchIndex

/-! Bytes, lines and numbers as Rust's standard library reads them from a stream. -/

namespace CodebaseGraph.Mcp

open CodebaseGraph.Wiki.Render

abbrev Bytes := List UInt8

-- Text

def fromUtf8 (bytes : Bytes) : Option String := String.fromUTF8? ⟨bytes.toArray⟩

def isUtf8 (bytes : Bytes) : Bool := (fromUtf8 bytes).isSome

theorem bytesOf_of_fromUtf8 {bytes : Bytes} {text : String} (decoded : fromUtf8 bytes = some text)
    : bytesOf text = bytes := by
  unfold fromUtf8 String.fromUTF8? at decoded
  split at decoded
  · cases decoded
    rfl
  · cases decoded

theorem bytesOf_injective {first second : String} (same : bytesOf first = bytesOf second)
    : first = second :=
  String.toByteArray_inj.mp (ByteArray.ext (Array.toList_inj.mp same))

theorem fromUtf8_of_isUtf8 {bytes : Bytes} (valid : isUtf8 bytes)
    : ∃ text, fromUtf8 bytes = some text ∧ bytesOf text = bytes := by
  obtain ⟨text, decoded⟩ := Option.isSome_iff_exists.mp valid
  exact ⟨text, decoded, bytesOf_of_fromUtf8 decoded⟩

theorem fromUtf8_of_not_isUtf8 {bytes : Bytes} (invalid : isUtf8 bytes = false)
    : fromUtf8 bytes = none :=
  Option.not_isSome_iff_eq_none.mp (by simpa [isUtf8] using invalid)

/-- `str::parse::<usize>` on a 64-bit machine. -/
def parseUsize (text : String) : Option Nat :=
  let digits :=
    match text.toList with
    | '+' :: rest => rest
    | all => all
  if digits.isEmpty || !digits.all Char.isDigit then
    none
  else
    let value := digits.foldl (fun value digit => 10 * value + (digit.toNat - 48)) 0
    if value < 2 ^ 64 then some value else none

-----------------------------------------------------------------------------------------
-- Lines
-----------------------------------------------------------------------------------------

def newline : UInt8 := 10

def carriageReturn : UInt8 := 13

/-- The bytes up to the first newline and with it, and the bytes after. -/
def takeLine : Bytes → Bytes × Bytes
  | [] => ([], [])
  | byte :: input =>
      if byte = newline then
        ([byte], input)
      else
        (byte :: (takeLine input).1, (takeLine input).2)

theorem takeLine_line (line rest : Bytes) (single : newline ∉ line)
    : takeLine (line ++ newline :: rest) = (line ++ [newline], rest) := by
  induction line with
  | nil => simp [takeLine]
  | cons byte line ih =>
      have other : byte ≠ newline := fun same => single (same ▸ List.mem_cons_self)
      have further := ih (fun found => single (List.mem_cons_of_mem byte found))
      simp only [List.cons_append, takeLine, other, if_false, further]

theorem takeLine_unended (line : Bytes) (single : newline ∉ line) : takeLine line = (line, []) := by
  induction line with
  | nil => rfl
  | cons byte line ih =>
      have other : byte ≠ newline := fun same => single (same ▸ List.mem_cons_self)
      have further := ih (fun found => single (List.mem_cons_of_mem byte found))
      simp only [takeLine, other, if_false, further]

/-- `BufRead::read_line`: the line it reads and the input after it. -/
def readLine (input : Bytes) : Except String String × Bytes :=
  match fromUtf8 (takeLine input).1 with
  | some line => (.ok line, (takeLine input).2)
  | none => (.error "stream did not contain valid UTF-8", (takeLine input).2)

end CodebaseGraph.Mcp

/-! How an MCP session answers its messages (`src/adapters/mcp/protocol.rs`). -/

namespace CodebaseGraph.Mcp

open CodebaseGraph.Syntax (Value)

structure McpSession where
  protocolVersion : Option String := none
  initialized : Bool := false
deriving DecidableEq, Repr

/-- The tools a server offers; a call may change what the graph service holds. -/
structure McpTools (Api : Type) where
  generateMcpSpecs : Except String Value
  mcpCallToolResult : String → Value → Api → Except String Value × Api

structure McpServer (Api : Type) where
  session : McpSession
  api : Api

def packageVersion : String := "4.2.1"

def latestMcpProtocolVersion : String := "2025-11-25"

def negotiateProtocolVersion (requested : String) : String :=
  if requested ∈ ["2025-11-25", "2025-06-18", "2025-03-26", "2024-11-05"] then
    requested
  else
    latestMcpProtocolVersion

def rpcError (requestId : Value) (code : Int) (message : String) : Value :=
  .object
    [
      ("error", .object [("code", .number (toString code)), ("message", .string message)]),
      ("id", requestId),
      ("jsonrpc", .string "2.0")
    ]

def rpcResult (requestId result : Value) : Value :=
  .object [("id", requestId), ("jsonrpc", .string "2.0"), ("result", result)]

def initializeResult (protocolVersion : String) : Value :=
  .object
    [
      ("capabilities", .object [("tools", .object [("listChanged", .bool false)])]),
      ("protocolVersion", .string protocolVersion),
      ("serverInfo",
        .object [("name", .string "codebase_graph"), ("version", .string packageVersion)])
    ]

def requestId (message : Value) : Value := (message.get? "id").getD .null

def requestMethod (message : Value) : String := ((message.get? "method").bind Value.asStr).getD ""

def isNotificationMethod (method : String) : Bool := "notifications/".toList.isPrefixOf method.toList

section

variable {Api : Type} (tools : McpTools Api)

/-- The result of a request, or an error that is answered with the code of invalid parameters;
`none` is a method the server does not have.
-/
def dispatchMcpMethod (message : Value) (server : McpServer Api)
    : Option (Except String Value) × McpServer Api :=
  match requestMethod message with
  | "initialize" =>
      let requested :=
        (((message.get? "params").bind (fun params => params.get? "protocolVersion")).bind
          Value.asStr).getD ""
      let protocolVersion := negotiateProtocolVersion requested
      (
        some (.ok (initializeResult protocolVersion)),
        { server with session := { server.session with protocolVersion := some protocolVersion } }
      )
  | "ping" => (some (.ok (.object [])), server)
  | "tools/list" => (some tools.generateMcpSpecs, server)
  | "tools/call" =>
      let params := (message.get? "params").getD (.object [])
      let toolName := ((params.get? "name").bind Value.asStr).getD ""
      let arguments := (params.get? "arguments").getD (.object [])
      let (result, api) := tools.mcpCallToolResult toolName arguments server.api
      (some result, { server with api })
  | _ => (none, server)

def handleMcpMessage (message : Value) (server : McpServer Api)
    : Option Value × McpServer Api :=
  let method := requestMethod message
  if method = "notifications/initialized" then
    (none, { server with session := { server.session with initialized := true } })
  else if isNotificationMethod method then
    (none, server)
  else if (method = "tools/list" ∨ method = "tools/call")
      ∧ server.session.protocolVersion = none then
    (some (rpcError (requestId message) (-32002) "MCP session is not initialized"), server)
  else
    match dispatchMcpMethod tools message server with
    | (some (.ok result), server) => (some (rpcResult (requestId message) result), server)
    | (some (.error error), server) => (some (rpcError (requestId message) (-32602) error), server)
    | (none, server) =>
        (
          some
            (rpcError (requestId message) (-32601) s!"Unsupported MCP method: {method}"),
          server
        )

end

@[simp] theorem rpcError_id (id : Value) (code : Int) (message : String)
    : (rpcError id code message).get? "id" = some id := by
  simp [rpcError, Value.get?, Value.asObject]

@[simp] theorem rpcResult_id (id result : Value) : (rpcResult id result).get? "id" = some id := by
  simp [rpcResult, Value.get?, Value.asObject]

/-- A notification gets no answer. -/
theorem handleMcpMessage_notification {Api : Type} (tools : McpTools Api) (message : Value)
    (server : McpServer Api) (notification : isNotificationMethod (requestMethod message))
    : (handleMcpMessage tools message server).1 = none := by
  simp only [handleMcpMessage, notification, if_true]
  split <;> rfl

/-- Every other message gets one, with its own id. -/
theorem handleMcpMessage_request {Api : Type} (tools : McpTools Api) (message : Value)
    (server : McpServer Api) (request : isNotificationMethod (requestMethod message) = false)
    : ∃ response,
        (handleMcpMessage tools message server).1 = some response
        ∧ response.get? "id" = some (requestId message) := by
  have other : requestMethod message ≠ "notifications/initialized" := by
    intro initialized
    rw [initialized] at request
    exact absurd request (by decide)
  simp only [handleMcpMessage, other, request, if_false, Bool.false_eq_true]
  split
  · exact ⟨_, rfl, rpcError_id ..⟩
  · split
    · exact ⟨_, rfl, rpcResult_id ..⟩
    · exact ⟨_, rfl, rpcError_id ..⟩
    · exact ⟨_, rfl, rpcError_id ..⟩

end CodebaseGraph.Mcp

/-! The MCP server on standard input and output (`src/adapters/mcp/stdio.rs`). What it writes is
kept as the list of its messages, one line each.
-/

namespace CodebaseGraph.Mcp

open CodebaseGraph.Syntax (Value)
open CodebaseGraph.Wiki (splitOnce startsWith trim)
open CodebaseGraph.Wiki.Render (bytesOf)
open CodebaseGraph.Wiki.Search (toAsciiLowercase)

/-- What became of one reading: a message, nothing, or an error; the input after it, and what
was written.
-/
structure ReadMessage where
  result : Except String (Option Value)
  input : Bytes
  written : List Value

structure Served where
  outcome : Except String Unit
  input : Bytes
  output : List Value

def isLengthHeader (line : String) : Bool := startsWith (toAsciiLowercase line) "content-length:"

def headerLength (line : String) : Option Nat :=
  (splitOnce ':' line).bind (fun parts => parseUsize (trim parts.2))

/-- Reads lines up to a blank one; every line takes a byte of the input, which bounds them. -/
def skipHeaders : Nat → Bytes → Except String Unit × Bytes
  | 0, input => (.ok (), input)
  | fuel + 1, input =>
      match readLine input with
      | (.error error, rest) => (.error s!"failed to read MCP headers: {error}", rest)
      | (.ok line, rest) =>
          if line = "" ∨ line = "\n" ∨ line = "\r\n" then
            (.ok (), rest)
          else
            skipHeaders fuel rest

section

-- `serde_json::from_slice`
variable (fromSlice : Bytes → Except String Value)

def parseMcpPayload (data : Bytes) : Except String Value :=
  match fromSlice data with
  | .error error => .error error
  | .ok payload =>
      if payload.isObject then .ok payload else .error "JSON-RPC payload must be an object"

/-- A payload that is not a message is answered at once, and nothing is read. -/
def readMcpPayload (data rest : Bytes) : ReadMessage :=
  match parseMcpPayload fromSlice data with
  | .ok message => ⟨.ok (some message), rest, []⟩
  | .error error =>
      ⟨.ok none, rest, [rpcError .null (-32700) s!"Invalid JSON-RPC payload: {error}"]⟩

def readMcpMessage (input : Bytes) : ReadMessage :=
  match readLine input with
  | (.error error, rest) => ⟨.error s!"failed to read MCP frame: {error}", rest, []⟩
  | (.ok line, rest) =>
      if line = "" then
        ⟨.ok none, rest, []⟩
      else if isLengthHeader line then
        match headerLength line with
        | none =>
            ⟨
              .ok none,
              rest,
              [
                rpcError .null (-32700)
                  "Invalid JSON-RPC payload: Content-Length must be an integer"
              ]
            ⟩
        | some length =>
            match skipHeaders (rest.length + 1) rest with
            | (.error error, rest) => ⟨.error error, rest, []⟩
            | (.ok (), rest) =>
                if rest.length < length then
                  ⟨
                    .error
                      "Body ended before Content-Length bytes were read: failed to fill whole buffer",
                    [],
                    []
                  ⟩
                else
                  readMcpPayload fromSlice (rest.take length) (rest.drop length)
      else
        readMcpPayload fromSlice (bytesOf line) rest

variable {Api : Type} (tools : McpTools Api)

/-- The loop of the server; every message takes a byte of the input, which bounds it. -/
def serveMessages : Nat → Bytes → McpServer Api → Served
  | 0, input, _ => ⟨.ok (), input, []⟩
  | fuel + 1, input, server =>
      let read := readMcpMessage fromSlice input
      match read.result with
      | .error error => ⟨.error error, read.input, read.written⟩
      | .ok none => ⟨.ok (), read.input, read.written⟩
      | .ok (some message) =>
          let handled := handleMcpMessage tools message server
          let served := serveMessages fuel read.input handled.2
          { served with output := read.written ++ handled.1.toList ++ served.output }

def serveMcpStdio (startConfiguredApi : Except String Api) (input : Bytes) : Served :=
  match startConfiguredApi with
  | .error error => ⟨.error error, input, []⟩
  | .ok api => serveMessages fromSlice tools (input.length + 1) input { session := {}, api }

end

end CodebaseGraph.Mcp
