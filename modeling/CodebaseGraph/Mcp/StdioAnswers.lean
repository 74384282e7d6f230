import CodebaseGraph.Mcp.Stdio

/-! What the stdio server makes of an input that consists of frames: it answers all of them
exactly if its lines are text and no payload but the last is malformed.
-/

namespace CodebaseGraph.Mcp

open CodebaseGraph.Syntax (Value)
open CodebaseGraph.Wiki.Render (bytesOf)

-- Frames

/-- A line is kept with its newline. The lines of a `Content-Length` frame are kept without. -/
inductive Frame where
  | line (text : Bytes)
  | content (header : Bytes) (headers : List Bytes) (blank body : Bytes)
deriving DecidableEq, Repr

/-- The length in a line that is a `Content-Length` header. -/
def frameLength (line : Bytes) : Option Nat :=
  (fromUtf8 line).bind (fun text => if isLengthHeader text then headerLength text else none)

namespace Frame

def bytes : Frame → Bytes
  | line text => text
  | content header headers blank body =>
      header ++ newline :: (headers.flatMap (· ++ [newline]) ++ (blank ++ newline :: body))

def payload : Frame → Bytes
  | line text => text
  | content _ _ _ body => body

def WellFormed : Frame → Prop
  | line text => text ≠ [] ∧ newline ∉ text.dropLast ∧ frameLength text = none
  | content header headers blank body =>
      newline ∉ header
      ∧ frameLength (header ++ [newline]) = some body.length
      ∧ (∀ line ∈ headers, newline ∉ line ∧ line ≠ [] ∧ line ≠ [carriageReturn])
      ∧ (blank = [] ∨ blank = [carriageReturn])

/-- Only the last line of an input may lack its newline. -/
def Ended : Frame → Prop
  | line text => text.getLast? = some newline
  | content .. => True

/-- Whether the lines of a frame are text. -/
def IsText : Frame → Prop
  | line text => isUtf8 text
  | content _ headers _ _ => ∀ line ∈ headers, isUtf8 (line ++ [newline])

end Frame

/-- An input made of frames. -/
structure McpInput where
  frames : List Frame
  wellFormed : ∀ frame ∈ frames, frame.WellFormed
  ended : ∀ frame ∈ frames.dropLast, frame.Ended

def McpInput.bytes (input : McpInput) : Bytes := input.frames.flatMap Frame.bytes

def McpInput.payloads (input : McpInput) : List Bytes := input.frames.map Frame.payload

-- Answers

section

variable (fromSlice : Bytes → Except String Value) {Api : Type} (tools : McpTools Api)

/-- What is written for one payload, and the server after it. -/
inductive Answered (server : McpServer Api) (payload : Bytes)
    : List Value → McpServer Api → Prop where
  | malformed (error text : String) (rejected : parseMcpPayload fromSlice payload = .error error)
      : Answered server payload [rpcError .null (-32700) text] server
  | notification (message : Value) (accepted : parseMcpPayload fromSlice payload = .ok message)
      (kind : isNotificationMethod (requestMethod message))
      : Answered server payload [] (handleMcpMessage tools message server).2
  | request (message response : Value)
      (accepted : parseMcpPayload fromSlice payload = .ok message)
      (kind : isNotificationMethod (requestMethod message) = false)
      (answer : (handleMcpMessage tools message server).1 = some response)
      (sameId : response.get? "id" = some (requestId message))
      : Answered server payload [response] (handleMcpMessage tools message server).2

/-- What is written for all payloads, in their order. -/
inductive Answers : McpServer Api → List Bytes → List Value → Prop where
  | nil (server : McpServer Api) : Answers server [] []
  | cons {server next : McpServer Api} {payload : Bytes} {payloads : List Bytes}
      {written output : List Value} (first : Answered fromSlice tools server payload written next)
      (rest : Answers next payloads output) : Answers server (payload :: payloads) (written ++ output)

def IsMessage (payload : Bytes) : Prop := ∃ message, parseMcpPayload fromSlice payload = .ok message

/-- The server has answered all payloads and come to the end of its input. -/
structure ServesAll (server : McpServer Api) (payloads : List Bytes) (served : Served) : Prop where
  finished : served.outcome = .ok ()
  exhausted : served.input = []
  answered : Answers fromSlice tools server payloads served.output

end

-----------------------------------------------------------------------------------------
-- Reading a frame
-----------------------------------------------------------------------------------------

theorem takeLine_text {text rest : Bytes} (more : text ≠ []) (single : newline ∉ text.dropLast)
    (ended : text.getLast? = some newline ∨ rest = [])
    : takeLine (text ++ rest) = (text, rest) := by
  have whole := List.dropLast_concat_getLast more
  by_cases last : text.getLast more = newline
  · rw [last] at whole
    have read := takeLine_line text.dropLast rest single
    rwa [← List.singleton_append, ← List.append_assoc, whole] at read
  · have unended : rest = [] := by
      rcases ended with final | done
      · rw [List.getLast?_eq_some_getLast more, Option.some.injEq] at final
        exact absurd final last
      · exact done
    have absent : newline ∉ text := by
      rw [← whole, List.mem_append, List.mem_singleton]
      rintro (found | same)
      · exact single found
      · exact last same.symm
    rw [unended, List.append_nil]
    exact takeLine_unended text absent

theorem readLine_line {line rest : Bytes} {text : String} (single : newline ∉ line)
    (decoded : fromUtf8 (line ++ [newline]) = some text)
    : readLine (line ++ newline :: rest) = (.ok text, rest) := by
  simp only [readLine, takeLine_line line rest single, decoded]

theorem bytesOf_empty : bytesOf "" = [] := by decide

theorem bytesOf_newline : bytesOf "\n" = [newline] := by decide

theorem bytesOf_crlf : bytesOf "\r\n" = [carriageReturn, newline] := by decide

theorem fromUtf8_blank {blank : Bytes} (kind : blank = [] ∨ blank = [carriageReturn])
    : ∃ text, fromUtf8 (blank ++ [newline]) = some text ∧ (text = "\n" ∨ text = "\r\n") := by
  rcases kind with rfl | rfl
  · exact ⟨"\n", by decide, Or.inl rfl⟩
  · exact ⟨"\r\n", by decide, Or.inr rfl⟩

/-- The text of a header line is not that of a blank one. -/
theorem text_ne_blank {line : Bytes} {text : String}
    (decoded : fromUtf8 (line ++ [newline]) = some text) (filled : line ≠ [])
    (other : line ≠ [carriageReturn])
    : ¬(text = "" ∨ text = "\n" ∨ text = "\r\n") := by
  have bytes := bytesOf_of_fromUtf8 decoded
  rintro (rfl | rfl | rfl)
  · rw [bytesOf_empty] at bytes
    exact absurd bytes.symm (by simp)
  · rw [bytesOf_newline] at bytes
    exact filled (List.append_cancel_right (bytes.symm.trans (List.nil_append _).symm))
  · rw [bytesOf_crlf] at bytes
    have same : line ++ [newline] = [carriageReturn] ++ [newline] := bytes.symm
    exact other (List.append_cancel_right same)

theorem headerBytes_cons (line : Bytes) (headers : List Bytes) (rest : Bytes)
    : (line :: headers).flatMap (· ++ [newline]) ++ rest
      = line ++ newline :: (headers.flatMap (· ++ [newline]) ++ rest) := by
  simp

theorem headers_length_le (headers : List Bytes) (rest : Bytes)
    : headers.length ≤ (headers.flatMap (· ++ [newline]) ++ rest).length := by
  induction headers with
  | nil => exact Nat.zero_le _
  | cons line headers ih =>
      rw [headerBytes_cons]
      simp only [List.length_cons, List.length_append] at ih ⊢
      omega

/-- Header lines are skipped up to the blank line and with it. -/
theorem skipHeaders_lines (fuel : Nat) (headers : List Bytes) (blank rest : Bytes)
    (lines : ∀ line ∈ headers, newline ∉ line ∧ line ≠ [] ∧ line ≠ [carriageReturn])
    (texts : ∀ line ∈ headers, isUtf8 (line ++ [newline]))
    (kind : blank = [] ∨ blank = [carriageReturn]) (enough : headers.length < fuel)
    : skipHeaders fuel (headers.flatMap (· ++ [newline]) ++ (blank ++ newline :: rest))
      = (.ok (), rest) := by
  induction headers generalizing fuel with
  | nil =>
      obtain ⟨text, decoded, ending⟩ := fromUtf8_blank kind
      have single : newline ∉ blank := by
        rcases kind with rfl | rfl <;> decide
      obtain _ | fuel := fuel
      · cases enough
      · simp only [List.flatMap_nil, List.nil_append, skipHeaders,
          readLine_line single decoded, Or.inr ending, if_true]
  | cons line headers ih =>
      obtain ⟨text, decoded, -⟩ := fromUtf8_of_isUtf8 (texts line List.mem_cons_self)
      obtain ⟨single, filled, other⟩ := lines line List.mem_cons_self
      have further := ih (fuel - 1)
        (fun line found => lines line (List.mem_cons_of_mem _ found))
        (fun line found => texts line (List.mem_cons_of_mem _ found))
        (by simp only [List.length_cons] at enough; omega)
      obtain _ | fuel := fuel
      · cases enough
      · simp only [headerBytes_cons, skipHeaders, readLine_line single decoded,
          text_ne_blank decoded filled other, if_false]
        exact further

/-- A header line that is not text stops the reading. -/
theorem skipHeaders_fails (fuel : Nat) (headers : List Bytes) (rest : Bytes)
    (lines : ∀ line ∈ headers, newline ∉ line ∧ line ≠ [] ∧ line ≠ [carriageReturn])
    (broken : ¬∀ line ∈ headers, isUtf8 (line ++ [newline])) (enough : headers.length < fuel)
    : ∃ error left,
        skipHeaders fuel (headers.flatMap (· ++ [newline]) ++ rest) = (.error error, left) := by
  induction headers generalizing fuel with
  | nil => exact absurd (by simp) broken
  | cons line headers ih =>
      obtain ⟨single, filled, other⟩ := lines line List.mem_cons_self
      obtain _ | fuel := fuel
      · cases enough
      · simp only [headerBytes_cons, skipHeaders]
        by_cases valid : isUtf8 (line ++ [newline])
        · obtain ⟨text, decoded, -⟩ := fromUtf8_of_isUtf8 valid
          have further : ¬∀ line ∈ headers, isUtf8 (line ++ [newline]) :=
            fun texts => broken (by simpa [valid] using texts)
          have failed := ih fuel
            (fun line found => lines line (List.mem_cons_of_mem _ found)) further
            (by simp only [List.length_cons] at enough; omega)
          simpa only [readLine_line single decoded, text_ne_blank decoded filled other, if_false]
            using failed
        · have undecoded := fromUtf8_of_not_isUtf8 (Bool.eq_false_iff.mpr valid)
          simp only [readLine, takeLine_line line _ single, undecoded]
          exact ⟨_, _, rfl⟩

section

variable {fromSlice : Bytes → Except String Value}

/-- A payload as it is read: a message, or a message about its error in place of one. -/
inductive Reads (fromSlice : Bytes → Except String Value) (payload rest : Bytes)
    : ReadMessage → Prop where
  | message (message : Value) (accepted : parseMcpPayload fromSlice payload = .ok message)
      : Reads fromSlice payload rest ⟨.ok (some message), rest, []⟩
  | malformed (error text : String) (rejected : parseMcpPayload fromSlice payload = .error error)
      : Reads fromSlice payload rest ⟨.ok none, rest, [rpcError .null (-32700) text]⟩

theorem readMcpPayload_reads (payload rest : Bytes)
    : Reads fromSlice payload rest (readMcpPayload fromSlice payload rest) := by
  unfold readMcpPayload
  split
  case _ message accepted => exact .message message accepted
  case _ error rejected => exact .malformed error _ rejected

/-- The length of a frame's header line is found by the reader. -/
theorem frameLength_eq_some {line : Bytes} {length : Nat} (found : frameLength line = some length)
    : ∃ text,
        fromUtf8 line = some text ∧ isLengthHeader text ∧ headerLength text = some length := by
  obtain ⟨text, decoded, header⟩ := Option.bind_eq_some_iff.mp found
  split at header
  case _ kind => exact ⟨text, decoded, kind, header⟩
  case _ => cases header

theorem Frame.content_bytes (header : Bytes) (headers : List Bytes) (blank body rest : Bytes)
    : (Frame.content header headers blank body).bytes ++ rest
      = header ++ newline ::
          (headers.flatMap (· ++ [newline]) ++ (blank ++ newline :: (body ++ rest))) := by
  simp [Frame.bytes]

theorem ne_empty_of_bytes {text : String} {bytes : Bytes} (decoded : fromUtf8 bytes = some text)
    (more : bytes ≠ []) : text ≠ "" := by
  rintro rfl
  exact more ((bytesOf_of_fromUtf8 decoded).symm.trans bytesOf_empty)

variable
  (rejects : ∀ text, isLengthHeader text → ∃ error, fromSlice (bytesOf text) = .error error)

include rejects in
theorem readMcpMessage_line {text rest : Bytes} (wellFormed : (Frame.line text).WellFormed)
    (valid : isUtf8 text) (ended : text.getLast? = some newline ∨ rest = [])
    : Reads fromSlice text rest (readMcpMessage fromSlice (text ++ rest)) := by
  obtain ⟨more, single, noLength⟩ := wellFormed
  obtain ⟨line, decoded, bytes⟩ := fromUtf8_of_isUtf8 valid
  have filled := ne_empty_of_bytes decoded more
  simp only [readMcpMessage, readLine, takeLine_text more single ended, decoded, filled, if_false]
  split
  case _ header =>
    -- a header whose length is no number is not JSON either
    have missing : headerLength line = none := by
      simpa only [frameLength, decoded, Option.bind_some, header, if_true] using noLength
    obtain ⟨error, rejected⟩ := rejects line header
    simp only [missing]
    refine .malformed error _ ?_
    rw [← bytes, parseMcpPayload, rejected]
  case _ =>
    rw [bytes]
    exact readMcpPayload_reads text rest

theorem readMcpMessage_content {header : Bytes} {headers : List Bytes} {blank body : Bytes}
    (rest : Bytes) (wellFormed : (Frame.content header headers blank body).WellFormed)
    (valid : (Frame.content header headers blank body).IsText)
    : Reads fromSlice body rest
        (readMcpMessage fromSlice ((Frame.content header headers blank body).bytes ++ rest)) := by
  obtain ⟨single, length, lines, kind⟩ := wellFormed
  obtain ⟨text, decoded, isHeader, found⟩ := frameLength_eq_some length
  have filled := ne_empty_of_bytes decoded (by simp)
  have enough := Nat.lt_add_one_of_le
    (headers_length_le headers (blank ++ newline :: (body ++ rest)))
  have skipped := skipHeaders_lines _ headers blank (body ++ rest) lines valid kind enough
  have inside : ¬(body ++ rest).length < body.length := by simp
  rw [Frame.content_bytes]
  simp only [readMcpMessage, readLine_line single decoded, filled, if_false, isHeader, if_true,
    found, skipped, inside, List.take_left, List.drop_left]
  exact readMcpPayload_reads body rest

/-- A frame that is not all text stops the server. -/
theorem readMcpMessage_fails (fromSlice : Bytes → Except String Value) {frame : Frame}
    {rest : Bytes} (wellFormed : frame.WellFormed)
    (broken : ¬frame.IsText) (ended : frame.Ended ∨ rest = [])
    : ∃ error, (readMcpMessage fromSlice (frame.bytes ++ rest)).result = .error error := by
  cases frame with
  | line text =>
      obtain ⟨more, single, -⟩ := wellFormed
      have undecoded := fromUtf8_of_not_isUtf8 (Bool.eq_false_iff.mpr broken)
      simp only [Frame.bytes, readMcpMessage, readLine, takeLine_text more single ended, undecoded]
      exact ⟨_, rfl⟩
  | content header headers blank body =>
      obtain ⟨single, length, lines, -⟩ := wellFormed
      obtain ⟨text, decoded, isHeader, found⟩ := frameLength_eq_some length
      have filled := ne_empty_of_bytes decoded (by simp)
      have enough := Nat.lt_add_one_of_le
        (headers_length_le headers (blank ++ newline :: (body ++ rest)))
      obtain ⟨error, left, failed⟩ :=
        skipHeaders_fails _ headers (blank ++ newline :: (body ++ rest)) lines broken enough
      rw [Frame.content_bytes]
      simp only [readMcpMessage, readLine_line single decoded, filled, if_false, isHeader,
        if_true, found, failed]
      exact ⟨_, rfl⟩

include rejects in
/-- A frame of text is read whole. -/
theorem readMcpMessage_reads {frame : Frame} {rest : Bytes} (wellFormed : frame.WellFormed)
    (valid : frame.IsText) (ended : frame.Ended ∨ rest = [])
    : Reads fromSlice frame.payload rest (readMcpMessage fromSlice (frame.bytes ++ rest)) := by
  cases frame with
  | line text => exact readMcpMessage_line rejects wellFormed valid ended
  | content header headers blank body => exact readMcpMessage_content rest wellFormed valid

end

end CodebaseGraph.Mcp

/-! When the stdio server answers every frame of its input: a malformed payload is answered, and
then the server ends as if its input had.
-/

namespace CodebaseGraph.Mcp

open CodebaseGraph.Syntax (Value)
open CodebaseGraph.Wiki.Render (bytesOf)

section

variable {fromSlice : Bytes → Except String Value} {Api : Type} {tools : McpTools Api}

-- Answers

/-- A message is answered by what handling it returns. -/
theorem Answered.of_message {server : McpServer Api} {payload : Bytes} {message : Value}
    (accepted : parseMcpPayload fromSlice payload = .ok message)
    : Answered fromSlice tools server payload (handleMcpMessage tools message server).1.toList
        (handleMcpMessage tools message server).2 := by
  cases kind : isNotificationMethod (requestMethod message) with
  | true =>
      rw [handleMcpMessage_notification tools message server kind]
      exact .notification message accepted kind
  | false =>
      obtain ⟨response, answer, sameId⟩ := handleMcpMessage_request tools message server kind
      rw [answer]
      exact .request message response accepted kind answer sameId

theorem Answered.eq_of_message {server next : McpServer Api} {payload : Bytes} {message : Value}
    {written : List Value} (answered : Answered fromSlice tools server payload written next)
    (accepted : parseMcpPayload fromSlice payload = .ok message)
    : written = (handleMcpMessage tools message server).1.toList
      ∧ next = (handleMcpMessage tools message server).2 := by
  cases answered with
  | malformed error text rejected =>
      rw [accepted] at rejected
      cases rejected
  | notification other found kind =>
      rw [accepted] at found
      cases found
      exact ⟨by rw [handleMcpMessage_notification tools message server kind]; rfl, rfl⟩
  | request other response found kind answer sameId =>
      rw [accepted] at found
      cases found
      exact ⟨by rw [answer]; rfl, rfl⟩

theorem Answers.message_iff {server : McpServer Api} {payload : Bytes} {payloads : List Bytes}
    {message : Value} {output : List Value}
    (accepted : parseMcpPayload fromSlice payload = .ok message)
    : Answers fromSlice tools server (payload :: payloads)
        ((handleMcpMessage tools message server).1.toList ++ output)
      ↔ Answers fromSlice tools (handleMcpMessage tools message server).2 payloads output := by
  constructor
  · intro answers
    generalize whole : (handleMcpMessage tools message server).1.toList ++ output = all at answers
    cases answers with
    | cons first rest =>
        obtain ⟨rfl, rfl⟩ := first.eq_of_message accepted
        rwa [List.append_cancel_left whole]
  · exact .cons (Answered.of_message accepted)

-----------------------------------------------------------------------------------------
-- The loop
-----------------------------------------------------------------------------------------

/-- The condition under which all frames are answered. -/
def Serviceable (fromSlice : Bytes → Except String Value) (frames : List Frame) : Prop :=
  (∀ frame ∈ frames, frame.IsText)
  ∧ ∀ payload ∈ (frames.map Frame.payload).dropLast, IsMessage fromSlice payload

theorem Frame.bytes_ne_nil {frame : Frame} (wellFormed : frame.WellFormed) : frame.bytes ≠ [] := by
  cases frame with
  | line text => exact wellFormed.1
  | content header headers blank body => simp [Frame.bytes]

theorem serviceable_cons {frame : Frame} {frames : List Frame} {message : Value}
    (valid : frame.IsText) (accepted : parseMcpPayload fromSlice frame.payload = .ok message)
    : Serviceable fromSlice (frame :: frames) ↔ Serviceable fromSlice frames := by
  have first : IsMessage fromSlice frame.payload := ⟨message, accepted⟩
  cases frames with
  | nil => simp [Serviceable, valid]
  | cons next frames => simp [Serviceable, valid, first]

theorem flatMap_bytes_eq_nil {frames : List Frame}
    (wellFormed : ∀ frame ∈ frames, frame.WellFormed)
    : frames.flatMap Frame.bytes = [] ↔ frames = [] := by
  constructor
  · intro empty
    cases frames with
    | nil => rfl
    | cons frame frames =>
        have first := (List.append_eq_nil_iff.mp empty).1
        exact absurd first (Frame.bytes_ne_nil (wellFormed frame List.mem_cons_self))
  · rintro rfl
    rfl

theorem readMcpMessage_nil : readMcpMessage fromSlice [] = ⟨.ok none, [], []⟩ := by
  have empty : fromUtf8 [] = some "" := by decide
  simp only [readMcpMessage, readLine, takeLine, empty, if_true]

theorem Frame.ended_or_last {frame : Frame} {frames : List Frame}
    (ended : ∀ other ∈ (frame :: frames).dropLast, other.Ended)
    : frame.Ended ∨ frames.flatMap Frame.bytes = [] := by
  cases frames with
  | nil => exact Or.inr rfl
  | cons next frames => exact Or.inl (ended frame List.mem_cons_self)

theorem mem_dropLast_cons {frame other : Frame} {frames : List Frame}
    (found : other ∈ frames.dropLast) : other ∈ (frame :: frames).dropLast := by
  cases frames with
  | nil => cases found
  | cons next frames => exact List.mem_cons_of_mem frame found

/-- Once a payload is malformed, only the end of the input may follow. -/
theorem servesAll_malformed_iff {server : McpServer Api} {frame : Frame} {frames : List Frame}
    {error text : String} (wellFormed : ∀ other ∈ frames, other.WellFormed) (valid : frame.IsText)
    (rejected : parseMcpPayload fromSlice frame.payload = .error error)
    : ServesAll fromSlice tools server ((frame :: frames).map Frame.payload)
        ⟨.ok (), frames.flatMap Frame.bytes, [rpcError .null (-32700) text]⟩
      ↔ Serviceable fromSlice (frame :: frames) := by
  constructor
  · intro serves
    have last := (flatMap_bytes_eq_nil wellFormed).mp serves.exhausted
    subst last
    simp [Serviceable, valid]
  · intro serviceable
    cases frames with
    | nil =>
        have answered : Answered fromSlice tools server frame.payload _ server :=
          .malformed error text rejected
        exact ⟨rfl, rfl, .cons answered (.nil server)⟩
    | cons next frames =>
        obtain ⟨message, accepted⟩ := serviceable.2 frame.payload List.mem_cons_self
        rw [accepted] at rejected
        cases rejected

/-- By induction on the frames: each is read whole, and what is left are the others. -/
theorem serveMessages_servesAll_iff
    (rejects : ∀ text, isLengthHeader text → ∃ error, fromSlice (bytesOf text) = .error error)
    (frames : List Frame) (wellFormed : ∀ frame ∈ frames, frame.WellFormed)
    (ended : ∀ frame ∈ frames.dropLast, frame.Ended) (server : McpServer Api) (fuel : Nat)
    (enough : (frames.flatMap Frame.bytes).length < fuel)
    : ServesAll fromSlice tools server (frames.map Frame.payload)
        (serveMessages fromSlice tools fuel (frames.flatMap Frame.bytes) server)
      ↔ Serviceable fromSlice frames := by
  induction frames generalizing server fuel with
  | nil =>
      obtain _ | fuel := fuel
      · cases enough
      · simp only [List.flatMap_nil, List.map_nil, serveMessages, readMcpMessage_nil]
        exact ⟨fun _ => by simp [Serviceable], fun _ => ⟨rfl, rfl, .nil server⟩⟩
  | cons frame frames ih =>
      have framed := wellFormed frame List.mem_cons_self
      have others := fun other found => wellFormed other (List.mem_cons_of_mem frame found)
      have final := Frame.ended_or_last ended
      have takesOne := List.length_pos_of_ne_nil (Frame.bytes_ne_nil framed)
      obtain _ | fuel := fuel
      · cases enough
      rw [List.flatMap_cons, serveMessages]
      by_cases valid : frame.IsText
      · have reads := readMcpMessage_reads rejects framed valid final
        generalize readMcpMessage fromSlice (frame.bytes ++ frames.flatMap Frame.bytes) = read
          at reads
        cases reads with
        | malformed error text rejected => exact servesAll_malformed_iff others valid rejected
        | message message accepted =>
            have further := ih others
              (fun other found => ended other (mem_dropLast_cons found))
              (handleMcpMessage tools message server).2 fuel
              (by rw [List.flatMap_cons, List.length_append] at enough; omega)
            rw [serviceable_cons valid accepted, ← further]
            constructor
            · rintro ⟨finished, exhausted, answered⟩
              exact ⟨finished, exhausted, (Answers.message_iff accepted).mp answered⟩
            · rintro ⟨finished, exhausted, answered⟩
              exact ⟨finished, exhausted, (Answers.message_iff accepted).mpr answered⟩
      · obtain ⟨error, failed⟩ := readMcpMessage_fails fromSlice framed valid final
        simp only [failed]
        constructor
        · intro serves
          cases serves.finished
        · intro serviceable
          exact absurd (serviceable.1 frame List.mem_cons_self) valid

/-- The server answers every frame and ends with the input exactly if all lines it reads are
text, and every payload before the last one is a message.
-/
theorem serveMcpStdio_servesAll_iff
    (rejects : ∀ text, isLengthHeader text → ∃ error, fromSlice (bytesOf text) = .error error)
    (api : Api) (input : McpInput)
    : ServesAll fromSlice tools { session := {}, api } input.payloads
        (serveMcpStdio fromSlice tools (.ok api) input.bytes)
      ↔ (∀ frame ∈ input.frames, frame.IsText)
        ∧ ∀ payload ∈ input.payloads.dropLast, IsMessage fromSlice payload :=
  serveMessages_servesAll_iff rejects input.frames input.wellFormed input.ended _ _
    (Nat.lt_add_one _)

end

-- A request after a malformed line

def pingLine : String := "\x7b\"id\":1,\"jsonrpc\":\"2.0\",\"method\":\"ping\"\x7d\n"

def pingMessage : Value :=
  .object [("id", .number "1"), ("jsonrpc", .string "2.0"), ("method", .string "ping")]

/-- A reader of JSON that is used for one line. -/
def pingFromSlice (bytes : Bytes) : Except String Value :=
  if bytes = bytesOf pingLine then .ok pingMessage else .error "expected value at line 1 column 1"

def noTools : McpTools Unit where
  generateMcpSpecs := .ok (.object [("tools", .array [])])
  mcpCallToolResult _ _ api := (.error "unknown tool", api)

theorem pingFromSlice_rejects (text : String) (header : isLengthHeader text)
    : ∃ error, pingFromSlice (bytesOf text) = .error error := by
  have other : bytesOf text ≠ bytesOf pingLine := by
    intro same
    have equal : text = pingLine := bytesOf_injective same
    rw [equal] at header
    exact absurd header (by decide)
  exact ⟨_, if_neg other⟩

theorem helloLine_wellFormed : (Frame.line (bytesOf "hello\n")).WellFormed :=
  ⟨by decide, by decide, by decide⟩

theorem pingLine_wellFormed : (Frame.line (bytesOf pingLine)).WellFormed :=
  ⟨by decide, by decide, by decide⟩

/-- A line that is no JSON, and a request after it. -/
def interruptedInput : McpInput where
  frames := [.line (bytesOf "hello\n"), .line (bytesOf pingLine)]
  wellFormed := by
    simp only [List.forall_mem_cons, helloLine_wellFormed, pingLine_wellFormed, true_and]
    exact fun _ found => absurd found List.not_mem_nil
  ended := by
    simp only [List.dropLast_cons_cons, List.dropLast_singleton, List.forall_mem_singleton, Frame.Ended]
    decide

/-- A request, and then a line that is no JSON. -/
def trailingInput : McpInput where
  frames := [.line (bytesOf pingLine), .line (bytesOf "hello\n")]
  wellFormed := by
    simp only [List.forall_mem_cons, helloLine_wellFormed, pingLine_wellFormed, true_and]
    exact fun _ found => absurd found List.not_mem_nil
  ended := by
    simp only [List.dropLast_cons_cons, List.dropLast_singleton, List.forall_mem_singleton, Frame.Ended]
    decide

/-- The request is not read: the server ends at the line before it. -/
theorem serveMcpStdio_interrupted
    : (serveMcpStdio pingFromSlice noTools (.ok ()) interruptedInput.bytes).outcome = .ok ()
      ∧ (serveMcpStdio pingFromSlice noTools (.ok ()) interruptedInput.bytes).input
        = bytesOf pingLine
      ∧ ¬ServesAll pingFromSlice noTools { session := {}, api := () } interruptedInput.payloads
          (serveMcpStdio pingFromSlice noTools (.ok ()) interruptedInput.bytes) := by
  have left : (serveMcpStdio pingFromSlice noTools (.ok ()) interruptedInput.bytes).input
      = bytesOf pingLine := by
    decide
  refine ⟨?_, left, ?_⟩
  · decide
  · intro serves
    have empty := left.symm.trans serves.exhausted
    exact absurd empty (by decide)

/-- A malformed last line is answered after the request before it. -/
theorem serveMcpStdio_servesAll_trailing
    : ServesAll pingFromSlice noTools { session := {}, api := () } trailingInput.payloads
        (serveMcpStdio pingFromSlice noTools (.ok ()) trailingInput.bytes) := by
  apply (serveMcpStdio_servesAll_iff pingFromSlice_rejects () trailingInput).mpr
  constructor
  · simp only [trailingInput, List.forall_mem_cons, Frame.IsText]
    exact ⟨by decide, by decide, fun _ found => absurd found List.not_mem_nil⟩
  · simp only [McpInput.payloads, trailingInput, List.map_cons, List.map_nil, Frame.payload,
      List.dropLast_cons_cons, List.dropLast_singleton, List.forall_mem_singleton]
    exact ⟨pingMessage, by simp [parseMcpPayload, pingFromSlice, pingMessage, Value.isObject, Value.asObject]⟩

end CodebaseGraph.Mcp
