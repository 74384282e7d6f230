import Mathlib.Data.List.Basic

/-! The frames of the repository coordinator (`src/coordinator.rs`): a JSON document and a newline,
written and read in pieces. No deadline is reached, so the clock is left out.
-/

namespace CodebaseGraph.Coordinator

-- Calls of the transport

def maxFrameBytes : Nat := 16 * 1024 * 1024

/-- The size of the buffer of `read_frame_with_policy`. -/
def readBufferBytes : Nat := 8192

def newline : UInt8 := 10

/-- What a call of `write` returns; it takes no more than it is given. -/
inductive WriteCall where
  | wrote (count : Nat)
  | wouldBlock
  | interrupted
  | failed (error : String)

/-- What a call of `read` returns, with what it put into the buffer. -/
inductive ReadCall where
  | filled (bytes : List UInt8) (fits : bytes.length ≤ readBufferBytes)
  | wouldBlock
  | interrupted
  | failed (error : String)

/-- The bytes that a row of calls delivers. -/
def delivered : List ReadCall → List UInt8
  | [] => []
  | .filled bytes _ :: calls => bytes ++ delivered calls
  | _ :: calls => delivered calls

/-- A call that neither fails nor ends the stream. -/
def ReadCall.Open : ReadCall → Prop
  | .filled bytes _ => bytes ≠ []
  | .failed _ => False
  | _ => True

inductive FrameError where
  | encoding (error : String)
  | tooLarge
  | closedWriting
  | writing (error : String)
  | missing
  | unfinished
  | reading (error : String)
  | decoding (error : String)
deriving DecidableEq

def FrameError.text : FrameError → String
  | .encoding error => "failed to encode repository coordinator frame: " ++ error
  | .tooLarge => "repository coordinator frame exceeds " ++ toString maxFrameBytes ++ " bytes"
  | .closedWriting => "repository coordinator stream closed while writing"
  | .writing error => "failed to write repository coordinator frame: " ++ error
  | .missing => "repository coordinator frame is missing"
  | .unfinished => "repository coordinator frame ended before newline"
  | .reading error => "failed to read repository coordinator frame: " ++ error
  | .decoding error => "failed to decode repository coordinator frame: " ++ error

-- Writing

/-- What went out, and how writing ended if it did. -/
structure Written where
  sent : List UInt8
  ended : Option (Except FrameError Unit)

/-- The loop of `write_frame_until` over what is left of the frame. -/
def writeLoop : List UInt8 → List WriteCall → Written
  | [], _ => { sent := [], ended := some (.ok ()) }
  | _ :: _, [] => { sent := [], ended := none }
  | _ :: _, .wrote 0 :: _ => { sent := [], ended := some (.error .closedWriting) }
  | byte :: rest, .wrote (count + 1) :: calls =>
      let after := writeLoop ((byte :: rest).drop (count + 1)) calls
      { after with sent := (byte :: rest).take (count + 1) ++ after.sent }
  | byte :: rest, .wouldBlock :: calls => writeLoop (byte :: rest) calls
  | byte :: rest, .interrupted :: calls => writeLoop (byte :: rest) calls
  | _ :: _, .failed error :: _ => { sent := [], ended := some (.error (.writing error)) }

section Codec

variable {Value : Type} (encode : Value → Except String (List UInt8))
  (decode : List UInt8 → Except String Value)

def writeFrameUntil (value : Value) (calls : List WriteCall) : Written :=
  match encode value with
  | .error error => { sent := [], ended := some (.error (.encoding error)) }
  | .ok payload =>
      if payload.length > maxFrameBytes then { sent := [], ended := some (.error .tooLarge) }
      else writeLoop (payload ++ [newline]) calls

-- Reading

/-- The loop of `read_frame_with_policy` behind the payload read so far. -/
def readLoop (payload : List UInt8) : List ReadCall → Option (Except FrameError Value)
  | [] => none
  | .filled [] _ :: _ => some (.error (if payload.isEmpty then .missing else .unfinished))
  | .filled (byte :: rest) _ :: calls =>
      let buffer := byte :: rest
      let frameEnd := buffer.findIdx? (· = newline)
      let bytesToAppend := frameEnd.getD buffer.length
      if payload.length + bytesToAppend > maxFrameBytes then some (.error .tooLarge)
      else
        let payload := payload ++ buffer.take bytesToAppend
        if frameEnd.isSome then some ((decode payload).mapError .decoding)
        else readLoop payload calls
  | .wouldBlock :: calls => readLoop payload calls
  | .interrupted :: calls => readLoop payload calls
  | .failed error :: _ => some (.error (.reading error))

def readFrameWithPolicy (calls : List ReadCall) : Option (Except FrameError Value) :=
  readLoop decode [] calls

end Codec

-----------------------------------------------------------------------------------------
-- Whole frames
-----------------------------------------------------------------------------------------

/-- A loop that succeeds has sent everything. -/
theorem sent_of_ended {bytes : List UInt8} {calls : List WriteCall}
    (succeeded : (writeLoop bytes calls).ended = some (.ok ()))
    : (writeLoop bytes calls).sent = bytes := by
  fun_induction writeLoop bytes calls with
  | case1 => rfl
  | case2 => cases succeeded
  | case3 => cases succeeded
  | case4 byte rest count calls after ih =>
      rw [ih succeeded, List.take_append_drop]
  | case5 byte rest calls ih => exact ih succeeded
  | case6 byte rest calls ih => exact ih succeeded
  | case7 => cases succeeded

theorem writeLoop_ne_tooLarge (bytes : List UInt8) (calls : List WriteCall)
    : (writeLoop bytes calls).ended ≠ some (.error .tooLarge) := by
  fun_induction writeLoop bytes calls with
  | case4 byte rest count calls after ih => exact ih
  | case5 byte rest calls ih => exact ih
  | case6 byte rest calls ih => exact ih
  | _ => nofun

/-- Some calls write everything. -/
theorem writeLoop_whole (bytes : List UInt8)
    : (writeLoop bytes [.wrote bytes.length]).ended = some (.ok ()) := by
  cases bytes with
  | nil => rfl
  | cons byte rest =>
      rw [List.length_cons, writeLoop]
      simp [writeLoop]

section Codec

variable {Value : Type} {decode : List UInt8 → Except String Value}

/-- The buffer that holds the end of the frame, and one that does not. -/
theorem findIdx?_newline {frame rest : List UInt8} (plain : newline ∉ frame)
    : (frame ++ newline :: rest).findIdx? (· = newline) = some frame.length := by
  induction frame with
  | nil => simp [List.findIdx?_cons]
  | cons byte frame ih =>
      obtain ⟨first, others⟩ := List.ne_and_not_mem_of_not_mem_cons plain
      rw [List.cons_append, List.findIdx?_cons, ih others]
      simp [Ne.symm first]

theorem findIdx?_plain {buffer : List UInt8} (plain : newline ∉ buffer)
    : buffer.findIdx? (· = newline) = none := by
  rw [List.findIdx?_eq_none_iff]
  intro byte member
  exact decide_eq_false (fun found => plain (found ▸ member))

/-- A buffer without the end of the frame is appended. -/
theorem readLoop_filled {payload buffer : List UInt8} {calls : List ReadCall}
    (fits : buffer.length ≤ readBufferBytes) (inhabited : buffer ≠ []) (plain : newline ∉ buffer)
    : readLoop decode payload (.filled buffer fits :: calls)
      = if payload.length + buffer.length > maxFrameBytes then some (.error .tooLarge)
        else readLoop decode (payload ++ buffer) calls := by
  obtain ⟨byte, rest, rfl⟩ := List.exists_cons_of_ne_nil inhabited
  rw [readLoop, findIdx?_plain plain]
  simp

/-- A buffer with the end of the frame ends the loop. -/
theorem readLoop_ended {payload frame rest : List UInt8} {calls : List ReadCall}
    (fits : (frame ++ newline :: rest).length ≤ readBufferBytes) (plain : newline ∉ frame)
    : readLoop decode payload (.filled (frame ++ newline :: rest) fits :: calls)
      = some
          (if payload.length + frame.length > maxFrameBytes then .error .tooLarge
          else (decode (payload ++ frame)).mapError .decoding) := by
  have found
      : (frame ++ newline :: rest).findIdx? (· = newline) = some frame.length :=
    findIdx?_newline plain
  obtain ⟨byte, others, opened⟩ :=
    List.exists_cons_of_ne_nil
      (List.append_ne_nil_of_right_ne_nil frame (List.cons_ne_nil newline rest))
  simp only [opened] at found ⊢
  rw [readLoop, found]
  simp only [Option.getD_some, Option.isSome_some, if_true, ← opened, List.take_left]
  split <;> rfl

/-- The first newline ends the frame. -/
theorem eq_of_append_newline {first second after rest : List UInt8} (early : newline ∉ first)
    (plain : newline ∉ second)
    (bytes : first ++ newline :: after = second ++ newline :: rest)
    : first = second := by
  have ended := congrArg (List.findIdx? (· = newline)) bytes
  rw [findIdx?_newline early, findIdx?_newline plain] at ended
  exact List.append_inj_left bytes (Option.some.inj ended)

/-- A buffer without the end of the frame holds a part of the frame. -/
theorem append_of_delivered {buffer after frame rest : List UInt8} (plain : newline ∉ buffer)
    (bytes : buffer ++ after = frame ++ newline :: rest)
    : ∃ later, frame = buffer ++ later ∧ after = later ++ newline :: rest := by
  rcases List.append_eq_append_iff.mp bytes with ⟨later, rfl, cut⟩ | ⟨between, rfl, cut⟩
  · exact ⟨later, rfl, cut⟩
  · cases between with
    | nil => exact ⟨[], by simp, by simpa using cut.symm⟩
    | cons byte between =>
        obtain ⟨rfl, -⟩ := List.cons.inj cut
        exact absurd (List.mem_append_right _ List.mem_cons_self) plain

/-- However it is cut, a frame is decoded when it fits and refused when it does not. -/
theorem readLoop_delivered {payload frame rest : List UInt8} {calls : List ReadCall}
    (others : List ReadCall) (plain : newline ∉ frame) (opened : ∀ call ∈ calls, call.Open)
    (bytes : delivered calls = frame ++ newline :: rest)
    : readLoop decode payload (calls ++ others)
      = some
          (if payload.length + frame.length > maxFrameBytes then .error .tooLarge
          else (decode (payload ++ frame)).mapError .decoding) := by
  induction calls generalizing payload frame with
  | nil => simp [delivered] at bytes
  | cons call calls ih =>
      have opened' : ∀ call ∈ calls, call.Open :=
        fun other member => opened other (List.mem_cons_of_mem _ member)
      cases call with
      | wouldBlock => exact ih plain opened' bytes
      | interrupted => exact ih plain opened' bytes
      | failed error => exact (opened _ List.mem_cons_self).elim
      | filled buffer fits =>
          have inhabited : buffer ≠ [] := opened _ List.mem_cons_self
          rw [delivered] at bytes
          rw [List.cons_append]
          -- The frame ends in the buffer, or goes on behind it.
          by_cases inside : newline ∈ buffer
          · obtain ⟨before, after, rfl, early⟩ := List.eq_append_cons_of_mem inside
            rw [List.append_assoc, List.cons_append] at bytes
            obtain rfl := eq_of_append_newline early plain bytes
            exact readLoop_ended fits plain
          · obtain ⟨later, rfl, behind⟩ := append_of_delivered inside bytes
            have plain' : newline ∉ later := fun member => plain (List.mem_append_right _ member)
            rw [readLoop_filled fits inhabited inside, ih plain' opened' behind,
              List.append_assoc, List.length_append, List.length_append]
            split
            · rw [if_pos (by omega)]
            · rw [Nat.add_assoc]

/-- Without a newline there is no value. -/
theorem readLoop_unfinished {payload : List UInt8} {calls : List ReadCall}
    (plain : newline ∉ delivered calls) (value : Value)
    : readLoop decode payload calls ≠ some (.ok value) := by
  induction calls generalizing payload with
  | nil => nofun
  | cons call calls ih =>
      cases call with
      | wouldBlock => exact ih plain
      | interrupted => exact ih plain
      | failed error => nofun
      | filled buffer fits =>
          rw [delivered, List.mem_append, not_or] at plain
          by_cases inhabited : buffer = []
          · subst inhabited
            rw [readLoop]
            nofun
          · rw [readLoop_filled fits inhabited plain.1]
            split
            · nofun
            · exact ih plain.2

-- Both ends

variable {encode : Value → Except String (List UInt8)} {value : Value} {payload : List UInt8}

theorem writeFrameUntil_eq_ok {writes : List WriteCall}
    (succeeded : (writeFrameUntil encode value writes).ended = some (.ok ()))
    : ∃ payload,
        encode value = .ok payload
        ∧ payload.length ≤ maxFrameBytes
        ∧ (writeFrameUntil encode value writes).sent = payload ++ [newline] := by
  unfold writeFrameUntil at succeeded ⊢
  cases encoded : encode value with
  | error error =>
      rw [encoded] at succeeded
      cases succeeded
  | ok payload =>
      simp only [encoded] at succeeded ⊢
      split at succeeded
      · cases succeeded
      · next fits =>
        refine ⟨payload, rfl, Nat.not_lt.mp fits, ?_⟩
        rw [if_neg fits]
        exact sent_of_ended succeeded

theorem writeFrameUntil_tooLarge_iff (encoded : encode value = .ok payload)
    (writes : List WriteCall)
    : (writeFrameUntil encode value writes).ended = some (.error .tooLarge)
      ↔ payload.length > maxFrameBytes := by
  simp only [writeFrameUntil, encoded]
  split
  · next large => exact iff_of_true rfl large
  · next fits => exact iff_of_false (writeLoop_ne_tooLarge _ writes) fits

theorem exists_written_iff (encoded : encode value = .ok payload)
    : (∃ writes, (writeFrameUntil encode value writes).ended = some (.ok ()))
      ↔ payload.length ≤ maxFrameBytes := by
  constructor
  · rintro ⟨writes, succeeded⟩
    obtain ⟨payload', encoded', fits, -⟩ := writeFrameUntil_eq_ok succeeded
    rw [encoded] at encoded'
    cases encoded'
    exact fits
  · intro fits
    refine ⟨[.wrote (payload ++ [newline]).length], ?_⟩
    simp only [writeFrameUntil, encoded]
    rw [if_neg (Nat.not_lt.mpr fits)]
    exact writeLoop_whole _

/-- Where the encoder writes no newline and the decoder reads what it wrote, the frames of the
coordinator are read back for every way of cutting them, both ends refuse the same payloads, and
a stream without a newline yields no value.
-/
theorem frames_roundTrip
    (plain : ∀ value payload, encode value = .ok payload → newline ∉ payload)
    (faithful : ∀ value payload, encode value = .ok payload → decode payload = .ok value)
    : (∀ value writes reads others rest,
        (writeFrameUntil encode value writes).ended = some (.ok ()) →
        (∀ call ∈ reads, call.Open) →
        delivered reads = (writeFrameUntil encode value writes).sent ++ rest →
        readFrameWithPolicy decode (reads ++ others) = some (.ok value))
      ∧ (∀ value payload writes reads others rest,
          encode value = .ok payload →
          (∀ call ∈ reads, call.Open) →
          delivered reads = payload ++ newline :: rest →
          ((∃ writes, (writeFrameUntil encode value writes).ended = some (.ok ()))
            ↔ readFrameWithPolicy decode (reads ++ others) = some (.ok value))
          ∧ ((writeFrameUntil encode value writes).ended = some (.error .tooLarge)
            ↔ readFrameWithPolicy decode (reads ++ others) = some (.error .tooLarge)))
      ∧ ∀ reads value, newline ∉ delivered reads →
          readFrameWithPolicy decode reads ≠ some (.ok value) := by
  refine ⟨?_, ?_, fun reads value absent => readLoop_unfinished absent value⟩
  · intro value writes reads others rest succeeded opened bytes
    obtain ⟨payload, encoded, fits, sent⟩ := writeFrameUntil_eq_ok succeeded
    rw [sent, List.append_assoc, List.singleton_append] at bytes
    rw [readFrameWithPolicy, readLoop_delivered others (plain value payload encoded) opened bytes,
      if_neg (by simpa using fits), List.nil_append, faithful value payload encoded]
    rfl
  · intro value payload writes reads others rest encoded opened bytes
    rw [readFrameWithPolicy, readLoop_delivered others (plain value payload encoded) opened bytes,
      exists_written_iff encoded, writeFrameUntil_tooLarge_iff encoded, List.nil_append,
      faithful value payload encoded, List.length_nil, Nat.zero_add]
    by_cases large : payload.length > maxFrameBytes
    · rw [if_pos large]
      exact ⟨iff_of_false (Nat.not_le.mpr large) nofun, iff_of_true large rfl⟩
    · rw [if_neg large]
      exact ⟨iff_of_true (Nat.not_lt.mp large) rfl, iff_of_false large nofun⟩

end Codec

section Example

/-- The JSON of a truth value. -/
def encodeBool (value : Bool) : Except String (List UInt8) :=
  .ok (if value then [116, 114, 117, 101] else [102, 97, 108, 115, 101])

def decodeBool (bytes : List UInt8) : Except String Bool :=
  if bytes = [116, 114, 117, 101] then .ok true
  else if bytes = [102, 97, 108, 115, 101] then .ok false
  else .error "expected value at line 1 column 1"

def sampleReads : List ReadCall :=
  [.filled [116, 114] (by decide), .wouldBlock, .interrupted, .filled [117, 101, 10] (by decide)]

/-- Witness: a value that is written and read in pieces. -/
theorem frames_roundTrip_pieces
    : readFrameWithPolicy decodeBool sampleReads = some (.ok true) := by
  have both :=
    @frames_roundTrip Bool decodeBool encodeBool
      (by rintro (_ | _) _ ⟨⟩ <;> decide)
      (by rintro (_ | _) _ ⟨⟩ <;> decide)
  refine both.1 true [.wrote 2, .wouldBlock, .interrupted, .wrote 3] sampleReads [] [] rfl ?_ rfl
  simp [sampleReads, ReadCall.Open]

end Example

end CodebaseGraph.Coordinator
