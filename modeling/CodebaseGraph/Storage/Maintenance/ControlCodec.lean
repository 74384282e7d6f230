import CodebaseGraph.Basic
import CodebaseGraph.Storage.Maintenance.ReferenceEpoch

/-! The control records (`src/storage/maintenance_controls.rs`): the slot with a payload, the
commit that names the slot in force, and the intent that holds the next slot whole. Each has a
fixed size and ends in its checksum; `recoveryStep` says what a combination of them means.
-/

namespace CodebaseGraph.Storage.Maintenance

open CodebaseGraph.Collections

-- Records

def payloadBytes : Nat := 2048

def slotBytes : Nat := 56 + payloadBytes + 32

def commitBytes : Nat := 128

def intentBytes : Nat := 96 + slotBytes + 32

/-- The ASCII codes of `CGSLOT01`. -/
def slotMagic : Bytes := [67, 71, 83, 76, 79, 84, 48, 49]

/-- The ASCII codes of `CGCOMM01`. -/
def commitMagic : Bytes := [67, 71, 67, 79, 77, 77, 48, 49]

/-- The ASCII codes of `CGINTN01`. -/
def intentMagic : Bytes := [67, 71, 73, 78, 84, 78, 48, 49]

theorem slotMagic_length : slotMagic.length = 8 := rfl

theorem commitMagic_length : commitMagic.length = 8 := rfl

theorem intentMagic_length : intentMagic.length = 8 := rfl

inductive ControlFailure where
  | size
  | version
  | checksum
  | incarnation
  | sequence
deriving DecidableEq, Repr

structure SlotFact where
  generation : Nat
  payloadLength : Nat
  digest : Bytes
deriving DecidableEq, Repr

structure CommitFact where
  generation : Nat
  active : Nat
  slotDigest : Bytes
deriving DecidableEq, Repr

structure IntentFact where
  before : Nat
  after : Nat
  target : Nat
  slotDigest : Bytes
deriving DecidableEq, Repr

inductive RecoveryStep where
  | committed (commit : CommitFact)
  | rewriteIntendedSlot (intent : IntentFact)
  | commitIntendedSlot (intent : IntentFact)
  | unknown
deriving DecidableEq, Repr

-----------------------------------------------------------------------------------------
-- Codecs
-----------------------------------------------------------------------------------------

variable (sha256 : Bytes → Bytes) (incarnation : Bytes)

/-- The bytes of a field at an offset. -/
def field (bytes : Bytes) (offset length : Nat) : Bytes := (bytes.drop offset).take length

/-- `finish`: the checksum after the rest. -/
def finished (body : Bytes) : Bytes := body ++ sha256 body

def validate (bytes : Bytes) (size : Nat) (magic : Bytes) : Except ControlFailure Unit :=
  if bytes.length ≠ size then .error .size
  else if field bytes 0 8 ≠ magic then .error .version
  else if field bytes 8 32 ≠ incarnation then .error .incarnation
  else if sha256 (bytes.take (size - 32)) ≠ bytes.drop (size - 32) then .error .checksum
  else .ok ()

def decodeSlot (bytes : Bytes) : Except ControlFailure SlotFact := do
  validate sha256 incarnation bytes slotBytes slotMagic
  let payloadLength := number (field bytes 48 8)
  if payloadLength > payloadBytes
      ∨ (field bytes (56 + payloadLength) (slotBytes - 32 - (56 + payloadLength))).any (· ≠ 0) then
    .error .size
  else
    .ok
      {
        generation := number (field bytes 40 8),
        payloadLength,
        digest := bytes.drop (slotBytes - 32)
      }

def slotBody (generation : Nat) (payload : Bytes) : Bytes :=
  slotMagic ++ incarnation ++ littleEndian 8 generation ++ littleEndian 8 payload.length
    ++ payload ++ List.replicate (payloadBytes - payload.length) 0

def encodeSlot (generation : Nat) (payload : Bytes) : Except ControlFailure (Bytes × SlotFact) :=
  if payload.length > payloadBytes then .error .size
  else
    let bytes := finished sha256 (slotBody incarnation generation payload)
    (decodeSlot sha256 incarnation bytes).map (fun fact => (bytes, fact))

def decodeCommit (bytes : Bytes) : Except ControlFailure CommitFact := do
  validate sha256 incarnation bytes commitBytes commitMagic
  let active := number (field bytes 48 8)
  if active > 1 ∨ (field bytes 88 8).any (· ≠ 0) then .error .size
  else .ok { generation := number (field bytes 40 8), active, slotDigest := field bytes 56 32 }

def commitBody (fact : CommitFact) : Bytes :=
  commitMagic ++ incarnation ++ littleEndian 8 fact.generation ++ littleEndian 8 fact.active
    ++ fact.slotDigest ++ List.replicate 8 0

def encodeCommit (fact : CommitFact) : Except ControlFailure Bytes :=
  if fact.active > 1 then .error .size else .ok (finished sha256 (commitBody incarnation fact))

def decodeIntent (bytes : Bytes) : Except ControlFailure IntentFact := do
  validate sha256 incarnation bytes intentBytes intentMagic
  let before := number (field bytes 40 8)
  let after := number (field bytes 48 8)
  let target := number (field bytes 56 8)
  let slot ← decodeSlot sha256 incarnation (field bytes 96 slotBytes)
  if checkedAdd before 1 ≠ some after
      ∨ slot.generation ≠ after
      ∨ target > 1
      ∨ slot.digest ≠ field bytes 64 32 then
    .error .sequence
  else .ok { before, after, target, slotDigest := slot.digest }

def intentBody (fact : IntentFact) (slot : Bytes) : Bytes :=
  intentMagic ++ incarnation ++ littleEndian 8 fact.before ++ littleEndian 8 fact.after
    ++ littleEndian 8 fact.target ++ fact.slotDigest ++ slot

def encodeIntent (current : CommitFact) (nextSlot : Bytes)
    : Except ControlFailure (Bytes × IntentFact) :=
  if current.active > 1 then .error .size
  else do
    let next ← decodeSlot sha256 incarnation nextSlot
    if checkedAdd current.generation 1 ≠ some next.generation then .error .sequence
    else
      let fact : IntentFact :=
        {
          before := current.generation,
          after := next.generation,
          target := 1 - current.active,
          slotDigest := next.digest
        }
      let bytes := finished sha256 (intentBody incarnation fact nextSlot)
      (decodeIntent sha256 incarnation bytes).map (fun fact => (bytes, fact))

/-- Whether the slot at an index has a generation and a digest. -/
def slotMatches (slots : List (Option SlotFact)) (index generation : Nat) (digest : Bytes)
    : Bool :=
  match slots[index]? with
  | some (some slot) => slot.generation = generation && slot.digest = digest
  | _ => false

def recoveryStep (commit : Option CommitFact) (intent : Option IntentFact)
    (slots : List (Option SlotFact))
    : RecoveryStep :=
  let active (c : CommitFact) := slotMatches slots c.active c.generation c.slotDigest
  let intended (i : IntentFact) : RecoveryStep :=
    if slotMatches slots i.target i.after i.slotDigest then .commitIntendedSlot i
    else .rewriteIntendedSlot i
  if commit.any (fun c => c.active > 1)
      || intent.any (fun i => i.target > 1 || checkedAdd i.before 1 ≠ some i.after) then
    .unknown
  else
    match commit, intent with
    | some c, none => if active c then .committed c else .unknown
    | some c, some i =>
        if c.generation = i.after && c.active = i.target && c.slotDigest = i.slotDigest
            && active c then
          .committed c
        else if c.generation = i.before && c.active = 1 - i.target && active c then intended i
        else .unknown
    | none, some i => intended i
    | none, none => .unknown

-- Fields

theorem field_skip {first rest : Bytes} {size offset length : Nat} (skipped : first.length = size)
    : field (first ++ rest) (offset + size) length = field rest offset length := by
  subst skipped
  rw [field, field, Nat.add_comm, List.drop_length_add_append]

theorem field_start {first rest : Bytes} {length : Nat} (taken : first.length = length)
    : field (first ++ rest) 0 length = first := by
  rw [field, List.drop_zero, List.take_left' taken]

theorem number_start {rest : Bytes} {value : Nat} (fits : value ≤ u64Max)
    : number (field (littleEndian 8 value ++ rest) 0 8) = value := by
  rw [field_start (littleEndian_length ..)]
  refine number_littleEndian ?_
  simp only [u64Max] at fits
  omega

variable {sha256 incarnation}

/-- A hash gives 32 bytes, and an incarnation is as many random bytes. -/
structure ControlSizes (sha256 : Bytes → Bytes) (incarnation : Bytes) : Prop where
  digest : ∀ bytes, (sha256 bytes).length = 32
  incarnation : incarnation.length = 32

theorem finished_length (sizes : ControlSizes sha256 incarnation) (body : Bytes)
    : (finished sha256 body).length = body.length + 32 := by
  rw [finished, List.length_append, sizes.digest]

/-- What was finished is valid. -/
theorem validate_finished (sizes : ControlSizes sha256 incarnation) {magic rest : Bytes}
    {size : Nat} (magicSize : magic.length = 8)
    (whole : (magic ++ incarnation ++ rest).length + 32 = size)
    : validate sha256 incarnation (finished sha256 (magic ++ incarnation ++ rest)) size magic
      = .ok () := by
  have length := finished_length sizes (magic ++ incarnation ++ rest)
  have cut : size - 32 = (magic ++ incarnation ++ rest).length := by omega
  have head : field (finished sha256 (magic ++ incarnation ++ rest)) 0 8 = magic := by
    simp only [finished, List.append_assoc]
    exact field_start magicSize
  have named : field (finished sha256 (magic ++ incarnation ++ rest)) 8 32 = incarnation := by
    simp only [finished, List.append_assoc]
    rw [← Nat.zero_add 8, field_skip magicSize, field_start sizes.incarnation]
  have digest
      : sha256 ((finished sha256 (magic ++ incarnation ++ rest)).take (size - 32))
        = (finished sha256 (magic ++ incarnation ++ rest)).drop (size - 32) := by
    rw [cut, finished, List.take_left, List.drop_left]
  rw [validate, if_neg (by omega), if_neg (by rw [head]; simp), if_neg (by rw [named]; simp),
    if_neg (by rw [digest]; simp)]

-----------------------------------------------------------------------------------------
-- What was encoded is decoded
-----------------------------------------------------------------------------------------

/-- One value of the register: which update it is, the slot it is in, and its payload. -/
structure ControlValue where
  generation : Nat
  active : Nat
  payload : Bytes
  counted : generation ≤ u64Max
  side : active ≤ 1
  fits : payload.length ≤ payloadBytes

namespace ControlValue

variable (sha256 incarnation) (value : ControlValue)

def slotBody : Bytes := Maintenance.slotBody incarnation value.generation value.payload

def slotImage : Bytes := finished sha256 (value.slotBody incarnation)

def slotFact : SlotFact :=
  {
    generation := value.generation,
    payloadLength := value.payload.length,
    digest := sha256 (value.slotBody incarnation)
  }

def commitFact : CommitFact :=
  {
    generation := value.generation,
    active := value.active,
    slotDigest := sha256 (value.slotBody incarnation)
  }

def commitImage : Bytes := finished sha256 (commitBody incarnation (value.commitFact sha256 incarnation))

/-- The intent of the update that leads to a value. -/
def intentFact : IntentFact :=
  {
    before := value.generation - 1,
    after := value.generation,
    target := value.active,
    slotDigest := sha256 (value.slotBody incarnation)
  }

def intentImage : Bytes :=
  finished sha256
    (intentBody incarnation (value.intentFact sha256 incarnation)
      (value.slotImage sha256 incarnation))

variable {sha256 incarnation}

theorem encodeCommit_eq
    : encodeCommit sha256 incarnation (value.commitFact sha256 incarnation)
      = .ok (value.commitImage sha256 incarnation) :=
  if_neg (Nat.not_lt.mpr value.side)

section Images

variable (sizes : ControlSizes sha256 incarnation)
include sizes

theorem slotBody_length : (value.slotBody incarnation).length + 32 = slotBytes := by
  have fits := value.fits
  simp only [slotBody, Maintenance.slotBody, slotMagic, List.length_append, littleEndian_length,
    List.length_cons, List.length_nil, List.length_replicate, sizes.incarnation, slotBytes]
  omega

theorem slotImage_length : (value.slotImage sha256 incarnation).length = slotBytes := by
  rw [slotImage, finished_length sizes, slotBody_length _ sizes]

theorem decodeSlot_image
    : decodeSlot sha256 incarnation (value.slotImage sha256 incarnation)
      = .ok (value.slotFact sha256 incarnation) := by
  have whole := slotBody_length value sizes
  have valid
      : validate sha256 incarnation (value.slotImage sha256 incarnation) slotBytes slotMagic
        = .ok () := by
    simp only [slotImage, slotBody, Maintenance.slotBody, List.append_assoc] at whole ⊢
    rw [← List.append_assoc slotMagic] at whole ⊢
    exact validate_finished sizes rfl whole
  have digest
      : (value.slotImage sha256 incarnation).drop (slotBytes - 32)
        = sha256 (value.slotBody incarnation) := by
    rw [slotImage, finished, ← whole, Nat.add_sub_cancel, List.drop_left]
  have image
      : value.slotImage sha256 incarnation
        = slotMagic ++ (incarnation ++ (littleEndian 8 value.generation
          ++ (littleEndian 8 value.payload.length ++ (value.payload
            ++ (List.replicate (payloadBytes - value.payload.length) 0
              ++ sha256 (value.slotBody incarnation)))))) := by
    simp only [slotImage, finished, slotBody, Maintenance.slotBody, List.append_assoc]
  have generation
      : number (field (value.slotImage sha256 incarnation) 40 8) = value.generation := by
    rw [image, field_skip slotMagic_length, field_skip sizes.incarnation,
      number_start value.counted]
  have length
      : number (field (value.slotImage sha256 incarnation) 48 8) = value.payload.length := by
    rw [image, field_skip slotMagic_length, field_skip sizes.incarnation,
      field_skip (littleEndian_length ..),
      number_start (Nat.le_trans value.fits (by decide))]
  have padding
      : field (value.slotImage sha256 incarnation) (56 + value.payload.length)
          (slotBytes - 32 - (56 + value.payload.length))
        = List.replicate (payloadBytes - value.payload.length) 0 := by
    have start : 56 + value.payload.length = 0 + value.payload.length + 8 + 8 + 32 + 8 := by omega
    rw [image, start, field_skip slotMagic_length, field_skip sizes.incarnation,
      field_skip (littleEndian_length ..), field_skip (littleEndian_length ..), field_skip rfl,
      field_start]
    simp only [List.length_replicate, slotBytes]
    omega
  have blank : ¬(List.replicate (payloadBytes - value.payload.length) (0 : UInt8)).any (· ≠ 0) := by
    simp
  simp only [decodeSlot, valid, length, padding, generation, digest, bind, Except.bind]
  rw [if_neg (not_or.mpr ⟨Nat.not_lt.mpr value.fits, blank⟩)]
  rfl

theorem encodeSlot_eq
    : encodeSlot sha256 incarnation value.generation value.payload
      = .ok (value.slotImage sha256 incarnation, value.slotFact sha256 incarnation) := by
  have decoded := decodeSlot_image value sizes
  rw [encodeSlot, if_neg (Nat.not_lt.mpr value.fits)]
  simp only [slotImage, slotBody] at decoded
  simp only [decoded]
  rfl

theorem commitBody_length
    : (commitBody incarnation (value.commitFact sha256 incarnation)).length + 32 = commitBytes := by
  simp only [commitBody, commitFact, commitMagic, List.length_append, littleEndian_length,
    List.length_cons, List.length_nil, List.length_replicate, sizes.incarnation, sizes.digest,
    commitBytes]

theorem commitImage_length : (value.commitImage sha256 incarnation).length = commitBytes := by
  rw [commitImage, finished_length sizes, commitBody_length _ sizes]

theorem decodeCommit_image
    : decodeCommit sha256 incarnation (value.commitImage sha256 incarnation)
      = .ok (value.commitFact sha256 incarnation) := by
  have whole := commitBody_length value sizes
  have valid
      : validate sha256 incarnation (value.commitImage sha256 incarnation) commitBytes commitMagic
        = .ok () := by
    simp only [commitImage, commitBody, List.append_assoc] at whole ⊢
    rw [← List.append_assoc commitMagic] at whole ⊢
    exact validate_finished sizes rfl whole
  have image
      : value.commitImage sha256 incarnation
        = commitMagic ++ (incarnation ++ (littleEndian 8 value.generation
          ++ (littleEndian 8 value.active ++ (sha256 (value.slotBody incarnation)
            ++ (List.replicate 8 0
              ++ sha256 (commitBody incarnation (value.commitFact sha256 incarnation))))))) := by
    simp only [commitImage, finished, commitBody, commitFact, List.append_assoc]
  have generation
      : number (field (value.commitImage sha256 incarnation) 40 8) = value.generation := by
    rw [image, field_skip commitMagic_length, field_skip sizes.incarnation,
      number_start value.counted]
  have active : number (field (value.commitImage sha256 incarnation) 48 8) = value.active := by
    rw [image, field_skip commitMagic_length, field_skip sizes.incarnation,
      field_skip (littleEndian_length ..), number_start (Nat.le_trans value.side (by decide))]
  have digest
      : field (value.commitImage sha256 incarnation) 56 32 = sha256 (value.slotBody incarnation) := by
    rw [image, field_skip commitMagic_length, field_skip sizes.incarnation,
      field_skip (littleEndian_length ..), field_skip (littleEndian_length ..),
      field_start (sizes.digest _)]
  have padding
      : field (value.commitImage sha256 incarnation) 88 8 = List.replicate 8 0 := by
    rw [image, field_skip commitMagic_length, field_skip sizes.incarnation,
      field_skip (littleEndian_length ..), field_skip (littleEndian_length ..),
      field_skip (sizes.digest _), field_start (List.length_replicate ..)]
  have blank : ¬(List.replicate 8 (0 : UInt8)).any (· ≠ 0) := by simp
  simp only [decodeCommit, valid, active, padding, generation, digest, bind, Except.bind]
  rw [if_neg (not_or.mpr ⟨Nat.not_lt.mpr value.side, blank⟩)]
  rfl

theorem intentBody_length
    : (intentBody incarnation (value.intentFact sha256 incarnation)
        (value.slotImage sha256 incarnation)).length + 32
      = intentBytes := by
  simp only [intentBody, intentFact, intentMagic, List.length_append, littleEndian_length,
    List.length_cons, List.length_nil, slotImage_length _ sizes, sizes.incarnation, sizes.digest,
    intentBytes, slotBytes]

theorem intentImage_length : (value.intentImage sha256 incarnation).length = intentBytes := by
  rw [intentImage, finished_length sizes, intentBody_length _ sizes]

/-- The slot image is in the intent. -/
theorem intentImage_slot
    : field (value.intentImage sha256 incarnation) 96 slotBytes
      = value.slotImage sha256 incarnation := by
  simp only [intentImage, finished, intentBody, intentFact, List.append_assoc]
  rw [field_skip intentMagic_length, field_skip sizes.incarnation,
    field_skip (littleEndian_length ..), field_skip (littleEndian_length ..),
    field_skip (littleEndian_length ..), field_skip (sizes.digest _),
    field_start (slotImage_length _ sizes)]

theorem decodeIntent_image (later : 0 < value.generation)
    : decodeIntent sha256 incarnation (value.intentImage sha256 incarnation)
      = .ok (value.intentFact sha256 incarnation) := by
  have whole := intentBody_length value sizes
  have slot := intentImage_slot value sizes
  have valid
      : validate sha256 incarnation (value.intentImage sha256 incarnation) intentBytes intentMagic
        = .ok () := by
    simp only [intentImage, intentBody, List.append_assoc] at whole ⊢
    rw [← List.append_assoc intentMagic] at whole ⊢
    exact validate_finished sizes rfl whole
  have image
      : value.intentImage sha256 incarnation
        = intentMagic ++ (incarnation ++ (littleEndian 8 (value.generation - 1)
          ++ (littleEndian 8 value.generation ++ (littleEndian 8 value.active
            ++ (sha256 (value.slotBody incarnation) ++ (value.slotImage sha256 incarnation
              ++ sha256
                (intentBody incarnation (value.intentFact sha256 incarnation)
                  (value.slotImage sha256 incarnation)))))))) := by
    simp only [intentImage, finished, intentBody, intentFact, List.append_assoc]
  have before
      : number (field (value.intentImage sha256 incarnation) 40 8) = value.generation - 1 := by
    rw [image, field_skip intentMagic_length, field_skip sizes.incarnation,
      number_start (Nat.le_trans (Nat.sub_le ..) value.counted)]
  have after
      : number (field (value.intentImage sha256 incarnation) 48 8) = value.generation := by
    rw [image, field_skip intentMagic_length, field_skip sizes.incarnation,
      field_skip (littleEndian_length ..), number_start value.counted]
  have target : number (field (value.intentImage sha256 incarnation) 56 8) = value.active := by
    rw [image, field_skip intentMagic_length, field_skip sizes.incarnation,
      field_skip (littleEndian_length ..), field_skip (littleEndian_length ..),
      number_start (Nat.le_trans value.side (by decide))]
  have digest
      : field (value.intentImage sha256 incarnation) 64 32 = sha256 (value.slotBody incarnation) := by
    rw [image, field_skip intentMagic_length, field_skip sizes.incarnation,
      field_skip (littleEndian_length ..), field_skip (littleEndian_length ..),
      field_skip (littleEndian_length ..), field_start (sizes.digest _)]
  have next : checkedAdd (value.generation - 1) 1 = some value.generation := by
    rw [checkedAdd, Nat.sub_add_cancel later, if_pos value.counted]
  simp only [decodeIntent, valid, slot, decodeSlot_image _ sizes, before, after, target, digest, next,
    bind, Except.bind]
  simp [slotFact, intentFact, value.side]

/-- One update later, in the other slot. -/
structure Follows (value next : ControlValue) : Prop where
  generation : next.generation = value.generation + 1
  active : next.active = 1 - value.active

variable {value}

theorem encodeIntent_eq {next : ControlValue} (follows : value.Follows next)
    : encodeIntent sha256 incarnation (value.commitFact sha256 incarnation)
        (next.slotImage sha256 incarnation)
      = .ok (next.intentImage sha256 incarnation, next.intentFact sha256 incarnation) := by
  have later : 0 < next.generation := by
    rw [follows.generation]
    exact Nat.succ_pos _
  have fact
      : next.intentFact sha256 incarnation
        = {
            before := value.generation,
            after := next.generation,
            target := 1 - value.active,
            slotDigest := sha256 (next.slotBody incarnation)
          } := by
    rw [intentFact, follows.generation, follows.active, Nat.add_sub_cancel]
  have counts : checkedAdd value.generation 1 = some next.generation := by
    rw [checkedAdd, ← follows.generation, if_pos next.counted]
  have decoded := decodeIntent_image _ sizes later
  rw [intentImage, fact] at decoded
  have side : ¬(value.commitFact sha256 incarnation).active > 1 := Nat.not_lt.mpr value.side
  rw [encodeIntent, if_neg side, decodeSlot_image _ sizes]
  simp only [commitFact, slotFact, bind, Except.bind, counts, ne_eq, not_true_eq_false, if_false,
    decoded]
  rw [intentImage, fact]
  rfl

end Images

end ControlValue

end CodebaseGraph.Storage.Maintenance
