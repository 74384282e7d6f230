import CodebaseGraph.Storage.Maintenance.GenerationRecords

/-! The records of the startup gate (`src/storage/maintenance_generation_gate.rs`): the files it is
made of, and which removal is in progress.
-/

namespace CodebaseGraph.Storage.Maintenance.Records

open CodebaseGraph.Collections
open CodebaseGraph.Storage.Maintenance.Legacy
open CodebaseGraph.Storage.Maintenance.Retirement.RetirementLeaf (readId_bytes)

-- Binding

structure GateBinding where
  managed : FixedWords
  generations : FixedWords
  writer : FixedWords
  gate : FixedWords
  binding : FixedWords
  data0 : FixedWords
  data1 : FixedWords
  selector : FixedWords
  parent : GenerationOriginScope
  nonce : Block 32
deriving DecidableEq

namespace GateBinding

/-- The ASCII codes of `CGGGATE1`. -/
def magic : List UInt8 := [67, 71, 71, 71, 65, 84, 69, 49]

def segments (binding : GateBinding) : List (List UInt8) :=
  [magic, wordBytes 1, binding.managed.bytes, binding.gate.bytes, binding.data0.bytes,
    binding.data1.bytes, binding.selector.bytes, binding.binding.bytes, binding.parent.root.bytes,
    binding.parent.coordination.bytes, binding.parent.cohort.bytes,
    binding.parent.publicationBinding.bytes, binding.parent.incarnation.val, binding.nonce.val,
    binding.generations.bytes, binding.writer.bytes, zeros 208]

def sizes : List Nat := [8, 8, 16, 16, 16, 16, 16, 16, 16, 16, 16, 16, 32, 32, 16, 16, 208]

def ofImage (b : List UInt8) : GateBinding where
  managed := readId b 16
  gate := readId b 32
  data0 := readId b 48
  data1 := readId b 64
  selector := readId b 80
  binding := readId b 96
  parent :=
    { root := readId b 112
      coordination := readId b 128
      cohort := readId b 144
      publicationBinding := readId b 160
      incarnation := .read b 176 32 }
  nonce := .read b 208 32
  generations := readId b 240
  writer := readId b 256

def Valid (binding : GateBinding) : Prop := !isZero binding.nonce.val

instance : DecidablePred Valid := fun _ => inferInstanceAs (Decidable (_ = _))

variable (sha256 : List UInt8 → Block 32)

def encode (binding : GateBinding) : List UInt8 := finish sha256 binding.segments.flatten

def Framed (b : List UInt8) : Prop :=
  b.length = 512
  ∧ slice b 0 8 = magic
  ∧ word (b.drop 8) = 1
  ∧ isZero (slice b 272 208)
  ∧ (sha256 (b.take 480)).val = b.drop 480

instance : DecidablePred (Framed sha256) := fun _ =>
  inferInstanceAs (Decidable (_ ∧ _ ∧ _ ∧ _ ∧ _))

def decode : List UInt8 → Option GateBinding := decodeFrame (Framed sha256) ofImage Valid

variable {sha256}

theorem segments_sized (binding : GateBinding) : binding.segments.map List.length = sizes := by
  simp [segments, sizes, magic]

theorem segmentsAt_encode (sha256 : List UInt8 → Block 32) (binding : GateBinding)
    : segmentsAt (binding.encode sha256) 0 sizes = binding.segments :=
  segmentsAt_flatten _ binding.segments_sized

theorem framed_encode (binding : GateBinding) : Framed sha256 (binding.encode sha256) := by
  have cut := binding.segmentsAt_encode sha256
  simp only [sizes, segmentsAt, segments, List.cons.injEq, Nat.reduceAdd, and_true] at cut
  obtain ⟨magic, version, -, -, -, -, -, -, -, -, -, -, -, -, -, -, gap⟩ := cut
  exact ⟨finish_length binding.segments_sized rfl, magic, word_of_slice version, isZero_of_slice gap,
    finish_intact binding.segments_sized rfl⟩

theorem ofImage_encode (binding : GateBinding) : ofImage (binding.encode sha256) = binding := by
  have cut := binding.segmentsAt_encode sha256
  simp only [sizes, segmentsAt, segments, List.cons.injEq, Nat.reduceAdd, and_true] at cut
  obtain ⟨-, -, managed, gate, data0, data1, selector, own, root, coordination, cohort, publication,
    incarnation, nonce, generations, writer, -⟩ := cut
  simp only [ofImage, readId_of_slice managed, readId_of_slice gate, readId_of_slice data0,
    readId_of_slice data1, readId_of_slice selector, readId_of_slice own, readId_of_slice root,
    readId_of_slice coordination, readId_of_slice cohort, readId_of_slice publication,
    Block.read_of_slice incarnation, Block.read_of_slice nonce, readId_of_slice generations,
    readId_of_slice writer]

theorem encode_ofImage (b : List UInt8) (framed : Framed sha256 b)
    : (ofImage b).encode sha256 = b := by
  obtain ⟨length, magic, version, gap, intact⟩ := framed
  have fits {size : Nat} (inside : size ≤ 512) : size ≤ b.length := length ▸ inside
  have first : wordBytes 1 = slice b 8 8 := version ▸ wordBytes_word (fits (by decide))
  have cut : (ofImage b).segments = segmentsAt b 0 sizes := by
    simp only [segments, ofImage, sizes, segmentsAt, ← magic, first,
      ← slice_of_isZero (fits (by decide)) gap, Block.read_val, readId_bytes, fits, Nat.reduceAdd,
      Nat.reduceLeDiff]
  exact finish_of_cut cut intact

theorem canonical : Canonical Valid (encode sha256) (decode sha256) :=
  canonical_decodeFrame framed_encode ofImage_encode encode_ofImage

end GateBinding

-----------------------------------------------------------------------------------------
-- State
-----------------------------------------------------------------------------------------

/-- The words of an identity have 64 bits. -/
def Wide (identity : FileIdentity) : Prop := identity.volume < 256 ^ 8 ∧ identity.index < 256 ^ 8

theorem identityBytes_length (identity : FileIdentity) : (identityBytes identity).length = 16 := by
  simp [identityBytes]

theorem identityOf_bytes {identity : FileIdentity} (wide : Wide identity)
    : identityOf (identityBytes identity) = identity := by
  have volume : field (identityBytes identity) 0 8 = littleEndian 8 identity.volume :=
    field_start (littleEndian_length ..)
  have index : field (identityBytes identity) 8 8 = littleEndian 8 identity.index := by
    rw [identityBytes, ← Nat.zero_add 8, field_skip (littleEndian_length ..), field,
      List.drop_zero, List.take_of_length_le (by simp)]
  rw [identityOf, volume, index, number_littleEndian wide.1, number_littleEndian wide.2]

theorem wide_identityOf {bytes : List UInt8} (length : bytes.length = 16)
    : Wide (identityOf bytes) := by
  have first := number_lt (field bytes 0 8)
  have second := number_lt (field bytes 8 8)
  rw [show (field bytes 0 8).length = 8 by simp [field, length]] at first
  rw [show (field bytes 8 8).length = 8 by simp [field, length]] at second
  exact ⟨first, second⟩

theorem identityBytes_identityOf {bytes : List UInt8} (length : bytes.length = 16)
    : identityBytes (identityOf bytes) = bytes := by
  have first := littleEndian_number (field bytes 0 8)
  have second := littleEndian_number (field bytes 8 8)
  rw [show (field bytes 0 8).length = 8 by simp [field, length]] at first
  rw [show (field bytes 8 8).length = 8 by simp [field, length]] at second
  have halves : field bytes 0 8 ++ field bytes 8 8 = bytes := by
    have rest : (bytes.drop 8).take 8 = bytes.drop 8 :=
      List.take_of_length_le (by rw [List.length_drop, length])
    rw [field, field, List.drop_zero, rest, List.take_append_drop]
  rw [identityBytes, identityOf, first, second, halves]

/-- What a removal in progress has to say. -/
def ValidState : GateState → Prop
  | .idle => True
  | .removing generation length directory origin finalRecord proofDigest =>
      generation.length = 128
      ∧ generationName generation length.toNat
      ∧ Wide directory
      ∧ Wide origin
      ∧ Wide finalRecord
      ∧ proofDigest.length = 32

def removingSegments (generation : Bytes) (length : UInt8)
    (directory origin finalRecord : FileIdentity) (proofDigest : Bytes) : List (List UInt8) :=
  [gateMagic, [1], [length], zeros 6, generation, identityBytes directory, identityBytes origin,
    identityBytes finalRecord, proofDigest]

def idleSegments : List (List UInt8) := [gateMagic, [0], zeros 1, zeros 6, zeros 208]

def stateSizes : List Nat := [8, 1, 1, 6, 128, 16, 16, 16, 32]

section

variable (sha256 : List UInt8 → Block 32)

def digestOf (bytes : Bytes) : Bytes := (sha256 bytes).val

theorem encode_idle
    : GateState.encode (digestOf sha256) .idle = finish sha256 idleSegments.flatten := by
  have body : gateMagic ++ List.replicate 216 0 = idleSegments.flatten := by
    decide +kernel
  rw [GateState.encode, body]
  rfl

theorem encode_removing (generation : Bytes) (length : UInt8)
    (directory origin finalRecord : FileIdentity) (proofDigest : Bytes)
    : GateState.encode (digestOf sha256)
        (.removing generation length directory origin finalRecord proofDigest)
      = finish sha256
          (removingSegments generation length directory origin finalRecord proofDigest).flatten := by
  have body : gateMagic ++ [1, length] ++ List.replicate 6 0 ++ generation
        ++ identityBytes directory ++ identityBytes origin ++ identityBytes finalRecord ++ proofDigest
      = (removingSegments generation length directory origin finalRecord proofDigest).flatten := by
    simp only [removingSegments, List.flatten_cons, List.flatten_nil, List.append_assoc,
      List.append_nil, List.cons_append, List.nil_append]
    rfl
  rw [GateState.encode, body]
  rfl

theorem any_ne_zero (bytes : List UInt8) : bytes.any (· ≠ 0) = !isZero bytes := by
  rw [isZero, List.all_eq_not_any_not, Bool.not_not]
  congr 1
  funext byte
  simp

theorem getElem?_of_slice {bytes : List UInt8} {offset : Nat} {byte : UInt8}
    (read : slice bytes offset 1 = [byte]) : bytes[offset]? = some byte := by
  have found : (slice bytes offset 1)[0]? = some byte := by rw [read]; rfl
  rw [slice, List.getElem?_take_of_lt (by decide), List.getElem?_drop, Nat.add_zero] at found
  exact found

theorem field_eq_slice (bytes : Bytes) (offset length : Nat)
    : field bytes offset length = slice bytes offset length := rfl

theorem idleSegments_sized : idleSegments.map List.length = [8, 1, 1, 6, 208] := by
  decide +kernel

/-- The checks of a state before its kind is read. -/
structure StateFramed (b : Bytes) : Prop where
  length : b.length = 256
  magic : slice b 0 8 = gateMagic
  gap : isZero (slice b 10 6) = true
  intact : (sha256 (b.take 224)).val = b.drop 224

theorem decode_framed {b : Bytes} (framed : StateFramed sha256 b)
    : GateState.decode (digestOf sha256) b
      = if b[8]? = some 0 then
          if isZero (slice b 9 215) then some .idle else none
        else if b[8]? = some 1 then
          if generationName (slice b 16 128) (b[9]?.getD 0).toNat then
            some
              (.removing (slice b 16 128) (b[9]?.getD 0) (identityOf (slice b 144 16))
                (identityOf (slice b 160 16)) (identityOf (slice b 176 16)) (slice b 192 32))
          else none
        else none := by
  have sound : ¬ (b.length ≠ 256 ∨ slice b 0 8 ≠ gateMagic
      ∨ (slice b 10 6).any (· ≠ 0) = true ∨ digestOf sha256 (b.take 224) ≠ b.drop 224) := by
    rw [any_ne_zero, framed.length, framed.magic, framed.gap, digestOf, framed.intact]
    simp
  unfold GateState.decode
  exact if_neg sound

theorem framed_of_decode {b : Bytes} {state : GateState}
    (read : GateState.decode (digestOf sha256) b = some state) : StateFramed sha256 b := by
  unfold GateState.decode at read
  simp only [field_eq_slice, any_ne_zero] at read
  split at read
  · cases read
  · next sound =>
    simp only [not_or, not_not, Bool.not_eq_true', Bool.not_eq_false] at sound
    exact ⟨sound.1, sound.2.1, sound.2.2.1, sound.2.2.2⟩

theorem decode_idle
    : GateState.decode (digestOf sha256) (GateState.encode (digestOf sha256) .idle)
      = some .idle := by
  rw [encode_idle]
  have cut := segmentsAt_flatten (sha256 idleSegments.flatten).val idleSegments_sized
  have length : (finish sha256 idleSegments.flatten).length = 224 + 32 :=
    finish_length idleSegments_sized rfl
  have intact : (sha256 ((finish sha256 idleSegments.flatten).take 224)).val
      = (finish sha256 idleSegments.flatten).drop 224 :=
    finish_intact idleSegments_sized rfl
  rw [← finish] at cut
  generalize finish sha256 idleSegments.flatten = b at cut length intact ⊢
  simp only [segmentsAt, idleSegments, List.cons.injEq, Nat.reduceAdd, and_true] at cut
  obtain ⟨magic, flag, first, gap, others⟩ := cut
  have empty : isZero (slice b 9 215) = true := by
    have rest := flatten_segmentsAt b 9 [1, 6, 208]
    simp only [segmentsAt, Nat.reduceAdd, List.sum_cons, List.sum_nil, Nat.add_zero,
      List.flatten_cons, List.flatten_nil, List.append_nil] at rest
    rw [← rest, first, gap, others, isZero_append, isZero_append, isZero_zeros, isZero_zeros,
      isZero_zeros]
    rfl
  have framed : StateFramed sha256 b := ⟨length, magic, isZero_of_slice gap, intact⟩
  rw [decode_framed sha256 framed, if_pos (getElem?_of_slice flag), if_pos empty]

theorem decode_removing {generation : Bytes} {length : UInt8}
    {directory origin finalRecord : FileIdentity} {proofDigest : Bytes}
    (valid : ValidState (.removing generation length directory origin finalRecord proofDigest))
    : GateState.decode (digestOf sha256)
        (GateState.encode (digestOf sha256)
          (.removing generation length directory origin finalRecord proofDigest))
      = some (.removing generation length directory origin finalRecord proofDigest) := by
  obtain ⟨generationLength, named, wideDirectory, wideOrigin, wideFinal, proofLength⟩ := valid
  rw [encode_removing]
  have sized : (removingSegments generation length directory origin finalRecord proofDigest).map
      List.length = stateSizes := by
    simp [removingSegments, stateSizes, gateMagic, generationLength, proofLength,
      identityBytes_length]
  have cut := segmentsAt_flatten (sha256 (removingSegments generation length directory origin
    finalRecord proofDigest).flatten).val sized
  rw [← finish] at cut
  have size : (finish sha256 (removingSegments generation length directory origin finalRecord
      proofDigest).flatten).length = 224 + 32 :=
    finish_length sized rfl
  have intact : (sha256 ((finish sha256 (removingSegments generation length directory origin
        finalRecord proofDigest).flatten).take 224)).val
      = (finish sha256 (removingSegments generation length directory origin finalRecord
        proofDigest).flatten).drop 224 :=
    finish_intact sized rfl
  generalize finish sha256
    (removingSegments generation length directory origin finalRecord proofDigest).flatten = b
    at cut size intact ⊢
  simp only [segmentsAt, stateSizes, removingSegments, List.cons.injEq, Nat.reduceAdd,
    and_true] at cut
  obtain ⟨magic, flag, lengthByte, gap, name, directoryBytes, originBytes, finalBytes, proof⟩ := cut
  have framed : StateFramed sha256 b := ⟨size, magic, isZero_of_slice gap, intact⟩
  have kind := getElem?_of_slice flag
  have stored := getElem?_of_slice lengthByte
  rw [decode_framed sha256 framed, if_neg (by rw [kind]; decide), if_pos kind, name, stored,
    Option.getD_some, if_pos named, directoryBytes, originBytes, finalBytes, proof,
    identityOf_bytes wideDirectory, identityOf_bytes wideOrigin, identityOf_bytes wideFinal]

theorem encode_of_decode {b : Bytes} {state : GateState}
    (read : GateState.decode (digestOf sha256) b = some state)
    : ValidState state ∧ GateState.encode (digestOf sha256) state = b := by
  have framed := framed_of_decode sha256 read
  rw [decode_framed sha256 framed] at read
  have fits {size : Nat} (inside : size ≤ 256) : size ≤ b.length := framed.length ▸ inside
  have kind : b[8]? = some (byteAt b 8) := getElem?_of_slice (slice_one (fits (by decide)))
  have lengthByte : slice b 9 1 = [byteAt b 9] := slice_one (fits (by decide))
  have stored : b[9]? = some (byteAt b 9) := getElem?_of_slice lengthByte
  have gap := slice_of_isZero (fits (by decide)) framed.gap
  split at read
  · next idle =>
    rw [kind, Option.some.injEq] at idle
    split at read
    · next empty =>
      cases read
      refine ⟨trivial, ?_⟩
      have flag : slice b 8 1 = [0] := by rw [slice_one (fits (by decide)), idle]
      have rest := flatten_segmentsAt b 9 [1, 6, 208]
      simp only [segmentsAt, Nat.reduceAdd, List.sum_cons, List.sum_nil, Nat.add_zero,
        List.flatten_cons, List.flatten_nil, List.append_nil] at rest
      rw [← rest, isZero_append, isZero_append, Bool.and_eq_true, Bool.and_eq_true] at empty
      have cut : idleSegments = segmentsAt b 0 [8, 1, 1, 6, 208] := by
        simp only [idleSegments, segmentsAt, Nat.reduceAdd, ← framed.magic, flag,
          ← slice_of_isZero (fits (by decide)) empty.1,
          ← slice_of_isZero (fits (by decide)) empty.2.1,
          ← slice_of_isZero (fits (by decide)) empty.2.2]
      rw [encode_idle]
      exact finish_of_cut cut framed.intact
    · cases read
  · split at read
    · next removing =>
      rw [kind, Option.some.injEq] at removing
      rw [stored, Option.getD_some] at read
      split at read
      · next named =>
        cases read
        have long (offset : Nat) (inside : offset + 16 ≤ 256) : (slice b offset 16).length = 16 :=
          slice_length (fits inside)
        refine ⟨⟨slice_length (fits (by decide)), named, wide_identityOf (long 144 (by decide)),
          wide_identityOf (long 160 (by decide)), wide_identityOf (long 176 (by decide)),
          slice_length (fits (by decide))⟩, ?_⟩
        have flag : slice b 8 1 = [1] := by rw [slice_one (fits (by decide)), removing]
        have cut : removingSegments (slice b 16 128) (byteAt b 9) (identityOf (slice b 144 16))
              (identityOf (slice b 160 16)) (identityOf (slice b 176 16)) (slice b 192 32)
            = segmentsAt b 0 stateSizes := by
          simp only [removingSegments, segmentsAt, stateSizes, Nat.reduceAdd, ← framed.magic, flag,
            ← lengthByte, ← gap, identityBytes_identityOf (long 144 (by decide)),
            identityBytes_identityOf (long 160 (by decide)),
            identityBytes_identityOf (long 176 (by decide))]
        rw [encode_removing]
        exact finish_of_cut cut framed.intact
      · cases read
    · cases read

theorem canonical_gateState
    : Canonical ValidState (GateState.encode (digestOf sha256))
        (GateState.decode (digestOf sha256)) where
  decode_encode state valid := by
    cases state with
    | idle => exact decode_idle sha256
    | removing => exact decode_removing sha256 valid
  encode_decode _ _ read := encode_of_decode sha256 read

end

end CodebaseGraph.Storage.Maintenance.Records
