import CodebaseGraph.Storage.Maintenance.Cursor
import CodebaseGraph.Storage.Maintenance.GateRecords
import CodebaseGraph.Storage.Maintenance.WorkspaceState

/-! The control of the generation engine (`src/storage/maintenance_generation_engine.rs`), which
keeps a cursor, and the fixed records of the maintenance together.
-/

namespace CodebaseGraph.Storage.Maintenance

open CodebaseGraph.Collections

-- Cursors

namespace MaintenanceCursor

variable {sha256 : List UInt8 → Block 32}

/-- A slot that is read has the flag and the bytes it was read from. -/
theorem slotSegments_of_decodeSlot {b : List UInt8} {place : Fin categories}
    {address : Option CursorAddress} (length : b.length = cursorBytes)
    (read : decodeSlot b place = some address)
    : slotSegments address
      = [slice b (slotOffset place) 1, slice b (slotOffset place + 1) addressBytes] := by
  have small := place.isLt
  have inside : slotOffset place + 1 + addressBytes ≤ b.length := by
    rw [length]
    have slots : slotOffset place + 1 + addressBytes = 170 + place.val * 129 := by
      rw [slotOffset]
      simp only [slotSize, addressBytes]
      omega
    have total : cursorBytes = 1105 := rfl
    rw [slots, total]
    simp only [categories] at small
    omega
  have flag : slice b (slotOffset place) 1 = [byteAt b (slotOffset place)] :=
    slice_one (by omega)
  rw [flag]
  unfold decodeSlot at read
  dsimp only at read
  split at read
  · next absent =>
    split at read
    · next empty =>
      cases read
      rw [absent, slice_of_isZero inside empty]
      rfl
    · cases read
  · next present =>
    cases read
    rw [present, ← Block.read_val inside]
    rfl
  · cases read

theorem addresses_eq (after : Fin categories → Option CursorAddress)
    : List.ofFn after
      = [after 0, after 1, after 2, after 3, after 4, after 5, after 6, after 7] := by
  rfl

theorem encode_decode {b : List UInt8} {installation : Block 32} {cursor : MaintenanceCursor}
    (read : decode sha256 b installation = .ok cursor)
    : cursor.installation = installation ∧ cursor.encode sha256 = b := by
  unfold decode at read
  dsimp only at read
  split at read
  · next valid =>
    split at read
    · cases read
    · next sound =>
      simp only [not_or, not_not] at sound
      obtain ⟨length, magic, digest⟩ := sound
      split at read
      · cases read
      · next same =>
        rw [not_not] at same
        split at read
        · next found =>
          cases read
          refine ⟨rfl, ?_⟩
          have slot (place : Fin categories)
              : slotSegments ((decodeSlot b place).get (found place))
                = [slice b (slotOffset place) 1, slice b (slotOffset place + 1) addressBytes] :=
            slotSegments_of_decodeSlot length (Option.some_get _).symm
          have next : [UInt8.ofNat (byteAt b 40).toNat] = slice b 40 1 := by
            have inside : 40 < b.length := by
              rw [length]
              decide
            rw [slice_one inside, UInt8.ofNat_toNat]
          have cut : segments
              { installation
                nextCategory := ⟨(byteAt b 40).toNat, valid⟩
                after := fun place => (decodeSlot b place).get (found place) }
              = segmentsAt b 0 sizes := by
            simp only [segments, addresses_eq, List.flatMap_cons, List.flatMap_nil, slot, next,
              ← magic, ← same]
            rfl
          have body : sizes.sum = bodyBytes := rfl
          rw [encode, flatten_of_cut cut, body, ← digest, List.take_append_drop]
        · cases read
  · cases read

theorem canonical (installation : Block 32)
    : Canonical (fun cursor => cursor.installation = installation) (encode sha256)
        (fun b => (decode sha256 b installation).toOption) :=
  canonical_of_except (fun cursor same => same ▸ cursor.decode_encode sha256)
    (fun _ _ read => encode_decode read)

end MaintenanceCursor

-----------------------------------------------------------------------------------------
-- Generation engine
-----------------------------------------------------------------------------------------

namespace Records

def resetIntent : UInt8 := 3

structure Control where
  stage : UInt8
  selected : UInt8
  sourceEpoch : UInt64
  operation : Block 32
  proofDigest : Block 32
  generation : Block 128
  generationLen : UInt8
  cursor : MaintenanceCursor

namespace Control

def controlBytes : Nat := 224 + cursorBytes

/-- The ASCII codes of `CGGENE01`. -/
def magic : List UInt8 := [67, 71, 71, 69, 78, 69, 48, 49]

variable (sha256 : List UInt8 → Block 32)

def segments (control : Control) : List (List UInt8) :=
  [magic, [control.stage], [control.selected], [control.generationLen], zeros 5,
    wordBytes control.sourceEpoch, control.operation.val, control.proofDigest.val,
    control.generation.val, zeros 8, control.cursor.encode sha256]

def sizes : List Nat := [8, 1, 1, 1, 5, 8, 32, 32, 128, 8, 1105]

def encode (control : Control) : List UInt8 := (control.segments sha256).flatten

def ofImage (b : List UInt8) (cursor : MaintenanceCursor) : Control where
  stage := byteAt b 8
  selected := byteAt b 9
  generationLen := byteAt b 10
  sourceEpoch := word (b.drop 16)
  operation := .read b 24 32
  proofDigest := .read b 56 32
  generation := .read b 88 128
  cursor

/-- A control works on a named generation at a known stage, for an operation with a proof, and its
cursor is one of the installation.
-/
def Valid (incarnation : Block 32) (control : Control) : Prop :=
  control.stage ≤ resetIntent
  ∧ control.selected ≤ 12
  ∧ !isZero control.operation.val
  ∧ !isZero control.proofDigest.val
  ∧ named control.generation control.generationLen
  ∧ control.cursor.installation = incarnation

/-- Every failure is reported as a change of the file. -/
def decode (b : List UInt8) (incarnation : Block 32) : Option Control :=
  if b.length ≠ controlBytes
      ∨ slice b 0 8 ≠ magic
      ∨ byteAt b 8 > resetIntent
      ∨ byteAt b 9 > 12
      ∨ !isZero (slice b 11 5 ++ slice b 216 8)
      ∨ isZero (slice b 24 32)
      ∨ isZero (slice b 56 32) then
    none
  else if named (.read b 88 128) (byteAt b 10) then
    match MaintenanceCursor.decode sha256 (b.drop 224) incarnation with
    | .ok cursor => some (ofImage b cursor)
    | .error _ => none
  else
    none

variable {sha256}

theorem segments_sized (sha256 : List UInt8 → Block 32) (control : Control)
    : (control.segments sha256).map List.length = sizes := by
  have cursor : (control.cursor.encode sha256).length = 1105 :=
    control.cursor.encode_length sha256
  simp [segments, sizes, magic, cursor]

theorem encode_length (sha256 : List UInt8 → Block 32) (control : Control)
    : (control.encode sha256).length = controlBytes := by
  rw [encode, List.length_flatten, segments_sized]
  rfl

theorem segmentsAt_encode (sha256 : List UInt8 → Block 32) (control : Control)
    : segmentsAt (control.encode sha256) 0 sizes = control.segments sha256 := by
  have cut := segmentsAt_flatten [] (control.segments_sized sha256)
  rw [List.append_nil] at cut
  exact cut

theorem decode_encode {incarnation : Block 32} (control : Control)
    (valid : control.Valid incarnation)
    : decode sha256 (control.encode sha256) incarnation = some control := by
  obtain ⟨stage, selected, operation, proofDigest, generation, installation⟩ := valid
  have length := control.encode_length sha256
  have cut := control.segmentsAt_encode sha256
  generalize control.encode sha256 = b at cut length ⊢
  simp only [sizes, segmentsAt, segments, List.cons.injEq, Nat.reduceAdd, and_true] at cut
  obtain ⟨magic, stageByte, selectedByte, lengthByte, gap1, sourceEpoch, operationBytes,
    proofBytes, generationBytes, gap2, cursorBytes⟩ := cut
  have cursor : b.drop 224 = control.cursor.encode sha256 := by
    have rest : slice b 224 1105 = b.drop 224 := by
      apply List.take_of_length_le
      rw [List.length_drop, length]
      rfl
    rw [← rest, cursorBytes]
  have sound : ¬ (b.length ≠ controlBytes ∨ slice b 0 8 ≠ Control.magic
      ∨ byteAt b 8 > resetIntent ∨ byteAt b 9 > 12
      ∨ (!isZero (slice b 11 5 ++ slice b 216 8)) = true
      ∨ isZero (slice b 24 32) = true ∨ isZero (slice b 56 32) = true) := by
    rw [byteAt_of_slice stageByte, byteAt_of_slice selectedByte, operationBytes, proofBytes]
    simp only [Bool.not_eq_true', isZero_append, gap1, gap2, isZero_zeros] at operation proofDigest ⊢
    simp [length, magic, operation, proofDigest, stage, selected]
  have read : ofImage b control.cursor = control := by
    simp only [ofImage, byteAt_of_slice stageByte, byteAt_of_slice selectedByte,
      byteAt_of_slice lengthByte, word_of_slice sourceEpoch, Block.read_of_slice operationBytes,
      Block.read_of_slice proofBytes, Block.read_of_slice generationBytes]
  rw [decode, if_neg sound, Block.read_of_slice generationBytes, byteAt_of_slice lengthByte,
    if_pos generation, cursor, ← installation, control.cursor.decode_encode]
  exact congrArg some read

theorem encode_decode {b : List UInt8} {incarnation : Block 32} {control : Control}
    (read : decode sha256 b incarnation = some control)
    : control.Valid incarnation ∧ control.encode sha256 = b := by
  unfold decode at read
  split at read
  · cases read
  · next sound =>
    simp only [not_or, not_not, Bool.not_eq_true', Bool.not_eq_false, Bool.not_eq_true,
      isZero_append, Bool.and_eq_true] at sound
    obtain ⟨length, magic, stage, selected, gaps, operation, proofDigest⟩ := sound
    have fits {size : Nat} (inside : size ≤ 1329) : size ≤ b.length := length ▸ inside
    split at read
    · next generation =>
      split at read
      · next cursor found =>
        cases read
        obtain ⟨installation, image⟩ := MaintenanceCursor.encode_decode found
        refine ⟨⟨UInt8.not_lt.mp stage, UInt8.not_lt.mp selected, ?_, ?_, generation,
          installation⟩, ?_⟩
        · rw [ofImage, Block.read_val (fits (by decide)), operation]
          rfl
        · rw [ofImage, Block.read_val (fits (by decide)), proofDigest]
          rfl
        · have one (offset : Nat) (inside : offset < 1329)
              : [byteAt b offset] = slice b offset 1 := (slice_one (length ▸ inside)).symm
          have rest : cursor.encode sha256 = slice b 224 1105 := by
            rw [image]
            symm
            apply List.take_of_length_le
            rw [List.length_drop, length]
            rfl
          have cut : (ofImage b cursor).segments sha256 = segmentsAt b 0 sizes := by
            simp only [segments, ofImage, rest, one, sizes, segmentsAt, ← magic,
              ← slice_of_isZero (fits (by decide)) gaps.1,
              ← slice_of_isZero (fits (by decide)) gaps.2, wordBytes_word, Block.read_val, fits,
              Nat.reduceAdd, Nat.reduceLeDiff, Nat.reduceLT]
          rw [encode, flatten_of_cut cut]
          exact List.take_of_length_le (le_of_eq length)
      · cases read
    · cases read

theorem canonical (incarnation : Block 32)
    : Canonical (Valid incarnation) (encode sha256) (fun b => decode sha256 b incarnation) where
  decode_encode := decode_encode
  encode_decode _ _ := encode_decode

end Control

-- All records

/-- Each of the fixed records has exactly one image for each valid value, whatever the digest. -/
theorem fixedRecords_canonical (sha256 : List UInt8 → Block 32)
    : Canonical Origin.Valid (Origin.encode sha256) (Origin.decode sha256)
      ∧ Canonical Final.Valid (Final.encode sha256) (Final.decode sha256)
      ∧ Canonical LegacyFinal.Valid (LegacyFinal.encode sha256) (LegacyFinal.decode sha256)
      ∧ Canonical GateBinding.Valid (GateBinding.encode sha256) (GateBinding.decode sha256)
      ∧ Canonical ValidState (GateState.encode (digestOf sha256)) (GateState.decode (digestOf sha256))
      ∧ Canonical (fun _ => True) (PublisherBinding.encode sha256)
          (fun b => (PublisherBinding.decode sha256 b).toOption)
      ∧ Canonical WorkspaceControl.Valid WorkspaceControl.encode
          (fun b => (WorkspaceControl.decode b).toOption)
      ∧ Canonical WorkspaceBinding.Valid (WorkspaceBinding.encode sha256)
          (fun b => (WorkspaceBinding.decode sha256 b).toOption)
      ∧ (∀ installation,
          Canonical (fun cursor => cursor.installation = installation)
            (MaintenanceCursor.encode sha256)
            (fun b => (MaintenanceCursor.decode sha256 b installation).toOption))
      ∧ ∀ incarnation,
          Canonical (Control.Valid incarnation) (Control.encode sha256)
            (fun b => Control.decode sha256 b incarnation) := by
  refine ⟨Origin.canonical, Final.canonical, LegacyFinal.canonical, GateBinding.canonical,
    canonical_gateState sha256, PublisherBinding.canonical, WorkspaceControl.canonical,
    WorkspaceBinding.canonical, ?_, ?_⟩
  · intro installation
    exact MaintenanceCursor.canonical installation
  · intro incarnation
    exact Control.canonical incarnation

end Records

end CodebaseGraph.Storage.Maintenance
