import CodebaseGraph.Collections.Layout
import Mathlib.Data.List.Lex
import Mathlib.Tactic.FinCases

/-! The cursor of the maintenance (`src/storage/maintenance.rs`): which category of work comes next,
and the last address of each, with the record in which it is kept.
-/

namespace CodebaseGraph.Storage.Maintenance

open CodebaseGraph.Collections

-- Work

abbrev categories : Nat := 8

instance neZeroCategories : NeZero categories := ⟨by decide⟩

inductive WorkCategory where
  | canonical
  | temporaryOrBackup
  | run
  | phase
  | generation
  | legacyNative
  | legacySnapshot
  | defaultDirect

namespace WorkCategory

def index : WorkCategory → Fin categories
  | .canonical => 0
  | .temporaryOrBackup => 1
  | .run => 2
  | .phase => 3
  | .generation => 4
  | .legacyNative => 5
  | .legacySnapshot => 6
  | .defaultDirect => 7

def fromIndex : Fin categories → WorkCategory
  | 0 => .canonical
  | 1 => .temporaryOrBackup
  | 2 => .run
  | 3 => .phase
  | 4 => .generation
  | 5 => .legacyNative
  | 6 => .legacySnapshot
  | 7 => .defaultDirect

@[simp]
theorem fromIndex_index (category : WorkCategory) : fromIndex category.index = category := by
  cases category <;> rfl

@[simp]
theorem index_fromIndex (place : Fin categories) : (fromIndex place).index = place := by
  revert place
  decide

theorem index_injective : Function.Injective index :=
  Function.LeftInverse.injective fromIndex_index

instance : LinearOrder WorkCategory := LinearOrder.lift' index index_injective

theorem le_iff (first second : WorkCategory) : first ≤ second ↔ first.index ≤ second.index := .rfl

theorem lt_iff (first second : WorkCategory) : first < second ↔ first.index < second.index := .rfl

end WorkCategory

abbrev addressBytes : Nat := 128

structure CursorAddress where
  bytes : Block addressBytes

/-- The bytes as numbers, by which addresses are compared. -/
def CursorAddress.numbers (address : CursorAddress) : List Nat := address.bytes.val.map UInt8.toNat

theorem CursorAddress.numbers_injective : Function.Injective CursorAddress.numbers := by
  intro first second same
  have bytes : first.bytes.val = second.bytes.val :=
    List.map_injective_iff.mpr (fun _ _ => UInt8.toNat_inj.mp) same
  cases first
  cases second
  exact congrArg CursorAddress.mk (Subtype.ext bytes)

instance : LinearOrder CursorAddress :=
  LinearOrder.lift' CursorAddress.numbers CursorAddress.numbers_injective

inductive CursorFailure where
  | corrupt
  | differentInstallation
deriving DecidableEq

structure MaintenanceCursor where
  installation : Block 32
  nextCategory : Fin categories
  after : Fin categories → Option CursorAddress

-----------------------------------------------------------------------------------------
-- Records
-----------------------------------------------------------------------------------------

abbrev slotSize : Nat := 1 + addressBytes

def bodyBytes : Nat := 8 + 32 + 1 + categories * slotSize

def cursorBytes : Nat := bodyBytes + 32

/-- The ASCII codes of `CGMC0002`. -/
def cursorMagic : List UInt8 := [67, 71, 77, 67, 48, 48, 48, 50]

def slotFlag : Option CursorAddress → UInt8
  | some _ => 1
  | none => 0

def slotContent : Option CursorAddress → List UInt8
  | some address => address.bytes.val
  | none => zeros addressBytes

def slotSegments (address : Option CursorAddress) : List (List UInt8) :=
  [[slotFlag address], slotContent address]

/-- Where the slot of a category begins. -/
def slotOffset (place : Fin categories) : Nat := 41 + place.val * slotSize

namespace MaintenanceCursor

def new (installation : Block 32) : MaintenanceCursor where
  installation
  nextCategory := 0
  after _ := none

def segments (cursor : MaintenanceCursor) : List (List UInt8) :=
  [cursorMagic, cursor.installation.val, [UInt8.ofNat cursor.nextCategory.val]]
  ++ (List.ofFn cursor.after).flatMap slotSegments

section

variable (sha256 : List UInt8 → Block 32)

def encode (cursor : MaintenanceCursor) : List UInt8 :=
  let body := cursor.segments.flatten
  body ++ (sha256 body).val

def decodeSlot (bytes : List UInt8) (place : Fin categories) : Option (Option CursorAddress) :=
  let offset := slotOffset place
  match byteAt bytes offset with
  | 0 => if isZero (slice bytes (offset + 1) addressBytes) then some none else none
  | 1 => some (some ⟨.read bytes (offset + 1) addressBytes⟩)
  | _ => none

def decode (bytes : List UInt8) (installation : Block 32) : Except CursorFailure MaintenanceCursor :=
  let next := (byteAt bytes 40).toNat
  if valid : next < categories then
    if bytes.length ≠ cursorBytes
        ∨ slice bytes 0 8 ≠ cursorMagic
        ∨ bytes.drop bodyBytes ≠ (sha256 (bytes.take bodyBytes)).val then
      .error .corrupt
    else if slice bytes 8 32 ≠ installation.val then
      .error .differentInstallation
    else if read : ∀ place, (decodeSlot bytes place).isSome then
      .ok {
        installation
        nextCategory := ⟨next, valid⟩
        after := fun place => (decodeSlot bytes place).get (read place)
      }
    else
      .error .corrupt
  else
    .error .corrupt

def sizes : List Nat := [8, 32, 1] ++ (List.replicate categories [1, addressBytes]).flatten

theorem slotSegments_sized (address : Option CursorAddress)
    : (slotSegments address).map List.length = [1, addressBytes] := by
  cases address with
  | none => simp [slotSegments, slotContent]
  | some address => simp [slotSegments, slotContent]

theorem segments_sized (cursor : MaintenanceCursor) : cursor.segments.map List.length = sizes := by
  have slots : ∀ addresses : List (Option CursorAddress),
      (addresses.flatMap slotSegments).map List.length
        = (List.replicate addresses.length [1, addressBytes]).flatten := by
    intro addresses
    induction addresses with
    | nil => rfl
    | cons address rest ih =>
        rw [List.flatMap_cons, List.map_append, slotSegments_sized, ih]
        rfl
  rw [segments, List.map_append, slots, List.length_ofFn]
  simp [sizes, cursorMagic]

theorem body_length (cursor : MaintenanceCursor) : cursor.segments.flatten.length = bodyBytes := by
  rw [List.length_flatten, segments_sized]
  rfl

theorem encode_length (cursor : MaintenanceCursor)
    : (cursor.encode sha256).length = cursorBytes := by
  rw [encode, List.length_append, body_length, Block.val_length, cursorBytes]

theorem slice_encode (cursor : MaintenanceCursor) (index : Nat) {offset size : Nat}
    {segment : List UInt8} (found : cursor.segments[index]? = some segment)
    (start : (sizes.take index).sum = offset) (length : sizes[index]? = some size)
    : slice (cursor.encode sha256) offset size = segment := by
  have whole : cursor.encode sha256
      = (cursor.segments ++ [(sha256 cursor.segments.flatten).val]).flatten := by
    simp [encode]
  have sized : (cursor.segments ++ [(sha256 cursor.segments.flatten).val]).map List.length
      = sizes ++ [32] := by
    rw [List.map_append, segments_sized]
    simp
  have indexInside := (List.getElem?_eq_some_iff.mp found).1
  have sizeInside := (List.getElem?_eq_some_iff.mp length).1
  rw [whole]
  apply slice_flatten sized index
  · rw [List.getElem?_append_left indexInside, found]
  · rw [List.take_append_of_le_length (le_of_lt sizeInside), start]
  · rw [List.getElem?_append_left sizeInside, length]

theorem slotFlag_found (cursor : MaintenanceCursor) (place : Fin categories)
    : cursor.segments[3 + 2 * place.val]? = some [slotFlag (cursor.after place)]
      ∧ cursor.segments[4 + 2 * place.val]? = some (slotContent (cursor.after place)) := by
  fin_cases place <;> exact ⟨rfl, rfl⟩

theorem slotOffset_start
    : ∀ place : Fin categories,
        (sizes.take (3 + 2 * place.val)).sum = slotOffset place
        ∧ sizes[3 + 2 * place.val]? = some 1
        ∧ (sizes.take (4 + 2 * place.val)).sum = slotOffset place + 1
        ∧ sizes[4 + 2 * place.val]? = some addressBytes := by
  decide

theorem decodeSlot_encode (cursor : MaintenanceCursor) (place : Fin categories)
    : decodeSlot (cursor.encode sha256) place = some (cursor.after place) := by
  obtain ⟨flagFound, bytesFound⟩ := cursor.slotFlag_found place
  obtain ⟨flagStart, flagSize, bytesStart, bytesSize⟩ := slotOffset_start place
  have flag := byteAt_of_slice (cursor.slice_encode sha256 _ flagFound flagStart flagSize)
  have read := cursor.slice_encode sha256 _ bytesFound bytesStart bytesSize
  rw [decodeSlot, flag]
  cases address : cursor.after place with
  | none =>
      rw [address] at read
      exact if_pos (isZero_of_slice read)
  | some address' =>
      rw [address] at read
      have block : Block.read (cursor.encode sha256) (slotOffset place + 1) addressBytes
          = address'.bytes :=
        Block.read_of_slice read
      exact congrArg (fun bytes => some (some (CursorAddress.mk bytes))) block

/-- A cursor is read back as it was. -/
theorem decode_encode (cursor : MaintenanceCursor)
    : decode sha256 (cursor.encode sha256) cursor.installation = .ok cursor := by
  have magic : slice (cursor.encode sha256) 0 8 = cursorMagic :=
    cursor.slice_encode sha256 0 rfl rfl rfl
  have installation : slice (cursor.encode sha256) 8 32 = cursor.installation.val :=
    cursor.slice_encode sha256 1 rfl rfl rfl
  have next : byteAt (cursor.encode sha256) 40 = UInt8.ofNat cursor.nextCategory.val :=
    byteAt_of_slice (cursor.slice_encode sha256 2 rfl rfl rfl)
  have number : (byteAt (cursor.encode sha256) 40).toNat = cursor.nextCategory.val := by
    have small := cursor.nextCategory.isLt
    rw [next, UInt8.toNat_ofNat']
    exact Nat.mod_eq_of_lt (lt_trans small (by decide))
  have body : (cursor.encode sha256).take bodyBytes = cursor.segments.flatten := by
    rw [encode, ← cursor.body_length, List.take_left]
  have digest : (cursor.encode sha256).drop bodyBytes
      = (sha256 cursor.segments.flatten).val := by
    rw [encode, ← cursor.body_length, List.drop_left]
  have slots := cursor.decodeSlot_encode sha256
  have read : ∀ place, (decodeSlot (cursor.encode sha256) place).isSome := by
    intro place
    rw [slots]
    rfl
  have valid : (byteAt (cursor.encode sha256) 40).toNat < categories :=
    number ▸ cursor.nextCategory.isLt
  have length : (cursor.encode sha256).length = cursorBytes := cursor.encode_length sha256
  have intact : ¬ ((cursor.encode sha256).length ≠ cursorBytes
      ∨ slice (cursor.encode sha256) 0 8 ≠ cursorMagic
      ∨ (cursor.encode sha256).drop bodyBytes
        ≠ (sha256 ((cursor.encode sha256).take bodyBytes)).val) := by
    rw [length, magic, body, digest]
    simp
  unfold decode
  dsimp only
  rw [dif_pos valid, if_neg intact, if_neg (not_not.mpr installation), dif_pos read]
  congr 1
  cases cursor
  simp only [MaintenanceCursor.mk.injEq, true_and]
  refine ⟨Fin.ext number, ?_⟩
  funext place
  simp only [slots, Option.get_some]

end

end MaintenanceCursor

end CodebaseGraph.Storage.Maintenance
