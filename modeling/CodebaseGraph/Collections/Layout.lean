import Mathlib.Data.List.Basic
import Mathlib.Data.UInt

/-! Fixed-width numbers in little-endian byte order. -/

namespace CodebaseGraph.Collections

/-- The low `width` bytes of a number, lowest first. -/
def littleEndian : Nat → Nat → List UInt8
  | 0, _ => []
  | width + 1, value => UInt8.ofNat (value % 256) :: littleEndian width (value / 256)

/-- The number that bytes spell, lowest first. -/
def number : List UInt8 → Nat
  | [] => 0
  | byte :: rest => byte.toNat + 256 * number rest

@[simp]
theorem littleEndian_length (width value : Nat) : (littleEndian width value).length = width := by
  induction width generalizing value with
  | zero => rfl
  | succ width ih => simp [littleEndian, ih]

/-- A number that fits is read back. -/
theorem number_littleEndian {width value : Nat} (fits : value < 256 ^ width)
    : number (littleEndian width value) = value := by
  induction width generalizing value with
  | zero =>
      have zero : value = 0 := by simpa using fits
      simp [littleEndian, number, zero]
  | succ width ih =>
      have rest : value / 256 < 256 ^ width := by
        rw [Nat.div_lt_iff_lt_mul (by decide)]
        simpa [Nat.pow_succ] using fits
      have low : (UInt8.ofNat (value % 256)).toNat = value % 256 := by
        rw [UInt8.toNat_ofNat']
        exact Nat.mod_eq_of_lt (Nat.mod_lt _ (by decide))
      rw [littleEndian, number, ih rest, low]
      exact Nat.mod_add_div value 256

/-- The bytes of a number are read back. -/
theorem littleEndian_number (bytes : List UInt8)
    : littleEndian bytes.length (number bytes) = bytes := by
  induction bytes with
  | nil => rfl
  | cons byte rest ih =>
      have below : byte.toNat < 256 := byte.toNat_lt
      have low : (byte.toNat + 256 * number rest) % 256 = byte.toNat := by omega
      have high : (byte.toNat + 256 * number rest) / 256 = number rest := by omega
      rw [number, List.length_cons, littleEndian, low, high, ih, UInt8.ofNat_toNat]

theorem number_lt (bytes : List UInt8) : number bytes < 256 ^ bytes.length := by
  induction bytes with
  | nil => decide
  | cons byte rest ih =>
      have below : byte.toNat < 256 := byte.toNat_lt
      rw [number, List.length_cons, Nat.pow_succ]
      omega

/-! Images of bytes that are laid out as a row of segments of known sizes, and what is read back
from them.
-/

/-- The byte at an offset. -/
def byteAt (bytes : List UInt8) (offset : Nat) : UInt8 := (bytes.drop offset).headD 0

/-- The 64-bit word at the start, and its bytes. -/
def word (bytes : List UInt8) : UInt64 := UInt64.ofNat (number (bytes.take 8))

def wordBytes (value : UInt64) : List UInt8 := littleEndian 8 value.toNat

@[simp]
theorem wordBytes_length (value : UInt64) : (wordBytes value).length = 8 :=
  littleEndian_length 8 value.toNat

/-- The bytes of a part of an image. -/
def slice (bytes : List UInt8) (offset size : Nat) : List UInt8 := (bytes.drop offset).take size

def zeros (size : Nat) : List UInt8 := List.replicate size 0

@[simp]
theorem zeros_length (size : Nat) : (zeros size).length = size := List.length_replicate

def isZero (bytes : List UInt8) : Bool := bytes.all (· = 0)

@[simp]
theorem isZero_zeros (size : Nat) : isZero (zeros size) = true := by
  simp [isZero, zeros, List.all_replicate]

/-- A fixed number of bytes. -/
def Block (size : Nat) : Type := { bytes : List UInt8 // bytes.length = size }

instance (size : Nat) : DecidableEq (Block size) := inferInstanceAs (DecidableEq (Subtype _))

namespace Block

def zero (size : Nat) : Block size := ⟨zeros size, zeros_length size⟩

@[simp]
theorem val_length {size : Nat} (block : Block size) : block.val.length = size := block.property

/-- The block at an offset; behind the end of the bytes everything is zero. -/
def read (bytes : List UInt8) (offset size : Nat) : Block size :=
  ⟨(bytes.drop offset ++ zeros size).take size, by simp⟩

end Block

section Read

variable {bytes segment : List UInt8} {offset size : Nat}

theorem byteAt_of_slice {byte : UInt8} (read : slice bytes offset 1 = [byte])
    : byteAt bytes offset = byte := by
  rw [slice] at read
  rw [byteAt]
  cases rest : bytes.drop offset with
  | nil => simp [rest] at read
  | cons head tail => simpa [rest] using read

theorem word_of_slice {value : UInt64} (read : slice bytes offset 8 = wordBytes value)
    : word (bytes.drop offset) = value := by
  rw [slice] at read
  have fits : value.toNat < 256 ^ 8 := value.toNat_lt
  rw [word, read, wordBytes, number_littleEndian fits, UInt64.ofNat_toNat]

theorem isZero_of_slice (read : slice bytes offset size = zeros size)
    : isZero (slice bytes offset size) = true := by
  rw [read, isZero_zeros]

theorem Block.read_of_slice {block : Block size} (read : slice bytes offset size = block.val)
    : Block.read bytes offset size = block := by
  apply Subtype.ext
  rw [slice] at read
  have long : size ≤ (bytes.drop offset).length := by
    have lengths := congrArg List.length read
    rw [List.length_take, block.property] at lengths
    omega
  exact (List.take_append_of_le_length long).trans read

end Read

/-- A segment stands behind the ones before it. -/
theorem slice_flatten {segments : List (List UInt8)} {sizes : List Nat}
    (sized : segments.map List.length = sizes) (index : Nat) {offset size : Nat}
    {segment : List UInt8} (found : segments[index]? = some segment)
    (start : (sizes.take index).sum = offset) (length : sizes[index]? = some size)
    : slice segments.flatten offset size = segment := by
  obtain ⟨bound, rfl⟩ := List.getElem?_eq_some_iff.mp found
  have split : segments = segments.take index ++ segments[index] :: segments.drop (index + 1) := by
    rw [← List.drop_eq_getElem_cons bound, List.take_append_drop]
  have before : (segments.take index).flatten.length = offset := by
    rw [List.length_flatten, List.map_take, sized, start]
  have whole : segments[index].length = size := by
    have lengths := List.getElem?_map (f := List.length) (l := segments) (i := index)
    rw [sized, length, found] at lengths
    exact (Option.some.inj lengths).symm
  rw [slice]
  conv => lhs; rw [split]
  rw [List.flatten_append, List.flatten_cons, ← before, List.drop_left, ← whole, List.take_left]

-----------------------------------------------------------------------------------------
-- Segments of given bytes

section Cut

variable {bytes : List UInt8} {offset size : Nat}

theorem slice_length (fits : offset + size ≤ bytes.length)
    : (slice bytes offset size).length = size := by
  rw [slice, List.length_take, List.length_drop]
  omega

theorem slice_succ (inside : offset < bytes.length)
    : slice bytes offset (size + 1) = byteAt bytes offset :: slice bytes (offset + 1) size := by
  rw [slice, slice, byteAt, List.drop_eq_getElem_cons inside, List.take_succ_cons, List.headD_cons]

theorem slice_one (inside : offset < bytes.length)
    : slice bytes offset 1 = [byteAt bytes offset] := by
  rw [slice_succ inside, slice, List.take_zero]

theorem wordBytes_word (fits : offset + 8 ≤ bytes.length)
    : wordBytes (word (bytes.drop offset)) = slice bytes offset 8 := by
  have length := slice_length fits
  have small : number (slice bytes offset 8) < 2 ^ 64 := by
    have below := number_lt (slice bytes offset 8)
    rwa [length] at below
  have read : word (bytes.drop offset) = UInt64.ofNat (number (slice bytes offset 8)) := rfl
  have exact : (UInt64.ofNat (number (slice bytes offset 8))).toNat
      = number (slice bytes offset 8) := by
    rw [UInt64.toNat_ofNat']
    exact Nat.mod_eq_of_lt small
  have whole := littleEndian_number (slice bytes offset 8)
  rw [length] at whole
  rw [read, wordBytes, exact, whole]

theorem Block.read_val (fits : offset + size ≤ bytes.length)
    : (Block.read bytes offset size).val = slice bytes offset size := by
  rw [slice]
  exact List.take_append_of_le_length (by rw [List.length_drop]; omega)

theorem slice_of_isZero (fits : offset + size ≤ bytes.length)
    (zero : isZero (slice bytes offset size) = true)
    : slice bytes offset size = zeros size := by
  refine List.eq_replicate_iff.mpr ⟨slice_length fits, ?_⟩
  intro byte member
  simpa using List.all_eq_true.mp zero byte member

end Cut

/-- The segments of the sizes that stand behind an offset. -/
def segmentsAt (bytes : List UInt8) : Nat → List Nat → List (List UInt8)
  | _, [] => []
  | offset, size :: sizes => slice bytes offset size :: segmentsAt bytes (offset + size) sizes

theorem flatten_segmentsAt (bytes : List UInt8) (offset : Nat) (sizes : List Nat)
    : (segmentsAt bytes offset sizes).flatten = slice bytes offset sizes.sum := by
  induction sizes generalizing offset with
  | nil => simp [segmentsAt, slice]
  | cons size sizes ih =>
      rw [segmentsAt, List.flatten_cons, ih, List.sum_cons, slice, slice, slice, List.take_add,
        List.drop_drop]

end CodebaseGraph.Collections

/-! Codecs whose values have one image each: what is encoded is decoded, and whatever is decoded
was encoded.
-/

namespace CodebaseGraph.Collections

/-- Every valid value has an image of its own, and no other bytes are accepted. -/
structure Canonical {α : Type} (Valid : α → Prop) (encode : α → List UInt8)
    (decode : List UInt8 → Option α) : Prop where
  decode_encode : ∀ value, Valid value → decode (encode value) = some value
  encode_decode : ∀ bytes value, decode bytes = some value → Valid value ∧ encode value = bytes

/-- A decoder that names its failures is canonical like one that does not. -/
theorem canonical_of_except {α ε : Type} {Valid : α → Prop} {encode : α → List UInt8}
    {decode : List UInt8 → Except ε α}
    (decode_encode : ∀ value, Valid value → decode (encode value) = .ok value)
    (encode_decode : ∀ bytes value, decode bytes = .ok value → Valid value ∧ encode value = bytes)
    : Canonical Valid encode (fun bytes => (decode bytes).toOption) where
  decode_encode value valid := by
    rw [decode_encode value valid]
    rfl
  encode_decode bytes value read := by
    cases decoded : decode bytes with
    | error failure =>
        rw [decoded] at read
        cases read
    | ok found =>
        rw [decoded] at read
        cases read
        exact encode_decode bytes value decoded

section

variable {α : Type} (Framed : List UInt8 → Prop) [DecidablePred Framed]
  (ofImage : List UInt8 → α) (Valid : α → Prop) [DecidablePred Valid]

/-- Checks the frame of an image, reads its fields and judges them. -/
def decodeFrame (bytes : List UInt8) : Option α :=
  if Framed bytes ∧ Valid (ofImage bytes) then some (ofImage bytes) else none

variable {Framed ofImage Valid}

theorem canonical_decodeFrame {encode : α → List UInt8}
    (framed : ∀ value, Framed (encode value)) (read : ∀ value, ofImage (encode value) = value)
    (image : ∀ bytes, Framed bytes → encode (ofImage bytes) = bytes)
    : Canonical Valid encode (decodeFrame Framed ofImage Valid) where
  decode_encode value valid := by
    have accepted : Framed (encode value) ∧ Valid (ofImage (encode value)) :=
      ⟨framed value, (read value).symm ▸ valid⟩
    rw [decodeFrame, if_pos accepted, read]
  encode_decode bytes value decoded := by
    rw [decodeFrame] at decoded
    split at decoded
    · next accepted =>
      cases decoded
      exact ⟨accepted.2, image bytes accepted.1⟩
    · cases decoded

end

section

variable {segments : List (List UInt8)} {sizes : List Nat}

theorem segmentsAt_append (before after : List UInt8) (sized : segments.map List.length = sizes)
    : segmentsAt (before ++ (segments.flatten ++ after)) before.length sizes = segments := by
  induction segments generalizing before sizes with
  | nil =>
      subst sized
      rfl
  | cons segment rest ih =>
      subst sized
      have further := ih (before ++ segment) rfl
      have first : slice (before ++ (segment ++ (rest.flatten ++ after))) before.length
          segment.length = segment := by
        rw [slice, List.drop_left, List.take_left]
      rw [List.length_append, List.append_assoc] at further
      rw [List.flatten_cons, List.append_assoc, List.map_cons, segmentsAt, first, further]

/-- An image that begins with some segments is cut into them. -/
theorem segmentsAt_flatten (after : List UInt8) (sized : segments.map List.length = sizes)
    : segmentsAt (segments.flatten ++ after) 0 sizes = segments :=
  segmentsAt_append [] after sized

/-- The segments of an image make up what stands in front of the rest. -/
theorem flatten_of_cut {bytes : List UInt8} (cut : segments = segmentsAt bytes 0 sizes)
    : segments.flatten = bytes.take sizes.sum := by
  rw [cut, flatten_segmentsAt, slice, List.drop_zero]

theorem isZero_append (first second : List UInt8)
    : isZero (first ++ second) = (isZero first && isZero second) :=
  List.all_append

end

-- Parts that may be absent

section

variable {α : Type}

def optionFlag : Option α → UInt8
  | some _ => 1
  | none => 0

/-- The bytes of a part; an absent one is all zero. -/
def optionBytes (bytes : α → List UInt8) (size : Nat) : Option α → List UInt8
  | some value => bytes value
  | none => zeros size

def readOption (flag : UInt8) (value : α) : Option α := if flag = 1 then some value else none

variable {bytes : α → List UInt8} {size : Nat} {flag : UInt8} {segment : List UInt8} {value : α}

theorem optionBytes_length (sized : ∀ value, (bytes value).length = size) (part : Option α)
    : (optionBytes bytes size part).length = size := by
  cases part with
  | none => exact zeros_length size
  | some value => exact sized value

theorem optionFlag_le (part : Option α) : optionFlag part ≤ 1 := by
  cases part with
  | none => exact UInt8.le_iff_toNat_le.mpr (Nat.zero_le 1)
  | some _ => exact le_refl 1

theorem isZero_optionBytes {part : Option α} (absent : optionFlag part = 0)
    : isZero (optionBytes bytes size part) = true := by
  cases part with
  | none => exact isZero_zeros size
  | some value =>
      have other : (1 : UInt8) ≠ 0 := by decide
      exact absurd absent other

/-- A part is read back as it was. -/
theorem readOption_eq {part : Option α}
    (read : ∀ present, part = some present → value = present)
    : readOption (optionFlag part) value = part := by
  cases part with
  | none => rfl
  | some present => exact congrArg some (read present rfl)

/-- The part that is read has the flag and the bytes it was read from. -/
theorem optionFlag_readOption (flagged : flag ≤ 1) : optionFlag (readOption flag value) = flag := by
  have bound : flag.toNat ≤ 1 := UInt8.le_iff_toNat_le.mp flagged
  by_cases present : flag = 1
  · rw [present]
    rfl
  · rw [readOption, if_neg present]
    apply UInt8.toNat_inj.mp
    have other : flag.toNat ≠ 1 := fun same => present (UInt8.toNat_inj.mp same)
    have zero : flag.toNat = 0 := by omega
    exact zero.symm

theorem optionBytes_readOption (length : segment.length = size) (flagged : flag ≤ 1)
    (absent : flag = 0 → isZero segment = true) (present : flag = 1 → bytes value = segment)
    : optionBytes bytes size (readOption flag value) = segment := by
  by_cases one : flag = 1
  · rw [readOption, if_pos one]
    exact present one
  · rw [readOption, if_neg one]
    have bound : flag.toNat ≤ 1 := UInt8.le_iff_toNat_le.mp flagged
    have other : flag.toNat ≠ 1 := fun same => one (UInt8.toNat_inj.mp same)
    have zero : flag = 0 := UInt8.toNat_inj.mp (by
      have none : flag.toNat = 0 := by omega
      exact none)
    have empty := absent zero
    symm
    apply List.eq_replicate_iff.mpr
    refine ⟨length, ?_⟩
    intro byte member
    simpa using List.all_eq_true.mp empty byte member

end

end CodebaseGraph.Collections
