import CodebaseGraph.Storage.Maintenance.LegacyHeader

/-! The frames of the retirement journal (`src/storage/maintenance_journal.rs`). A frame is 512
bytes with reserved gaps, a name that is bound to the key, and a checksum.
-/

namespace CodebaseGraph.Storage.Maintenance.Retirement

open CodebaseGraph.Collections
open CodebaseGraph.Storage.Maintenance.Legacy

-- Leaves

inductive CodecIssue where
  | corrupt
  | transition
deriving DecidableEq

inductive RetirementStage where
  | appendIntent
  | frameReady
  | detached
  | payloadGone
  | done
  | resetIntent
deriving DecidableEq

namespace RetirementStage

def code : RetirementStage → UInt8
  | .appendIntent => 1
  | .frameReady => 2
  | .detached => 3
  | .payloadGone => 4
  | .done => 5
  | .resetIntent => 6

def ofCode : UInt8 → Option RetirementStage
  | 1 => some .appendIntent
  | 2 => some .frameReady
  | 3 => some .detached
  | 4 => some .payloadGone
  | 5 => some .done
  | 6 => some .resetIntent
  | _ => none

theorem ofCode_code (stage : RetirementStage) : ofCode stage.code = some stage := by
  cases stage <;> rfl

theorem code_of_ofCode {byte : UInt8} {stage : RetirementStage} (read : ofCode byte = some stage)
    : stage.code = byte := by
  unfold ofCode at read
  split at read <;> cases read <;> rfl

/-- The generation that a stage is journaled in: `(stage as u64) - 1`. -/
def generation (stage : RetirementStage) : UInt64 := stage.code.toUInt64 - 1

end RetirementStage

structure RootOriginBinding where
  root : FixedWords
  coordination : FixedWords
  incarnation : Block 32
  cohort : FixedWords
  publicationBinding : FixedWords
deriving DecidableEq

structure RetirementLeaf where
  stage : RetirementStage
  sourceEpoch : UInt64
  stageGeneration : UInt64
  streamOffset : UInt64
  key : Block 32
  directory : FixedWords
  payload : FixedWords
  receipt : FixedWords
  scope : RootOriginBinding
  operation : Block 32
  byteLen : UInt64
  digest : Block 32
  directoryCreated : Bool
  receiptDigest : Block 32
  sourceKind : UInt8
  sourceName : Block 134
deriving DecidableEq

-----------------------------------------------------------------------------------------
-- Names of temporary sources

/-- The ASCII codes of `.tmp-`. -/
def tempPrefix : List UInt8 := [46, 116, 109, 112, 45]

/-- The ASCII codes of `0123456789abcdef`. -/
def digits : List UInt8 := [48, 49, 50, 51, 52, 53, 54, 55, 56, 57, 97, 98, 99, 100, 101, 102]

def digit (value : UInt8) : UInt8 := digits.getD value.toNat 0

def hex (bytes : List UInt8) : List UInt8 :=
  bytes.flatMap (fun byte : UInt8 => [digit (byte >>> 4), digit (byte &&& 15)])

def isLowerHex (byte : UInt8) : Bool := (48 ≤ byte && byte ≤ 57) || (97 ≤ byte && byte ≤ 102)

/-- The checks of `RetirementLeaf::decode` on the name of a temporary source. -/
def bindsKey (name key : List UInt8) : Bool :=
  slice name 0 5 = tempPrefix
  && byteAt name 69 = 45
  && (slice name 5 64 ++ name.drop 70).all isLowerHex
  && key.zipIdx.all (fun (byte, i) =>
    byteAt name (5 + i * 2) = digit (byte >>> 4) && byteAt name (6 + i * 2) = digit (byte &&& 15))

/-- `.tmp-`, the key in hex, a dash and 64 further digits. -/
def TempName (key : Block 32) (name : Block 134) : Prop :=
  ∃ suffix : List UInt8,
    suffix.length = 64
    ∧ (∀ byte ∈ suffix, isLowerHex byte = true)
    ∧ name.val = tempPrefix ++ hex key.val ++ [45] ++ suffix

theorem hex_length (bytes : List UInt8) : (hex bytes).length = 2 * bytes.length := by
  induction bytes with
  | nil => rfl
  | cons byte rest ih =>
      rw [hex, List.flatMap_cons, List.length_append, ← hex, ih, List.length_cons]
      simp only [List.length_cons, List.length_nil]
      omega

theorem isLowerHex_digit {value : UInt8} (small : value.toNat < 16)
    : isLowerHex (digit value) = true := by
  have all : ∀ index < 16, isLowerHex (digits.getD index 0) = true := by decide
  exact all value.toNat small

theorem isLowerHex_hex {bytes : List UInt8} : ∀ byte ∈ hex bytes, isLowerHex byte = true := by
  intro byte member
  obtain ⟨source, -, inside⟩ := List.mem_flatMap.mp member
  rcases List.mem_cons.mp inside with rfl | last
  · apply isLowerHex_digit
    have bound := source.toNat_lt
    rw [UInt8.toNat_shiftRight, Nat.shiftRight_eq_div_pow]
    exact Nat.div_lt_of_lt_mul bound
  · obtain rfl := List.mem_singleton.mp last
    apply isLowerHex_digit
    rw [UInt8.toNat_and]
    exact Nat.lt_succ_of_le Nat.and_le_right

/-- The comparison digit by digit reads the whole key. -/
theorem all_digits_iff {name : List UInt8} (key : List UInt8) (start : Nat)
    (fits : 5 + start * 2 + 2 * key.length ≤ name.length)
    : (key.zipIdx start).all (fun (byte, i) =>
        byteAt name (5 + i * 2) = digit (byte >>> 4)
        && byteAt name (6 + i * 2) = digit (byte &&& 15)) = true
      ↔ slice name (5 + start * 2) (2 * key.length) = hex key := by
  induction key generalizing start with
  | nil => simp [slice, hex]
  | cons byte rest ih =>
      rw [List.length_cons] at fits
      have next : 5 + (start + 1) * 2 = 5 + start * 2 + 1 + 1 := by omega
      have second : 6 + start * 2 = 5 + start * 2 + 1 := by omega
      have size : 2 * (byte :: rest).length = 2 * rest.length + 1 + 1 := by
        rw [List.length_cons]
        omega
      have below := ih (start + 1) (by omega)
      rw [next] at below
      rw [List.zipIdx_cons, List.all_cons, Bool.and_eq_true, below, size,
        slice_succ (by omega), slice_succ (by omega)]
      simp [hex, second, and_assoc]

theorem bindsKey_iff {key : Block 32} {name : Block 134}
    : bindsKey name.val key.val = true ↔ TempName key name := by
  have room : 5 + 0 * 2 + 2 * key.val.length ≤ name.val.length := by simp
  have spelled := all_digits_iff key.val 0 room
  rw [key.val_length] at spelled
  have suffix : slice name.val 70 64 = name.val.drop 70 :=
    List.take_of_length_le (by simp)
  have whole : [slice name.val 0 5, slice name.val 5 64, slice name.val 69 1,
      slice name.val 70 64].flatten = name.val := by
    have cut := flatten_segmentsAt name.val 0 [5, 64, 1, 64]
    have all : slice name.val 0 134 = name.val := List.take_of_length_le (by simp)
    exact cut.trans all
  simp only [bindsKey, Bool.and_eq_true, decide_eq_true_eq]
  constructor
  · rintro ⟨⟨⟨opened, dash⟩, lower⟩, keyed⟩
    refine ⟨slice name.val 70 64, slice_length (by simp), ?_, ?_⟩
    · intro byte member
      rw [suffix] at member
      exact List.all_eq_true.mp lower byte (List.mem_append_right _ member)
    · rw [opened, spelled.mp keyed, slice_one (by simp), dash] at whole
      exact whole.symm.trans (by simp)
  · rintro ⟨suffix', long, lower, named⟩
    have segments : name.val = [tempPrefix, hex key.val, [45], suffix'].flatten := by
      simp [named]
    have sized : [tempPrefix, hex key.val, [45], suffix'].map List.length = [5, 64, 1, 64] := by
      simp [tempPrefix, hex_length, long]
    have opened : slice name.val 0 5 = tempPrefix := by
      rw [segments]
      exact slice_flatten sized 0 rfl rfl rfl
    have digits : slice name.val 5 64 = hex key.val := by
      rw [segments]
      exact slice_flatten sized 1 rfl rfl rfl
    have dash : byteAt name.val 69 = 45 := by
      apply byteAt_of_slice
      rw [segments]
      exact slice_flatten sized 2 rfl rfl rfl
    have rest : name.val.drop 70 = suffix' := by
      rw [← suffix, segments]
      exact slice_flatten sized 3 rfl rfl rfl
    refine ⟨⟨⟨opened, dash⟩, ?_⟩, spelled.mpr digits⟩
    rw [digits, rest, List.all_eq_true]
    intro byte member
    rcases List.mem_append.mp member with keyed | last
    · exact isLowerHex_hex byte keyed
    · exact lower byte last

-----------------------------------------------------------------------------------------
-- Frames

namespace RetirementLeaf

/-- The ASCII codes of `CGLEAF01`. -/
def magic : List UInt8 := [67, 71, 76, 69, 65, 70, 48, 49]

def boolByte (value : Bool) : UInt8 := if value then 1 else 0

/-- The bytes in front of the checksum. -/
def segments (leaf : RetirementLeaf) : List (List UInt8) :=
  [magic, [leaf.stage.code], zeros 7, wordBytes leaf.sourceEpoch, wordBytes leaf.stageGeneration,
    wordBytes leaf.streamOffset, leaf.key.val, leaf.directory.bytes, leaf.payload.bytes,
    leaf.receipt.bytes, leaf.scope.root.bytes, leaf.scope.coordination.bytes,
    leaf.scope.cohort.bytes, leaf.scope.publicationBinding.bytes, leaf.scope.incarnation.val,
    leaf.operation.val, wordBytes leaf.byteLen, leaf.digest.val, [boolByte leaf.directoryCreated],
    leaf.receiptDigest.val, [leaf.sourceKind], leaf.sourceName.val, zeros 24]

def sizes : List Nat :=
  [8, 1, 7, 8, 8, 8, 32, 16, 16, 16, 16, 16, 16, 16, 32, 32, 8, 32, 1, 32, 1, 134, 24, 32]

variable (sha256 : List UInt8 → Block 32)

theorem segments_sized (leaf : RetirementLeaf)
    : (leaf.segments ++ [(sha256 leaf.segments.flatten).val]).map List.length = sizes := by
  simp [segments, sizes, magic]

def encode (leaf : RetirementLeaf) : Block 512 :=
  ⟨finish sha256 leaf.segments.flatten, by
    rw [finish_flatten, List.length_flatten, segments_sized]
    rfl⟩

/-- The leaf that stands in a frame, at a stage that was read already. -/
def ofFrame (bytes : List UInt8) (stage : RetirementStage) : RetirementLeaf :=
  {
    stage
    sourceEpoch := word (bytes.drop 16)
    stageGeneration := word (bytes.drop 24)
    streamOffset := word (bytes.drop 32)
    key := .read bytes 40 32
    directory := readId bytes 72
    payload := readId bytes 88
    receipt := readId bytes 104
    scope :=
      {
        root := readId bytes 120
        coordination := readId bytes 136
        cohort := readId bytes 152
        publicationBinding := readId bytes 168
        incarnation := .read bytes 184 32
      }
    operation := .read bytes 216 32
    byteLen := word (bytes.drop 248)
    digest := .read bytes 256 32
    directoryCreated := byteAt bytes 288 ≠ 0
    receiptDigest := .read bytes 289 32
    sourceKind := byteAt bytes 321
    sourceName := .read bytes 322 134
  }

/-- The checks of a frame before its stage is read. -/
def Framed (bytes : List UInt8) : Prop :=
  slice bytes 0 8 = magic
  ∧ isZero (slice bytes 9 7) = true
  ∧ isZero (slice bytes 456 24) = true
  ∧ byteAt bytes 321 ≤ 1
  ∧ (byteAt bytes 321 = 0 → isZero (slice bytes 322 134) = true)
  ∧ byteAt bytes 288 ≤ 1
  ∧ checked sha256 bytes = true

instance (bytes : List UInt8) : Decidable (Framed sha256 bytes) :=
  inferInstanceAs (Decidable (_ ∧ _ ∧ _ ∧ _ ∧ (_ → _) ∧ _ ∧ _))

def decode (frame : Block 512) : Except CodecIssue RetirementLeaf :=
  let bytes := frame.val
  if ¬Framed sha256 bytes then .error .corrupt
  else
    match RetirementStage.ofCode (byteAt bytes 8) with
    | none => .error .corrupt
    | some stage =>
        if word (bytes.drop 24) ≠ stage.generation then .error .transition
        else if byteAt bytes 321 = 1 ∧ !bindsKey (slice bytes 322 134) (slice bytes 40 32) then
          .error .corrupt
        else .ok (ofFrame bytes stage)

/-- The leaves that the journal writes. -/
def Journaled (leaf : RetirementLeaf) : Prop :=
  leaf.stageGeneration = leaf.stage.generation
  ∧ (leaf.sourceKind = 0 ∧ leaf.sourceName = Block.zero 134
    ∨ leaf.sourceKind = 1 ∧ TempName leaf.key leaf.sourceName)

theorem slice_encode (leaf : RetirementLeaf) (index : Nat) {offset size : Nat}
    {segment : List UInt8} (found : leaf.segments[index]? = some segment)
    (start : (sizes.take index).sum = offset) (length : sizes[index]? = some size)
    : slice (leaf.encode sha256).val offset size = segment := by
  have laid : (leaf.encode sha256).val
      = (leaf.segments ++ [(sha256 leaf.segments.flatten).val]).flatten :=
    finish_flatten sha256 leaf.segments
  have bound := (List.getElem?_eq_some_iff.mp found).1
  rw [laid]
  refine slice_flatten (leaf.segments_sized sha256) index ?_ start length
  rw [List.getElem?_append_left bound, found]

theorem boolByte_le (value : Bool) : boolByte value ≤ 1 := by cases value <;> decide

theorem boolByte_ne_zero (value : Bool) : decide (boolByte value ≠ 0) = value := by
  cases value <;> rfl

/-- All fields of a leaf are read back from its frame. -/
theorem ofFrame_encode (leaf : RetirementLeaf)
    : ofFrame (leaf.encode sha256).val leaf.stage = leaf := by
  have read := leaf.slice_encode sha256
  have sourceEpoch : word ((leaf.encode sha256).val.drop 16) = leaf.sourceEpoch :=
    word_of_slice (read 3 rfl rfl rfl)
  have stageGeneration : word ((leaf.encode sha256).val.drop 24) = leaf.stageGeneration :=
    word_of_slice (read 4 rfl rfl rfl)
  have streamOffset : word ((leaf.encode sha256).val.drop 32) = leaf.streamOffset :=
    word_of_slice (read 5 rfl rfl rfl)
  have key : Block.read (leaf.encode sha256).val 40 32 = leaf.key :=
    Block.read_of_slice (read 6 rfl rfl rfl)
  have directory : readId (leaf.encode sha256).val 72 = leaf.directory :=
    readId_of_slice (read 7 rfl rfl rfl)
  have payload : readId (leaf.encode sha256).val 88 = leaf.payload :=
    readId_of_slice (read 8 rfl rfl rfl)
  have receipt : readId (leaf.encode sha256).val 104 = leaf.receipt :=
    readId_of_slice (read 9 rfl rfl rfl)
  have root : readId (leaf.encode sha256).val 120 = leaf.scope.root :=
    readId_of_slice (read 10 rfl rfl rfl)
  have coordination : readId (leaf.encode sha256).val 136 = leaf.scope.coordination :=
    readId_of_slice (read 11 rfl rfl rfl)
  have cohort : readId (leaf.encode sha256).val 152 = leaf.scope.cohort :=
    readId_of_slice (read 12 rfl rfl rfl)
  have publication : readId (leaf.encode sha256).val 168 = leaf.scope.publicationBinding :=
    readId_of_slice (read 13 rfl rfl rfl)
  have incarnation : Block.read (leaf.encode sha256).val 184 32 = leaf.scope.incarnation :=
    Block.read_of_slice (read 14 rfl rfl rfl)
  have operation : Block.read (leaf.encode sha256).val 216 32 = leaf.operation :=
    Block.read_of_slice (read 15 rfl rfl rfl)
  have byteLen : word ((leaf.encode sha256).val.drop 248) = leaf.byteLen :=
    word_of_slice (read 16 rfl rfl rfl)
  have digest : Block.read (leaf.encode sha256).val 256 32 = leaf.digest :=
    Block.read_of_slice (read 17 rfl rfl rfl)
  have created : byteAt (leaf.encode sha256).val 288 = boolByte leaf.directoryCreated :=
    byteAt_of_slice (read 18 rfl rfl rfl)
  have receiptDigest : Block.read (leaf.encode sha256).val 289 32 = leaf.receiptDigest :=
    Block.read_of_slice (read 19 rfl rfl rfl)
  have kind : byteAt (leaf.encode sha256).val 321 = leaf.sourceKind :=
    byteAt_of_slice (read 20 rfl rfl rfl)
  have name : Block.read (leaf.encode sha256).val 322 134 = leaf.sourceName :=
    Block.read_of_slice (read 21 rfl rfl rfl)
  simp only [ofFrame, sourceEpoch, stageGeneration, streamOffset, key, directory, payload, receipt,
    root, coordination, cohort, publication, incarnation, operation, byteLen, digest, created,
    boolByte_ne_zero, receiptDigest, kind, name]

theorem framed_encode {leaf : RetirementLeaf} (journaled : leaf.Journaled)
    : Framed sha256 (leaf.encode sha256).val := by
  have read := leaf.slice_encode sha256
  have kind : byteAt (leaf.encode sha256).val 321 = leaf.sourceKind :=
    byteAt_of_slice (read 20 rfl rfl rfl)
  have name : slice (leaf.encode sha256).val 322 134 = leaf.sourceName.val :=
    read 21 rfl rfl rfl
  have created : byteAt (leaf.encode sha256).val 288 = boolByte leaf.directoryCreated :=
    byteAt_of_slice (read 18 rfl rfl rfl)
  refine ⟨read 0 rfl rfl rfl, isZero_of_slice (read 2 rfl rfl rfl),
    isZero_of_slice (read 22 rfl rfl rfl), ?_, ?_, ?_, checked_finish sha256 _⟩
  · rw [kind]
    rcases journaled.2 with ⟨none, -⟩ | ⟨temporary, -⟩
    · rw [none]
      decide
    · rw [temporary]
      decide
  · rw [kind, name]
    intro none
    rcases journaled.2 with ⟨-, empty⟩ | ⟨temporary, -⟩
    · rw [empty]
      exact isZero_zeros 134
    · rw [none] at temporary
      cases temporary
  · rw [created]
    exact boolByte_le _

/-- A leaf of the journal is read back from its frame. -/
theorem decode_encode {leaf : RetirementLeaf} (journaled : leaf.Journaled)
    : decode sha256 (leaf.encode sha256) = .ok leaf := by
  have read := leaf.slice_encode sha256
  have stage : byteAt (leaf.encode sha256).val 8 = leaf.stage.code :=
    byteAt_of_slice (read 1 rfl rfl rfl)
  have generation : word ((leaf.encode sha256).val.drop 24) = leaf.stage.generation :=
    (word_of_slice (read 4 rfl rfl rfl)).trans journaled.1
  have kind : byteAt (leaf.encode sha256).val 321 = leaf.sourceKind :=
    byteAt_of_slice (read 20 rfl rfl rfl)
  have name : slice (leaf.encode sha256).val 322 134 = leaf.sourceName.val :=
    read 21 rfl rfl rfl
  have key : slice (leaf.encode sha256).val 40 32 = leaf.key.val := read 6 rfl rfl rfl
  have bound : ¬(leaf.sourceKind = 1 ∧ (!bindsKey leaf.sourceName.val leaf.key.val) = true) := by
    rintro ⟨temporary, unbound⟩
    rcases journaled.2 with ⟨none, -⟩ | ⟨-, named⟩
    · rw [none] at temporary
      cases temporary
    · rw [bindsKey_iff.mpr named] at unbound
      cases unbound
  simp only [decode, stage, RetirementStage.ofCode_code, generation, kind, name, key]
  rw [if_neg (not_not.mpr (framed_encode sha256 journaled)), if_neg (not_not.mpr rfl),
    if_neg bound, ofFrame_encode]

theorem boolByte_of_le {byte : UInt8} (flag : byte ≤ 1) : boolByte (decide (byte ≠ 0)) = byte := by
  have bound : byte.toNat ≤ 1 := UInt8.le_iff_toNat_le.mp flag
  apply UInt8.toNat_inj.mp
  by_cases zero : byte = 0
  · simp [zero, boolByte]
  · have positive : byte.toNat ≠ 0 := fun none => zero (UInt8.toNat_inj.mp none)
    have one : byte.toNat = 1 := by omega
    simp [zero, boolByte, one]

theorem readId_bytes {bytes : List UInt8} {offset : Nat} (fits : offset + 16 ≤ bytes.length)
    : (readId bytes offset).bytes = slice bytes offset 16 := by
  have halves := flatten_segmentsAt bytes offset [8, 8]
  rw [readId, FixedWords.bytes, wordBytes_word (by omega), wordBytes_word (by omega)]
  simpa [segmentsAt] using halves

/-- The segments of the leaf in a frame are those of the frame, where its checks succeed. -/
theorem segments_ofFrame {frame : Block 512} {stage : RetirementStage}
    (framed : Framed sha256 frame.val)
    (staged : RetirementStage.ofCode (byteAt frame.val 8) = some stage)
    : (ofFrame frame.val stage).segments ++ [slice frame.val 480 32]
      = segmentsAt frame.val 0 sizes := by
  obtain ⟨magic, stageGap, tailGap, -, -, flag, -⟩ := framed
  have fits {size : Nat} (inside : size ≤ 512) : size ≤ frame.val.length := by
    rwa [frame.val_length]
  have gap := slice_of_isZero (fits (by decide : 9 + 7 ≤ 512)) stageGap
  have gap' := slice_of_isZero (fits (by decide : 456 + 24 ≤ 512)) tailGap
  have one (offset : Nat) (inside : offset < 512)
      : [byteAt frame.val offset] = slice frame.val offset 1 :=
    (slice_one (by rwa [frame.val_length])).symm
  simp only [segments, ofFrame, RetirementStage.code_of_ofCode staged, boolByte_of_le flag,
    ← magic, ← gap, ← gap', one, wordBytes_word, Block.read_val, readId_bytes, fits, Nat.reduceAdd,
    Nat.reduceLeDiff, Nat.reduceLT, sizes, segmentsAt, List.cons_append, List.nil_append]

/-- A frame whose checks succeed is the frame of the leaf in it. -/
theorem encode_ofFrame {frame : Block 512} {stage : RetirementStage}
    (framed : Framed sha256 frame.val)
    (staged : RetirementStage.ofCode (byteAt frame.val 8) = some stage)
    : (ofFrame frame.val stage).encode sha256 = frame := by
  have ending : slice frame.val 480 32 = frame.val.drop 480 :=
    List.take_of_length_le (by rw [List.length_drop, frame.val_length])
  have body : (ofFrame frame.val stage).segments.flatten = frame.val.take 480 := by
    have laid := congrArg List.flatten (segments_ofFrame sha256 framed staged)
    have all : slice frame.val 0 sizes.sum = frame.val :=
      List.take_of_length_le (by rw [List.drop_zero, frame.val_length]; decide)
    rw [flatten_segmentsAt, all, List.flatten_append, List.flatten_singleton, ending] at laid
    exact List.append_cancel_right (laid.trans (List.take_append_drop 480 frame.val).symm)
  have sum : (sha256 (frame.val.take 480)).val = frame.val.drop 480 := by
    have intact := framed.2.2.2.2.2.2
    simp only [checked, frame.val_length, Bool.and_eq_true, decide_eq_true_eq] at intact
    exact intact.2
  have laid
      : ((ofFrame frame.val stage).encode sha256).val
        = (ofFrame frame.val stage).segments.flatten
          ++ (sha256 (ofFrame frame.val stage).segments.flatten).val := rfl
  apply Subtype.ext
  rw [laid, body, sum, List.take_append_drop]

/-- The leaf in a frame that is read is one that the journal writes. -/
theorem journaled_ofFrame {frame : Block 512} {stage : RetirementStage}
    (framed : Framed sha256 frame.val)
    (generation : word (frame.val.drop 24) = stage.generation)
    (bound : ¬(byteAt frame.val 321 = 1
      ∧ (!bindsKey (slice frame.val 322 134) (slice frame.val 40 32)) = true))
    : (ofFrame frame.val stage).Journaled := by
  obtain ⟨-, -, -, kind, empty, -, -⟩ := framed
  have name : (ofFrame frame.val stage).sourceName.val = slice frame.val 322 134 :=
    Block.read_val (by rw [frame.val_length]; decide)
  have key : (ofFrame frame.val stage).key.val = slice frame.val 40 32 :=
    Block.read_val (by rw [frame.val_length]; decide)
  refine ⟨generation, ?_⟩
  by_cases none : byteAt frame.val 321 = 0
  · refine Or.inl ⟨none, Subtype.ext ?_⟩
    rw [name]
    exact slice_of_isZero (by rw [frame.val_length]; decide) (empty none)
  · have one : byteAt frame.val 321 = 1 := by
      have small : (byteAt frame.val 321).toNat ≤ 1 := UInt8.le_iff_toNat_le.mp kind
      have positive : (byteAt frame.val 321).toNat ≠ 0 :=
        fun zero => none (UInt8.toNat_inj.mp zero)
      exact UInt8.toNat_inj.mp (show (byteAt frame.val 321).toNat = 1 by omega)
    refine Or.inr ⟨one, bindsKey_iff.mp ?_⟩
    rw [name, key]
    simpa [one] using bound

/-- The frames that are read are those of the leaves that the journal writes. -/
theorem decode_eq_ok_iff {frame : Block 512} {leaf : RetirementLeaf}
    : decode sha256 frame = .ok leaf ↔ leaf.Journaled ∧ leaf.encode sha256 = frame := by
  constructor
  · intro read
    simp only [decode] at read
    split at read
    · cases read
    · next framed =>
      rw [not_not] at framed
      split at read
      · cases read
      · next stage staged =>
        split at read
        · cases read
        · next generation =>
          split at read
          · cases read
          · next bound =>
            cases read
            exact ⟨journaled_ofFrame sha256 framed (not_not.mp generation) bound,
              encode_ofFrame sha256 framed staged⟩
  · rintro ⟨journaled, rfl⟩
    exact decode_encode sha256 journaled

/-- The frames of the journal are a faithful code of its leaves. -/
theorem retirementLeaf_faithful
    : (∀ leaf : RetirementLeaf, leaf.Journaled → decode sha256 (leaf.encode sha256) = .ok leaf)
      ∧ (∀ frame leaf, decode sha256 frame = .ok leaf →
          leaf.Journaled ∧ leaf.encode sha256 = frame)
      ∧ ∀ frame frame' leaf, decode sha256 frame = .ok leaf → decode sha256 frame' = .ok leaf →
          frame = frame' := by
  refine ⟨fun leaf => decode_encode sha256, fun frame leaf => (decode_eq_ok_iff sha256).mp, ?_⟩
  intro frame frame' leaf read read'
  obtain ⟨-, written⟩ := (decode_eq_ok_iff sha256).mp read
  obtain ⟨-, written'⟩ := (decode_eq_ok_iff sha256).mp read'
  exact written.symm.trans written'

end RetirementLeaf

end CodebaseGraph.Storage.Maintenance.Retirement
