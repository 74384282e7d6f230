import CodebaseGraph.Collections.Layout
import CodebaseGraph.Storage.Maintenance.ControlRegister
import CodebaseGraph.Storage.Maintenance.RetirementLeaf
import Mathlib.Tactic.FinCases

/-! The records of generations (`src/storage/maintenance_generation_gate.rs`): the origin of a
published generation, and the records that close it.
-/

namespace CodebaseGraph.Storage.Maintenance.Records

open CodebaseGraph.Collections
open CodebaseGraph.Storage.Maintenance.Legacy
open CodebaseGraph.Storage.Maintenance.Retirement.RetirementLeaf (readId_bytes)

structure GenerationOriginScope where
  root : FixedWords
  coordination : FixedWords
  cohort : FixedWords
  publicationBinding : FixedWords
  incarnation : Block 32
deriving DecidableEq

/-- `gen_name` accepts the name. -/
def named (name : Block 128) (length : UInt8) : Bool := generationName name.val length.toNat

-- Digests

section

variable {sha256 : List UInt8 → Block 32} {segments : List (List UInt8)} {sizes : List Nat}

/-- The digest behind a body is the one of the body. -/
theorem finish_intact {size : Nat} (sized : segments.map List.length = sizes)
    (total : sizes.sum = size)
    : (sha256 ((finish sha256 segments.flatten).take size)).val
      = (finish sha256 segments.flatten).drop size := by
  have length : segments.flatten.length = size := by
    rw [List.length_flatten, sized, total]
  rw [finish, ← length, List.take_left, List.drop_left]

theorem finish_length {size : Nat} (sized : segments.map List.length = sizes)
    (total : sizes.sum = size)
    : (finish sha256 segments.flatten).length = size + 32 := by
  rw [finish, List.length_append, List.length_flatten, sized, total, Block.val_length]

/-- An intact image is put together from its segments. -/
theorem finish_of_cut {bytes : List UInt8} (cut : segments = segmentsAt bytes 0 sizes)
    (intact : (sha256 (bytes.take sizes.sum)).val = bytes.drop sizes.sum)
    : finish sha256 segments.flatten = bytes := by
  rw [finish, flatten_of_cut cut, intact, List.take_append_drop]

end

-- Leaves

abbrev payloads : Nat := 12

structure BoundLeaf where
  id : FixedWords
  len : UInt64
  hash : Block 32
  stampDigest : Block 32
deriving DecidableEq

namespace BoundLeaf

/-- The bytes behind the flag. -/
def bytes (leaf : BoundLeaf) : List UInt8 :=
  [zeros 7, leaf.id.bytes, wordBytes leaf.len, leaf.hash.val, leaf.stampDigest.val, zeros 16].flatten

def entry (leaf : Option BoundLeaf) : List UInt8 :=
  [[optionFlag leaf], optionBytes BoundLeaf.bytes 111 leaf].flatten

def ofEntry (e : List UInt8) : Option BoundLeaf :=
  readOption (byteAt e 0)
    { id := readId e 8
      len := word (e.drop 24)
      hash := .read e 32 32
      stampDigest := .read e 64 32 }

def Framed (e : List UInt8) : Prop :=
  byteAt e 0 ≤ 1
  ∧ isZero (slice e 1 7 ++ slice e 96 16)
  ∧ (byteAt e 0 = 0 → isZero e)

instance : DecidablePred Framed := fun _ => inferInstanceAs (Decidable (_ ∧ _ ∧ (_ → _)))

theorem bytes_length (leaf : BoundLeaf) : leaf.bytes.length = 111 := by
  simp [bytes]

theorem entry_sized (leaf : Option BoundLeaf)
    : [[optionFlag leaf], optionBytes BoundLeaf.bytes 111 leaf].map List.length = [1, 111] := by
  simp [optionBytes_length bytes_length]

theorem entry_length (leaf : Option BoundLeaf) : (entry leaf).length = 112 := by
  rw [entry, List.length_flatten, entry_sized]
  rfl

theorem flag_entry (leaf : Option BoundLeaf) : byteAt (entry leaf) 0 = optionFlag leaf := by
  rfl

/-- The parts of an entry that is not empty. -/
theorem entry_cut (leaf : BoundLeaf)
    : segmentsAt (entry (some leaf)) 0 [1, 7, 16, 8, 32, 32, 16]
      = [[1], zeros 7, leaf.id.bytes, wordBytes leaf.len, leaf.hash.val, leaf.stampDigest.val,
        zeros 16] := by
  have whole : entry (some leaf)
      = [[1], zeros 7, leaf.id.bytes, wordBytes leaf.len, leaf.hash.val, leaf.stampDigest.val,
        zeros 16].flatten ++ [] := by
    simp [entry, optionFlag, optionBytes, bytes]
  rw [whole]
  exact segmentsAt_flatten [] (by simp)

theorem ofEntry_entry (leaf : Option BoundLeaf) : ofEntry (entry leaf) = leaf := by
  rw [ofEntry, flag_entry]
  apply readOption_eq
  rintro present rfl
  have cut := entry_cut present
  simp only [segmentsAt, List.cons.injEq, Nat.reduceAdd, and_true] at cut
  obtain ⟨-, -, id, len, hash, stampDigest, -⟩ := cut
  simp only [readId_of_slice id, word_of_slice len, Block.read_of_slice hash,
    Block.read_of_slice stampDigest]

theorem framed_entry (leaf : Option BoundLeaf) : Framed (entry leaf) := by
  refine ⟨flag_entry leaf ▸ optionFlag_le leaf, ?_, ?_⟩
  · cases leaf with
    | none => rfl
    | some present =>
        have cut := entry_cut present
        simp only [segmentsAt, List.cons.injEq, Nat.reduceAdd, and_true] at cut
        obtain ⟨-, gap1, -, -, -, -, gap2⟩ := cut
        simp [isZero_append, gap1, gap2]
  · cases leaf with
    | none => exact fun _ => rfl
    | some present =>
        intro absent
        rw [flag_entry] at absent
        have other : (1 : UInt8) ≠ 0 := by decide
        exact absurd absent other

theorem entry_ofEntry {e : List UInt8} (length : e.length = 112) (framed : Framed e)
    : entry (ofEntry e) = e := by
  obtain ⟨flag, gaps, absent⟩ := framed
  simp only [isZero_append, Bool.and_eq_true] at gaps
  have fits {size : Nat} (inside : size ≤ 112) : size ≤ e.length := length ▸ inside
  have first : slice e 0 1 = [byteAt e 0] := slice_one (by omega)
  have whole : [slice e 0 1, slice e 1 111].flatten = e := by
    have cut := flatten_segmentsAt e 0 [1, 111]
    have all : slice e 0 112 = e := List.take_of_length_le (by rw [List.drop_zero, length])
    exact cut.trans all
  have rest : optionBytes BoundLeaf.bytes 111 (ofEntry e) = slice e 1 111 := by
    apply optionBytes_readOption (slice_length (fits (by decide))) flag
    · intro none
      have empty := absent none
      rw [← whole] at empty
      simp only [List.flatten_cons, List.flatten_nil, List.append_nil, isZero_append,
        Bool.and_eq_true] at empty
      exact empty.2
    · intro _
      have cut := flatten_segmentsAt e 1 [7, 16, 8, 32, 32, 16]
      simp only [segmentsAt, Nat.reduceAdd, List.sum_cons, List.sum_nil] at cut
      rw [← cut, bytes]
      simp only [← slice_of_isZero (fits (by decide)) gaps.1,
        ← slice_of_isZero (fits (by decide)) gaps.2, wordBytes_word, Block.read_val, readId_bytes,
        fits, Nat.reduceAdd, Nat.reduceLeDiff]
  rw [entry, rest, ofEntry, optionFlag_readOption flag, ← first]
  exact whole

end BoundLeaf

-----------------------------------------------------------------------------------------
-- Origin
-----------------------------------------------------------------------------------------

structure Origin where
  generation : Block 128
  generationLen : UInt8
  scope : GenerationOriginScope
  managed : FixedWords
  writer : FixedWords
  directory : FixedWords
  receipt : FixedWords
  operation : Block 32
  lease : FixedWords
  family : FixedWords
  resource : FixedWords
  manifestResource : FixedWords
  nativeLock : Option FixedWords
  leaves : Fin payloads → Option BoundLeaf

namespace Origin

/-- The ASCII codes of `CGGEN001`. -/
def magic : List UInt8 := [67, 71, 71, 69, 78, 48, 48, 49]

def segments (origin : Origin) : List (List UInt8) :=
  [magic, wordBytes 2, [origin.generationLen], zeros 15, origin.generation.val,
    origin.scope.root.bytes, origin.scope.coordination.bytes, origin.scope.cohort.bytes,
    origin.scope.publicationBinding.bytes, origin.scope.incarnation.val, origin.managed.bytes,
    origin.writer.bytes, origin.directory.bytes, origin.receipt.bytes, origin.operation.val,
    origin.lease.bytes, origin.family.bytes, origin.resource.bytes]
  ++ List.ofFn (fun place => BoundLeaf.entry (origin.leaves place))
  ++ [origin.manifestResource.bytes, [optionFlag origin.nativeLock], zeros 7,
    optionBytes FixedWords.bytes 16 origin.nativeLock, zeros 232]

def sizes : List Nat :=
  [8, 8, 1, 15, 128, 16, 16, 16, 16, 32, 16, 16, 16, 16, 32, 16, 16, 16]
  ++ [112, 112, 112, 112, 112, 112, 112, 112, 112, 112, 112, 112]
  ++ [16, 1, 7, 16, 232]

/-- The entry of a leaf. -/
def entryAt (b : List UInt8) (place : Fin payloads) : List UInt8 :=
  slice b (400 + place.val * 112) 112

def ofImage (b : List UInt8) : Origin where
  generation := .read b 32 128
  generationLen := byteAt b 16
  scope :=
    { root := readId b 160
      coordination := readId b 176
      cohort := readId b 192
      publicationBinding := readId b 208
      incarnation := .read b 224 32 }
  managed := readId b 256
  writer := readId b 272
  directory := readId b 288
  receipt := readId b 304
  operation := .read b 320 32
  lease := readId b 352
  family := readId b 368
  resource := readId b 384
  manifestResource := readId b 1744
  nativeLock := readOption (byteAt b 1760) (readId b 1768)
  leaves place := BoundLeaf.ofEntry (entryAt b place)

/-- How many of the leaves of the search are there. -/
def searchLeaves (origin : Origin) : Nat :=
  ((List.finRange payloads).drop 6).countP (fun place => (origin.leaves place).isSome)

/-- A published generation has a name, an incarnation and an operation, its first four leaves, and
all leaves of the search or none.
-/
def Valid (origin : Origin) : Prop :=
  !isZero origin.scope.incarnation.val
  ∧ !isZero origin.operation.val
  ∧ named origin.generation origin.generationLen
  ∧ (∀ place : Fin payloads, place < 4 → (origin.leaves place).isSome)
  ∧ (origin.searchLeaves = 0 ∨ origin.searchLeaves = 6)

instance : DecidablePred Valid := fun _ =>
  inferInstanceAs (Decidable (_ ∧ _ ∧ _ ∧ (∀ _, _ → _) ∧ (_ ∨ _)))

variable (sha256 : List UInt8 → Block 32)

def encode (origin : Origin) : List UInt8 := finish sha256 origin.segments.flatten

def Framed (b : List UInt8) : Prop :=
  b.length = 2048
  ∧ slice b 0 8 = magic
  ∧ word (b.drop 8) = 2
  ∧ byteAt b 1760 ≤ 1
  ∧ isZero (slice b 1761 7)
  ∧ (byteAt b 1760 = 0 → isZero (slice b 1768 16))
  ∧ isZero (slice b 17 15 ++ slice b 1784 232)
  ∧ (sha256 (b.take 2016)).val = b.drop 2016
  ∧ ∀ place, BoundLeaf.Framed (entryAt b place)

instance : DecidablePred (Framed sha256) := fun _ =>
  inferInstanceAs (Decidable (_ ∧ _ ∧ _ ∧ _ ∧ _ ∧ (_ → _) ∧ _ ∧ _ ∧ ∀ _, _))

def decode : List UInt8 → Option Origin := decodeFrame (Framed sha256) ofImage Valid

variable {sha256}

theorem entries_eq (f : Fin payloads → List UInt8)
    : List.ofFn f = [f 0, f 1, f 2, f 3, f 4, f 5, f 6, f 7, f 8, f 9, f 10, f 11] := by
  rfl

theorem segments_sized (origin : Origin) : origin.segments.map List.length = sizes := by
  simp [segments, sizes, magic, BoundLeaf.entry_length,
    optionBytes_length FixedWords.bytes_length]

theorem segmentsAt_encode (sha256 : List UInt8 → Block 32) (origin : Origin)
    : segmentsAt (origin.encode sha256) 0 sizes = origin.segments :=
  segmentsAt_flatten _ origin.segments_sized

theorem entryAt_encode (origin : Origin) (place : Fin payloads)
    : entryAt (origin.encode sha256) place = BoundLeaf.entry (origin.leaves place) := by
  have cut := origin.segmentsAt_encode sha256
  simp only [sizes, segmentsAt, segments, entries_eq, List.cons_append, List.nil_append,
    List.cons.injEq, Nat.reduceAdd, and_true] at cut
  obtain ⟨-, -, -, -, -, -, -, -, -, -, -, -, -, -, -, -, -, -, leaf0, leaf1, leaf2, leaf3, leaf4,
    leaf5, leaf6, leaf7, leaf8, leaf9, leaf10, leaf11, -⟩ := cut
  fin_cases place <;> assumption

theorem framed_encode (origin : Origin) : Framed sha256 (origin.encode sha256) := by
  have cut := origin.segmentsAt_encode sha256
  simp only [sizes, segmentsAt, segments, entries_eq, List.cons_append, List.nil_append,
    List.cons.injEq, Nat.reduceAdd, and_true] at cut
  obtain ⟨magic, version, -, gap1, -, -, -, -, -, -, -, -, -, -, -, -, -, -, -, -, -, -, -, -, -, -,
    -, -, -, -, -, flag, gap2, lock, gap3⟩ := cut
  have present := byteAt_of_slice flag
  refine ⟨finish_length origin.segments_sized rfl, magic, word_of_slice version,
    present ▸ optionFlag_le _, isZero_of_slice gap2, ?_, ?_, finish_intact origin.segments_sized rfl,
    ?_⟩
  · intro absent
    rw [present] at absent
    rw [lock]
    exact isZero_optionBytes absent
  · simp [isZero_append, gap1, gap3]
  · intro place
    rw [entryAt_encode]
    exact BoundLeaf.framed_entry _

theorem ofImage_encode (origin : Origin) : ofImage (origin.encode sha256) = origin := by
  have cut := origin.segmentsAt_encode sha256
  simp only [sizes, segmentsAt, segments, entries_eq, List.cons_append, List.nil_append,
    List.cons.injEq, Nat.reduceAdd, and_true] at cut
  obtain ⟨-, -, generationLen, -, generation, root, coordination, cohort, publication, incarnation,
    managed, writer, directory, receipt, operation, lease, family, resource, -, -, -, -, -, -, -, -,
    -, -, -, -, manifest, flag, -, lock, -⟩ := cut
  have native : readOption (byteAt (origin.encode sha256) 1760) (readId (origin.encode sha256) 1768)
      = origin.nativeLock := by
    rw [byteAt_of_slice flag]
    apply readOption_eq
    intro present same
    rw [same] at lock
    exact readId_of_slice lock
  have leaves : (fun place => BoundLeaf.ofEntry (entryAt (origin.encode sha256) place))
      = origin.leaves := by
    funext place
    rw [entryAt_encode, BoundLeaf.ofEntry_entry]
  simp only [ofImage, native, leaves, Block.read_of_slice generation, byteAt_of_slice generationLen,
    readId_of_slice root, readId_of_slice coordination, readId_of_slice cohort,
    readId_of_slice publication, Block.read_of_slice incarnation, readId_of_slice managed,
    readId_of_slice writer, readId_of_slice directory, readId_of_slice receipt,
    Block.read_of_slice operation, readId_of_slice lease, readId_of_slice family,
    readId_of_slice resource, readId_of_slice manifest]

theorem encode_ofImage (b : List UInt8) (framed : Framed sha256 b)
    : (ofImage b).encode sha256 = b := by
  obtain ⟨length, magic, version, flag, gap2, absent, gaps, intact, entries⟩ := framed
  simp only [isZero_append, Bool.and_eq_true] at gaps
  have fits {size : Nat} (inside : size ≤ 2048) : size ≤ b.length := length ▸ inside
  have one (offset : Nat) (inside : offset < 2048) : [byteAt b offset] = slice b offset 1 :=
    (slice_one (length ▸ inside)).symm
  have two : wordBytes 2 = slice b 8 8 := version ▸ wordBytes_word (fits (by decide))
  have native : optionBytes FixedWords.bytes 16 (readOption (byteAt b 1760) (readId b 1768))
      = slice b 1768 16 :=
    optionBytes_readOption (slice_length (fits (by decide))) flag absent
      (fun _ => readId_bytes (fits (by decide)))
  have leaves : ∀ place, BoundLeaf.entry (BoundLeaf.ofEntry (entryAt b place)) = entryAt b place := by
    intro place
    have small : place.val < 12 := place.isLt
    exact BoundLeaf.entry_ofEntry (slice_length (fits (by omega))) (entries place)
  have cut : (ofImage b).segments = segmentsAt b 0 sizes := by
    simp only [segments, ofImage, leaves, native, optionFlag_readOption flag]
    simp only [entries_eq, entryAt, sizes, segmentsAt, ← magic, two, one,
      ← slice_of_isZero (fits (by decide)) gaps.1,
      ← slice_of_isZero (fits (by decide)) gap2, ← slice_of_isZero (fits (by decide)) gaps.2,
      Block.read_val, readId_bytes, fits, Nat.reduceAdd, Nat.reduceLeDiff, Nat.reduceLT,
      List.cons_append, List.nil_append]
    rfl
  exact finish_of_cut cut intact

theorem canonical : Canonical Valid (encode sha256) (decode sha256) :=
  canonical_decodeFrame framed_encode ofImage_encode encode_ofImage

end Origin

-----------------------------------------------------------------------------------------
-- Final
-----------------------------------------------------------------------------------------

structure Final where
  generation : Block 128
  generationLen : UInt8
  managed : FixedWords
  directory : FixedWords
  origin : FixedWords
  originDigest : Block 32
  receipt : FixedWords
  successor : FixedWords
  successorOrigin : FixedWords
  successorId : Block 128
  successorLen : UInt8
  successorDigest : Block 32
deriving DecidableEq

namespace Final

/-- The ASCII codes of `CGFINAL1`. -/
def magic : List UInt8 := [67, 71, 70, 73, 78, 65, 76, 49]

/-- The bytes in front of the digest. -/
def segments (final : Final) : List (List UInt8) :=
  [magic, wordBytes 1, [final.generationLen], zeros 15, final.generation.val, final.managed.bytes,
    final.directory.bytes, final.origin.bytes, final.originDigest.val, final.receipt.bytes,
    final.successor.bytes, final.successorOrigin.bytes, [final.successorLen], zeros 7,
    final.successorId.val, final.successorDigest.val, zeros 24]

def sizes : List Nat := [8, 8, 1, 15, 128, 16, 16, 16, 32, 16, 16, 16, 1, 7, 128, 32, 24]

/-- The fields as they stand in a record. -/
def ofImage (b : List UInt8) : Final where
  generation := .read b 32 128
  generationLen := byteAt b 16
  managed := readId b 160
  directory := readId b 176
  origin := readId b 192
  originDigest := .read b 208 32
  receipt := readId b 240
  successor := readId b 256
  successorOrigin := readId b 272
  successorId := .read b 296 128
  successorLen := byteAt b 288
  successorDigest := .read b 424 32

/-- What is asked of the names in a record. -/
def Valid (final : Final) : Prop :=
  named final.generation final.generationLen
  ∧ named final.successorId final.successorLen
  ∧ final.generation ≠ final.successorId

instance : DecidablePred Valid := fun _ => inferInstanceAs (Decidable (_ ∧ _ ∧ _))

variable (sha256 : List UInt8 → Block 32)

def encode (final : Final) : List UInt8 := finish sha256 final.segments.flatten

/-- The checks of the record before its fields are read. -/
def Framed (b : List UInt8) : Prop :=
  b.length = 512
  ∧ slice b 0 8 = magic
  ∧ word (b.drop 8) = 1
  ∧ isZero (slice b 17 15 ++ slice b 289 7 ++ slice b 456 24)
  ∧ (sha256 (b.take 480)).val = b.drop 480

instance : DecidablePred (Framed sha256) := fun _ =>
  inferInstanceAs (Decidable (_ ∧ _ ∧ _ ∧ _ ∧ _))

def decode : List UInt8 → Option Final := decodeFrame (Framed sha256) ofImage Valid

variable {sha256}

theorem segments_sized (final : Final) : final.segments.map List.length = sizes := by
  simp [segments, sizes, magic]

theorem segmentsAt_encode (sha256 : List UInt8 → Block 32) (final : Final)
    : segmentsAt (final.encode sha256) 0 sizes = final.segments :=
  segmentsAt_flatten _ final.segments_sized

theorem framed_encode (final : Final) : Framed sha256 (final.encode sha256) := by
  have cut := final.segmentsAt_encode sha256
  simp only [sizes, segmentsAt, segments, List.cons.injEq, Nat.reduceAdd, and_true] at cut
  obtain ⟨magic, version, -, gap1, -, -, -, -, -, -, -, -, -, gap2, -, -, gap3⟩ := cut
  refine ⟨finish_length final.segments_sized rfl, magic, word_of_slice version, ?_,
    finish_intact final.segments_sized rfl⟩
  simp [isZero_append, gap1, gap2, gap3]

theorem ofImage_encode (final : Final) : ofImage (final.encode sha256) = final := by
  have cut := final.segmentsAt_encode sha256
  simp only [sizes, segmentsAt, segments, List.cons.injEq, Nat.reduceAdd, and_true] at cut
  obtain ⟨-, -, generationLen, -, generation, managed, directory, origin, originDigest, receipt,
    successor, successorOrigin, successorLen, -, successorId, successorDigest, -⟩ := cut
  simp only [ofImage, Block.read_of_slice generation, byteAt_of_slice generationLen,
    readId_of_slice managed, readId_of_slice directory, readId_of_slice origin,
    Block.read_of_slice originDigest, readId_of_slice receipt, readId_of_slice successor,
    readId_of_slice successorOrigin, Block.read_of_slice successorId,
    byteAt_of_slice successorLen, Block.read_of_slice successorDigest]

theorem encode_ofImage (b : List UInt8) (framed : Framed sha256 b)
    : (ofImage b).encode sha256 = b := by
  obtain ⟨length, magic, version, gaps, intact⟩ := framed
  simp only [isZero_append, Bool.and_eq_true] at gaps
  obtain ⟨⟨gap1, gap2⟩, gap3⟩ := gaps
  have fits {size : Nat} (inside : size ≤ 512) : size ≤ b.length := length ▸ inside
  have one (offset : Nat) (inside : offset < 512) : [byteAt b offset] = slice b offset 1 :=
    (slice_one (length ▸ inside)).symm
  have two : wordBytes 1 = slice b 8 8 := version ▸ wordBytes_word (fits (by decide))
  have cut : (ofImage b).segments = segmentsAt b 0 sizes := by
    simp only [segments, ofImage, sizes, segmentsAt, ← magic, two, one,
      ← slice_of_isZero (fits (by decide)) gap1, ← slice_of_isZero (fits (by decide)) gap2,
      ← slice_of_isZero (fits (by decide)) gap3, Block.read_val, readId_bytes, fits,
      Nat.reduceAdd, Nat.reduceLeDiff, Nat.reduceLT]
  exact finish_of_cut cut intact

theorem canonical : Canonical Valid (encode sha256) (decode sha256) :=
  canonical_decodeFrame framed_encode ofImage_encode encode_ofImage

end Final

-----------------------------------------------------------------------------------------
-- Legacy final
-----------------------------------------------------------------------------------------

structure LegacyClosedFile where
  id : FixedWords
  len : UInt64
  stampDigest : Block 32
deriving DecidableEq

structure LegacyFinal where
  generation : Block 128
  generationLen : UInt8
  successorId : Block 128
  successorLen : UInt8
  scope : GenerationOriginScope
  managed : FixedWords
  writer : FixedWords
  directory : FixedWords
  receipt : FixedWords
  lease : FixedWords
  family : FixedWords
  resource : FixedWords
  manifestResource : FixedWords
  database : LegacyClosedFile
  manifest : LegacyClosedFile
  successor : FixedWords
  successorOrigin : FixedWords
  successorDigest : Block 32
  operation : Block 32
  nativeLock : Option FixedWords
deriving DecidableEq

namespace LegacyFinal

/-- The ASCII codes of `CGLEGF01`. -/
def magic : List UInt8 := [67, 71, 76, 69, 71, 70, 48, 49]

def segments (final : LegacyFinal) : List (List UInt8) :=
  [magic, wordBytes 1, [final.generationLen], [final.successorLen], zeros 14, final.generation.val,
    final.successorId.val, final.scope.root.bytes, final.scope.coordination.bytes,
    final.scope.cohort.bytes, final.scope.publicationBinding.bytes, final.scope.incarnation.val,
    final.managed.bytes, final.writer.bytes, final.directory.bytes, final.receipt.bytes,
    final.lease.bytes, final.family.bytes, final.resource.bytes, final.manifestResource.bytes,
    final.database.id.bytes, wordBytes final.database.len, final.database.stampDigest.val,
    final.manifest.id.bytes, wordBytes final.manifest.len, final.manifest.stampDigest.val,
    final.successor.bytes, final.successorOrigin.bytes, final.successorDigest.val,
    final.operation.val, [optionFlag final.nativeLock], zeros 7,
    optionBytes FixedWords.bytes 16 final.nativeLock, zeros 248]

def sizes : List Nat :=
  [8, 8, 1, 1, 14, 128, 128, 16, 16, 16, 16, 32, 16, 16, 16, 16, 16, 16, 16, 16, 16, 8, 32, 16, 8, 32,
    16, 16, 32, 32, 1, 7, 16, 248]

def ofImage (b : List UInt8) : LegacyFinal where
  generation := .read b 32 128
  generationLen := byteAt b 16
  successorId := .read b 160 128
  successorLen := byteAt b 17
  scope :=
    { root := readId b 288
      coordination := readId b 304
      cohort := readId b 320
      publicationBinding := readId b 336
      incarnation := .read b 352 32 }
  managed := readId b 384
  writer := readId b 400
  directory := readId b 416
  receipt := readId b 432
  lease := readId b 448
  family := readId b 464
  resource := readId b 480
  manifestResource := readId b 496
  database := { id := readId b 512, len := word (b.drop 528), stampDigest := .read b 536 32 }
  manifest := { id := readId b 568, len := word (b.drop 584), stampDigest := .read b 592 32 }
  successor := readId b 624
  successorOrigin := readId b 640
  successorDigest := .read b 656 32
  operation := .read b 688 32
  nativeLock := readOption (byteAt b 720) (readId b 728)

def Valid (final : LegacyFinal) : Prop :=
  !isZero final.scope.incarnation.val
  ∧ !isZero final.operation.val
  ∧ named final.generation final.generationLen
  ∧ named final.successorId final.successorLen
  ∧ final.generation ≠ final.successorId

instance : DecidablePred Valid := fun _ => inferInstanceAs (Decidable (_ ∧ _ ∧ _ ∧ _ ∧ _))

variable (sha256 : List UInt8 → Block 32)

def encode (final : LegacyFinal) : List UInt8 := finish sha256 final.segments.flatten

def Framed (b : List UInt8) : Prop :=
  b.length = 1024
  ∧ slice b 0 8 = magic
  ∧ word (b.drop 8) = 1
  ∧ isZero (slice b 18 14 ++ slice b 721 7 ++ slice b 744 248)
  ∧ byteAt b 720 ≤ 1
  ∧ (byteAt b 720 = 0 → isZero (slice b 728 16))
  ∧ (sha256 (b.take 992)).val = b.drop 992

instance : DecidablePred (Framed sha256) := fun _ =>
  inferInstanceAs (Decidable (_ ∧ _ ∧ _ ∧ _ ∧ _ ∧ (_ → _) ∧ _))

def decode : List UInt8 → Option LegacyFinal := decodeFrame (Framed sha256) ofImage Valid

variable {sha256}

theorem segments_sized (final : LegacyFinal) : final.segments.map List.length = sizes := by
  simp [segments, sizes, magic, optionBytes_length FixedWords.bytes_length]

theorem segmentsAt_encode (sha256 : List UInt8 → Block 32) (final : LegacyFinal)
    : segmentsAt (final.encode sha256) 0 sizes = final.segments :=
  segmentsAt_flatten _ final.segments_sized

theorem framed_encode (final : LegacyFinal) : Framed sha256 (final.encode sha256) := by
  have cut := final.segmentsAt_encode sha256
  simp only [sizes, segmentsAt, segments, List.cons.injEq, Nat.reduceAdd, and_true] at cut
  obtain ⟨magic, version, -, -, gap1, -, -, -, -, -, -, -, -, -, -, -, -, -, -, -, -, -, -, -, -, -, -,
    -, -, -, flag, gap2, lock, gap3⟩ := cut
  have present := byteAt_of_slice flag
  refine ⟨finish_length final.segments_sized rfl, magic, word_of_slice version, ?_,
    present ▸ optionFlag_le _, ?_, finish_intact final.segments_sized rfl⟩
  · simp [isZero_append, gap1, gap2, gap3]
  · intro absent
    rw [present] at absent
    rw [lock]
    exact isZero_optionBytes absent

theorem ofImage_encode (final : LegacyFinal) : ofImage (final.encode sha256) = final := by
  have cut := final.segmentsAt_encode sha256
  simp only [sizes, segmentsAt, segments, List.cons.injEq, Nat.reduceAdd, and_true] at cut
  obtain ⟨-, -, generationLen, successorLen, -, generation, successorId, root, coordination, cohort,
    publication, incarnation, managed, writer, directory, receipt, lease, family, resource,
    manifestResource, databaseId, databaseLen, databaseStamp, manifestId, manifestLen, manifestStamp,
    successor, successorOrigin, successorDigest, operation, flag, -, lock, -⟩ := cut
  have native : readOption (byteAt (final.encode sha256) 720) (readId (final.encode sha256) 728)
      = final.nativeLock := by
    rw [byteAt_of_slice flag]
    apply readOption_eq
    intro present same
    rw [same] at lock
    exact readId_of_slice lock
  simp only [ofImage, native, Block.read_of_slice generation, byteAt_of_slice generationLen,
    Block.read_of_slice successorId, byteAt_of_slice successorLen, readId_of_slice root,
    readId_of_slice coordination, readId_of_slice cohort, readId_of_slice publication,
    Block.read_of_slice incarnation, readId_of_slice managed, readId_of_slice writer,
    readId_of_slice directory, readId_of_slice receipt, readId_of_slice lease,
    readId_of_slice family, readId_of_slice resource, readId_of_slice manifestResource,
    readId_of_slice databaseId, word_of_slice databaseLen, Block.read_of_slice databaseStamp,
    readId_of_slice manifestId, word_of_slice manifestLen, Block.read_of_slice manifestStamp,
    readId_of_slice successor, readId_of_slice successorOrigin, Block.read_of_slice successorDigest,
    Block.read_of_slice operation]

theorem encode_ofImage (b : List UInt8) (framed : Framed sha256 b)
    : (ofImage b).encode sha256 = b := by
  obtain ⟨length, magic, version, gaps, flag, absent, intact⟩ := framed
  simp only [isZero_append, Bool.and_eq_true] at gaps
  obtain ⟨⟨gap1, gap2⟩, gap3⟩ := gaps
  have fits {size : Nat} (inside : size ≤ 1024) : size ≤ b.length := length ▸ inside
  have one (offset : Nat) (inside : offset < 1024) : [byteAt b offset] = slice b offset 1 :=
    (slice_one (length ▸ inside)).symm
  have first : wordBytes 1 = slice b 8 8 := version ▸ wordBytes_word (fits (by decide))
  have native : optionBytes FixedWords.bytes 16 (readOption (byteAt b 720) (readId b 728))
      = slice b 728 16 :=
    optionBytes_readOption (slice_length (fits (by decide))) flag absent
      (fun _ => readId_bytes (fits (by decide)))
  have cut : (ofImage b).segments = segmentsAt b 0 sizes := by
    simp only [segments, ofImage, native, optionFlag_readOption flag, sizes, segmentsAt, ← magic,
      first, one, ← slice_of_isZero (fits (by decide)) gap1,
      ← slice_of_isZero (fits (by decide)) gap2, ← slice_of_isZero (fits (by decide)) gap3,
      Block.read_val, readId_bytes, wordBytes_word, fits, Nat.reduceAdd, Nat.reduceLeDiff,
      Nat.reduceLT]
  exact finish_of_cut cut intact

theorem canonical : Canonical Valid (encode sha256) (decode sha256) :=
  canonical_decodeFrame framed_encode ofImage_encode encode_ofImage

end LegacyFinal

end CodebaseGraph.Storage.Maintenance.Records
