import CodebaseGraph.Storage.Maintenance.GenerationRecords

/-! The records of publishers and workspaces (`src/storage/maintenance_controls.rs`). -/

namespace CodebaseGraph.Storage.Maintenance.Records

open CodebaseGraph.Collections
open CodebaseGraph.Storage.Maintenance.Legacy
open CodebaseGraph.Storage.Maintenance.Retirement.RetirementLeaf (readId_bytes)

-----------------------------------------------------------------------------------------
-- Publisher
-----------------------------------------------------------------------------------------

structure PublisherBinding where
  root : FixedWords
  coordination : FixedWords
  data0 : FixedWords
  data1 : FixedWords
  selector : FixedWords
  stream : Option FixedWords
  incarnation : Block 32
deriving DecidableEq

namespace PublisherBinding

def bindingBytes : Nat := 512

/-- The ASCII codes of `CGBIND01`. -/
def magic : List UInt8 := [67, 71, 66, 73, 78, 68, 48, 49]

/-- A stream is announced by a whole word. -/
def streamWord : Option FixedWords → UInt64
  | some _ => 1
  | none => 0

def segments (binding : PublisherBinding) : List (List UInt8) :=
  [magic, wordBytes 1, binding.incarnation.val, binding.root.bytes, binding.coordination.bytes,
    binding.data0.bytes, binding.data1.bytes, binding.selector.bytes,
    wordBytes (streamWord binding.stream), optionBytes FixedWords.bytes 16 binding.stream, zeros 328]

def sizes : List Nat := [8, 8, 32, 16, 16, 16, 16, 16, 8, 16, 328]

/-- The stream that stands in a record, if its word is one of the two. -/
def readStream (b : List UInt8) : Option (Option FixedWords) :=
  let announced := word (b.drop 128)
  if announced = 0 ∧ isZero (slice b 136 16) then some none
  else if announced = 1 then some (some (readId b 136))
  else none

def ofImage (b : List UInt8) (stream : Option FixedWords) : PublisherBinding where
  root := readId b 48
  coordination := readId b 64
  data0 := readId b 80
  data1 := readId b 96
  selector := readId b 112
  stream
  incarnation := .read b 16 32

variable (sha256 : List UInt8 → Block 32)

/-- Writes into a buffer of `bindingBytes` bytes. -/
def encode (binding : PublisherBinding) : List UInt8 := finish sha256 binding.segments.flatten

def decode (b : List UInt8) : Except ControlFailure PublisherBinding :=
  if b.length ≠ bindingBytes then .error .size
  else if slice b 0 8 ≠ magic ∨ word (b.drop 8) ≠ 1 then .error .version
  else if (sha256 (b.take (bindingBytes - 32))).val ≠ b.drop (bindingBytes - 32) then
    .error .checksum
  else if !isZero (slice b 152 328) then .error .size
  else
    match readStream b with
    | some stream => .ok (ofImage b stream)
    | none => .error .version

variable {sha256}

theorem segments_sized (binding : PublisherBinding)
    : binding.segments.map List.length = sizes := by
  simp [segments, sizes, magic, optionBytes_length FixedWords.bytes_length]

theorem segmentsAt_encode (sha256 : List UInt8 → Block 32) (binding : PublisherBinding)
    : segmentsAt (binding.encode sha256) 0 sizes = binding.segments :=
  segmentsAt_flatten _ binding.segments_sized

theorem decode_encode (binding : PublisherBinding)
    : decode sha256 (binding.encode sha256) = .ok binding := by
  have length : (binding.encode sha256).length = bindingBytes :=
    finish_length binding.segments_sized rfl
  have intact : (sha256 ((binding.encode sha256).take (bindingBytes - 32))).val
      = (binding.encode sha256).drop (bindingBytes - 32) :=
    finish_intact binding.segments_sized rfl
  have cut := binding.segmentsAt_encode sha256
  generalize binding.encode sha256 = b at cut length intact ⊢
  simp only [sizes, segmentsAt, segments, List.cons.injEq, Nat.reduceAdd, and_true] at cut
  obtain ⟨magic, version, incarnation, root, coordination, data0, data1, selector, announced, stream,
    gap⟩ := cut
  have found : readStream b = some binding.stream := by
    have kind := word_of_slice announced
    cases present : binding.stream with
    | none =>
        rw [present] at stream kind
        exact if_pos ⟨kind, isZero_of_slice stream⟩
    | some id =>
        rw [present] at stream kind
        have one : word (b.drop 128) = 1 := kind
        have other : ¬ (word (b.drop 128) = 0 ∧ isZero (slice b 136 16) = true) := by
          rw [one]
          exact fun same => absurd same.1 (by decide)
        have read : readId b 136 = id := readId_of_slice stream
        unfold readStream
        dsimp only
        rw [if_neg other, if_pos one, read]
  have read : ofImage b binding.stream = binding := by
    simp only [ofImage, Block.read_of_slice incarnation, readId_of_slice root,
      readId_of_slice coordination, readId_of_slice data0, readId_of_slice data1,
      readId_of_slice selector]
  rw [decode, if_neg (not_not.mpr length), if_neg (by simp [magic, word_of_slice version]),
    if_neg (not_not.mpr intact), if_neg (by simp [gap]), found]
  dsimp only
  rw [read]

theorem encode_decode {b : List UInt8} {binding : PublisherBinding}
    (read : decode sha256 b = .ok binding) : binding.encode sha256 = b := by
  unfold decode at read
  split at read
  · cases read
  · next length =>
    rw [not_not] at length
    split at read
    · cases read
    · next version =>
      rw [not_or, not_not, not_not] at version
      split at read
      · cases read
      · next intact =>
        rw [not_not] at intact
        split at read
        · cases read
        · next gap =>
          rw [Bool.not_eq_true', Bool.not_eq_false] at gap
          have fits {size : Nat} (inside : size ≤ 512) : size ≤ b.length := by
            rw [length]
            exact inside
          have first : wordBytes 1 = slice b 8 8 := version.2 ▸ wordBytes_word (fits (by decide))
          split at read
          · next stream found =>
            cases read
            have parts : wordBytes (streamWord stream) = slice b 128 8
                ∧ optionBytes FixedWords.bytes 16 stream = slice b 136 16 := by
              have announced : wordBytes (word (b.drop 128)) = slice b 128 8 :=
                wordBytes_word (fits (by decide))
              unfold readStream at found
              dsimp only at found
              split at found
              · next absent =>
                cases found
                rw [absent.1] at announced
                exact ⟨announced, (slice_of_isZero (fits (by decide)) absent.2).symm⟩
              · split at found
                · next present =>
                  cases found
                  rw [present] at announced
                  exact ⟨announced, readId_bytes (fits (by decide))⟩
                · cases found
            have cut : (ofImage b stream).segments = segmentsAt b 0 sizes := by
              simp only [segments, ofImage, sizes, segmentsAt, ← version.1, first, parts.1, parts.2,
                ← slice_of_isZero (fits (by decide)) gap, Block.read_val, readId_bytes, fits,
                Nat.reduceAdd, Nat.reduceLeDiff]
            exact finish_of_cut cut intact
          · cases read

theorem canonical
    : Canonical (fun _ => True) (encode sha256) (fun b => (decode sha256 b).toOption) :=
  canonical_of_except (fun binding _ => decode_encode binding)
    (fun _ _ read => ⟨trivial, encode_decode read⟩)

end PublisherBinding

-----------------------------------------------------------------------------------------
-- Workspace binding
-----------------------------------------------------------------------------------------

structure WorkspaceDirectoryIncarnation where
  identity : FixedWords
  nonce : Block 32
deriving DecidableEq

structure WorkspaceBinding where
  root : FixedWords
  owner : FixedWords
  registry : FixedWords
  parentRoot : FixedWords
  parentCoordination : FixedWords
  parentCohort : FixedWords
  publicationBinding : FixedWords
  nonce : Block 32
  parentNonce : Block 32
  kind : UInt8
  writers : FixedWords
  origins : FixedWords
  parentRecord : Option FixedWords
  startupGate : FixedWords
  createdDirectories : Option (WorkspaceDirectoryIncarnation × WorkspaceDirectoryIncarnation)
  originsNonce : Block 32
deriving DecidableEq

namespace WorkspaceBinding

/-- The ASCII codes of `CGWSCP01`. -/
def magic : List UInt8 := [67, 71, 87, 83, 67, 80, 48, 49]

/-- The identities of both directories and then their nonces. -/
def directoryBytes (directories : WorkspaceDirectoryIncarnation × WorkspaceDirectoryIncarnation)
    : List UInt8 :=
  [directories.1.identity.bytes, directories.2.identity.bytes, directories.1.nonce.val,
    directories.2.nonce.val].flatten

def segments (binding : WorkspaceBinding) : List (List UInt8) :=
  [magic, [binding.kind], [optionFlag binding.parentRecord], [optionFlag binding.createdDirectories],
    zeros 5, binding.root.bytes, binding.owner.bytes, binding.registry.bytes,
    binding.parentRoot.bytes, binding.parentCoordination.bytes, binding.parentCohort.bytes,
    binding.publicationBinding.bytes, binding.nonce.val, binding.parentNonce.val,
    binding.writers.bytes, binding.origins.bytes,
    optionBytes FixedWords.bytes 16 binding.parentRecord, binding.startupGate.bytes,
    optionBytes directoryBytes 96 binding.createdDirectories, binding.originsNonce.val, zeros 96]

def sizes : List Nat :=
  [8, 1, 1, 1, 5, 16, 16, 16, 16, 16, 16, 16, 32, 32, 16, 16, 16, 16, 96, 32, 96]

def readDirectories (b : List UInt8)
    : WorkspaceDirectoryIncarnation × WorkspaceDirectoryIncarnation :=
  ({ identity := readId b 256, nonce := .read b 288 32 },
    { identity := readId b 272, nonce := .read b 320 32 })

def ofImage (b : List UInt8) : WorkspaceBinding where
  kind := byteAt b 8
  root := readId b 16
  owner := readId b 32
  registry := readId b 48
  parentRoot := readId b 64
  parentCoordination := readId b 80
  parentCohort := readId b 96
  publicationBinding := readId b 112
  nonce := .read b 128 32
  parentNonce := .read b 160 32
  writers := readId b 192
  origins := readId b 208
  parentRecord := readOption (byteAt b 9) (readId b 224)
  startupGate := readId b 240
  createdDirectories := readOption (byteAt b 10) (readDirectories b)
  originsNonce := .read b 352 32

/-- The first kind has created its directories, and the third one has a record of its parent. -/
def Valid (binding : WorkspaceBinding) : Prop :=
  (1 ≤ binding.kind ∧ binding.kind ≤ 3)
  ∧ (binding.kind = 1 → binding.createdDirectories.isSome)
  ∧ (binding.kind = 3 → binding.parentRecord.isSome)

instance : DecidablePred Valid := fun _ =>
  inferInstanceAs (Decidable ((_ ∧ _) ∧ (_ → _) ∧ (_ → _)))

variable (sha256 : List UInt8 → Block 32)

def encode (binding : WorkspaceBinding) : List UInt8 := finish sha256 binding.segments.flatten

def Framed (b : List UInt8) : Prop :=
  b.length = 512
  ∧ slice b 0 8 = magic
  ∧ byteAt b 9 ≤ 1
  ∧ byteAt b 10 ≤ 1
  ∧ isZero (slice b 11 5 ++ slice b 384 96)
  ∧ (byteAt b 10 = 0 → isZero (slice b 256 96))
  ∧ (byteAt b 9 = 0 → isZero (slice b 224 16))
  ∧ (sha256 (b.take 480)).val = b.drop 480

instance : DecidablePred (Framed sha256) := fun _ =>
  inferInstanceAs (Decidable (_ ∧ _ ∧ _ ∧ _ ∧ _ ∧ (_ → _) ∧ (_ → _) ∧ _))

def decode (b : List UInt8) : Except ControlFailure WorkspaceBinding :=
  match decodeFrame (Framed sha256) ofImage Valid b with
  | some binding => .ok binding
  | none => .error .version

variable {sha256}

theorem directoryBytes_length
    (directories : WorkspaceDirectoryIncarnation × WorkspaceDirectoryIncarnation)
    : (directoryBytes directories).length = 96 := by
  simp [directoryBytes]

theorem segments_sized (binding : WorkspaceBinding)
    : binding.segments.map List.length = sizes := by
  simp [segments, sizes, magic, optionBytes_length FixedWords.bytes_length,
    optionBytes_length directoryBytes_length]

theorem segmentsAt_encode (sha256 : List UInt8 → Block 32) (binding : WorkspaceBinding)
    : segmentsAt (binding.encode sha256) 0 sizes = binding.segments :=
  segmentsAt_flatten _ binding.segments_sized

theorem framed_encode (binding : WorkspaceBinding) : Framed sha256 (binding.encode sha256) := by
  have cut := binding.segmentsAt_encode sha256
  simp only [sizes, segmentsAt, segments, List.cons.injEq, Nat.reduceAdd, and_true] at cut
  obtain ⟨magic, -, parentFlag, createdFlag, gap1, -, -, -, -, -, -, -, -, -, -, -, parent, -,
    created, -, gap2⟩ := cut
  have hasParent := byteAt_of_slice parentFlag
  have hasCreated := byteAt_of_slice createdFlag
  refine ⟨finish_length binding.segments_sized rfl, magic, hasParent ▸ optionFlag_le _,
    hasCreated ▸ optionFlag_le _, ?_, ?_, ?_, finish_intact binding.segments_sized rfl⟩
  · simp [isZero_append, gap1, gap2]
  · intro absent
    rw [hasCreated] at absent
    rw [created]
    exact isZero_optionBytes absent
  · intro absent
    rw [hasParent] at absent
    rw [parent]
    exact isZero_optionBytes absent

/-- The two directories are read from the bytes that hold them. -/
theorem readDirectories_of_slice {b : List UInt8}
    {directories : WorkspaceDirectoryIncarnation × WorkspaceDirectoryIncarnation}
    (read : slice b 256 96 = directoryBytes directories)
    : readDirectories b = directories := by
  have sized : [directories.1.identity.bytes, directories.2.identity.bytes,
      directories.1.nonce.val, directories.2.nonce.val].map List.length = [16, 16, 32, 32] := by
    simp
  have inner (offset size : Nat) (inside : offset + size ≤ 96)
      : slice b (256 + offset) size = slice (directoryBytes directories) offset size := by
    rw [← read, slice, slice, slice, List.drop_take, List.take_take, List.drop_drop,
      Nat.min_eq_left (by omega)]
  have first : slice b 256 16 = directories.1.identity.bytes :=
    (inner 0 16 (by decide)).trans (slice_flatten sized 0 rfl rfl rfl)
  have second : slice b 272 16 = directories.2.identity.bytes :=
    (inner 16 16 (by decide)).trans (slice_flatten sized 1 rfl rfl rfl)
  have third : slice b 288 32 = directories.1.nonce.val :=
    (inner 32 32 (by decide)).trans (slice_flatten sized 2 rfl rfl rfl)
  have fourth : slice b 320 32 = directories.2.nonce.val :=
    (inner 64 32 (by decide)).trans (slice_flatten sized 3 rfl rfl rfl)
  rw [readDirectories, readId_of_slice first, readId_of_slice second, Block.read_of_slice third,
    Block.read_of_slice fourth]

theorem directoryBytes_readDirectories {b : List UInt8} (fits : 352 ≤ b.length)
    : directoryBytes (readDirectories b) = slice b 256 96 := by
  have cut := flatten_segmentsAt b 256 [16, 16, 32, 32]
  simp only [segmentsAt, Nat.reduceAdd, List.sum_cons, List.sum_nil] at cut
  rw [← cut, directoryBytes, readDirectories, readId_bytes (by omega), readId_bytes (by omega),
    Block.read_val (by omega), Block.read_val (by omega)]

theorem ofImage_encode (binding : WorkspaceBinding)
    : ofImage (binding.encode sha256) = binding := by
  have cut := binding.segmentsAt_encode sha256
  generalize binding.encode sha256 = b at cut ⊢
  simp only [sizes, segmentsAt, segments, List.cons.injEq, Nat.reduceAdd, and_true] at cut
  obtain ⟨-, kind, parentFlag, createdFlag, -, root, owner, registry, parentRoot,
    parentCoordination, parentCohort, publication, nonce, parentNonce, writers, origins, parent,
    startupGate, created, originsNonce, -⟩ := cut
  have parentRecord : readOption (byteAt b 9) (readId b 224) = binding.parentRecord := by
    rw [byteAt_of_slice parentFlag]
    apply readOption_eq
    intro present same
    rw [same] at parent
    exact readId_of_slice parent
  have directories : readOption (byteAt b 10) (readDirectories b) = binding.createdDirectories := by
    rw [byteAt_of_slice createdFlag]
    apply readOption_eq
    intro present same
    rw [same] at created
    exact readDirectories_of_slice created
  simp only [ofImage, parentRecord, directories, byteAt_of_slice kind, readId_of_slice root,
    readId_of_slice owner, readId_of_slice registry, readId_of_slice parentRoot,
    readId_of_slice parentCoordination, readId_of_slice parentCohort, readId_of_slice publication,
    Block.read_of_slice nonce, Block.read_of_slice parentNonce, readId_of_slice writers,
    readId_of_slice origins, readId_of_slice startupGate, Block.read_of_slice originsNonce]

theorem encode_ofImage (b : List UInt8) (framed : Framed sha256 b)
    : (ofImage b).encode sha256 = b := by
  obtain ⟨length, magic, parentFlag, createdFlag, gaps, noCreated, noParent, intact⟩ := framed
  simp only [isZero_append, Bool.and_eq_true] at gaps
  have fits {size : Nat} (inside : size ≤ 512) : size ≤ b.length := length ▸ inside
  have one (offset : Nat) (inside : offset < 512) : [byteAt b offset] = slice b offset 1 :=
    (slice_one (length ▸ inside)).symm
  have parent : optionBytes FixedWords.bytes 16 (readOption (byteAt b 9) (readId b 224))
      = slice b 224 16 :=
    optionBytes_readOption (slice_length (fits (by decide))) parentFlag noParent
      (fun _ => readId_bytes (fits (by decide)))
  have created : optionBytes directoryBytes 96 (readOption (byteAt b 10) (readDirectories b))
      = slice b 256 96 :=
    optionBytes_readOption (slice_length (fits (by decide))) createdFlag noCreated
      (fun _ => directoryBytes_readDirectories (fits (by decide)))
  have cut : (ofImage b).segments = segmentsAt b 0 sizes := by
    simp only [segments, ofImage, parent, created, optionFlag_readOption parentFlag,
      optionFlag_readOption createdFlag, sizes, segmentsAt, ← magic, one,
      ← slice_of_isZero (fits (by decide)) gaps.1, ← slice_of_isZero (fits (by decide)) gaps.2,
      Block.read_val, readId_bytes, fits, Nat.reduceAdd, Nat.reduceLeDiff, Nat.reduceLT]
  exact finish_of_cut cut intact

theorem decode_toOption
    : (fun b => (decode sha256 b).toOption) = decodeFrame (Framed sha256) ofImage Valid := by
  funext b
  rw [decode]
  cases decodeFrame (Framed sha256) ofImage Valid b <;> rfl

theorem canonical : Canonical Valid (encode sha256) (fun b => (decode sha256 b).toOption) := by
  rw [decode_toOption]
  exact canonical_decodeFrame framed_encode ofImage_encode encode_ofImage

end WorkspaceBinding

end CodebaseGraph.Storage.Maintenance.Records
