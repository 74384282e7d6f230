import CodebaseGraph.Storage.Maintenance.WorkspaceRecords

/-! The state of a workspace (`src/storage/maintenance_controls.rs`). -/

namespace CodebaseGraph.Storage.Maintenance.Records

open CodebaseGraph.Collections
open CodebaseGraph.Storage.Maintenance.Legacy
open CodebaseGraph.Storage.Maintenance.Retirement.RetirementLeaf (readId_bytes)

inductive WorkspacePhase where
  | building
  | needsRecovery
  | ownerTerminal
  | closing
  | quiescent
  | retiring
  | removing
deriving DecidableEq

namespace WorkspacePhase

def byte : WorkspacePhase → UInt8
  | .building => 0
  | .needsRecovery => 1
  | .ownerTerminal => 2
  | .closing => 3
  | .quiescent => 4
  | .retiring => 5
  | .removing => 6

def ofByte : UInt8 → Option WorkspacePhase
  | 0 => some .building
  | 1 => some .needsRecovery
  | 2 => some .ownerTerminal
  | 3 => some .closing
  | 4 => some .quiescent
  | 5 => some .retiring
  | 6 => some .removing
  | _ => none

theorem ofByte_byte (phase : WorkspacePhase) : ofByte phase.byte = some phase := by
  cases phase <;> rfl

theorem byte_of_ofByte {value : UInt8} {phase : WorkspacePhase} (read : ofByte value = some phase)
    : phase.byte = value := by
  unfold ofByte at read
  split at read <;> cases read <;> rfl

/-- The workspace has not reached its end. -/
def unfinished : WorkspacePhase → Bool
  | .building | .needsRecovery => true
  | _ => false

end WorkspacePhase

inductive WorkspaceDisposition where
  | none
  | publishedConsumed
  | abortedNotPublished
deriving DecidableEq

namespace WorkspaceDisposition

def byte : WorkspaceDisposition → UInt8
  | .none => 0
  | .publishedConsumed => 1
  | .abortedNotPublished => 2

def ofByte : UInt8 → Option WorkspaceDisposition
  | 0 => some .none
  | 1 => some .publishedConsumed
  | 2 => some .abortedNotPublished
  | _ => Option.none

theorem ofByte_byte (disposition : WorkspaceDisposition)
    : ofByte disposition.byte = some disposition := by
  cases disposition <;> rfl

theorem byte_of_ofByte {value : UInt8} {disposition : WorkspaceDisposition}
    (read : ofByte value = some disposition)
    : disposition.byte = value := by
  unfold ofByte at read
  split at read <;> cases read <;> rfl

end WorkspaceDisposition

-----------------------------------------------------------------------------------------
-- Creators
-----------------------------------------------------------------------------------------

structure WorkspaceMetadataCreator where
  identity : FixedWords
  operation : Block 32
  len : UInt64
  digest : Block 32
  receipt : Option FixedWords
deriving DecidableEq

namespace WorkspaceMetadataCreator

/-- The bytes behind the flag. -/
def bytes (creator : WorkspaceMetadataCreator) : List UInt8 :=
  [zeros 7, creator.identity.bytes, creator.operation.val, wordBytes creator.len,
    creator.digest.val, [optionFlag creator.receipt], zeros 7,
    optionBytes FixedWords.bytes 16 creator.receipt].flatten

def sizes : List Nat := [7, 16, 32, 8, 32, 1, 7, 16]

def entry (creator : Option WorkspaceMetadataCreator) : List UInt8 :=
  [[optionFlag creator], optionBytes bytes 119 creator].flatten

def ofEntry (e : List UInt8) : Option WorkspaceMetadataCreator :=
  readOption (byteAt e 0)
    { identity := readId e 8
      operation := .read e 24 32
      len := word (e.drop 56)
      digest := .read e 64 32
      receipt := readOption (byteAt e 96) (readId e 104) }

/-- An entry is empty, or its flags are in order and nothing stands in its gaps. -/
def Framed (e : List UInt8) : Prop :=
  (byteAt e 0 = 0 ∧ isZero e)
  ∨ (byteAt e 0 = 1
    ∧ isZero (slice e 1 7 ++ slice e 97 7)
    ∧ byteAt e 96 ≤ 1
    ∧ (byteAt e 96 = 0 → isZero (slice e 104 16)))

instance : DecidablePred Framed := fun _ =>
  inferInstanceAs (Decidable ((_ ∧ _) ∨ (_ ∧ _ ∧ _ ∧ (_ → _))))

theorem bytes_length (creator : WorkspaceMetadataCreator) : creator.bytes.length = 119 := by
  simp [bytes, optionBytes_length FixedWords.bytes_length]

theorem entry_length (creator : Option WorkspaceMetadataCreator)
    : (entry creator).length = 120 := by
  simp [entry, optionBytes_length bytes_length]

theorem flag_entry (creator : Option WorkspaceMetadataCreator)
    : byteAt (entry creator) 0 = optionFlag creator := by
  rfl

/-- The parts of an entry that is not empty. -/
theorem entry_cut (creator : WorkspaceMetadataCreator)
    : segmentsAt (entry (some creator)) 0 (1 :: sizes)
      = [[1], zeros 7, creator.identity.bytes, creator.operation.val, wordBytes creator.len,
        creator.digest.val, [optionFlag creator.receipt], zeros 7,
        optionBytes FixedWords.bytes 16 creator.receipt] := by
  have whole : entry (some creator)
      = [[1], zeros 7, creator.identity.bytes, creator.operation.val, wordBytes creator.len,
        creator.digest.val, [optionFlag creator.receipt], zeros 7,
        optionBytes FixedWords.bytes 16 creator.receipt].flatten ++ [] := by
    simp [entry, optionFlag, optionBytes, bytes]
  rw [whole]
  exact segmentsAt_flatten [] (by simp [sizes, optionBytes_length FixedWords.bytes_length])

theorem ofEntry_entry (creator : Option WorkspaceMetadataCreator)
    : ofEntry (entry creator) = creator := by
  rw [ofEntry, flag_entry]
  apply readOption_eq
  rintro present rfl
  have cut := entry_cut present
  simp only [sizes, segmentsAt, List.cons.injEq, Nat.reduceAdd, and_true] at cut
  obtain ⟨-, -, identity, operation, len, digest, flag, -, receipt⟩ := cut
  have received : readOption (byteAt (entry (some present)) 96) (readId (entry (some present)) 104)
      = present.receipt := by
    rw [byteAt_of_slice flag]
    apply readOption_eq
    intro id same
    rw [same] at receipt
    exact readId_of_slice receipt
  simp only [readId_of_slice identity, word_of_slice len, Block.read_of_slice operation,
    Block.read_of_slice digest, received]

theorem framed_entry (creator : Option WorkspaceMetadataCreator) : Framed (entry creator) := by
  cases creator with
  | none => exact .inl ⟨rfl, isZero_zeros 120⟩
  | some present =>
      have cut := entry_cut present
      simp only [sizes, segmentsAt, List.cons.injEq, Nat.reduceAdd, and_true] at cut
      obtain ⟨-, gap1, -, -, -, -, flag, gap2, receipt⟩ := cut
      have kind := byteAt_of_slice flag
      refine .inr ⟨flag_entry (some present), ?_, kind ▸ optionFlag_le _, ?_⟩
      · simp [isZero_append, gap1, gap2]
      · intro absent
        rw [kind] at absent
        rw [receipt]
        exact isZero_optionBytes absent

theorem entry_ofEntry {e : List UInt8} (length : e.length = 120) (framed : Framed e)
    : entry (ofEntry e) = e := by
  have fits {size : Nat} (inside : size ≤ 120) : size ≤ e.length := length ▸ inside
  have first : slice e 0 1 = [byteAt e 0] := slice_one (by omega)
  have whole : [slice e 0 1, slice e 1 119].flatten = e := by
    have cut := flatten_segmentsAt e 0 [1, 119]
    have all : slice e 0 120 = e := List.take_of_length_le (by rw [List.drop_zero, length])
    exact cut.trans all
  cases framed with
  | inl empty =>
    have none : ofEntry e = none := by
      rw [ofEntry, empty.1]
      rfl
    have zero : e = zeros 120 := by
      apply List.eq_replicate_iff.mpr
      refine ⟨length, ?_⟩
      intro byte member
      simpa using List.all_eq_true.mp empty.2 byte member
    rw [none, zero]
    rfl
  | inr framed =>
    obtain ⟨present, gaps, flag, absent⟩ := framed
    simp only [isZero_append, Bool.and_eq_true] at gaps
    have receipt : optionBytes FixedWords.bytes 16 (readOption (byteAt e 96) (readId e 104))
        = slice e 104 16 :=
      optionBytes_readOption (slice_length (fits (by decide))) flag absent
        (fun _ => readId_bytes (fits (by decide)))
    have some : ofEntry e
        = some
            { identity := readId e 8
              operation := .read e 24 32
              len := word (e.drop 56)
              digest := .read e 64 32
              receipt := readOption (byteAt e 96) (readId e 104) } := if_pos present
    have rest : optionBytes bytes 119 (ofEntry e) = slice e 1 119 := by
      have cut := flatten_segmentsAt e 1 sizes
      have received : slice e 96 1 = [byteAt e 96] := slice_one (by omega)
      simp only [sizes, segmentsAt, Nat.reduceAdd, List.sum_cons, List.sum_nil] at cut
      rw [some, ← cut, optionBytes, bytes]
      simp only [slice_of_isZero (fits (by decide)) gaps.1,
        slice_of_isZero (fits (by decide)) gaps.2, receipt, optionFlag_readOption flag, received,
        wordBytes_word, Block.read_val, readId_bytes, fits, Nat.reduceAdd, Nat.reduceLeDiff]
    rw [entry, rest, some, optionFlag, ← present, ← first]
    exact whole

end WorkspaceMetadataCreator

-----------------------------------------------------------------------------------------
-- States
-----------------------------------------------------------------------------------------

structure WorkspaceControl where
  phase : WorkspacePhase
  disposition : WorkspaceDisposition
  sourceEpoch : UInt64
  admissionEpoch : UInt64
  childGeneration : UInt64
  registered : UInt64
  closed : UInt64
  sealedSource : UInt64
  metadataSeal : Block 32
  metadataCreators : Fin 3 → Option WorkspaceMetadataCreator

namespace WorkspaceControl

def building : WorkspaceControl where
  phase := .building
  disposition := .none
  sourceEpoch := 0
  admissionEpoch := 0
  childGeneration := 0
  registered := 0
  closed := 0
  sealedSource := 0
  metadataSeal := .zero 32
  metadataCreators _ := none

/-- The ASCII codes of `CGWCTL01`. -/
def magic : List UInt8 := [67, 71, 87, 67, 84, 76, 48, 49]

def segments (control : WorkspaceControl) : List (List UInt8) :=
  [magic, [control.phase.byte], [control.disposition.byte], zeros 6,
    wordBytes control.sourceEpoch, wordBytes control.admissionEpoch,
    wordBytes control.childGeneration, wordBytes control.registered, wordBytes control.closed,
    wordBytes control.sealedSource, control.metadataSeal.val]
  ++ List.ofFn (fun place => WorkspaceMetadataCreator.entry (control.metadataCreators place))

def sizes : List Nat := [8, 1, 1, 6, 8, 8, 8, 8, 8, 8, 32, 120, 120, 120]

def encode (control : WorkspaceControl) : List UInt8 := control.segments.flatten

/-- The entry of a creator. -/
def entryAt (b : List UInt8) (place : Fin 3) : List UInt8 := slice b (96 + place.val * 120) 120

def ofImage (b : List UInt8) (phase : WorkspacePhase) (disposition : WorkspaceDisposition)
    : WorkspaceControl where
  phase
  disposition
  sourceEpoch := word (b.drop 16)
  admissionEpoch := word (b.drop 24)
  childGeneration := word (b.drop 32)
  registered := word (b.drop 40)
  closed := word (b.drop 48)
  sealedSource := word (b.drop 56)
  metadataSeal := .read b 64 32
  metadataCreators place := WorkspaceMetadataCreator.ofEntry (entryAt b place)

/-- A workspace is disposed of exactly when it has reached its end, and closes only what it has
registered.
-/
def Valid (control : WorkspaceControl) : Prop :=
  control.closed ≤ control.registered
  ∧ (control.disposition = .none ↔ control.phase.unfinished)

instance : DecidablePred Valid := fun _ => inferInstanceAs (Decidable (_ ∧ (_ ↔ _)))

def decode (b : List UInt8) : Except ControlFailure WorkspaceControl :=
  if b.length ≠ 456 ∨ slice b 0 8 ≠ magic ∨ !isZero (slice b 10 6) then .error .version
  else
    match WorkspacePhase.ofByte (byteAt b 8), WorkspaceDisposition.ofByte (byteAt b 9) with
    | some phase, some disposition =>
        if word (b.drop 48) > word (b.drop 40)
            ∨ (phase.unfinished ∧ disposition ≠ .none)
            ∨ (!phase.unfinished ∧ disposition = .none) then
          .error .sequence
        else if ∀ place, WorkspaceMetadataCreator.Framed (entryAt b place) then
          .ok (ofImage b phase disposition)
        else
          .error .version
    | _, _ => .error .version

theorem entries_eq (f : Fin 3 → List UInt8) : List.ofFn f = [f 0, f 1, f 2] := by
  rfl

theorem segments_sized (control : WorkspaceControl)
    : control.segments.map List.length = sizes := by
  simp [segments, sizes, magic, WorkspaceMetadataCreator.entry_length]

theorem segmentsAt_encode (control : WorkspaceControl)
    : segmentsAt control.encode 0 sizes = control.segments := by
  have cut := segmentsAt_flatten [] control.segments_sized
  rw [List.append_nil] at cut
  exact cut

theorem encode_length (control : WorkspaceControl) : control.encode.length = 456 := by
  rw [encode, List.length_flatten, segments_sized]
  rfl

/-- The check of a state is the one of its image. -/
theorem sequence_iff (b : List UInt8) (phase : WorkspacePhase) (disposition : WorkspaceDisposition)
    : ¬ (word (b.drop 48) > word (b.drop 40)
        ∨ (phase.unfinished ∧ disposition ≠ .none)
        ∨ (!phase.unfinished ∧ disposition = .none))
      ↔ (ofImage b phase disposition).Valid := by
  have bound : ¬ word (b.drop 48) > word (b.drop 40)
      ↔ word (b.drop 48) ≤ word (b.drop 40) := UInt64.not_lt
  rw [not_or, bound, Valid]
  apply and_congr_right
  intro _
  change _ ↔ (disposition = .none ↔ phase.unfinished = true)
  cases phase.unfinished <;> simp

theorem decode_encode (control : WorkspaceControl) (valid : control.Valid)
    : decode control.encode = .ok control := by
  have length := control.encode_length
  have cut := control.segmentsAt_encode
  generalize control.encode = b at cut length ⊢
  simp only [sizes, segmentsAt, segments, entries_eq, List.cons_append, List.nil_append,
    List.cons.injEq, Nat.reduceAdd, and_true] at cut
  obtain ⟨magic, phase, disposition, gap, sourceEpoch, admissionEpoch, childGeneration, registered,
    closed, sealedSource, metadataSeal, entry0, entry1, entry2⟩ := cut
  have entries : ∀ place,
      entryAt b place = WorkspaceMetadataCreator.entry (control.metadataCreators place) := by
    intro place
    fin_cases place <;> assumption
  have read : ofImage b control.phase control.disposition = control := by
    simp only [ofImage, word_of_slice sourceEpoch, word_of_slice admissionEpoch,
      word_of_slice childGeneration, word_of_slice registered, word_of_slice closed,
      word_of_slice sealedSource, Block.read_of_slice metadataSeal, entries,
      WorkspaceMetadataCreator.ofEntry_entry]
  have framed : ∀ place, WorkspaceMetadataCreator.Framed (entryAt b place) := by
    intro place
    rw [entries]
    exact WorkspaceMetadataCreator.framed_entry _
  have sound : ¬ (b.length ≠ 456 ∨ slice b 0 8 ≠ WorkspaceControl.magic
      ∨ (!isZero (slice b 10 6)) = true) := by
    simp [length, magic, gap]
  have ordered := (sequence_iff b control.phase control.disposition).mpr (read ▸ valid)
  rw [decode, if_neg sound, byteAt_of_slice phase, byteAt_of_slice disposition,
    WorkspacePhase.ofByte_byte, WorkspaceDisposition.ofByte_byte]
  dsimp only
  rw [if_neg ordered, if_pos framed, read]

theorem encode_decode {b : List UInt8} {control : WorkspaceControl}
    (read : decode b = .ok control) : control.Valid ∧ control.encode = b := by
  unfold decode at read
  split at read
  · cases read
  · next sound =>
    simp only [not_or, not_not, Bool.not_eq_true', Bool.not_eq_false] at sound
    obtain ⟨length, magic, gap⟩ := sound
    split at read
    · next phase disposition phaseRead dispositionRead =>
      split at read
      · cases read
      · next ordered =>
        split at read
        · next framed =>
          cases read
          refine ⟨(sequence_iff b phase disposition).mp ordered, ?_⟩
          have fits {size : Nat} (inside : size ≤ 456) : size ≤ b.length := length ▸ inside
          have entry (place : Fin 3)
              : WorkspaceMetadataCreator.entry
                  (WorkspaceMetadataCreator.ofEntry (entryAt b place)) = entryAt b place := by
            apply WorkspaceMetadataCreator.entry_ofEntry _ (framed place)
            have small := place.isLt
            exact slice_length (by omega)
          have phaseByte : [phase.byte] = slice b 8 1 := by
            rw [WorkspacePhase.byte_of_ofByte phaseRead]
            exact (slice_one (fits (by decide))).symm
          have dispositionByte : [disposition.byte] = slice b 9 1 := by
            rw [WorkspaceDisposition.byte_of_ofByte dispositionRead]
            exact (slice_one (fits (by decide))).symm
          have cut : (ofImage b phase disposition).segments = segmentsAt b 0 sizes := by
            simp only [segments, ofImage, entries_eq, entry, phaseByte, dispositionByte, sizes,
              segmentsAt, ← magic, ← slice_of_isZero (fits (by decide)) gap, wordBytes_word,
              Block.read_val, fits, Nat.reduceAdd, Nat.reduceLeDiff, List.cons_append,
              List.nil_append]
            rfl
          rw [encode, flatten_of_cut cut]
          exact List.take_of_length_le (le_of_eq length)
        · cases read
    · cases read

theorem canonical : Canonical Valid encode (fun b => (decode b).toOption) :=
  canonical_of_except decode_encode (fun _ _ read => encode_decode read)

end WorkspaceControl

end CodebaseGraph.Storage.Maintenance.Records
