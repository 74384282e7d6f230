import CodebaseGraph.Basic
import CodebaseGraph.Collections.Layout
import CodebaseGraph.Concurrency.FileLocks
import CodebaseGraph.Crash.Program
import CodebaseGraph.Transition.Runs

/-! The reference epoch record (`src/storage/maintenance_ownership.rs`): which root it is about,
how many producers began there, and whether all of them were seen. The record has a fixed size
and ends in its checksum.
-/

namespace CodebaseGraph.Storage.Maintenance

open CodebaseGraph.Collections

abbrev Bytes := List UInt8

-- Records

structure FileIdentity where
  volume : Nat
  index : Nat
deriving DecidableEq, Repr

structure ReferenceScopeRecord where
  kind : Nat
  destination : FileIdentity
  writer : FileIdentity
  address : Bytes
  referenceRoots : Option FileIdentity × Option FileIdentity
deriving DecidableEq, Repr

structure ReferenceEpochRecord where
  version : Nat
  root : FileIdentity
  useLock : FileIdentity
  useIncarnation : Bytes
  cohort : FileIdentity
  scope : ReferenceScopeRecord
  incarnation : Bytes
  activity : FileIdentity
  serial : FileIdentity
  counter : Nat
  covered : Bool
deriving DecidableEq, Repr

-----------------------------------------------------------------------------------------
-- Encoding
-----------------------------------------------------------------------------------------

def referenceEpochSize : Nat := 2048

/-- The ASCII codes of `CGRFE001`. -/
def referenceEpochMagic : Bytes := [67, 71, 82, 70, 69, 48, 48, 49]

/-- The JSON text of a record and the hash. -/
structure EpochFunctions where
  recordJson : ReferenceEpochRecord → Bytes
  recordOfJson : Bytes → Option ReferenceEpochRecord
  sha256 : Bytes → Bytes

/-- JSON gives a record back, and a digest has its size. -/
structure EpochFunctions.Sound (functions : EpochFunctions) : Prop where
  lossless : ∀ record, functions.recordOfJson (functions.recordJson record) = some record
  digestSize : ∀ bytes, (functions.sha256 bytes).length = 32

variable (functions : EpochFunctions)

/-- The record before its checksum. -/
def epochBody (payload : Bytes) : Bytes :=
  referenceEpochMagic ++ littleEndian 4 payload.length ++ payload
    ++ List.replicate (referenceEpochSize - 44 - payload.length) 0

def encodeReferenceEpoch (record : ReferenceEpochRecord) : Option Bytes :=
  let payload := functions.recordJson record
  if payload.length > referenceEpochSize - 44 then none
  else some (epochBody payload ++ functions.sha256 (epochBody payload))

def readReferenceEpoch (bytes : Bytes) : Option ReferenceEpochRecord :=
  let length := number ((bytes.drop 8).take 4)
  if bytes.length ≠ referenceEpochSize then none
  else if bytes.take 8 ≠ referenceEpochMagic
      ∨ length > referenceEpochSize - 44
      ∨ functions.sha256 (bytes.take (referenceEpochSize - 32))
        ≠ bytes.drop (referenceEpochSize - 32) then
    none
  else
    match functions.recordOfJson ((bytes.drop 12).take length) with
    | none => none
    | some record => if record.version ≠ 2 then none else some record

variable {functions}

theorem epochBody_length {payload : Bytes} (fits : payload.length ≤ referenceEpochSize - 44)
    : (epochBody payload).length = referenceEpochSize - 32 := by
  simp only [epochBody, referenceEpochMagic, List.length_append, littleEndian_length,
    List.length_replicate, List.length_cons, List.length_nil]
  simp only [referenceEpochSize] at fits ⊢
  omega

theorem encodeReferenceEpoch_length (sound : functions.Sound) {record : ReferenceEpochRecord}
    {bytes : Bytes} (encoded : encodeReferenceEpoch functions record = some bytes)
    : bytes.length = referenceEpochSize := by
  simp only [encodeReferenceEpoch] at encoded
  split at encoded
  · cases encoded
  · next fits =>
      obtain rfl := Option.some.inj encoded
      rw [List.length_append, epochBody_length (Nat.le_of_not_gt fits), sound.digestSize]
      rfl

/-- A record that was written is read back. -/
theorem readReferenceEpoch_encode (sound : functions.Sound) {record : ReferenceEpochRecord}
    (version : record.version = 2) {bytes : Bytes}
    (encoded : encodeReferenceEpoch functions record = some bytes)
    : readReferenceEpoch functions bytes = some record := by
  have size := encodeReferenceEpoch_length sound encoded
  simp only [encodeReferenceEpoch] at encoded
  split at encoded
  · cases encoded
  · next long =>
      have fits := Nat.le_of_not_gt long
      obtain rfl := Option.some.inj encoded
      generalize payloadOf : functions.recordJson record = payload at fits size
      have bodySize := epochBody_length fits
      have body : (epochBody payload ++ functions.sha256 (epochBody payload)).take
            (referenceEpochSize - 32)
          = epochBody payload := by
        rw [← bodySize, List.take_left]
      have checksum : (epochBody payload ++ functions.sha256 (epochBody payload)).drop
            (referenceEpochSize - 32)
          = functions.sha256 (epochBody payload) := by
        rw [← bodySize, List.drop_left]
      have length
          : number (((epochBody payload ++ functions.sha256 (epochBody payload)).drop 8).take 4)
            = payload.length := by
        have bytes
            : ((epochBody payload ++ functions.sha256 (epochBody payload)).drop 8).take 4
              = littleEndian 4 payload.length := by
          simp only [epochBody, referenceEpochMagic, List.append_assoc, List.cons_append,
            List.nil_append, List.drop_succ_cons, List.drop_zero]
          exact List.take_left' (littleEndian_length ..)
        rw [bytes]
        refine number_littleEndian ?_
        simp only [referenceEpochSize] at fits
        omega
      have content
          : ((epochBody payload ++ functions.sha256 (epochBody payload)).drop 12).take
              payload.length
            = payload := by
        have split
            : epochBody payload ++ functions.sha256 (epochBody payload)
              = (referenceEpochMagic ++ littleEndian 4 payload.length)
                ++ (payload
                  ++ (List.replicate (referenceEpochSize - 44 - payload.length) 0
                    ++ functions.sha256 (epochBody payload))) := by
          simp only [epochBody, List.append_assoc]
        rw [split, List.drop_left' (by simp [referenceEpochMagic]), List.take_left]
      have magic
          : (epochBody payload ++ functions.sha256 (epochBody payload)).take 8
            = referenceEpochMagic := by
        simp only [epochBody, List.append_assoc]
        exact List.take_left' rfl
      have parsed : functions.recordOfJson payload = some record := by
        rw [← payloadOf]
        exact sound.lossless record
      simp only [readReferenceEpoch, size, magic, length, body, checksum, content, parsed]
      simp [version, Nat.not_lt.mpr fits]

/-- What is read has the size and the version of a record. -/
theorem readReferenceEpoch_eq_some {bytes : Bytes} {record : ReferenceEpochRecord}
    (found : readReferenceEpoch functions bytes = some record)
    : bytes.length = referenceEpochSize ∧ record.version = 2 := by
  simp only [readReferenceEpoch] at found
  split at found
  · cases found
  · next size =>
      split at found
      · cases found
      · split at found
        · cases found
        · split at found
          · cases found
          · next version =>
              obtain rfl := Option.some.inj found
              exact ⟨by simpa using size, by simpa using version⟩

end CodebaseGraph.Storage.Maintenance

/-! Producers, observers and admissions around the reference epoch
(`src/storage/maintenance_ownership.rs`). A producer counts itself before it works and keeps its
activity lock until it is done; an observer reads the record while no activity is held; an
admission advances the record it was given and applies its effect under the exclusive locks.
-/

namespace CodebaseGraph.Storage.Maintenance

open CodebaseGraph.Collections CodebaseGraph.Concurrency CodebaseGraph.Crash
open CodebaseGraph.Transition

-- Parties

inductive CoordinationLock where
  | writer
  | rootUse
  | activity
  | serial
deriving DecidableEq, Repr

/-- A record file that is being written over. -/
structure EpochWrite where
  before : Bytes
  after : Bytes
  written : Nat
deriving DecidableEq, Repr

inductive ProducerPhase where
  | started
  | rootUseHeld
  | activityHeld
  | serialHeld
  | writing (write : EpochWrite)
  /-- `begin` has returned; the activity is kept until the mutation is dropped. -/
  | active
  | ended
deriving DecidableEq, Repr

inductive ObserverPhase where
  | started
  | activityHeld
  | ended
deriving DecidableEq, Repr

inductive AdmissionPhase where
  | started
  | writerHeld
  | rootUseHeld
  | activityHeld
  | serialHeld
  | writing (write : EpochWrite)
  | applying
  | ended
deriving DecidableEq, Repr

inductive EpochParty where
  /-- `ReferenceMutation::begin`, for a scope when it is in a domain. -/
  | producer (expected : Option ReferenceScopeRecord) (phase : ProducerPhase)
  | observer (scope : ReferenceScopeRecord) (phase : ObserverPhase)
  /-- `with_canonical_epoch_handles` for an epoch observed before. -/
  | admission (expected : ReferenceEpochRecord) (phase : AdmissionPhase)
deriving DecidableEq, Repr

@[simp]
def ProducerPhase.holds : ProducerPhase → CoordinationLock → Option LockMode
  | .rootUseHeld, .rootUse | .activityHeld, .rootUse | .serialHeld, .rootUse
  | .writing _, .rootUse | .active, .rootUse => some .shared
  | .activityHeld, .activity | .serialHeld, .activity | .writing _, .activity
  | .active, .activity => some .shared
  | .serialHeld, .serial | .writing _, .serial => some .exclusive
  | _, _ => none

@[simp]
def ObserverPhase.holds : ObserverPhase → CoordinationLock → Option LockMode
  | .activityHeld, .activity => some .exclusive
  | _, _ => none

@[simp]
def AdmissionPhase.holds : AdmissionPhase → CoordinationLock → Option LockMode
  | .started, _ | .ended, _ => none
  | .writerHeld, .writer => some .exclusive
  | .rootUseHeld, .writer | .rootUseHeld, .rootUse => some .exclusive
  | .activityHeld, .writer | .activityHeld, .rootUse | .activityHeld, .activity =>
      some .exclusive
  | .serialHeld, _ | .writing _, _ | .applying, _ => some .exclusive
  | _, _ => none

@[simp]
def EpochParty.holds : EpochParty → CoordinationLock → Option LockMode
  | .producer _ phase => phase.holds
  | .observer _ phase => phase.holds
  | .admission _ phase => phase.holds

/-- The write a party is in the middle of. -/
def EpochParty.write? : EpochParty → Option EpochWrite
  | .producer _ (.writing write) => some write
  | .admission _ (.writing write) => some write
  | _ => none

/-- A producer that `begin` let work. -/
def EpochParty.isActive : EpochParty → Bool
  | .producer _ .active => true
  | _ => false

/-- The party before its first step. -/
def EpochParty.isNew : EpochParty → Bool
  | .producer _ .started | .observer _ .started | .admission _ .started => true
  | _ => false

/-- The party as its end leaves it, whether it returned or died. -/
def EpochParty.end : EpochParty → EpochParty
  | .producer expected _ => .producer expected .ended
  | .observer scope _ => .observer scope .ended
  | .admission expected _ => .admission expected .ended

-----------------------------------------------------------------------------------------
-- Steps
-----------------------------------------------------------------------------------------

/-- The identities of the files of the artifact root, which nobody replaces. -/
structure RootFiles where
  root : FileIdentity
  useLock : FileIdentity
  useIncarnation : Bytes
  cohort : FileIdentity
  activity : FileIdentity
  serial : FileIdentity
deriving DecidableEq, Repr

/-- Whether a record is about these files. -/
def epochRootMatches (files : RootFiles) (record : ReferenceEpochRecord) : Bool :=
  record.root = files.root
    && record.useLock = files.useLock
    && record.useIncarnation = files.useIncarnation
    && record.cohort = files.cohort
    && record.activity = files.activity
    && record.serial = files.serial

/-- The epoch file and the processes that use it. -/
structure EpochWorld where
  file : Bytes
  parties : List EpochParty := []
deriving DecidableEq, Repr

inductive EpochAction where
  | arrive (party : EpochParty)
  /-- The next step of a party; the flag says whether its domain revalidates. -/
  | advance (index : Nat) (revalidated : Bool)
  /-- A party writes on until so many bytes of its record are written. -/
  | write (index : Nat) (count : Nat)
  /-- A party returns, fails or dies, and its locks are released. -/
  | finish (index : Nat)
deriving DecidableEq, Repr

inductive EpochEvent where
  | quiet
  | began (index : Nat)
  | observed (epoch : ReferenceEpochRecord)
  | applies (epoch : ReferenceEpochRecord)
deriving DecidableEq, Repr

variable (functions : EpochFunctions) (files : RootFiles)

/-- The record a producer writes: one more, and no longer covered when it works elsewhere. -/
def countedRecord (record : ReferenceEpochRecord) (mismatch : Bool)
    : Option ReferenceEpochRecord :=
  (checkedAdd record.counter 1).map
    (fun counter => { record with counter, covered := record.covered && !mismatch })

/-- What a producer does with the record it read; `none` is an error. -/
def producerRead (expected : Option ReferenceScopeRecord) (revalidated : Bool) (file : Bytes)
    : Option (EpochEvent × ProducerPhase) := do
  let record ← readReferenceEpoch functions file
  guard (epochRootMatches files record)
  let mismatch := expected.any (fun scope => !revalidated || record.scope ≠ scope)
  if !record.covered then return (.quiet, .active)
  let counted ← countedRecord record mismatch
  let after ← encodeReferenceEpoch functions counted
  return (.quiet, .writing { before := file, after, written := 0 })

/-- The frame of an admission: the record it expects and the one it writes. -/
def prepareCanonicalEpochFrame (expected : ReferenceEpochRecord) : Option (Bytes × Bytes) := do
  guard (expected.covered && expected.version = 2)
  let counted ← countedRecord expected false
  let before ← encodeReferenceEpoch functions expected
  let after ← encodeReferenceEpoch functions counted
  return (before, after)

/-- What an observer returns, when it is an epoch. -/
def observeReferenceEpoch (scope : ReferenceScopeRecord) (revalidated : Bool) (file : Bytes)
    : Option ReferenceEpochRecord :=
  (readReferenceEpoch functions file).filter
    (fun record =>
      revalidated && epochRootMatches files record && record.scope = scope && record.covered)

/-- Whether a cut write left what was there, what was written, or a record that fails its
checksum.
-/
def cutDetected (write : EpochWrite) (file : Bytes) : Bool :=
  file = write.before || file = write.after || (readReferenceEpoch functions file).isNone

/-- The next step of a party whose locks are granted. -/
def advanceParty (world : EpochWorld) (index : Nat) (revalidated : Bool)
    : EpochParty → Option (EpochEvent × EpochParty)
  | .producer expected phase =>
      let admitted := admits EpochParty.holds world.parties index
      match phase with
      | .started =>
          if admitted .rootUse .shared then some (.quiet, .producer expected .rootUseHeld)
          else none
      | .rootUseHeld =>
          if admitted .activity .shared then some (.quiet, .producer expected .activityHeld)
          else none
      | .activityHeld =>
          if admitted .serial .exclusive then some (.quiet, .producer expected .serialHeld)
          else none
      | .serialHeld =>
          match producerRead functions files expected revalidated world.file with
          | none => none
          | some (_, .active) => some (.began index, .producer expected .active)
          | some (event, phase) => some (event, .producer expected phase)
      | .writing write =>
          -- the whole record is there; the serial lock is released on return
          if referenceEpochSize ≤ write.written then
            some (.began index, .producer expected .active)
          else none
      | .active | .ended => none
  | .observer scope phase =>
      match phase with
      | .started =>
          if admits EpochParty.holds world.parties index .activity .exclusive then
            some (.quiet, .observer scope .activityHeld)
          else none
      | .activityHeld =>
          (observeReferenceEpoch functions files scope revalidated world.file).map
            (fun epoch => (.observed epoch, .observer scope .ended))
      | .ended => none
  | .admission expected phase =>
      let admitted := admits EpochParty.holds world.parties index
      match phase with
      | .started =>
          if admitted .writer .exclusive then some (.quiet, .admission expected .writerHeld)
          else none
      | .writerHeld =>
          if admitted .rootUse .exclusive then some (.quiet, .admission expected .rootUseHeld)
          else none
      | .rootUseHeld =>
          if admitted .activity .exclusive then some (.quiet, .admission expected .activityHeld)
          else none
      | .activityHeld =>
          if admitted .serial .exclusive then some (.quiet, .admission expected .serialHeld)
          else none
      | .serialHeld =>
          match prepareCanonicalEpochFrame functions expected with
          | none => none
          | some (before, after) =>
              -- the exact bytes of the expected epoch, at the files it names
              if epochRootMatches files expected && world.file = before then
                some (.quiet, .admission expected (.writing { before, after, written := 0 }))
              else none
      | .writing write =>
          -- the record is synced and read back before the effect
          if referenceEpochSize ≤ write.written && world.file = write.after then
            some (.applies expected, .admission expected .applying)
          else none
      | .applying | .ended => none

/-- A party with its write further on. -/
def EpochParty.wrote (count : Nat) : EpochParty → EpochParty
  | .producer expected (.writing write) =>
      .producer expected (.writing { write with written := count })
  | .admission expected (.writing write) =>
      .admission expected (.writing { write with written := count })
  | party => party

def epochStep : StepFn EpochWorld EpochAction EpochEvent :=
  fun world action =>
    match action with
    | .arrive party =>
        if party.isNew then some (.quiet, { world with parties := world.parties ++ [party] })
        else none
    | .advance index revalidated =>
        match world.parties[index]? with
        | none => none
        | some party =>
            (advanceParty functions files world index revalidated party).map
              (fun (event, changed) =>
                (event, { world with parties := world.parties.set index changed }))
    | .write index count =>
        match world.parties[index]? with
        | none => none
        | some party =>
            match party.write? with
            | none => none
            | some write =>
                if write.written ≤ count then
                  some
                    (
                      .quiet,
                      {
                        file := overwritten world.file write.after count,
                        parties := world.parties.set index (party.wrote count)
                      }
                    )
                else none
    | .finish index =>
        match world.parties[index]? with
        | none => none
        | some party =>
            if party.write?.all (fun write => cutDetected functions write world.file) then
              some (.quiet, { world with parties := world.parties.set index party.end })
            else none

end CodebaseGraph.Storage.Maintenance
