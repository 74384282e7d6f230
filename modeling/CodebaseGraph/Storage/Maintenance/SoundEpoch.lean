import CodebaseGraph.Storage.Maintenance.EpochStamp
import Mathlib.Data.Countable.Basic
import Mathlib.Logic.Equiv.List
import Mathlib.Tactic.DeriveCountable

/-! What the reference epoch promises of every run: an observed epoch is applied only when nobody
began or was active since, and it is applied once.
-/

namespace CodebaseGraph.Storage.Maintenance

open CodebaseGraph.Collections CodebaseGraph.Concurrency CodebaseGraph.Crash
open CodebaseGraph.Transition

variable {functions : EpochFunctions} {files : RootFiles} {world : EpochWorld} {index : Nat}

-----------------------------------------------------------------------------------------
-- Every run
-----------------------------------------------------------------------------------------

theorem keptByCounting_true : KeptByCounting (fun _ => True) := fun _ _ => trivial

theorem stampInvariant_of_run (sound : functions.Sound) {file : Bytes}
    {trace : List EpochEvent} (run : Run (epochStep functions files) { file } trace world)
    : StampInvariant functions (fun _ => True) (fun _ => True) world := by
  have initial : StampInvariant functions (fun _ => True) (fun _ => True) { file } := {
    locks := locksHeld_nil,
    writes there := by cases there
    settled _ _ _ := trivial
    advancing there := by cases there
  }
  exact run.invariant initial
    (fun holds taken => holds.step sound keptByCounting_true (fun _ => trivial) taken)

/-- The record a fresh domain starts with. -/
def freshEpochRecord (files : RootFiles) (scope : ReferenceScopeRecord) (incarnation : Bytes)
    : ReferenceEpochRecord :=
  {
    version := 2,
    root := files.root,
    useLock := files.useLock,
    useIncarnation := files.useIncarnation,
    cohort := files.cohort,
    scope,
    incarnation,
    activity := files.activity,
    serial := files.serial,
    counter := 0,
    covered := true
  }

/-- The records that differ in the counter and the coverage alone. -/
def CountedFrom (fresh record : ReferenceEpochRecord) : Prop :=
  { record with counter := fresh.counter, covered := fresh.covered } = fresh

theorem countedFrom_kept (fresh : ReferenceEpochRecord) : KeptByCounting (CountedFrom fresh) := by
  intro record counted mismatch from_fresh counts
  simp only [countedRecord, Option.map_eq_some_iff] at counts
  obtain ⟨counter, _, rfl⟩ := counts
  exact from_fresh

/-- What the epoch promises of the runs from the file of a fresh record. -/
structure SoundStamp (functions : EpochFunctions) (files : RootFiles)
    (fresh : ReferenceEpochRecord) (file : Bytes)
    : Prop where
  /-- While an observed epoch is applied, nobody was active where it was observed, and since
  then nobody has begun or been active.
  -/
  unused
    : ∀ {earlier first second : List EpochEvent} {observing after mid world : EpochWorld}
        {action : EpochAction} {epoch : ReferenceEpochRecord} {index : Nat},
        Run (epochStep functions files) { file } earlier observing
        → epochStep functions files observing action = some (.observed epoch, after)
        → Run (epochStep functions files) after first mid
        → Run (epochStep functions files) mid second world
        → world.parties[index]? = some (.admission epoch .applying)
        → NoneActive observing
          ∧ NoneActive mid
          ∧ ∀ producer, EpochEvent.began producer ∉ first ++ second
  /-- While nobody writes, the counter of the stored record never goes back. -/
  grows
    : ∀ {earlier later : List EpochEvent} {mid world : EpochWorld}
        {record record' : ReferenceEpochRecord},
        Run (epochStep functions files) { file } earlier mid
        → Run (epochStep functions files) mid later world
        → (∀ party ∈ mid.parties, party.write? = none)
        → (∀ party ∈ world.parties, party.write? = none)
        → readReferenceEpoch functions mid.file = some record
        → readReferenceEpoch functions world.file = some record'
        → record.counter ≤ record'.counter
  /-- While nobody writes, the stored record is the fresh one, counted on, or unreadable. -/
  genuine
    : ∀ {trace : List EpochEvent} {world : EpochWorld} {record : ReferenceEpochRecord},
        Run (epochStep functions files) { file } trace world
        → (∀ party ∈ world.parties, party.write? = none)
        → readReferenceEpoch functions world.file = some record
        → CountedFrom fresh record
  /-- An epoch is applied once. -/
  once
    : ∀ {before after : List EpochEvent} {epoch : ReferenceEpochRecord} {world : EpochWorld},
        Run (epochStep functions files) { file } (before ++ .applies epoch :: after) world
        → EpochEvent.applies epoch ∉ after

/-- A past epoch is not being applied. -/
theorem StampInvariant.not_applying {epoch : ReferenceEpochRecord}
    (past : StampInvariant functions (Past epoch) (Past epoch) world)
    : world.parties[index]? ≠ some (.admission epoch .applying) := by
  intro applying
  obtain ⟨covered, claims, _⟩ := past.advancing applying rfl
  rcases claims with later | missed
  · exact Nat.lt_irrefl _ later
  · rw [covered] at missed
    cases missed

theorem Since.run (sound : functions.Sound) {epoch : ReferenceEpochRecord}
    {first second : List EpochEvent} {mid : EpochWorld}
    (since : Since functions epoch first mid)
    (run : Run (epochStep functions files) mid second world)
    : Since functions epoch (first ++ second) world := by
  refine run.history_induction
    (motive := fun trace world => Since functions epoch (first ++ trace) world) ?_ ?_
  · rw [List.append_nil]
    exact since
  · intro trace middle action event last _ since taken
    rw [← List.append_assoc]
    exact since.step sound taken

/-- An observer sees an epoch, and an admission takes its locks, counts and applies it. -/
def observeThenApply (epoch : ReferenceEpochRecord) : List EpochAction :=
  [
    .arrive (.observer epoch.scope .started), .advance 0 true, .advance 0 true,
    .arrive (.admission epoch .started), .advance 1 true, .advance 1 true, .advance 1 true,
    .advance 1 true, .advance 1 true, .write 1 referenceEpochSize, .advance 1 true
  ]

theorem observeThenApply_run (files : RootFiles) (sound : functions.Sound) {epoch counted : ReferenceEpochRecord}
    (version : epoch.version = 2) (covered : epoch.covered = true)
    (here : epochRootMatches files epoch = true)
    (counts : countedRecord epoch false = some counted) {before after : Bytes}
    (encoded : encodeReferenceEpoch functions epoch = some before)
    (encoded' : encodeReferenceEpoch functions counted = some after)
    : ∃ trace world,
        Run (epochStep functions files) { file := before } trace world
        ∧ EpochEvent.observed epoch ∈ trace
        ∧ EpochEvent.applies epoch ∈ trace := by
  have stored := readReferenceEpoch_encode sound version encoded
  have size := encodeReferenceEpoch_length sound encoded
  have size' := encodeReferenceEpoch_length sound encoded'
  have whole : overwritten before after referenceEpochSize = after :=
    overwritten_of_length_le (size.trans size'.symm) (Nat.le_of_eq size')
  have frame : prepareCanonicalEpochFrame functions epoch = some (before, after) := by
    simp [prepareCanonicalEpochFrame, covered, version, counts, encoded, encoded']
  have observes : observeReferenceEpoch functions files epoch.scope true before = some epoch := by
    simp [observeReferenceEpoch, stored, here, covered]
  have executed
      : execute (epochStep functions files) { file := before } (observeThenApply epoch)
        = some
          (
            [.quiet, .quiet, .observed epoch, .quiet, .quiet, .quiet, .quiet, .quiet, .quiet,
              .quiet, .applies epoch],
            {
              file := after,
              parties := [.observer epoch.scope .ended, .admission epoch .applying]
            }
          ) := by
    simp [observeThenApply, execute, epochStep, advanceParty, admits, EpochParty.isNew, observes,
      frame, here, EpochParty.write?, EpochParty.wrote, whole]
  exact ⟨_, _, .of_execute _ executed, by simp, by simp⟩

/-- The epoch is a sound version stamp. Witness: the stored record is not before an observed
epoch, and past it once a producer has begun or the epoch is applied.
-/
theorem referenceEpoch_sound (sound : functions.Sound) (files : RootFiles)
    {scope : ReferenceScopeRecord} {incarnation file : Bytes}
    (created
      : encodeReferenceEpoch functions (freshEpochRecord files scope incarnation) = some file)
    : SoundStamp functions files (freshEpochRecord files scope incarnation) file where
  unused {earlier first second observing after mid world action epoch index} reached taken during
      rest applying := by
    have holds := stampInvariant_of_run sound reached
    obtain ⟨inactive, since⟩ :=
      holds.observed sound keptByCounting_true (fun _ => trivial) taken
    have middle := since.run sound during
    have last := middle.run sound rest
    have unbegun : ∀ producer, EpochEvent.began producer ∉ first ++ second := by
      rcases last.begun with ⟨unbegun, _⟩ | past
      · exact unbegun
      · exact absurd applying past.not_applying
    refine ⟨inactive, ?_, unbegun⟩
    rcases middle.begun with ⟨_, inactive⟩ | past
    · exact inactive
    · have still : StampInvariant functions (Past epoch) (Past epoch) world :=
        rest.invariant past (fun holds taken => holds.step sound (past_kept epoch) id taken)
      exact absurd applying still.not_applying
  grows {earlier later mid world record record'} reached continued idle idle' stored stored' := by
    have holds := stampInvariant_of_run sound reached
    have from_here : StampInvariant functions (NotBefore record) (fun _ => True) mid := by
      refine holds.reset idle ?_ ?_
      · intro other there
        obtain rfl := Option.some.inj (stored.symm.trans there)
        exact Nat.le_refl _
      · intro party inside epoch advances
        obtain ⟨position, there⟩ := List.getElem?_of_mem inside
        exact ⟨(holds.advancing there advances).1, trivial⟩
    have kept : StampInvariant functions (NotBefore record) (fun _ => True) world :=
      continued.invariant from_here
        (fun holds taken => holds.step sound (notBefore_kept record) (fun _ => trivial) taken)
    exact kept.settled idle' record' stored'
  genuine {trace world record} run idle stored := by
    generalize same : freshEpochRecord files scope incarnation = fresh at created
    have version : fresh.version = 2 := by rw [← same]; rfl
    have initial : StampInvariant functions (CountedFrom fresh) (fun _ => True) { file } := {
      locks := locksHeld_nil,
      writes there := by cases there
      settled _ first there := by
        rw [readReferenceEpoch_encode sound version created] at there
        obtain rfl := Option.some.inj there
        rfl
      advancing there := by cases there
    }
    have holds : StampInvariant functions (CountedFrom fresh) (fun _ => True) world :=
      run.invariant initial
        (fun holds taken => holds.step sound (countedFrom_kept fresh) (fun _ => trivial) taken)
    exact holds.settled idle record stored
  once {before after epoch world} run again := by
    obtain ⟨mid, action, next, reached, taken, rest⟩ := run.split_at
    have holds := stampInvariant_of_run sound reached
    obtain ⟨_, covered, past⟩ := holds.applied sound keptByCounting_true (fun _ => trivial) taken
    obtain ⟨first, second, rfl⟩ := List.append_of_mem again
    obtain ⟨mid', action', next', between, taken', _⟩ := rest.split_at
    have still : StampInvariant functions (Past epoch) (fun _ => True) mid' :=
      between.invariant past
        (fun holds taken => holds.step sound (past_kept epoch) (fun _ => trivial) taken)
    obtain ⟨claims, _, _⟩ := still.applied sound (past_kept epoch) (fun _ => trivial) taken'
    rcases claims with later | missed
    · exact Nat.lt_irrefl _ later
    · rw [covered] at missed
      cases missed

-----------------------------------------------------------------------------------------
-- A domain
-----------------------------------------------------------------------------------------

def ascii (text : String) : Bytes := text.toList.map (fun letter => UInt8.ofNat letter.toNat)

def numberJson (value : Nat) : Bytes :=
  (Nat.toDigits 10 value).map (fun digit => UInt8.ofNat digit.toNat)

def arrayJson (elements : List Bytes) : Bytes :=
  ascii "[" ++ [UInt8.ofNat 44].intercalate elements ++ ascii "]"

def identityJson (identity : FileIdentity) : Bytes :=
  ascii "\x7b\"volume\":" ++ numberJson identity.volume
    ++ ascii ",\"index\":" ++ numberJson identity.index ++ ascii "\x7d"

def optionJson (identity : Option FileIdentity) : Bytes :=
  identity.elim (ascii "null") identityJson

def bytesJson (bytes : Bytes) : Bytes := arrayJson (bytes.map (fun byte => numberJson byte.toNat))

def scopeJson (scope : ReferenceScopeRecord) : Bytes :=
  ascii "\x7b\"kind\":" ++ numberJson scope.kind
    ++ ascii ",\"destination\":" ++ identityJson scope.destination
    ++ ascii ",\"writer\":" ++ identityJson scope.writer
    ++ ascii ",\"address\":" ++ bytesJson scope.address
    ++ ascii ",\"reference_roots\":"
    ++ arrayJson [optionJson scope.referenceRoots.1, optionJson scope.referenceRoots.2]
    ++ ascii "\x7d"

def epochJson (record : ReferenceEpochRecord) : Bytes :=
  ascii "\x7b\"version\":" ++ numberJson record.version
    ++ ascii ",\"root\":" ++ identityJson record.root
    ++ ascii ",\"use_lock\":" ++ identityJson record.useLock
    ++ ascii ",\"use_incarnation\":" ++ bytesJson record.useIncarnation
    ++ ascii ",\"cohort\":" ++ identityJson record.cohort
    ++ ascii ",\"scope\":" ++ scopeJson record.scope
    ++ ascii ",\"incarnation\":" ++ bytesJson record.incarnation
    ++ ascii ",\"activity\":" ++ identityJson record.activity
    ++ ascii ",\"serial\":" ++ identityJson record.serial
    ++ ascii ",\"counter\":" ++ numberJson record.counter
    ++ ascii ",\"covered\":" ++ ascii (if record.covered then "true" else "false")
    ++ ascii "\x7d"

def domainFiles : RootFiles :=
  {
    root := { volume := 1, index := 2 },
    useLock := { volume := 1, index := 3 },
    useIncarnation := List.replicate 32 0,
    cohort := { volume := 1, index := 4 },
    activity := { volume := 1, index := 8 },
    serial := { volume := 1, index := 9 }
  }

def domainScope : ReferenceScopeRecord :=
  {
    kind := 1,
    destination := { volume := 1, index := 5 },
    writer := { volume := 1, index := 6 },
    address := List.replicate 32 0,
    referenceRoots := (none, some { volume := 1, index := 7 })
  }

def domainEpoch (counter : Nat) : ReferenceEpochRecord :=
  { freshEpochRecord domainFiles domainScope (List.replicate 32 0) with counter }

instance countableUInt8 : Countable UInt8 := Function.Injective.countable (fun _ _ same => UInt8.toNat_inj.mp same)

deriving instance Countable for FileIdentity, ReferenceScopeRecord, ReferenceEpochRecord

/-- The JSON text of the first two records of the domain, and some text for every other one. -/
noncomputable def domainJson (record : ReferenceEpochRecord) : Bytes :=
  if record = domainEpoch 0 ∨ record = domainEpoch 1 then epochJson record
  else 33 :: List.replicate (Classical.choose (exists_injective_nat ReferenceEpochRecord) record) 0

open Classical in
/-- Serialisation and SHA-256, as they are on the first two records of the domain. -/
noncomputable def domainFunctions : EpochFunctions where
  recordJson := domainJson
  recordOfJson bytes :=
    if known : ∃ record, domainJson record = bytes then some known.choose else none
  sha256 bytes :=
    if bytes = epochBody (epochJson (domainEpoch 0)) then
      [49, 14, 93, 225, 183, 123, 44, 85, 146, 66, 9, 250, 210, 131, 213, 253, 39, 193,
        183, 75, 29, 97, 186, 55, 154, 174, 84, 245, 55, 243, 147, 33]
    else if bytes = epochBody (epochJson (domainEpoch 1)) then
      [40, 193, 52, 189, 20, 187, 116, 197, 144, 203, 132, 103, 185, 1, 153, 173, 240, 203,
        1, 21, 40, 93, 54, 176, 233, 139, 123, 70, 207, 214, 19, 213]
    else List.replicate 32 0

theorem epochJson_head (record : ReferenceEpochRecord) : (epochJson record).head? = some 123 := by
  have opened : (ascii "\x7b\"version\":").head? = some 123 := by decide
  have started (rest : Bytes) : (ascii "\x7b\"version\":" ++ rest).head? = some 123 := by
    rw [List.head?_append, opened, Option.some_or]
  unfold epochJson
  simp only [List.append_assoc]
  exact started _

theorem domainJson_injective : Function.Injective domainJson := by
  have texts : epochJson (domainEpoch 0) ≠ epochJson (domainEpoch 1) := by decide +kernel
  have apart (record : ReferenceEpochRecord) (rest : Bytes) : epochJson record ≠ 33 :: rest := by
    intro same
    have head := epochJson_head record
    rw [same] at head
    cases head
  intro first second same
  unfold domainJson at same
  split at same
  · next known =>
      split at same
      · next known' =>
          rcases known with rfl | rfl <;> rcases known' with rfl | rfl
          · rfl
          · exact absurd same texts
          · exact absurd same.symm texts
          · rfl
      · exact absurd same (apart _ _)
  · split at same
    · exact absurd same.symm (apart _ _)
    · have codes := congrArg List.length (List.cons.inj same).2
      rw [List.length_replicate, List.length_replicate] at codes
      exact Classical.choose_spec (exists_injective_nat ReferenceEpochRecord) codes

theorem domainFunctions_sound : domainFunctions.Sound where
  lossless record := by
    have known : ∃ other, domainJson other = domainJson record := ⟨record, rfl⟩
    exact (dif_pos known).trans (congrArg some (domainJson_injective known.choose_spec))
  digestSize bytes := by
    simp only [domainFunctions]
    split
    · rfl
    · split <;> rfl

theorem domainFunctions_encode {counter : Nat} (known : counter = 0 ∨ counter = 1)
    : ∃ bytes, encodeReferenceEpoch domainFunctions (domainEpoch counter) = some bytes := by
  have fits : ¬(epochJson (domainEpoch counter)).length > referenceEpochSize - 44 := by
    rcases known with rfl | rfl <;> decide +kernel
  have text : domainFunctions.recordJson (domainEpoch counter) = epochJson (domainEpoch counter) := by
    refine if_pos ?_
    rcases known with rfl | rfl
    · exact Or.inl rfl
    · exact Or.inr rfl
  exact ⟨_, by simp only [encodeReferenceEpoch, text, if_neg fits]; rfl⟩

theorem referenceEpoch_sound_domain
    : ∃ file trace world,
        SoundStamp domainFunctions domainFiles (domainEpoch 0) file
        ∧ Run (epochStep domainFunctions domainFiles) { file } trace world
        ∧ EpochEvent.observed (domainEpoch 0) ∈ trace
        ∧ EpochEvent.applies (domainEpoch 0) ∈ trace := by
  obtain ⟨file, created⟩ := domainFunctions_encode (Or.inl rfl)
  obtain ⟨after, encoded⟩ := domainFunctions_encode (Or.inr rfl)
  obtain ⟨trace, world, run, observed, applied⟩ :=
    observeThenApply_run domainFiles domainFunctions_sound rfl rfl rfl rfl created encoded
  exact ⟨file, trace, world, referenceEpoch_sound domainFunctions_sound domainFiles created, run,
    observed, applied⟩

end CodebaseGraph.Storage.Maintenance
