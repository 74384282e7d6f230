import CodebaseGraph.Storage.Maintenance.ReferenceEpoch

/-! The reference epoch is a sound version stamp. What is true of the stored record and survives
counting stays true of it; after an observation the record is the observed one until a producer
has begun, and from then on no admission finds the observed bytes.
-/

namespace CodebaseGraph.Storage.Maintenance

open CodebaseGraph.Collections CodebaseGraph.Concurrency CodebaseGraph.Crash
open CodebaseGraph.Transition

variable {functions : EpochFunctions} {files : RootFiles}

-----------------------------------------------------------------------------------------
-- Moves
-----------------------------------------------------------------------------------------

/-- The epoch an admission is writing past or applying. -/
def EpochParty.advancing? : EpochParty → Option ReferenceEpochRecord
  | .admission expected (.writing _) | .admission expected .applying => some expected
  | _ => none

/-- What the next step of a party can be. -/
inductive PartyMove (functions : EpochFunctions) (files : RootFiles) (world : EpochWorld)
    (index : Nat)
    : EpochParty → EpochEvent → EpochParty → Prop where
  | locked {party changed} (lock : CoordinationLock) (mode : LockMode)
    (admitted : admits EpochParty.holds world.parties index lock mode = true)
    (idle : party.write? = none ∧ changed.write? = none)
    (waiting : changed.advancing? = none ∧ changed.isActive = false)
    (holding
      : ∀ other held,
          changed.holds other = some held
          → party.holds other = some held ∨ (other = lock ∧ held = mode))
    : PartyMove functions files world index party .quiet changed
  | uncovered {expected record} (found : readReferenceEpoch functions world.file = some record)
    (missed : record.covered = false)
    : PartyMove functions files world index (.producer expected .serialHeld) (.began index)
        (.producer expected .active)
  | counting {expected record counted after} (mismatch : Bool)
    (found : readReferenceEpoch functions world.file = some record)
    (counts : countedRecord record mismatch = some counted)
    (encoded : encodeReferenceEpoch functions counted = some after)
    : PartyMove functions files world index (.producer expected .serialHeld) .quiet
        (.producer expected (.writing { before := world.file, after, written := 0 }))
  | counted {expected write} (whole : referenceEpochSize ≤ write.written)
    : PartyMove functions files world index (.producer expected (.writing write)) (.began index)
        (.producer expected .active)
  | observed {scope epoch} (found : readReferenceEpoch functions world.file = some epoch)
    (covered : epoch.covered = true)
    : PartyMove functions files world index (.observer scope .activityHeld) (.observed epoch)
        (.observer scope .ended)
  | admitting {expected counted after} (covered : expected.covered = true)
    (version : expected.version = 2)
    (counts : countedRecord expected false = some counted)
    (before : encodeReferenceEpoch functions expected = some world.file)
    (encoded : encodeReferenceEpoch functions counted = some after)
    : PartyMove functions files world index (.admission expected .serialHeld) .quiet
        (.admission expected (.writing { before := world.file, after, written := 0 }))
  | applies {expected write} (whole : referenceEpochSize ≤ write.written)
    (there : world.file = write.after)
    : PartyMove functions files world index (.admission expected (.writing write))
        (.applies expected) (.admission expected .applying)

theorem producerRead_cases {expected : Option ReferenceScopeRecord} {revalidated : Bool}
    {file : Bytes} {event : EpochEvent} {phase : ProducerPhase}
    (read : producerRead functions files expected revalidated file = some (event, phase))
    : ∃ record,
        readReferenceEpoch functions file = some record
        ∧ ((record.covered = false ∧ phase = .active)
          ∨ ∃ mismatch counted after,
              countedRecord record mismatch = some counted
              ∧ encodeReferenceEpoch functions counted = some after
              ∧ event = .quiet
              ∧ phase = .writing { before := file, after, written := 0 }) := by
  simp only [producerRead, Option.bind_eq_bind, Option.bind_eq_some_iff] at read
  obtain ⟨record, found, _, _, rest⟩ := read
  refine ⟨record, found, ?_⟩
  split at rest
  · next missed =>
      obtain ⟨_, rfl⟩ := Prod.mk.inj (Option.some.inj rest)
      exact Or.inl ⟨by simpa using missed, rfl⟩
  · obtain ⟨counted, counts, after, encoded, rest⟩ := by
      simpa only [Option.bind_eq_some_iff] using rest
    obtain ⟨rfl, rfl⟩ := Prod.mk.inj (Option.some.inj rest)
    exact Or.inr ⟨_, counted, after, counts, encoded, rfl, rfl⟩

theorem prepareCanonicalEpochFrame_eq_some {expected : ReferenceEpochRecord}
    {before after : Bytes}
    (prepared : prepareCanonicalEpochFrame functions expected = some (before, after))
    : ∃ counted,
        expected.covered = true
        ∧ expected.version = 2
        ∧ countedRecord expected false = some counted
        ∧ encodeReferenceEpoch functions expected = some before
        ∧ encodeReferenceEpoch functions counted = some after := by
  simp only [prepareCanonicalEpochFrame, Option.bind_eq_bind, Option.bind_eq_some_iff] at prepared
  obtain ⟨_, allowed, counted, counts, before', encoded, after', encoded', rest⟩ := prepared
  obtain ⟨rfl, rfl⟩ := Prod.mk.inj (Option.some.inj rest)
  simp only [guard, Bool.and_eq_true, decide_eq_true_eq] at allowed
  split at allowed
  · next both => exact ⟨counted, both.1, both.2, counts, encoded, encoded'⟩
  · cases allowed

theorem PartyMove.of_ite {world : EpochWorld} {index : Nat} {party granted changed : EpochParty}
    {event : EpochEvent} {lock : CoordinationLock} {mode : LockMode}
    (taken
      : (if admits EpochParty.holds world.parties index lock mode = true then
            some (EpochEvent.quiet, granted)
          else none)
        = some (event, changed))
    (idle : party.write? = none ∧ granted.write? = none)
    (waiting : granted.advancing? = none ∧ granted.isActive = false)
    (holding
      : ∀ other held,
          granted.holds other = some held
          → party.holds other = some held ∨ (other = lock ∧ held = mode))
    : PartyMove functions files world index party event changed := by
  obtain ⟨admitted, same⟩ := (Option.ite_none_right_eq_some ..).mp taken
  obtain ⟨rfl, rfl⟩ := Prod.mk.inj (Option.some.inj same)
  exact .locked lock mode admitted idle waiting holding

theorem advanceParty_move {world : EpochWorld} {index : Nat} {revalidated : Bool}
    {party changed : EpochParty} {event : EpochEvent}
    (taken : advanceParty functions files world index revalidated party = some (event, changed))
    : PartyMove functions files world index party event changed := by
  cases party with
  | producer expected phase =>
      cases phase with
      | started =>
          exact .of_ite taken ⟨rfl, rfl⟩ ⟨rfl, rfl⟩ (by rintro (_ | _ | _ | _) (_ | _) <;> simp)
      | rootUseHeld =>
          exact .of_ite taken ⟨rfl, rfl⟩ ⟨rfl, rfl⟩ (by rintro (_ | _ | _ | _) (_ | _) <;> simp)
      | activityHeld =>
          exact .of_ite taken ⟨rfl, rfl⟩ ⟨rfl, rfl⟩ (by rintro (_ | _ | _ | _) (_ | _) <;> simp)
      | serialHeld =>
          simp only [advanceParty] at taken
          split at taken
          · cases taken
          · next event' read =>
              obtain ⟨rfl, rfl⟩ := Prod.mk.inj (Option.some.inj taken)
              obtain ⟨record, found, ⟨missed, _⟩ | ⟨_, _, _, _, _, _, impossible⟩⟩ :=
                producerRead_cases read
              · exact .uncovered found missed
              · cases impossible
          · next event' phase _ read =>
              obtain ⟨rfl, rfl⟩ := Prod.mk.inj (Option.some.inj taken)
              obtain ⟨record, found, ⟨_, same⟩ | ⟨mismatch, counted, after, counts, encoded, rfl, rfl⟩⟩ :=
                producerRead_cases read
              · simp_all
              · exact .counting mismatch found counts encoded
      | writing write =>
          simp only [advanceParty, Option.ite_none_right_eq_some] at taken
          obtain ⟨rfl, rfl⟩ := Prod.mk.inj (Option.some.inj taken.2)
          exact .counted taken.1
      | active => cases taken
      | ended => cases taken
  | observer scope phase =>
      cases phase with
      | started =>
          exact .of_ite taken ⟨rfl, rfl⟩ ⟨rfl, rfl⟩ (by rintro (_ | _ | _ | _) (_ | _) <;> simp)
      | activityHeld =>
          simp only [advanceParty, Option.map_eq_some_iff] at taken
          obtain ⟨epoch, verified, same⟩ := taken
          obtain ⟨rfl, rfl⟩ := Prod.mk.inj same
          obtain ⟨found, passed⟩ := Option.filter_eq_some_iff.mp verified
          simp only [Bool.and_eq_true] at passed
          exact .observed found passed.2
      | ended => cases taken
  | admission expected phase =>
      cases phase with
      | started =>
          exact .of_ite taken ⟨rfl, rfl⟩ ⟨rfl, rfl⟩ (by rintro (_ | _ | _ | _) (_ | _) <;> simp)
      | writerHeld =>
          exact .of_ite taken ⟨rfl, rfl⟩ ⟨rfl, rfl⟩ (by rintro (_ | _ | _ | _) (_ | _) <;> simp)
      | rootUseHeld =>
          exact .of_ite taken ⟨rfl, rfl⟩ ⟨rfl, rfl⟩ (by rintro (_ | _ | _ | _) (_ | _) <;> simp)
      | activityHeld =>
          exact .of_ite taken ⟨rfl, rfl⟩ ⟨rfl, rfl⟩ (by rintro (_ | _ | _ | _) (_ | _) <;> simp)
      | serialHeld =>
          simp only [advanceParty] at taken
          split at taken
          · cases taken
          · next before after prepared =>
              simp only [Option.ite_none_right_eq_some, Bool.and_eq_true, decide_eq_true_eq]
                at taken
              obtain ⟨⟨_, rfl⟩, taken⟩ := taken
              obtain ⟨rfl, rfl⟩ := Prod.mk.inj (Option.some.inj taken)
              obtain ⟨counted, covered, version, counts, encoded, encoded'⟩ :=
                prepareCanonicalEpochFrame_eq_some prepared
              exact .admitting covered version counts encoded encoded'
      | writing write =>
          simp only [advanceParty, Option.ite_none_right_eq_some, Bool.and_eq_true,
            decide_eq_true_eq] at taken
          obtain ⟨⟨whole, there⟩, taken⟩ := taken
          obtain ⟨rfl, rfl⟩ := Prod.mk.inj (Option.some.inj taken)
          exact .applies whole there
      | applying => cases taken
      | ended => cases taken

/-- A party that moves on takes only locks it is granted. -/
theorem PartyMove.granted {world : EpochWorld} {index : Nat}
    {party changed : EpochParty} {event : EpochEvent}
    (move : PartyMove functions files world index party event changed)
    (lock : CoordinationLock) (mode : LockMode) (holding : changed.holds lock = some mode)
    : party.holds lock = some mode
      ∨ admits EpochParty.holds world.parties index lock mode = true := by
  cases move with
  | locked lock' mode' admitted idle waiting held =>
      rcases held lock mode holding with kept | ⟨rfl, rfl⟩
      · exact Or.inl kept
      · exact Or.inr admitted
  | uncovered found missed =>
      cases lock <;> first | exact Or.inl holding | cases holding
  | counting mismatch found counts encoded => exact Or.inl (by cases lock <;> exact holding)
  | counted whole => cases lock <;> first | exact Or.inl holding | cases holding
  | observed found covered => cases holding
  | admitting covered version counts before encoded => exact Or.inl (by cases lock <;> exact holding)
  | applies whole there => exact Or.inl (by cases lock <;> exact holding)

-----------------------------------------------------------------------------------------
-- What survives counting
-----------------------------------------------------------------------------------------

/-- A property of records that counting a producer keeps. -/
def KeptByCounting (property : ReferenceEpochRecord → Prop) : Prop :=
  ∀ {record counted : ReferenceEpochRecord} {mismatch : Bool},
    property record → countedRecord record mismatch = some counted → property counted

/-- A write in progress: the file is the mixture of two records with the property. -/
structure WriteHolds (functions : EpochFunctions) (property : ReferenceEpochRecord → Prop)
    (file : Bytes) (write : EpochWrite)
    : Prop where
  mixture : file = overwritten write.before write.after write.written
  sizes : write.before.length = referenceEpochSize ∧ write.after.length = referenceEpochSize
  counts
    : ∃ old new mismatch,
        readReferenceEpoch functions write.before = some old
        ∧ readReferenceEpoch functions write.after = some new
        ∧ countedRecord old mismatch = some new
        ∧ property old
        ∧ property new

/-- The property holds of whatever record is stored or being written, and what it was claimed
to imply of the epochs that are being applied.
-/
structure StampInvariant (functions : EpochFunctions)
    (property claimed : ReferenceEpochRecord → Prop) (world : EpochWorld)
    : Prop where
  locks : LocksHeld EpochParty.holds world.parties
  writes
    : ∀ {index : Nat} {party : EpochParty} {write : EpochWrite},
        world.parties[index]? = some party
        → party.write? = some write
        → WriteHolds functions property world.file write
  settled
    : (∀ party ∈ world.parties, party.write? = none)
      → ∀ record, readReferenceEpoch functions world.file = some record → property record
  advancing
    : ∀ {index : Nat} {party : EpochParty} {epoch : ReferenceEpochRecord},
        world.parties[index]? = some party
        → party.advancing? = some epoch
        → epoch.covered = true
          ∧ claimed epoch
          ∧ ∀ write,
              party.write? = some write → readReferenceEpoch functions write.before = some epoch

theorem write_serial {party : EpochParty} {write : EpochWrite} (writes : party.write? = some write)
    : party.holds .serial = some .exclusive := by
  rcases party with ⟨_, _ | _ | _ | _ | _ | _ | _⟩ | ⟨_, _ | _ | _⟩
    | ⟨_, _ | _ | _ | _ | _ | _ | _ | _⟩ <;> simp_all [EpochParty.write?]

theorem write_activity {party : EpochParty} {write : EpochWrite}
    (writes : party.write? = some write)
    : ∃ mode, party.holds .activity = some mode := by
  rcases party with ⟨_, _ | _ | _ | _ | _ | _ | _⟩ | ⟨_, _ | _ | _⟩
    | ⟨_, _ | _ | _ | _ | _ | _ | _ | _⟩ <;> simp_all [EpochParty.write?]

variable {property claimed : ReferenceEpochRecord → Prop} {world : EpochWorld} {index : Nat}
  {party changed : EpochParty}

/-- Beside a party with the serial lock, or with the activity lock for itself, nobody writes. -/
theorem StampInvariant.quiet (holds : StampInvariant functions property claimed world)
    (found : world.parties[index]? = some party)
    (holder
      : party.holds .serial = some .exclusive ∨ party.holds .activity = some .exclusive)
    {other : Nat} {party' : EpochParty} (there : world.parties[other]? = some party')
    (different : other ≠ index)
    : party'.write? = none := by
  by_contra writing
  obtain ⟨write, writes⟩ := Option.ne_none_iff_exists'.mp writing
  rcases holder with serial | activity
  · exact different (holds.locks.alone found there serial (write_serial writes)).symm
  · obtain ⟨mode, held⟩ := write_activity writes
    exact different (holds.locks.alone found there activity held).symm

theorem StampInvariant.record (holds : StampInvariant functions property claimed world)
    (found : world.parties[index]? = some party) (idle : party.write? = none)
    (holder
      : party.holds .serial = some .exclusive ∨ party.holds .activity = some .exclusive)
    {record : ReferenceEpochRecord}
    (stored : readReferenceEpoch functions world.file = some record)
    : property record := by
  refine holds.settled ?_ record stored
  intro other inside
  obtain ⟨position, there⟩ := List.getElem?_of_mem inside
  by_cases same : position = index
  · obtain rfl := Option.some.inj (found.symm.trans (same ▸ there))
    exact idle
  · exact holds.quiet found holder there same

/-- A party changes and the file stays. -/
theorem StampInvariant.change (holds : StampInvariant functions property claimed world)
    (found : world.parties[index]? = some party)
    (granted
      : ∀ lock mode,
          changed.holds lock = some mode
          → party.holds lock = some mode
            ∨ admits EpochParty.holds world.parties index lock mode = true)
    (write
      : ∀ write,
          changed.write? = some write → WriteHolds functions property world.file write)
    (settled
      : changed.write? = none
        → party.write? ≠ none
        → ∀ record, readReferenceEpoch functions world.file = some record → property record)
    (advancing
      : ∀ epoch,
          changed.advancing? = some epoch
          → epoch.covered = true
            ∧ claimed epoch
            ∧ ∀ write,
                changed.write? = some write
                → readReferenceEpoch functions write.before = some epoch)
    : StampInvariant functions property claimed
        { world with parties := world.parties.set index changed } where
  locks := holds.locks.set found granted
  writes there writing := by
    rcases getElem?_set_cases there with ⟨rfl, rfl⟩ | ⟨other, old⟩
    · exact write _ writing
    · exact holds.writes old writing
  settled silent record stored := by
    have inBounds := (List.getElem?_eq_some_iff.mp found).1
    have idle := silent changed (List.mem_set inBounds _)
    by_cases wrote : party.write? = none
    · refine holds.settled ?_ record stored
      intro other inside
      obtain ⟨position, there⟩ := List.getElem?_of_mem inside
      by_cases same : position = index
      · obtain rfl := Option.some.inj (found.symm.trans (same ▸ there))
        exact wrote
      · refine silent other (List.mem_of_getElem? (i := position) ?_)
        rw [List.getElem?_set_ne (Ne.symm same)]
        exact there
    · exact settled idle wrote record stored
  advancing there epoch := by
    rcases getElem?_set_cases there with ⟨rfl, rfl⟩ | ⟨other, old⟩
    · exact advancing _ epoch
    · exact holds.advancing old epoch

theorem WriteHolds.before {file : Bytes} {write : EpochWrite}
    (holds : WriteHolds functions property file write) {record : ReferenceEpochRecord}
    (stored : readReferenceEpoch functions write.before = some record)
    : property record := by
  obtain ⟨old, new, mismatch, found, _, _, known, _⟩ := holds.counts
  exact Option.some.inj (found.symm.trans stored) ▸ known

theorem WriteHolds.after {file : Bytes} {write : EpochWrite}
    (holds : WriteHolds functions property file write) {record : ReferenceEpochRecord}
    (stored : readReferenceEpoch functions write.after = some record)
    : property record := by
  obtain ⟨old, new, mismatch, _, found, _, _, known⟩ := holds.counts
  exact Option.some.inj (found.symm.trans stored) ▸ known

/-- A whole write leaves the new record. -/
theorem WriteHolds.whole {file : Bytes} {write : EpochWrite}
    (holds : WriteHolds functions property file write)
    (all : referenceEpochSize ≤ write.written)
    : file = write.after := by
  rw [holds.mixture]
  exact overwritten_of_length_le (holds.sizes.1.trans holds.sizes.2.symm)
    (holds.sizes.2 ▸ all)

/-- The write a party begins over a record with the property. -/
theorem WriteHolds.begin (sound : functions.Sound) (kept : KeptByCounting property)
    {file after : Bytes} {record counted : ReferenceEpochRecord} {mismatch : Bool}
    (found : readReferenceEpoch functions file = some record) (holds : property record)
    (version : counted.version = 2) (size : file.length = referenceEpochSize)
    (counts : countedRecord record mismatch = some counted)
    (encoded : encodeReferenceEpoch functions counted = some after)
    : WriteHolds functions property file { before := file, after, written := 0 } where
  mixture := (overwritten_zero file after).symm
  sizes := ⟨size, encodeReferenceEpoch_length sound encoded⟩
  counts :=
    ⟨record, counted, mismatch, found, readReferenceEpoch_encode sound version encoded, counts,
      holds, kept holds counts⟩

theorem countedRecord_eq_some {record counted : ReferenceEpochRecord} {mismatch : Bool}
    (counts : countedRecord record mismatch = some counted)
    : counted.counter = record.counter + 1
      ∧ counted.version = record.version
      ∧ counted.covered = (record.covered && !mismatch) := by
  simp only [countedRecord, checkedAdd, Option.map_eq_some_iff] at counts
  obtain ⟨counter, added, rfl⟩ := counts
  split at added
  · obtain rfl := Option.some.inj added
    exact ⟨rfl, rfl, rfl⟩
  · cases added

theorem StampInvariant.arrive (holds : StampInvariant functions property claimed world)
    (new : party.isNew = true)
    : StampInvariant functions property claimed
        { world with parties := world.parties ++ [party] } := by
  have fresh
      : (∀ lock, party.holds lock = none) ∧ party.write? = none ∧ party.advancing? = none := by
    rcases party with ⟨_, _ | _⟩ | ⟨_, _ | _⟩ | ⟨_, _ | _⟩ <;>
      simp_all [EpochParty.isNew, EpochParty.write?, EpochParty.advancing?]
  exact {
    locks := holds.locks.append fresh.1,
    writes there writing := by
      rcases getElem?_concat_cases there with old | ⟨_, rfl⟩
      · exact holds.writes old writing
      · rw [fresh.2.1] at writing
        cases writing
    settled silent record stored :=
      holds.settled (fun other inside => silent other (List.mem_append_left _ inside)) record
        stored
    advancing there advances := by
      rcases getElem?_concat_cases there with old | ⟨_, rfl⟩
      · exact holds.advancing old advances
      · rw [fresh.2.2] at advances
        cases advances
  }

theorem StampInvariant.move (sound : functions.Sound) (kept : KeptByCounting property)
    (implied : ∀ {record}, property record → claimed record)
    (holds : StampInvariant functions property claimed world)
    (found : world.parties[index]? = some party) {event : EpochEvent}
    (move : PartyMove functions files world index party event changed)
    : StampInvariant functions property claimed
        { world with parties := world.parties.set index changed } := by
  have granted := move.granted
  cases move with
  | locked lock mode admitted idle waiting holding =>
      refine holds.change found granted ?_ ?_ ?_
      · intro write writing
        rw [idle.2] at writing
        cases writing
      · intro _ wrote
        exact absurd idle.1 wrote
      · intro epoch advances
        rw [waiting.1] at advances
        cases advances
  | uncovered stored missed =>
      refine holds.change found granted ?_ ?_ ?_
      · intro write writing
        cases writing
      · intro _ wrote
        exact absurd rfl wrote
      · intro epoch advances
        cases advances
  | counting mismatch stored counts encoded =>
      have held := holds.record found rfl (Or.inl rfl) stored
      have known := readReferenceEpoch_eq_some stored
      refine holds.change found granted ?_ ?_ ?_
      · intro write writing
        obtain rfl := Option.some.inj writing
        exact .begin sound kept stored held
          ((countedRecord_eq_some counts).2.1.trans known.2) known.1 counts encoded
      · intro idle
        cases idle
      · intro epoch advances
        cases advances
  | counted whole =>
      have write := holds.writes found rfl
      refine holds.change found granted ?_ ?_ ?_
      · intro write writing
        cases writing
      · intro _ _ record stored
        rw [write.whole whole] at stored
        exact write.after stored
      · intro epoch advances
        cases advances
  | observed stored covered =>
      refine holds.change found granted ?_ ?_ ?_
      · intro write writing
        cases writing
      · intro _ wrote
        exact absurd rfl wrote
      · intro epoch advances
        cases advances
  | admitting covered version counts before encoded =>
      have stored := readReferenceEpoch_encode sound version before
      have held := holds.record found rfl (Or.inl rfl) stored
      refine holds.change found granted ?_ ?_ ?_
      · intro write writing
        obtain rfl := Option.some.inj writing
        exact .begin sound kept stored held ((countedRecord_eq_some counts).2.1.trans version)
          (readReferenceEpoch_eq_some stored).1 counts encoded
      · intro idle
        cases idle
      · intro epoch advances
        obtain rfl := Option.some.inj advances
        refine ⟨covered, implied held, ?_⟩
        intro write writing
        obtain rfl := Option.some.inj writing
        exact stored
  | applies whole there =>
      have write := holds.writes found rfl
      refine holds.change found granted ?_ ?_ ?_
      · intro write writing
        cases writing
      · intro _ _ record stored
        rw [there] at stored
        exact write.after stored
      · intro epoch advances
        obtain ⟨covered, claims, _⟩ := holds.advancing found advances
        exact ⟨covered, claims, fun write writing => by cases writing⟩

theorem wrote_facts {write : EpochWrite} (writes : party.write? = some write) (count : Nat)
    : (∀ lock, (party.wrote count).holds lock = party.holds lock)
      ∧ (party.wrote count).write? = some { write with written := count }
      ∧ (party.wrote count).advancing? = party.advancing? := by
  rcases party with ⟨_, _ | _ | _ | _ | _ | _ | _⟩ | ⟨_, _ | _ | _⟩
    | ⟨_, _ | _ | _ | _ | _ | _ | _ | _⟩ <;>
    simp_all [EpochParty.write?, EpochParty.wrote, EpochParty.advancing?]
  all_goals
    intro lock
    cases lock <;> rfl

theorem StampInvariant.write (holds : StampInvariant functions property claimed world)
    (found : world.parties[index]? = some party) {write : EpochWrite}
    (writes : party.write? = some write) {count : Nat} (further : write.written ≤ count)
    : StampInvariant functions property claimed
        {
          file := overwritten world.file write.after count,
          parties := world.parties.set index (party.wrote count)
        } := by
  obtain ⟨locks, wrote, advances⟩ := wrote_facts writes count
  have before := holds.writes found writes
  have silent {other : Nat} {party' : EpochParty} (there : world.parties[other]? = some party')
      (different : other ≠ index)
      : party'.write? = none :=
    holds.quiet found (Or.inl (write_serial writes)) there different
  exact {
    locks := holds.locks.set found (fun lock mode held => Or.inl (locks lock ▸ held)),
    writes there writing := by
      rcases getElem?_set_cases there with ⟨rfl, rfl⟩ | ⟨other, old⟩
      · obtain rfl := Option.some.inj (wrote.symm.trans writing)
        refine ⟨?_, before.sizes, before.counts⟩
        rw [before.mixture]
        exact overwritten_overwritten (before.sizes.1.trans before.sizes.2.symm) further
      · rw [silent old other] at writing
        cases writing
    settled idle := by
      have inBounds := (List.getElem?_eq_some_iff.mp found).1
      have impossible := idle (party.wrote count) (List.mem_set inBounds _)
      rw [wrote] at impossible
      cases impossible
    advancing there epoch := by
      rcases getElem?_set_cases there with ⟨rfl, rfl⟩ | ⟨other, old⟩
      · obtain ⟨covered, claims, stamped⟩ := holds.advancing found (advances ▸ epoch)
        refine ⟨covered, claims, fun write' writing => ?_⟩
        obtain rfl := Option.some.inj (wrote.symm.trans writing)
        exact stamped write writes
      · exact holds.advancing old epoch
  }

theorem StampInvariant.finish (holds : StampInvariant functions property claimed world)
    (found : world.parties[index]? = some party)
    (detected
      : ∀ write, party.write? = some write → cutDetected functions write world.file = true)
    : StampInvariant functions property claimed
        { world with parties := world.parties.set index party.end } := by
  have gone
      : (∀ lock, party.end.holds lock = none)
        ∧ party.end.write? = none
        ∧ party.end.advancing? = none := by
    rcases party with _ | _ | _ <;>
      simp [EpochParty.end, EpochParty.write?, EpochParty.advancing?]
  refine holds.change found ?_ ?_ ?_ ?_
  · intro lock mode held
    rw [gone.1] at held
    cases held
  · intro write writing
    rw [gone.2.1] at writing
    cases writing
  · intro _ wrote record stored
    obtain ⟨write, writes⟩ := Option.ne_none_iff_exists'.mp wrote
    have facts := holds.writes found writes
    have left := detected write writes
    simp only [cutDetected, Bool.or_eq_true, decide_eq_true_eq, Option.isNone_iff_eq_none] at left
    rcases left with (old | new) | unreadable
    · exact facts.before (old ▸ stored)
    · exact facts.after (new ▸ stored)
    · rw [unreadable] at stored
      cases stored
  · intro epoch advances
    rw [gone.2.2] at advances
    cases advances

/-- Every step keeps what counting keeps. -/
theorem StampInvariant.step (sound : functions.Sound) (kept : KeptByCounting property)
    (implied : ∀ {record}, property record → claimed record)
    (holds : StampInvariant functions property claimed world) {action : EpochAction}
    {event : EpochEvent} {last : EpochWorld}
    (taken : epochStep functions files world action = some (event, last))
    : StampInvariant functions property claimed last := by
  cases action with
  | arrive party =>
      simp only [epochStep, Option.ite_none_right_eq_some] at taken
      obtain ⟨_, rfl⟩ := Prod.mk.inj (Option.some.inj taken.2)
      exact holds.arrive taken.1
  | advance index revalidated =>
      cases found : world.parties[index]? with
      | none => simp [epochStep, found] at taken
      | some party =>
          simp only [epochStep, found, Option.map_eq_some_iff] at taken
          obtain ⟨⟨event', changed⟩, moved, same⟩ := taken
          obtain ⟨_, rfl⟩ := Prod.mk.inj same
          exact holds.move sound kept implied found (advanceParty_move moved)
  | write index count =>
      cases found : world.parties[index]? with
      | none => simp [epochStep, found] at taken
      | some party =>
          cases writes : party.write? with
          | none => simp [epochStep, found, writes] at taken
          | some write =>
              simp only [epochStep, found, writes, Option.ite_none_right_eq_some] at taken
              obtain ⟨_, rfl⟩ := Prod.mk.inj (Option.some.inj taken.2)
              exact holds.write found writes taken.1
  | finish index =>
      cases found : world.parties[index]? with
      | none => simp [epochStep, found] at taken
      | some party =>
          simp only [epochStep, found, Option.ite_none_right_eq_some] at taken
          obtain ⟨_, rfl⟩ := Prod.mk.inj (Option.some.inj taken.2)
          refine holds.finish found ?_
          intro write writes
          simpa [writes] using taken.1

-----------------------------------------------------------------------------------------
-- Observations and applications
-----------------------------------------------------------------------------------------

/-- Later than an epoch, or no longer covered. -/
def Past (epoch record : ReferenceEpochRecord) : Prop :=
  epoch.counter < record.counter ∨ record.covered = false

def NotBefore (epoch record : ReferenceEpochRecord) : Prop := epoch.counter ≤ record.counter

theorem past_kept (epoch : ReferenceEpochRecord) : KeptByCounting (Past epoch) := by
  intro record counted mismatch past counts
  obtain ⟨counter, _, covered⟩ := countedRecord_eq_some counts
  rcases past with later | missed
  · exact Or.inl (by omega)
  · exact Or.inr (by rw [covered, missed, Bool.false_and])

theorem notBefore_kept (epoch : ReferenceEpochRecord) : KeptByCounting (NotBefore epoch) := by
  intro record counted mismatch later counts
  obtain ⟨counter, _, _⟩ := countedRecord_eq_some counts
  unfold NotBefore at later ⊢
  omega

def NoneActive (world : EpochWorld) : Prop := ∀ party ∈ world.parties, party.isActive = false

theorem advancing_locks {epoch : ReferenceEpochRecord} (advances : party.advancing? = some epoch)
    (lock : CoordinationLock)
    : party.holds lock = some .exclusive := by
  rcases party with _ | _ | ⟨_, _ | _ | _ | _ | _ | _ | _ | _⟩ <;>
    simp_all [EpochParty.advancing?]

theorem active_activity (active : party.isActive = true)
    : party.holds .activity = some .shared := by
  rcases party with ⟨_, _ | _ | _ | _ | _ | _ | _⟩ | _ | _ <;> simp_all [EpochParty.isActive]

/-- Around a party with the serial lock, or with the activity lock for itself, nobody writes
and nobody applies.
-/
theorem StampInvariant.silent (holds : StampInvariant functions property claimed world)
    (found : world.parties[index]? = some party)
    (holder
      : party.holds .serial = some .exclusive ∨ party.holds .activity = some .exclusive)
    (changed : EpochParty) (idle : changed.write? = none ∧ changed.advancing? = none)
    : ∀ other ∈ world.parties.set index changed,
        other.write? = none ∧ other.advancing? = none := by
  intro other inside
  obtain ⟨position, there⟩ := List.getElem?_of_mem inside
  rcases getElem?_set_cases there with ⟨_, rfl⟩ | ⟨different, old⟩
  · exact idle
  · refine ⟨holds.quiet found holder old different, ?_⟩
    by_contra advancing
    obtain ⟨epoch, advances⟩ := Option.ne_none_iff_exists'.mp advancing
    have locks := advancing_locks advances
    rcases holder with serial | activity
    · exact different (holds.locks.alone found old serial (locks .serial)).symm
    · exact different (holds.locks.alone found old activity (locks .activity)).symm

/-- While nobody writes, what is true of the stored record is what holds. -/
theorem StampInvariant.reset {property' claimed' : ReferenceEpochRecord → Prop}
    (holds : StampInvariant functions property claimed world)
    (silent : ∀ party ∈ world.parties, party.write? = none)
    (stored
      : ∀ record, readReferenceEpoch functions world.file = some record → property' record)
    (applied
      : ∀ party ∈ world.parties, ∀ epoch,
          party.advancing? = some epoch → epoch.covered = true ∧ claimed' epoch)
    : StampInvariant functions property' claimed' world where
  locks := holds.locks
  writes there writing := by
    rw [silent _ (List.mem_of_getElem? there)] at writing
    cases writing
  settled _ := stored
  advancing there advances := by
    have inside := List.mem_of_getElem? there
    obtain ⟨covered, claims⟩ := applied _ inside _ advances
    refine ⟨covered, claims, fun write writing => ?_⟩
    rw [silent _ inside] at writing
    cases writing

/-- An event is the step of a party. -/
theorem epochStep_event {action : EpochAction} {event : EpochEvent} {last : EpochWorld}
    (taken : epochStep functions files world action = some (event, last))
    (seen : event ≠ .quiet)
    : ∃ index party changed,
        world.parties[index]? = some party
        ∧ PartyMove functions files world index party event changed
        ∧ last = { world with parties := world.parties.set index changed } := by
  cases action with
  | arrive party =>
      simp only [epochStep, Option.ite_none_right_eq_some] at taken
      exact absurd (Prod.mk.inj (Option.some.inj taken.2)).1.symm seen
  | write index count =>
      simp only [epochStep] at taken
      split at taken
      · cases taken
      · split at taken
        · cases taken
        · simp only [Option.ite_none_right_eq_some] at taken
          exact absurd (Prod.mk.inj (Option.some.inj taken.2)).1.symm seen
  | finish index =>
      simp only [epochStep] at taken
      split at taken
      · cases taken
      · simp only [Option.ite_none_right_eq_some] at taken
        exact absurd (Prod.mk.inj (Option.some.inj taken.2)).1.symm seen
  | advance index revalidated =>
      cases found : world.parties[index]? with
      | none => simp [epochStep, found] at taken
      | some party =>
          simp only [epochStep, found, Option.map_eq_some_iff] at taken
          obtain ⟨⟨event', changed⟩, moved, same⟩ := taken
          obtain ⟨rfl, rfl⟩ := Prod.mk.inj same
          exact ⟨index, party, changed, found, advanceParty_move moved, rfl⟩

/-- A producer begins over a record that is not before an epoch, and leaves it behind. -/
theorem StampInvariant.began (sound : functions.Sound) {epoch : ReferenceEpochRecord}
    (holds : StampInvariant functions (NotBefore epoch) claimed world)
    (implied : ∀ {record}, NotBefore epoch record → claimed record)
    {action : EpochAction} {producer : Nat} {last : EpochWorld}
    (taken : epochStep functions files world action = some (.began producer, last))
    : StampInvariant functions (Past epoch) (Past epoch) last := by
  have after := holds.step sound (notBefore_kept epoch) implied taken
  obtain ⟨index, party, changed, found, move, rfl⟩ := epochStep_event taken (by simp)
  -- the producer has the serial lock, so nobody else writes or applies
  have reset (holder : party.holds .serial = some .exclusive)
      (idle : changed.write? = none ∧ changed.advancing? = none)
      (stored
        : ∀ record, readReferenceEpoch functions world.file = some record → Past epoch record)
      : StampInvariant functions (Past epoch) (Past epoch)
          { world with parties := world.parties.set index changed } := by
    have silent := holds.silent found (Or.inl holder) changed idle
    refine after.reset (fun other inside => (silent other inside).1) stored ?_
    intro other inside applied advances
    rw [(silent other inside).2] at advances
    cases advances
  cases move with
  | uncovered stored missed =>
      refine reset rfl ⟨rfl, rfl⟩ ?_
      intro record stored'
      obtain rfl := Option.some.inj (stored.symm.trans stored')
      exact Or.inr missed
  | counted whole =>
      refine reset rfl ⟨rfl, rfl⟩ ?_
      intro record stored
      have write := holds.writes found rfl
      obtain ⟨old, new, mismatch, _, written, counts, later, _⟩ := write.counts
      rw [write.whole whole] at stored
      obtain rfl := Option.some.inj (written.symm.trans stored)
      have counter := (countedRecord_eq_some counts).1
      unfold NotBefore at later
      exact Or.inl (by omega)

/-- Only a producer that begins becomes active. -/
theorem NoneActive.step (inactive : NoneActive world) {action : EpochAction} {event : EpochEvent}
    {last : EpochWorld} (taken : epochStep functions files world action = some (event, last))
    (unbegun : ∀ producer, event ≠ .began producer)
    : NoneActive last := by
  have set {index : Nat} {changed : EpochParty} (idle : changed.isActive = false)
      : ∀ party ∈ world.parties.set index changed, party.isActive = false := by
    intro party inside
    rcases List.mem_or_eq_of_mem_set inside with old | rfl
    · exact inactive party old
    · exact idle
  cases action with
  | arrive party =>
      simp only [epochStep, Option.ite_none_right_eq_some] at taken
      obtain ⟨_, rfl⟩ := Prod.mk.inj (Option.some.inj taken.2)
      intro other inside
      rcases List.mem_append.mp inside with old | new
      · exact inactive other old
      · obtain rfl := List.mem_singleton.mp new
        rcases other with ⟨_, _ | _⟩ | _ | _ <;> simp_all [EpochParty.isNew, EpochParty.isActive]
  | write index count =>
      cases found : world.parties[index]? with
      | none => simp [epochStep, found] at taken
      | some party =>
          cases writes : party.write? with
          | none => simp [epochStep, found, writes] at taken
          | some write =>
              simp only [epochStep, found, writes, Option.ite_none_right_eq_some] at taken
              obtain ⟨_, rfl⟩ := Prod.mk.inj (Option.some.inj taken.2)
              refine set ?_
              rcases party with ⟨_, _ | _ | _ | _ | _ | _ | _⟩ | _
                | ⟨_, _ | _ | _ | _ | _ | _ | _ | _⟩ <;>
                simp_all [EpochParty.wrote, EpochParty.isActive, EpochParty.write?]
  | finish index =>
      cases found : world.parties[index]? with
      | none => simp [epochStep, found] at taken
      | some party =>
          simp only [epochStep, found, Option.ite_none_right_eq_some] at taken
          obtain ⟨_, rfl⟩ := Prod.mk.inj (Option.some.inj taken.2)
          refine set ?_
          rcases party with _ | _ | _ <;> rfl
  | advance index revalidated =>
      cases found : world.parties[index]? with
      | none => simp [epochStep, found] at taken
      | some party =>
          simp only [epochStep, found, Option.map_eq_some_iff] at taken
          obtain ⟨⟨event', changed⟩, moved, same⟩ := taken
          obtain ⟨rfl, rfl⟩ := Prod.mk.inj same
          refine set ?_
          cases advanceParty_move moved with
          | locked lock mode admitted idle waiting holding => exact waiting.2
          | uncovered stored missed => exact absurd rfl (unbegun index)
          | counted whole => exact absurd rfl (unbegun index)
          | counting mismatch stored counts encoded => rfl
          | observed stored covered => rfl
          | admitting covered version counts before encoded => rfl
          | applies whole there => rfl

/-- After an observation: nobody has begun, or the epoch is past. -/
structure Since (functions : EpochFunctions) (epoch : ReferenceEpochRecord)
    (trace : List EpochEvent) (world : EpochWorld)
    : Prop where
  later : StampInvariant functions (NotBefore epoch) (fun _ => True) world
  begun
    : ((∀ producer, EpochEvent.began producer ∉ trace) ∧ NoneActive world)
      ∨ StampInvariant functions (Past epoch) (Past epoch) world

theorem Since.step (sound : functions.Sound) {epoch : ReferenceEpochRecord}
    {trace : List EpochEvent} (since : Since functions epoch trace world) {action : EpochAction}
    {event : EpochEvent} {last : EpochWorld}
    (taken : epochStep functions files world action = some (event, last))
    : Since functions epoch (trace ++ [event]) last := by
  refine ⟨since.later.step sound (notBefore_kept epoch) (fun _ => trivial) taken, ?_⟩
  rcases since.begun with ⟨unbegun, inactive⟩ | past
  · by_cases begins : ∃ producer, event = .began producer
    · obtain ⟨producer, rfl⟩ := begins
      exact Or.inr (since.later.began sound (fun _ => trivial) taken)
    · refine Or.inl ⟨?_, inactive.step taken (fun producer same => begins ⟨producer, same⟩)⟩
      intro producer inside
      rcases List.mem_append.mp inside with old | new
      · exact unbegun producer old
      · exact begins ⟨producer, (List.mem_singleton.mp new).symm⟩
  · exact Or.inr (past.step sound (past_kept epoch) id taken)

/-- Nobody is active where an epoch is observed, and the epoch is not past. -/
theorem StampInvariant.observed (sound : functions.Sound) (kept : KeptByCounting property)
    (implied : ∀ {record}, property record → claimed record)
    (holds : StampInvariant functions property claimed world)
    {action : EpochAction} {epoch : ReferenceEpochRecord} {last : EpochWorld}
    (taken : epochStep functions files world action = some (.observed epoch, last))
    : NoneActive world ∧ Since functions epoch [] last := by
  have after := holds.step sound kept implied taken
  obtain ⟨index, party, changed, found, move, rfl⟩ := epochStep_event taken (by simp)
  cases move with
  | @observed scope _ stored covered =>
      have alone : (EpochParty.observer scope .activityHeld).holds .activity = some .exclusive :=
        rfl
      have inactive : NoneActive world := by
        intro other inside
        by_contra active
        obtain ⟨position, there⟩ := List.getElem?_of_mem inside
        have shared := active_activity (by simpa using active)
        obtain rfl := holds.locks.alone found there alone shared
        obtain rfl := Option.some.inj (found.symm.trans there)
        cases shared
      have silent := holds.silent found (Or.inr alone) (.observer scope .ended) ⟨rfl, rfl⟩
      refine ⟨inactive, ?_, Or.inl ⟨by simp, ?_⟩⟩
      · refine after.reset (fun other inside => (silent other inside).1) ?_ ?_
        · intro record stored'
          obtain rfl := Option.some.inj (stored.symm.trans stored')
          exact Nat.le_refl _
        · intro other inside applied advances
          rw [(silent other inside).2] at advances
          cases advances
      · exact inactive.step taken (by simp)

/-- Where an epoch begins to be applied it is past. -/
theorem StampInvariant.applied (sound : functions.Sound) (kept : KeptByCounting property)
    (implied : ∀ {record}, property record → claimed record)
    (holds : StampInvariant functions property claimed world) {action : EpochAction}
    {epoch : ReferenceEpochRecord} {last : EpochWorld}
    (taken : epochStep functions files world action = some (.applies epoch, last))
    : property epoch
      ∧ epoch.covered = true
      ∧ StampInvariant functions (Past epoch) (fun _ => True) last := by
  have after := holds.step sound kept implied taken
  obtain ⟨index, party, changed, found, move, rfl⟩ := epochStep_event taken (by simp)
  cases move with
  | @applies _ write whole there =>
      obtain ⟨covered, _, stamped⟩ := holds.advancing found rfl
      obtain ⟨old, new, mismatch, before, written, counts, known, _⟩ :=
        (holds.writes found rfl).counts
      obtain rfl := Option.some.inj (before.symm.trans (stamped write rfl))
      refine ⟨known, covered, after.reset ?_ ?_ ?_⟩
      · intro other inside
        obtain ⟨position, there'⟩ := List.getElem?_of_mem inside
        rcases getElem?_set_cases there' with ⟨_, rfl⟩ | ⟨different, other⟩
        · rfl
        · exact holds.quiet found (Or.inl rfl) other different
      · intro record stored
        rw [there] at stored
        obtain rfl := Option.some.inj (written.symm.trans stored)
        have counter := (countedRecord_eq_some counts).1
        exact Or.inl (by omega)
      · intro other inside epoch' advances
        obtain ⟨position, there'⟩ := List.getElem?_of_mem inside
        exact ⟨(after.advancing there' advances).1, trivial⟩

end CodebaseGraph.Storage.Maintenance
