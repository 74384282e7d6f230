import CodebaseGraph.Storage.Maintenance.ControlRegister

/-! The combinations of control regions that updates and crashes reach. Each shows one value: it
is settled, or intended over the value before, or written up to its commit. A plan is ready in
such a combination, and every write of it, whole or torn, leads to another one.
-/

namespace CodebaseGraph.Storage.Maintenance

open CodebaseGraph.Collections CodebaseGraph.Crash CodebaseGraph.Transition

variable (sha256 : Bytes → Bytes) (incarnation : Bytes)

-- Combinations

/-- Whatever record a slot holds is not newer than a generation. -/
def Stale (generation : Nat) (image : Bytes) : Prop :=
  ∀ fact, factOf (decodeSlot sha256 incarnation image) = some fact → fact.generation ≤ generation

/-- The value is committed, and no intent goes beyond it. -/
structure Settled (value : ControlValue) (files : ControlFiles) : Prop where
  commit : files.commit = value.commitImage sha256 incarnation
  slot : files.slots[value.active]? = some (value.slotImage sha256 incarnation)
  other
    : ∃ image,
        files.slots[1 - value.active]? = some image
        ∧ Stale sha256 incarnation value.generation image
  intent
    : factOf (decodeIntent sha256 incarnation files.intent) = none
      ∨ (0 < value.generation ∧ files.intent = value.intentImage sha256 incarnation)

/-- The value is in the intent, and the one before it is still committed. -/
structure Intended (earlier value : ControlValue) (files : ControlFiles) : Prop where
  follows : earlier.Follows value
  intent : files.intent = value.intentImage sha256 incarnation
  commit : files.commit = earlier.commitImage sha256 incarnation
  slot : files.slots[earlier.active]? = some (earlier.slotImage sha256 incarnation)
  target
    : ∃ image,
        files.slots[value.active]? = some image
        ∧ (image = value.slotImage sha256 incarnation
          ∨ Stale sha256 incarnation earlier.generation image)

/-- The value is in the intent and in its slot, and there is no commit. -/
structure Written (value : ControlValue) (files : ControlFiles) : Prop where
  later : 0 < value.generation
  intent : files.intent = value.intentImage sha256 incarnation
  slot : files.slots[value.active]? = some (value.slotImage sha256 incarnation)
  other
    : ∃ image,
        files.slots[1 - value.active]? = some image
        ∧ Stale sha256 incarnation value.generation image
  commit : factOf (decodeCommit sha256 incarnation files.commit) = none

/-- The value that a reachable combination shows. -/
inductive Shows (value : ControlValue) (files : ControlFiles) : Prop where
  | settled (settled : Settled sha256 incarnation value files)
  | intended (earlier : ControlValue) (intended : Intended sha256 incarnation earlier value files)
  | written (written : Written sha256 incarnation value files)

/-- The generation and the payload that recovery would leave in force. -/
def identified (files : ControlFiles) : Option (Nat × Bytes) :=
  (recoveryPlan sha256 incarnation files).bind
    (fun (commit, image, _) =>
      (slotPayload sha256 incarnation image).map (fun payload => (commit.generation, payload)))

variable {sha256 incarnation} (sizes : ControlSizes sha256 incarnation)
variable {value earlier : ControlValue} {files : ControlFiles}

section Facts

include sizes

theorem slotPayload_image
    : slotPayload sha256 incarnation (value.slotImage sha256 incarnation) = some value.payload := by
  have image
      : value.slotImage sha256 incarnation
        = slotMagic ++ (incarnation ++ (littleEndian 8 value.generation
          ++ (littleEndian 8 value.payload.length ++ (value.payload
            ++ (List.replicate (payloadBytes - value.payload.length) 0
              ++ sha256 (value.slotBody incarnation)))))) := by
    simp only [ControlValue.slotImage, finished, ControlValue.slotBody, slotBody,
      List.append_assoc]
  have read
      : field (value.slotImage sha256 incarnation) 56 value.payload.length = value.payload := by
    rw [image, field_skip slotMagic_length, field_skip sizes.incarnation,
      field_skip (littleEndian_length ..), field_skip (littleEndian_length ..), field_start rfl]
  rw [slotPayload, ControlValue.decodeSlot_image _ sizes]
  exact congrArg some read

theorem stale_slotImage
    : Stale sha256 incarnation value.generation (value.slotImage sha256 incarnation) := by
  intro fact decoded
  rw [ControlValue.decodeSlot_image _ sizes] at decoded
  obtain rfl := Option.some.inj decoded
  exact Nat.le_refl _

/-- A slot that holds a value matches its facts. -/
theorem slotMatches_image (slot : files.slots[value.active]? = some (value.slotImage sha256 incarnation))
    : slotMatches (files.slots.map (fun slot => factOf (decodeSlot sha256 incarnation slot)))
        value.active value.generation (sha256 (value.slotBody incarnation))
      = true := by
  rw [slotMatches, List.getElem?_map, slot, Option.map_some, ControlValue.decodeSlot_image _ sizes]
  simp [factOf, Except.toOption, ControlValue.slotFact]

end Facts

/-- A slot without the record of a generation does not match it. -/
theorem slotMatches_stale {index generation : Nat} {digest image : Bytes}
    (slot : files.slots[index]? = some image)
    (stale : Stale sha256 incarnation generation image)
    : slotMatches (files.slots.map (fun slot => factOf (decodeSlot sha256 incarnation slot)))
        index (generation + 1) digest
      = false := by
  rw [slotMatches, List.getElem?_map, slot, Option.map_some]
  cases decoded : factOf (decodeSlot sha256 incarnation image) with
  | none => rfl
  | some fact =>
      have old := stale fact decoded
      have different : fact.generation ≠ generation + 1 := by omega
      simp [different]

-----------------------------------------------------------------------------------------
-- Recovery
-----------------------------------------------------------------------------------------

namespace ControlValue

variable (sha256 incarnation) (value)

def intentStep : TransportStep :=
  { region := .intent, bytes := value.intentImage sha256 incarnation, payload := value.payload }

def slotStep : TransportStep :=
  {
    region := .slot value.active,
    bytes := value.slotImage sha256 incarnation,
    payload := value.payload
  }

def commitStep : TransportStep :=
  { region := .commit, bytes := value.commitImage sha256 incarnation, payload := value.payload }

end ControlValue

section Recovery

include sizes

theorem factOf_commit
    : factOf (decodeCommit sha256 incarnation (value.commitImage sha256 incarnation))
      = some (value.commitFact sha256 incarnation) := by
  rw [ControlValue.decodeCommit_image _ sizes]
  rfl

theorem factOf_intent (later : 0 < value.generation)
    : factOf (decodeIntent sha256 incarnation (value.intentImage sha256 incarnation))
      = some (value.intentFact sha256 incarnation) := by
  rw [ControlValue.decodeIntent_image _ sizes later]
  rfl

omit sizes in
theorem follows_before (follows : earlier.Follows value)
    : checkedAdd (value.generation - 1) 1 = some value.generation := by
  have later := follows.generation
  rw [checkedAdd, Nat.sub_add_cancel (by omega), if_pos value.counted]

theorem observedStep_settled (settled : Settled sha256 incarnation value files)
    : observedStep sha256 incarnation files
      = .committed (value.commitFact sha256 incarnation) := by
  have side : ¬value.active > 1 := Nat.not_lt.mpr value.side
  have there := slotMatches_image sizes settled.slot
  rw [observedStep, settled.commit, factOf_commit sizes]
  rcases settled.intent with unread | ⟨later, image⟩
  · rw [unread]
    simp [recoveryStep, ControlValue.commitFact, side, there]
  · rw [image, factOf_intent sizes later]
    have counts : checkedAdd (value.generation - 1) 1 = some value.generation := by
      rw [checkedAdd, Nat.sub_add_cancel later, if_pos value.counted]
    simp [recoveryStep, ControlValue.commitFact, ControlValue.intentFact, side, there, counts]

/-- Over the value before, the intended slot is rewritten unless it is there. -/
theorem observedStep_intended (intended : Intended sha256 incarnation earlier value files)
    : (observedStep sha256 incarnation files
          = .commitIntendedSlot (value.intentFact sha256 incarnation)
        ∧ files.slots[value.active]? = some (value.slotImage sha256 incarnation))
      ∨ observedStep sha256 incarnation files
        = .rewriteIntendedSlot (value.intentFact sha256 incarnation) := by
  have side : ¬value.active > 1 := Nat.not_lt.mpr value.side
  have side' : ¬earlier.active > 1 := Nat.not_lt.mpr earlier.side
  have there := slotMatches_image sizes intended.slot
  have counts := follows_before intended.follows
  have generation := intended.follows.generation
  have active := intended.follows.active
  have back : earlier.active = 1 - value.active := by omega
  have older : earlier.generation ≠ value.generation := by omega
  have before : earlier.generation = value.generation - 1 := by omega
  have counts' : checkedAdd earlier.generation 1 = some value.generation := by rw [before, counts]
  rw [observedStep, intended.commit, factOf_commit sizes, intended.intent,
    factOf_intent sizes (by omega)]
  obtain ⟨image, target, whole | stale⟩ := intended.target
  · subst whole
    have matched := slotMatches_image sizes target
    refine Or.inl ⟨?_, target⟩
    simp only [recoveryStep, ControlValue.commitFact, ControlValue.intentFact] at there matched ⊢
    simp [side, side', counts', older, ← before, ← back, there, matched]
  · have unmatched
        : slotMatches (files.slots.map (fun slot => factOf (decodeSlot sha256 incarnation slot)))
            value.active value.generation (sha256 (value.slotBody incarnation))
          = false := by
      rw [generation]
      exact slotMatches_stale target stale
    refine Or.inr ?_
    simp only [recoveryStep, ControlValue.commitFact, ControlValue.intentFact] at there unmatched ⊢
    simp [side, side', counts', older, ← before, ← back, there, unmatched]

theorem observedStep_written (written : Written sha256 incarnation value files)
    : observedStep sha256 incarnation files
      = .commitIntendedSlot (value.intentFact sha256 incarnation) := by
  have side : ¬value.active > 1 := Nat.not_lt.mpr value.side
  have matched := slotMatches_image sizes written.slot
  have counts : checkedAdd (value.generation - 1) 1 = some value.generation := by
    rw [checkedAdd, Nat.sub_add_cancel written.later, if_pos value.counted]
  rw [observedStep, written.commit, written.intent, factOf_intent sizes written.later]
  simp [recoveryStep, ControlValue.intentFact, side, counts, matched]

theorem recoveryPlan_settled (settled : Settled sha256 incarnation value files)
    : recoveryPlan sha256 incarnation files
      = some (value.commitFact sha256 incarnation, value.slotImage sha256 incarnation, []) := by
  rw [recoveryPlan, observedStep_settled sizes settled]
  simp only [ControlValue.commitFact, settled.slot, Option.map_some]

/-- The plan of an intent commits its value, after a rewrite of the slot or not. -/
theorem intendedPlan_eq (intent : files.intent = value.intentImage sha256 incarnation)
    (rewrite : Bool)
    : intendedPlan sha256 incarnation files (value.intentFact sha256 incarnation) rewrite
      = some
        (
          value.commitFact sha256 incarnation,
          value.slotImage sha256 incarnation,
          (if rewrite then [value.slotStep sha256 incarnation] else [])
            ++ [value.commitStep sha256 incarnation]
        ) := by
  have image : field files.intent 96 slotBytes = value.slotImage sha256 incarnation := by
    rw [intent, ControlValue.intentImage_slot _ sizes]
  have encoded
      : factOf (encodeCommit sha256 incarnation (value.commitFact sha256 incarnation))
        = some (value.commitImage sha256 incarnation) :=
    congrArg factOf (ControlValue.encodeCommit_eq _)
  rw [ControlValue.commitFact] at encoded ⊢
  simp only [intendedPlan, image, ControlValue.intentFact, encoded, slotPayload_image sizes,
    Option.bind_eq_bind, Option.bind_some]
  rfl

/-- What recovery writes over an intended value. -/
theorem recoveryPlan_intended (intended : Intended sha256 incarnation earlier value files)
    : (recoveryPlan sha256 incarnation files
          = some
            (
              value.commitFact sha256 incarnation,
              value.slotImage sha256 incarnation,
              [value.commitStep sha256 incarnation]
            )
        ∧ files.slots[value.active]? = some (value.slotImage sha256 incarnation))
      ∨ recoveryPlan sha256 incarnation files
        = some
          (
            value.commitFact sha256 incarnation,
            value.slotImage sha256 incarnation,
            [value.slotStep sha256 incarnation, value.commitStep sha256 incarnation]
          ) := by
  rcases observedStep_intended sizes intended with ⟨step, there⟩ | step
  · refine Or.inl ⟨?_, there⟩
    rw [recoveryPlan, step]
    exact intendedPlan_eq sizes intended.intent false
  · refine Or.inr ?_
    rw [recoveryPlan, step]
    exact intendedPlan_eq sizes intended.intent true

theorem recoveryPlan_written (written : Written sha256 incarnation value files)
    : recoveryPlan sha256 incarnation files
      = some
        (
          value.commitFact sha256 incarnation,
          value.slotImage sha256 incarnation,
          [value.commitStep sha256 incarnation]
        ) := by
  rw [recoveryPlan, observedStep_written sizes written]
  exact intendedPlan_eq sizes written.intent false

end Recovery

-----------------------------------------------------------------------------------------
-- Plans
-----------------------------------------------------------------------------------------

variable (sha256 incarnation) in
/-- Whole updates from one value to another. -/
inductive Updates : ControlValue → List TransportStep → ControlValue → Prop where
  | nil (value : ControlValue) : Updates value [] value
  | cons {value next last : ControlValue} {rest : List TransportStep}
    (follows : value.Follows next) (updates : Updates next rest last)
    : Updates value
        (next.intentStep sha256 incarnation :: next.slotStep sha256 incarnation
          :: next.commitStep sha256 incarnation :: rest)
        last

variable (sha256 incarnation) in
/-- A plan fits the combination: the rest of the update under way, and whole ones after it. -/
inductive Ready (value : ControlValue) (files : ControlFiles)
    : List TransportStep → ControlValue → Prop where
  | settled {steps last} (settled : Settled sha256 incarnation value files)
    (updates : Updates sha256 incarnation value steps last)
    : Ready value files steps last
  | intended {earlier rest last} (intended : Intended sha256 incarnation earlier value files)
    (updates : Updates sha256 incarnation value rest last)
    : Ready value files
        (value.slotStep sha256 incarnation :: value.commitStep sha256 incarnation :: rest) last
  | slotted {earlier rest last} (intended : Intended sha256 incarnation earlier value files)
    (slot : files.slots[value.active]? = some (value.slotImage sha256 incarnation))
    (updates : Updates sha256 incarnation value rest last)
    : Ready value files (value.commitStep sha256 incarnation :: rest) last
  | written {rest last} (written : Written sha256 incarnation value files)
    (updates : Updates sha256 incarnation value rest last)
    : Ready value files (value.commitStep sha256 incarnation :: rest) last

theorem Updates.append {middle last : ControlValue} {first second : List TransportStep}
    (left : Updates sha256 incarnation value first middle)
    (right : Updates sha256 incarnation middle second last)
    : Updates sha256 incarnation value (first ++ second) last := by
  induction left with
  | nil value => exact right
  | cons follows _ ih => exact .cons follows (ih right)

theorem Ready.append {middle last : ControlValue} {first second : List TransportStep}
    (ready : Ready sha256 incarnation value files first middle)
    (updates : Updates sha256 incarnation middle second last)
    : Ready sha256 incarnation value files (first ++ second) last := by
  cases ready with
  | settled settled before => exact .settled settled (before.append updates)
  | intended intended before => exact .intended intended (before.append updates)
  | slotted intended slot before => exact .slotted intended slot (before.append updates)
  | written written before => exact .written written (before.append updates)

theorem Ready.shows {steps : List TransportStep} {last : ControlValue}
    (ready : Ready sha256 incarnation value files steps last)
    : Shows sha256 incarnation value files := by
  cases ready with
  | settled settled _ => exact .settled settled
  | intended intended _ => exact .intended _ intended
  | slotted intended _ _ => exact .intended _ intended
  | written written _ => exact .written written

/-- Where nothing is left of a plan, its last value is settled. -/
theorem Ready.of_nil {last : ControlValue} (ready : Ready sha256 incarnation value files [] last)
    : value = last ∧ Settled sha256 incarnation last files := by
  cases ready with
  | settled settled updates =>
      cases updates with
      | nil => exact ⟨rfl, settled⟩

section Planning

include sizes

/-- The plan of the update to a next value. -/
theorem transition_follows {next : ControlValue} (follows : value.Follows next)
    : transition sha256 incarnation (value.commitFact sha256 incarnation) next.payload
      = some
        (
          next.commitFact sha256 incarnation,
          [
            next.intentStep sha256 incarnation,
            next.slotStep sha256 incarnation,
            next.commitStep sha256 incarnation
          ]
        ) := by
  have counts
      : checkedAdd (value.commitFact sha256 incarnation).generation 1 = some next.generation :=
    checkedAdd_eq_some.mpr ⟨follows.generation ▸ next.counted, follows.generation.symm⟩
  have slot := congrArg factOf (ControlValue.encodeSlot_eq next sizes)
  have intent := congrArg factOf (ControlValue.encodeIntent_eq sizes follows)
  have commit
      : factOf
          (encodeCommit sha256 incarnation
            {
              generation := next.generation,
              active := (next.intentFact sha256 incarnation).target,
              slotDigest := (next.slotFact sha256 incarnation).digest
            })
        = some (next.commitImage sha256 incarnation) :=
    congrArg factOf (ControlValue.encodeCommit_eq _)
  simp only [factOf, Except.toOption] at slot intent commit
  simp only [transition, factOf, counts, Option.bind_eq_bind, Option.bind_some, slot, intent, commit,
    Except.toOption]
  rfl

/-- An update that can be planned leads to a next value. -/
theorem transition_updates {payload : Bytes} {next : CommitFact} {steps : List TransportStep}
    (planned
      : transition sha256 incarnation (value.commitFact sha256 incarnation) payload
        = some (next, steps))
    : ∃ last,
        Updates sha256 incarnation value steps last
        ∧ next = last.commitFact sha256 incarnation := by
  have bounds : value.generation + 1 ≤ u64Max ∧ payload.length ≤ payloadBytes := by
    simp only [transition, Option.bind_eq_bind, Option.bind_eq_some_iff] at planned
    obtain ⟨generation, counts, ⟨slot, fact⟩, encoded, _⟩ := planned
    refine ⟨(checkedAdd_eq_some.mp counts).1, ?_⟩
    by_contra long
    simp [encodeSlot, Nat.lt_of_not_ge long, factOf, Except.toOption] at encoded
  let last : ControlValue :=
    {
      generation := value.generation + 1,
      active := 1 - value.active,
      payload,
      counted := bounds.1,
      side := Nat.sub_le ..,
      fits := bounds.2
    }
  have follows : value.Follows last := { generation := rfl, active := rfl }
  have same := Option.some.inj (planned.symm.trans (transition_follows sizes follows))
  obtain ⟨rfl, rfl⟩ := Prod.mk.inj same
  exact ⟨last, .cons follows (.nil last), rfl⟩

/-- Recovery has a plan that fits, without further updates. -/
theorem Shows.ready (shown : Shows sha256 incarnation value files)
    : ∃ steps,
        recoveryPlan sha256 incarnation files
          = some (value.commitFact sha256 incarnation, value.slotImage sha256 incarnation, steps)
        ∧ Ready sha256 incarnation value files steps value := by
  cases shown with
  | settled settled =>
      exact ⟨_, recoveryPlan_settled sizes settled, .settled settled (.nil value)⟩
  | intended earlier intended =>
      rcases recoveryPlan_intended sizes intended with ⟨plan, slot⟩ | plan
      · exact ⟨_, plan, .slotted intended slot (.nil value)⟩
      · exact ⟨_, plan, .intended intended (.nil value)⟩
  | written written => exact ⟨_, recoveryPlan_written sizes written, .written written (.nil value)⟩

theorem Shows.identified (shown : Shows sha256 incarnation value files)
    : identified sha256 incarnation files = some (value.generation, value.payload) := by
  obtain ⟨steps, plan, _⟩ := shown.ready sizes
  simp only [Maintenance.identified, plan, Option.bind_some, slotPayload_image sizes,
    Option.map_some]
  rfl

/-- Only a settled value is seen as committed. -/
theorem Shows.of_committed (shown : Shows sha256 incarnation value files) {commit : CommitFact}
    (observed : observedStep sha256 incarnation files = .committed commit)
    : Settled sha256 incarnation value files ∧ commit = value.commitFact sha256 incarnation := by
  cases shown with
  | settled settled =>
      rw [observedStep_settled sizes settled] at observed
      exact ⟨settled, (RecoveryStep.committed.inj observed).symm⟩
  | intended earlier intended =>
      rcases observedStep_intended sizes intended with ⟨step, _⟩ | step
      · cases step.symm.trans observed
      · cases step.symm.trans observed
  | written written => cases (observedStep_written sizes written).symm.trans observed

/-- The plan of a removal fits. -/
theorem removalPlan_ready (shown : Shows sha256 incarnation value files) {removing : GateState}
    {steps : List TransportStep}
    (planned : removalPlan sha256 incarnation removing files = some steps)
    : ∃ last, Ready sha256 incarnation value files steps last := by
  obtain ⟨recovery, plan, ready⟩ := shown.ready sizes
  simp only [removalPlan, plan, slotPayload_image sizes, Option.bind_eq_bind, Option.bind_some,
    Option.bind_eq_some_iff] at planned
  obtain ⟨initial, _, planned⟩ := planned
  split at planned
  · cases planned
  · split at planned
    · -- into the removal and back
      simp only [Option.bind_eq_some_iff] at planned
      obtain ⟨⟨closing, close⟩, closed, ⟨reopened, reopen⟩, opened, same⟩ := planned
      obtain rfl := Option.some.inj same
      obtain ⟨middle, updates, rfl⟩ := transition_updates sizes closed
      obtain ⟨last, updates', _⟩ := transition_updates sizes opened
      exact ⟨last, (ready.append updates).append updates'⟩
    · -- the removal is under way
      simp only [Option.bind_eq_some_iff] at planned
      obtain ⟨⟨reopened, reopen⟩, opened, same⟩ := planned
      obtain rfl := Option.some.inj same
      obtain ⟨last, updates, _⟩ := transition_updates sizes opened
      refine ⟨last, ?_⟩
      rw [List.append_nil]
      exact ready.append updates

end Planning

-----------------------------------------------------------------------------------------
-- Writes
-----------------------------------------------------------------------------------------

@[simp]
theorem ControlFiles.write_write (files : ControlFiles) (first second : Bytes) (region : Region)
    : (files.write first region).write second region = files.write second region := by
  cases region with
  | commit => rfl
  | intent => rfl
  | slot index => simp [ControlFiles.write]

variable (sha256 incarnation) in
/-- What a region may hold while it is written: the old record, the new one, or none. -/
def Torn (step : TransportStep) (before content : Bytes) : Prop :=
  content = before
  ∨ content = step.bytes
  ∨ unreadable sha256 incarnation step.region content = true

variable {step : TransportStep} {rest : List TransportStep} {last : ControlValue}

/-- The region of the next write is there. -/
theorem Ready.read_write (ready : Ready sha256 incarnation value files (step :: rest) last)
    (content : Bytes)
    : (files.write content step.region).read step.region = content := by
  have slot {index : Nat} (inside : ∃ image, files.slots[index]? = some image)
      : (files.write content (.slot index)).read (.slot index) = content := by
    obtain ⟨image, there⟩ := inside
    obtain ⟨bound, _⟩ := List.getElem?_eq_some_iff.mp there
    simp [ControlFiles.write, ControlFiles.read, List.getElem?_set_self bound]
  cases ready with
  | settled settled updates =>
      cases updates with
      | cons follows updates => rfl
  | intended intended updates =>
      obtain ⟨image, there, _⟩ := intended.target
      exact slot ⟨image, there⟩
  | slotted intended there updates => rfl
  | written written updates => rfl

/-- Reading a region and writing it back changes nothing. -/
theorem Ready.write_read (ready : Ready sha256 incarnation value files (step :: rest) last)
    : files.write (files.read step.region) step.region = files := by
  have slot {index : Nat} (inside : ∃ image, files.slots[index]? = some image)
      : files.write (files.read (.slot index)) (.slot index) = files := by
    obtain ⟨image, there⟩ := inside
    obtain ⟨bound, _⟩ := List.getElem?_eq_some_iff.mp there
    simp [ControlFiles.write, ControlFiles.read, bound]
  cases ready with
  | settled settled updates =>
      cases updates with
      | cons follows updates => rfl
  | intended intended updates =>
      obtain ⟨image, there, _⟩ := intended.target
      exact slot ⟨image, there⟩
  | slotted intended there updates => rfl
  | written written updates => rfl

section Writing

theorem Stale.le {generation bound : Nat} {image : Bytes}
    (stale : Stale sha256 incarnation generation image) (grows : generation ≤ bound)
    : Stale sha256 incarnation bound image :=
  fun fact decoded => Nat.le_trans (stale fact decoded) grows

theorem stale_of_unreadable {generation index : Nat} {image : Bytes}
    (unread : unreadable sha256 incarnation (.slot index) image = true)
    : Stale sha256 incarnation generation image := by
  intro fact decoded
  rw [unreadable, decoded] at unread
  cases unread

/-- The values before and after an update are in different slots. -/
theorem follows_sides (follows : earlier.Follows value)
    : value.active ≠ earlier.active ∧ 1 - value.active = earlier.active := by
  have active := follows.active
  have side := earlier.side
  omega

include sizes

/-- The commit of an intended value that is in its slot settles it. -/
theorem Intended.settle (intended : Intended sha256 incarnation earlier value files)
    (slot : files.slots[value.active]? = some (value.slotImage sha256 incarnation))
    : Settled sha256 incarnation value
        (files.write (value.commitImage sha256 incarnation) .commit) where
  commit := rfl
  slot := slot
  other := by
    have generation := intended.follows.generation
    have stale
        : Stale sha256 incarnation earlier.generation (earlier.slotImage sha256 incarnation) :=
      stale_slotImage sizes
    refine ⟨_, ?_, stale.le (by omega)⟩
    rw [(follows_sides intended.follows).2]
    exact intended.slot
  intent := by
    have generation := intended.follows.generation
    exact Or.inr ⟨by omega, intended.intent⟩

omit sizes in
theorem Written.settle (written : Written sha256 incarnation value files)
    : Settled sha256 incarnation value
        (files.write (value.commitImage sha256 incarnation) .commit) where
  commit := rfl
  slot := written.slot
  other := written.other
  intent := Or.inr ⟨written.later, written.intent⟩

omit sizes in
/-- The slot of an intended value may hold anything that is not newer than the value before. -/
theorem Intended.slot_set (intended : Intended sha256 incarnation earlier value files)
    {content : Bytes}
    (target
      : content = value.slotImage sha256 incarnation
        ∨ Stale sha256 incarnation earlier.generation content)
    : Intended sha256 incarnation earlier value (files.write content (.slot value.active))
      ∧ (files.write content (.slot value.active)).slots[value.active]? = some content := by
  obtain ⟨image, there, _⟩ := intended.target
  obtain ⟨bound, _⟩ := List.getElem?_eq_some_iff.mp there
  have set : (files.write content (.slot value.active)).slots[value.active]? = some content :=
    List.getElem?_set_self bound
  refine ⟨?_, set⟩
  exact {
    follows := intended.follows,
    intent := intended.intent,
    commit := intended.commit,
    slot := by
      rw [ControlFiles.write, List.getElem?_set_ne (follows_sides intended.follows).1]
      exact intended.slot
    target := ⟨content, set, target⟩
  }

/-- A torn write leaves the value that was shown, or commits it. -/
theorem Ready.tear (ready : Ready sha256 incarnation value files (step :: rest) last)
    {content : Bytes} (torn : Torn sha256 incarnation step (files.read step.region) content)
    (part : step.region = .intent → content ≠ step.bytes)
    : Shows sha256 incarnation value (files.write content step.region) := by
  cases ready with
  | settled settled updates =>
      cases updates with
      | cons follows updates =>
          refine .settled ?_
          refine { commit := settled.commit, slot := settled.slot, other := settled.other, intent := ?_ }
          rcases torn with rfl | rfl | unread
          · exact settled.intent
          · exact absurd rfl (part rfl)
          · exact Or.inl (Option.isNone_iff_eq_none.mp unread)
  | @intended earlier rest last intended updates =>
      refine .intended earlier (intended.slot_set ?_).1
      obtain ⟨image, there, target⟩ := intended.target
      rcases torn with old | whole | unread
      · have read : files.read (.slot value.active) = image := by
          simp [ControlFiles.read, there]
        rw [old.trans read]
        exact target
      · exact Or.inl whole
      · exact Or.inr (stale_of_unreadable unread)
  | @slotted earlier rest last intended slot updates =>
      rcases torn with rfl | rfl | unread
      · exact .intended earlier intended
      · exact .settled (intended.settle sizes slot)
      · refine .written ?_
        have settled := intended.settle sizes slot
        have generation := intended.follows.generation
        exact {
          later := by omega
          intent := intended.intent,
          slot,
          other := settled.other,
          commit := Option.isNone_iff_eq_none.mp unread
        }
  | written written updates =>
      rcases torn with rfl | rfl | unread
      · exact .written written
      · exact .settled written.settle
      · refine .written ?_
        exact {
          later := written.later,
          intent := written.intent,
          slot := written.slot,
          other := written.other,
          commit := Option.isNone_iff_eq_none.mp unread
        }

/-- The value that a plan shows once its first write is whole. -/
theorem Ready.finish (ready : Ready sha256 incarnation value files (step :: rest) last)
    : ∃ next,
        Ready sha256 incarnation next (files.write step.bytes step.region) rest last
        ∧ next.payload = step.payload
        ∧ (if step.region = .intent then value.Follows next else next = value)
        ∧ (step.region = .commit
          → Settled sha256 incarnation next (files.write step.bytes step.region)) := by
  cases ready with
  | settled settled updates =>
      cases updates with
      | @cons _ next _ rest follows updates =>
          have intended
              : Intended sha256 incarnation value next
                  (files.write (next.intentImage sha256 incarnation) .intent) := {
            follows,
            intent := rfl,
            commit := settled.commit,
            slot := settled.slot,
            target := by
              obtain ⟨image, there, stale⟩ := settled.other
              rw [← follows.active] at there
              exact ⟨image, there, Or.inr stale⟩
          }
          exact ⟨next, .intended intended updates, rfl, follows, fun commit => nomatch commit⟩
  | intended intended updates =>
      obtain ⟨intended', slot⟩ := intended.slot_set (Or.inl rfl)
      exact ⟨value, .slotted intended' slot updates, rfl, rfl, fun commit => nomatch commit⟩
  | slotted intended slot updates =>
      have settled := intended.settle sizes slot
      exact ⟨value, .settled settled updates, rfl, rfl, fun _ => settled⟩
  | written written updates =>
      exact ⟨value, .settled written.settle updates, rfl, rfl, fun _ => written.settle⟩

/-- Nothing but an intent makes another value whole, and it was not there before. -/
theorem Ready.intent_fresh (ready : Ready sha256 incarnation value files (step :: rest) last)
    (region : step.region = .intent)
    : files.read step.region ≠ step.bytes := by
  cases ready with
  | settled settled updates =>
      cases updates with
      | @cons _ next _ rest follows updates =>
          intro same
          have generation := follows.generation
          have later : 0 < next.generation := by omega
          have decoded := factOf_intent sizes later
          have there : files.intent = next.intentImage sha256 incarnation := same
          rcases settled.intent with unread | ⟨earlier, image⟩
          · rw [there, decoded] at unread
            cases unread
          · rw [← there, image, factOf_intent sizes earlier] at decoded
            have after := congrArg IntentFact.after (Option.some.inj decoded)
            simp only [ControlValue.intentFact] at after
            omega
  | intended _ _ => cases region
  | slotted _ _ _ => cases region
  | written _ _ => cases region

end Writing

end CodebaseGraph.Storage.Maintenance
