import CodebaseGraph.Storage.Maintenance.ControlCombinations

/-! The control regions are a crash-atomic register: whatever ran and wherever it was cut, they
show the last value whose intent was whole, and recovery commits it.
-/

namespace CodebaseGraph.Storage.Maintenance

open CodebaseGraph.Collections CodebaseGraph.Crash CodebaseGraph.Transition

variable {sha256 : Bytes → Bytes} {incarnation : Bytes} (sizes : ControlSizes sha256 incarnation)
variable {value earlier last : ControlValue} {files : ControlFiles}
-----------------------------------------------------------------------------------------
-- Processes
-----------------------------------------------------------------------------------------

def ControlEvent.intended? : ControlEvent → Option Bytes
  | .intended payload => some payload
  | _ => none

/-- The payloads of the register, the present one last. -/
def register (initial : Bytes) (trace : List ControlEvent) : List Bytes :=
  initial :: trace.filterMap ControlEvent.intended?

/-- The value is the last one of a history. -/
structure Current (value : ControlValue) (history : List Bytes) : Prop where
  counted : history.length = value.generation + 1
  last : history.getLast? = some value.payload

variable (sha256 incarnation) in
/-- How the regions stand to what the process is doing. -/
inductive ProcessHolds (value : ControlValue) (files : ControlFiles) : ControlProcess → Prop where
  | idle (shown : Shows sha256 incarnation value files) : ProcessHolds value files .idle
  | leased (settled : Settled sha256 incarnation value files)
    : ProcessHolds value files (.leased (value.commitFact sha256 incarnation))
  | tearing {lease before step rest last} (base : ControlFiles) (content : Bytes)
    (ready : Ready sha256 incarnation value base (step :: rest) last)
    (same : files = base.write content step.region) (old : base.read step.region = before)
    (torn : Torn sha256 incarnation step before content)
    (part : step.region = .intent → content ≠ step.bytes)
    (leased : ∀ commit, lease = some commit → commit = last.commitFact sha256 incarnation)
    : ProcessHolds value files (.writing lease before step rest)
  /-- All bytes of an intent are there. -/
  | whole {lease before step rest last}
    (ready : Ready sha256 incarnation value files rest last) (region : step.region = .intent)
    (there : files.intent = step.bytes)
    (leased : ∀ commit, lease = some commit → commit = last.commitFact sha256 incarnation)
    : ProcessHolds value files (.writing lease before step rest)

section Processes

variable {step : TransportStep} {rest : List TransportStep}
include sizes

theorem ProcessHolds.shows {process : ControlProcess}
    (holds : ProcessHolds sha256 incarnation value files process)
    : Shows sha256 incarnation value files := by
  cases holds with
  | idle shown => exact shown
  | leased settled => exact .settled settled
  | tearing base content ready same old torn part leased =>
      subst same old
      exact ready.tear sizes torn part
  | whole ready region there leased => exact ready.shows

/-- A process that goes on with a plan that fits. -/
theorem Ready.process_holds {steps : List TransportStep}
    (ready : Ready sha256 incarnation value files steps last) {lease : Option CommitFact}
    (leased : ∀ commit, lease = some commit → commit = last.commitFact sha256 incarnation)
    : ProcessHolds sha256 incarnation value files (proceed lease files steps) := by
  cases steps with
  | nil =>
      obtain ⟨rfl, settled⟩ := ready.of_nil
      cases lease with
      | none => exact .idle (.settled settled)
      | some commit =>
          obtain rfl := leased commit rfl
          exact .leased settled
  | cons step rest =>
      exact .tearing files _ ready ready.write_read.symm rfl (Or.inl rfl)
        (ready.intent_fresh sizes) leased

/-- What a step does to the value and to the history. -/
structure ControlStepHolds (sha256 : Bytes → Bytes) (incarnation : Bytes) (history : List Bytes)
    (event : ControlEvent) (next : ControlValue) (world : ControlWorld)
    : Prop where
  holds : ProcessHolds sha256 incarnation next world.files world.process
  current : Current next (history ++ event.intended?.toList)
  done
    : ∀ payload,
        event = .done payload
        → payload = next.payload ∧ Settled sha256 incarnation next world.files

variable {history : List Bytes} {event : ControlEvent} {world next : ControlWorld}

omit sizes in
theorem ControlStepHolds.quiet (current : Current value history)
    (holds : ProcessHolds sha256 incarnation value world.files world.process)
    : ControlStepHolds sha256 incarnation history .quiet value world where
  holds := holds
  current := by simpa [ControlEvent.intended?] using current
  done payload same := nomatch same

/-- A write reaches further. -/
theorem ProcessHolds.write {lease : Option CommitFact} {before : Bytes}
    (holds : ProcessHolds sha256 incarnation value world.files world.process)
    (current : Current value history)
    (process : world.process = .writing lease before step rest) {count : Nat}
    (taken
      : controlStep sha256 incarnation world (.write count) = some (event, next))
    : ∃ value, ControlStepHolds sha256 incarnation history event value next := by
  simp only [controlStep, process, Option.ite_none_right_eq_some] at taken
  obtain ⟨torn, same⟩ := taken
  obtain ⟨rfl, rfl⟩ := Prod.mk.inj (Option.some.inj same)
  rw [process] at holds
  generalize reached : overwritten (world.files.read step.region) step.bytes count = content
    at torn ⊢
  cases holds with
  | tearing base held ready base_same old torn' part leased =>
      have read := ready.read_write held
      rw [← base_same] at read
      have files : world.files.write content step.region = base.write content step.region := by
        rw [base_same, ControlFiles.write_write]
      by_cases intent : step.region = .intent ∧ content = step.bytes
      · -- the intent is whole now
        obtain ⟨region, rfl⟩ := intent
        obtain ⟨value', ready', payload, follows, _⟩ := ready.finish sizes
        rw [if_pos region] at follows
        have fresh : world.files.read step.region ≠ step.bytes := by
          rw [read]
          exact part region
        rw [if_pos ⟨region, rfl, fresh⟩]
        refine ⟨value', ?_, ?_, fun payload same => nomatch same⟩
        · rw [← files] at ready'
          refine process ▸ .whole ready' region ?_ leased
          rw [region]
          rfl
        · have generation := follows.generation
          refine { counted := ?_, last := ?_ }
          · simp [ControlEvent.intended?, current.counted, generation]
          · simp [ControlEvent.intended?, payload]
      · rw [if_neg (fun all => intent ⟨all.1, all.2.1⟩)]
        refine ⟨value, .quiet current ?_⟩
        refine process ▸ .tearing base content ready files old torn ?_ leased
        intro region whole
        exact intent ⟨region, whole⟩
  | whole ready region there leased =>
      -- writing the same bytes again changes nothing
      have held : world.files.read step.region = step.bytes := by
        rw [region]
        exact there
      have again : content = step.bytes := by
        rw [← reached, held, overwritten, List.take_append_drop]
      subst again
      rw [if_neg (fun all => all.2.2 held)]
      have files : world.files.write step.bytes step.region = world.files := by
        rw [region, ControlFiles.write, ← there]
      refine ⟨value, .quiet current ?_⟩
      rw [files]
      exact process ▸ .whole ready region there leased

/-- A write is over. -/
theorem ProcessHolds.written {lease : Option CommitFact} {before : Bytes}
    (holds : ProcessHolds sha256 incarnation value world.files world.process)
    (current : Current value history)
    (process : world.process = .writing lease before step rest)
    (taken : controlStep sha256 incarnation world .written = some (event, next))
    : ∃ value, ControlStepHolds sha256 incarnation history event value next := by
  simp only [controlStep, process, Option.ite_none_right_eq_some] at taken
  obtain ⟨whole, same⟩ := taken
  obtain ⟨rfl, rfl⟩ := Prod.mk.inj (Option.some.inj same)
  rw [process] at holds
  cases holds with
  | tearing base held ready base_same old torn part leased =>
      have read := ready.read_write held
      rw [← base_same, whole] at read
      subst read
      obtain ⟨value', ready', payload, follows, settled⟩ := ready.finish sizes
      have unintended : step.region ≠ .intent := fun region => part region rfl
      rw [if_neg unintended] at follows
      subst follows
      rw [← base_same] at ready' settled
      refine ⟨value', ready'.process_holds sizes leased, ?_, ?_⟩
      · split <;> simpa [ControlEvent.intended?] using current
      · intro reported same
        split at same
        · next region =>
            obtain rfl := ControlEvent.done.inj same
            exact ⟨payload.symm, settled region⟩
        · cases same
  | whole ready region there leased =>
      rw [if_neg (by rw [region]; exact fun same => nomatch same)]
      exact ⟨value, .quiet current (ready.process_holds sizes leased)⟩

end Processes

-----------------------------------------------------------------------------------------
-- Runs
-----------------------------------------------------------------------------------------

/-- A value that no update led to. -/
def freshValue (active : Nat) (payload : Bytes) (side : active ≤ 1)
    (fits : payload.length ≤ payloadBytes)
    : ControlValue :=
  { generation := 0, active, payload, counted := Nat.zero_le _, side, fits }

def Region.size : Region → Nat
  | .commit => commitBytes
  | .intent => intentBytes
  | .slot _ => slotBytes

/-- The files have the sizes they are read with. -/
structure ControlFiles.Sized (files : ControlFiles) : Prop where
  commit : files.commit.length = commitBytes
  intent : files.intent.length = intentBytes
  slots : ∀ image ∈ files.slots, image.length = slotBytes

theorem ControlFiles.Sized.write (sized : files.Sized) {content : Bytes} {region : Region}
    (size : content.length = region.size)
    : (files.write content region).Sized := by
  cases region with
  | commit => exact { commit := size, intent := sized.intent, slots := sized.slots }
  | intent => exact { commit := sized.commit, intent := size, slots := sized.slots }
  | slot index =>
      refine { commit := sized.commit, intent := sized.intent, slots := ?_ }
      intro image inside
      rcases List.mem_or_eq_of_mem_set inside with old | rfl
      · exact sized.slots image old
      · exact size

section Runs

include sizes

/-- Every step keeps the regions at a value, and the value at the end of the history. -/
theorem ProcessHolds.step {world next : ControlWorld} {history : List Bytes}
    {event : ControlEvent}
    (holds : ProcessHolds sha256 incarnation value world.files world.process)
    (current : Current value history) {action : ControlAction}
    (taken : controlStep sha256 incarnation world action = some (event, next))
    : ∃ value, ControlStepHolds sha256 incarnation history event value next := by
  cases process : world.process with
  | idle =>
      have shown := holds.shows sizes
      cases action with
      | tryBeginPublication =>
          simp only [controlStep, process] at taken
          split at taken
          · next commit observed =>
              obtain ⟨rfl, rfl⟩ := Prod.mk.inj (Option.some.inj taken)
              obtain ⟨settled, rfl⟩ := shown.of_committed sizes observed
              exact ⟨value, .quiet current (.leased settled)⟩
          · cases taken
      | publishPrimaryControl payload => simp [controlStep, process] at taken
      | recover =>
          simp only [controlStep, process, Option.map_eq_some_iff] at taken
          obtain ⟨⟨commit, image, steps⟩, planned, same⟩ := taken
          obtain ⟨rfl, rfl⟩ := Prod.mk.inj same
          obtain ⟨steps', planned', ready⟩ := shown.ready sizes
          obtain ⟨rfl, rfl, rfl⟩ : commit = _ ∧ image = _ ∧ steps = _ := by
            simpa using planned.symm.trans planned'
          exact ⟨value, .quiet current (ready.process_holds sizes (fun _ none => nomatch none))⟩
      | remove removing =>
          simp only [controlStep, process, Option.map_eq_some_iff] at taken
          obtain ⟨steps, planned, same⟩ := taken
          obtain ⟨rfl, rfl⟩ := Prod.mk.inj same
          obtain ⟨last, ready⟩ := removalPlan_ready sizes shown planned
          exact ⟨value, .quiet current (ready.process_holds sizes (fun _ none => nomatch none))⟩
      | write count => simp [controlStep, process] at taken
      | written => simp [controlStep, process] at taken
      | stop =>
          simp only [controlStep] at taken
          obtain ⟨rfl, rfl⟩ := Prod.mk.inj (Option.some.inj taken)
          exact ⟨value, .quiet current (.idle shown)⟩
  | leased commit =>
      cases action with
      | publishPrimaryControl payload =>
          simp only [controlStep, process, Option.ite_none_left_eq_some, Option.map_eq_some_iff]
            at taken
          obtain ⟨_, ⟨next, steps⟩, planned, same⟩ := taken
          obtain ⟨rfl, rfl⟩ := Prod.mk.inj same
          rw [process] at holds
          cases holds with
          | leased settled =>
              obtain ⟨last, updates, rfl⟩ := transition_updates sizes planned
              have ready := Ready.settled settled updates
              refine ⟨value, .quiet current (ready.process_holds sizes ?_)⟩
              intro commit same
              exact (Option.some.inj same).symm
      | stop =>
          simp only [controlStep] at taken
          obtain ⟨rfl, rfl⟩ := Prod.mk.inj (Option.some.inj taken)
          exact ⟨value, .quiet current (.idle (holds.shows sizes))⟩
      | tryBeginPublication => simp [controlStep, process] at taken
      | recover => simp [controlStep, process] at taken
      | remove removing => simp [controlStep, process] at taken
      | write count => simp [controlStep, process] at taken
      | written => simp [controlStep, process] at taken
  | writing lease before step rest =>
      cases action with
      | write count => exact holds.write sizes current process taken
      | written => exact holds.written sizes current process taken
      | stop =>
          simp only [controlStep] at taken
          obtain ⟨rfl, rfl⟩ := Prod.mk.inj (Option.some.inj taken)
          exact ⟨value, .quiet current (.idle (holds.shows sizes))⟩
      | tryBeginPublication => simp [controlStep, process] at taken
      | publishPrimaryControl payload => simp [controlStep, process] at taken
      | recover => simp [controlStep, process] at taken
      | remove removing => simp [controlStep, process] at taken

theorem Ready.step_size {step : TransportStep} {rest : List TransportStep}
    (ready : Ready sha256 incarnation value files (step :: rest) last)
    : step.bytes.length = step.region.size := by
  cases ready with
  | settled settled updates =>
      cases updates with
      | cons follows updates => exact ControlValue.intentImage_length _ sizes
  | intended _ _ => exact ControlValue.slotImage_length _ sizes
  | slotted _ _ _ => exact ControlValue.commitImage_length _ sizes
  | written _ _ => exact ControlValue.commitImage_length _ sizes

omit sizes in
/-- Files of the right sizes have a region's content of the right size. -/
theorem Ready.content_size {step : TransportStep} {rest : List TransportStep}
    (ready : Ready sha256 incarnation value files (step :: rest) last) {content : Bytes}
    (sized : (files.write content step.region).Sized)
    : content.length = step.region.size := by
  cases ready with
  | settled settled updates =>
      cases updates with
      | cons follows updates => exact sized.intent
  | intended intended _ =>
      obtain ⟨image, there, _⟩ := intended.target
      obtain ⟨bound, _⟩ := List.getElem?_eq_some_iff.mp there
      exact sized.slots content (List.mem_set bound content)
  | slotted _ _ _ => exact sized.commit
  | written _ _ => exact sized.commit

omit sizes in
/-- Only a write changes the files. -/
theorem controlStep_files {world next : ControlWorld} {event : ControlEvent}
    {action : ControlAction}
    (taken : controlStep sha256 incarnation world action = some (event, next))
    : next.files = world.files
      ∨ ∃ lease before step rest count,
          world.process = .writing lease before step rest
          ∧ next.files
            = world.files.write (overwritten (world.files.read step.region) step.bytes count)
              step.region := by
  unfold controlStep at taken
  split at taken
  · split at taken
    · cases taken
      exact Or.inl rfl
    · cases taken
  · simp only [Option.ite_none_left_eq_some, Option.map_eq_some_iff] at taken
    obtain ⟨_, _, _, same⟩ := taken
    cases same
    exact Or.inl rfl
  · obtain ⟨_, _, same⟩ := Option.map_eq_some_iff.mp taken
    cases same
    exact Or.inl rfl
  · obtain ⟨_, _, same⟩ := Option.map_eq_some_iff.mp taken
    cases same
    exact Or.inl rfl
  · next count lease before step rest process =>
      simp only [Option.ite_none_right_eq_some] at taken
      obtain ⟨_, same⟩ := taken
      cases same
      exact Or.inr ⟨lease, before, step, rest, count, process, rfl⟩
  · split at taken
    · cases taken
      exact Or.inl rfl
    · cases taken
  · cases taken
    exact Or.inl rfl
  · cases taken

/-- The regions keep their sizes. -/
theorem ProcessHolds.step_sized {world next : ControlWorld} {event : ControlEvent}
    (holds : ProcessHolds sha256 incarnation value world.files world.process)
    (sized : world.files.Sized) {action : ControlAction}
    (taken : controlStep sha256 incarnation world action = some (event, next))
    : next.files.Sized := by
  rcases controlStep_files taken with same | ⟨lease, before, step, rest, count, process, written⟩
  · exact same ▸ sized
  · rw [written]
    rw [process] at holds
    have size
        : (world.files.read step.region).length = step.region.size
          ∧ step.bytes.length = step.region.size := by
      cases holds with
      | tearing base content ready base_same old torn part leased =>
          rw [base_same] at sized ⊢
          rw [ready.read_write]
          exact ⟨ready.content_size sized, ready.step_size sizes⟩
      | whole ready region there leased =>
          rw [region, ← there]
          exact ⟨sized.intent, sized.intent⟩
    refine sized.write ?_
    rw [overwritten_length (size.1.trans size.2.symm), size.2]

/-- Every plan that fits can be written to its end. -/
theorem Ready.completes {steps : List TransportStep}
    (ready : Ready sha256 incarnation value files steps last) (sized : files.Sized)
    (lease : Option CommitFact)
    : ∃ trace done,
        Run (controlStep sha256 incarnation) { files, process := proceed lease files steps } trace
          { files := done, process := lease.elim .idle .leased }
        ∧ Settled sha256 incarnation last done := by
  induction steps generalizing value files with
  | nil => exact ⟨[], files, .nil, ready.of_nil.2⟩
  | cons step rest ih =>
      have held : (files.read step.region).length = step.region.size :=
        ready.content_size (by rw [ready.write_read]; exact sized)
      have lengths := held.trans (ready.step_size sizes).symm
      have whole : overwritten (files.read step.region) step.bytes step.bytes.length = step.bytes :=
        overwritten_of_length_le lengths (Nat.le_refl _)
      have read := ready.read_write step.bytes
      obtain ⟨next, ready', _⟩ := ready.finish sizes
      obtain ⟨trace, done, run, settled⟩ := ih ready' (sized.write (ready.step_size sizes))
      have executed
          : ∃ events,
              execute (controlStep sha256 incarnation)
                { files, process := proceed lease files (step :: rest) }
                [.write step.bytes.length, .written]
              = some
                (
                  events,
                  {
                    files := files.write step.bytes step.region,
                    process := proceed lease (files.write step.bytes step.region) rest
                  }
                ) := by
        simp only [execute, controlStep, proceed, whole, read, true_or, or_true, if_true,
          Option.map_some]
        exact ⟨_, rfl⟩
      obtain ⟨events, executed⟩ := executed
      exact ⟨_, done, (Run.of_execute _ executed).append run, settled⟩

theorem initializeCreationControls_eq {initial : Bytes} (fits : initial.length ≤ payloadBytes)
    : initializeCreationControls sha256 incarnation initial
      = some
        {
          commit := (freshValue 0 initial (Nat.zero_le _) fits).commitImage sha256 incarnation,
          intent := List.replicate intentBytes 0,
          slots :=
            [
              (freshValue 0 initial (Nat.zero_le _) fits).slotImage sha256 incarnation,
              (freshValue 1 [] (Nat.le_refl _) (Nat.zero_le _)).slotImage sha256 incarnation
            ]
        } := by
  have first
      : factOf (encodeSlot sha256 incarnation 0 initial)
        = some
          (
            (freshValue 0 initial (Nat.zero_le _) fits).slotImage sha256 incarnation,
            (freshValue 0 initial (Nat.zero_le _) fits).slotFact sha256 incarnation
          ) :=
    congrArg factOf (ControlValue.encodeSlot_eq (freshValue 0 initial (Nat.zero_le _) fits) sizes)
  have second
      : factOf (encodeSlot sha256 incarnation 0 [])
        = some
          (
            (freshValue 1 [] (Nat.le_refl _) (Nat.zero_le _)).slotImage sha256 incarnation,
            (freshValue 1 [] (Nat.le_refl _) (Nat.zero_le _)).slotFact sha256 incarnation
          ) :=
    congrArg factOf
      (ControlValue.encodeSlot_eq (freshValue 1 [] (Nat.le_refl _) (Nat.zero_le _)) sizes)
  have commit
      : factOf
          (encodeCommit sha256 incarnation
            {
              generation := 0,
              active := 0,
              slotDigest :=
                ((freshValue 0 initial (Nat.zero_le _) fits).slotFact sha256 incarnation).digest
            })
        = some ((freshValue 0 initial (Nat.zero_le _) fits).commitImage sha256 incarnation) :=
    congrArg factOf (ControlValue.encodeCommit_eq (freshValue 0 initial (Nat.zero_le _) fits))
  simp only [initializeCreationControls, Option.bind_eq_bind, Option.bind_some, first, second,
    commit]
  rfl

/-- The files of a fresh root are settled at its initial payload. -/
theorem initializeCreationControls_settled {initial : Bytes}
    (created : initializeCreationControls sha256 incarnation initial = some files)
    : ∃ value,
        Settled sha256 incarnation value files
        ∧ Current value [initial]
        ∧ files.Sized := by
  have fits : initial.length ≤ payloadBytes := by
    by_contra long
    simp [initializeCreationControls, encodeSlot, Nat.lt_of_not_ge long, factOf,
      Except.toOption] at created
  obtain rfl := Option.some.inj (created.symm.trans (initializeCreationControls_eq sizes fits))
  refine ⟨freshValue 0 initial (Nat.zero_le _) fits, ?_, ?_, ?_⟩
  · exact {
      commit := rfl,
      slot := rfl,
      other := ⟨_, rfl, stale_slotImage sizes⟩,
      intent := by
        have blank : field (List.replicate intentBytes 0) 0 8 = List.replicate 8 0 := by
          simp [field, intentBytes]
        have zeros
            : validate sha256 incarnation (List.replicate intentBytes 0) intentBytes intentMagic
              = .error .version := by
          rw [validate, if_neg (by simp), blank, if_pos (by decide)]
        exact Or.inl (by simp only [decodeIntent, zeros]; rfl)
    }
  · exact { counted := rfl, last := rfl }
  · refine {
      commit := ControlValue.commitImage_length _ sizes,
      intent := List.length_replicate ..,
      slots := ?_
    }
    intro image inside
    rcases List.mem_pair.mp inside with rfl | rfl
    · exact ControlValue.slotImage_length _ sizes
    · exact ControlValue.slotImage_length _ sizes

/-- In every reachable state the regions are at the end of the history. -/
theorem controlRun_holds {initial : Bytes}
    (created : initializeCreationControls sha256 incarnation initial = some files)
    {trace : List ControlEvent} {world : ControlWorld}
    (run : Run (controlStep sha256 incarnation) { files } trace world)
    : ∃ value,
        ProcessHolds sha256 incarnation value world.files world.process
        ∧ Current value (register initial trace)
        ∧ world.files.Sized := by
  refine run.history_induction
    (motive := fun trace world =>
      ∃ value,
        ProcessHolds sha256 incarnation value world.files world.process
        ∧ Current value (register initial trace)
        ∧ world.files.Sized) ?_ ?_
  · obtain ⟨value, settled, current, sized⟩ := initializeCreationControls_settled sizes created
    exact ⟨value, .idle (.settled settled), current, sized⟩
  · rintro trace middle action event last _ ⟨value, holds, current, sized⟩ taken
    obtain ⟨next, step⟩ := holds.step sizes current taken
    refine ⟨next, step.holds, ?_, holds.step_sized sizes sized taken⟩
    have history : register initial (trace ++ [event])
        = register initial trace ++ event.intended?.toList := by
      cases happened : event.intended? <;> simp [register, happened]
    rw [history]
    exact step.current

end Runs

/-- What the control files promise of the runs from them. -/
structure CrashAtomic (sha256 : Bytes → Bytes) (incarnation initial : Bytes)
    (files : ControlFiles)
    : Prop where
  /-- The regions identify the last payload whose intent was whole, as so many updates. -/
  identifies
    : ∀ {trace : List ControlEvent} {world : ControlWorld},
        Run (controlStep sha256 incarnation) { files } trace world
        → observedStep sha256 incarnation world.files ≠ .unknown
          ∧ identified sha256 incarnation world.files
            = (register initial trace).getLast?.map
              (fun payload => ((trace.filterMap ControlEvent.intended?).length, payload))
  /-- An update that is reported is committed, and the last one of the register. -/
  done
    : ∀ {trace : List ControlEvent} {payload : Bytes} {world : ControlWorld},
        Run (controlStep sha256 incarnation) { files } (trace ++ [.done payload]) world
        → (register initial trace).getLast? = some payload
          ∧ ∃ commit, observedStep sha256 incarnation world.files = .committed commit
  /-- Recovery can end, in the commit of the same payload, and then there is none to do. -/
  recovers
    : ∀ {trace : List ControlEvent} {world : ControlWorld},
        Run (controlStep sha256 incarnation) { files } trace world
        → ∃ later recovered commit image,
            Run (controlStep sha256 incarnation) { world with process := .idle } later
              { files := recovered }
            ∧ observedStep sha256 incarnation recovered = .committed commit
            ∧ identified sha256 incarnation recovered
              = identified sha256 incarnation world.files
            ∧ recoveryPlan sha256 incarnation recovered = some (commit, image, [])
  /-- Over a commit, a payload that fits can be published. -/
  publishes
    : ∀ {trace : List ControlEvent} {world : ControlWorld} {commit : CommitFact}
        {payload : Bytes},
        Run (controlStep sha256 incarnation) { files } trace world
        → observedStep sha256 incarnation world.files = .committed commit
        → commit.generation < u64Max
        → payload.length ≤ payloadBytes
        → ∃ later published next,
            Run (controlStep sha256 incarnation) { world with process := .idle } later
              { files := published, process := .leased next }
            ∧ observedStep sha256 incarnation published = .committed next
            ∧ identified sha256 incarnation published = some (commit.generation + 1, payload)

/-- The control files are a crash-atomic register. Witness: the combination that the regions are
in, with the plan that fits it.
-/
theorem controls_crashAtomic (sizes : ControlSizes sha256 incarnation) {initial : Bytes}
    (created : initializeCreationControls sha256 incarnation initial = some files)
    : CrashAtomic sha256 incarnation initial files where
  identifies {trace world} run := by
    obtain ⟨value, holds, current, _⟩ := controlRun_holds sizes created run
    have shown := holds.shows sizes
    have counted : (trace.filterMap ControlEvent.intended?).length = value.generation := by
      simpa [register] using current.counted
    refine ⟨?_, ?_⟩
    · cases shown with
      | settled settled => rw [observedStep_settled sizes settled]; exact nofun
      | intended earlier intended =>
          rcases observedStep_intended sizes intended with ⟨step, _⟩ | step
          · rw [step]; exact nofun
          · rw [step]; exact nofun
      | written written => rw [observedStep_written sizes written]; exact nofun
    · rw [shown.identified sizes, current.last, counted]
      rfl
  done {trace payload world} run := by
    obtain ⟨mid, action, next, reached, taken, rest⟩ := run.split_at
    obtain rfl := rest.of_nil
    obtain ⟨value, holds, current, _⟩ := controlRun_holds sizes created reached
    obtain ⟨last, step⟩ := holds.step sizes current taken
    obtain ⟨rfl, settled⟩ := step.done payload rfl
    have at_end := step.current.last
    simp only [ControlEvent.intended?, Option.toList_none, List.append_nil] at at_end
    exact ⟨at_end, _, observedStep_settled sizes settled⟩
  recovers {trace world} run := by
    obtain ⟨value, holds, current, sized⟩ := controlRun_holds sizes created run
    have shown := holds.shows sizes
    obtain ⟨steps, plan, ready⟩ := shown.ready sizes
    obtain ⟨later, recovered, completed, settled⟩ := ready.completes sizes sized none
    have begun
        : controlStep sha256 incarnation { world with process := .idle } .recover
          = some
            (
              .quiet,
              { files := world.files, process := proceed none world.files steps }
            ) := by
      simp only [controlStep, plan, Option.map_some]
    refine ⟨_, recovered, _, _, (Run.nil.snoc .recover begun).append completed,
      observedStep_settled sizes settled, ?_, recoveryPlan_settled sizes settled⟩
    rw [shown.identified sizes, (Shows.settled settled).identified sizes]
  publishes {trace world commit payload} run observed room fits := by
    obtain ⟨value, holds, current, sized⟩ := controlRun_holds sizes created run
    obtain ⟨settled, rfl⟩ := (holds.shows sizes).of_committed sizes observed
    let next : ControlValue :=
      {
        generation := value.generation + 1,
        active := 1 - value.active,
        payload,
        counted := room,
        side := Nat.sub_le ..,
        fits
      }
    have follows : value.Follows next := { generation := rfl, active := rfl }
    have planned := transition_follows sizes follows
    have ready := Ready.settled settled (.cons follows (.nil next))
    obtain ⟨later, published, completed, settled'⟩ :=
      ready.completes sizes sized (some (next.commitFact sha256 incarnation))
    have leased
        : controlStep sha256 incarnation { world with process := .idle } .tryBeginPublication
          = some
            (
              .quiet,
              { files := world.files, process := .leased (value.commitFact sha256 incarnation) }
            ) := by
      simp only [controlStep, observed]
    have publishing
        : controlStep sha256 incarnation
            { files := world.files, process := .leased (value.commitFact sha256 incarnation) }
            (.publishPrimaryControl payload)
          = some
            (
              .quiet,
              {
                files := world.files,
                process := proceed (some (next.commitFact sha256 incarnation)) world.files
                  [
                    next.intentStep sha256 incarnation,
                    next.slotStep sha256 incarnation,
                    next.commitStep sha256 incarnation
                  ]
              }
            ) := by
      have stored
          : factOf (decodeCommit sha256 incarnation world.files.commit)
            = some (value.commitFact sha256 incarnation) := by
        rw [settled.commit, factOf_commit sizes]
      simp only [controlStep, stored, ne_eq, not_true_eq_false, if_false]
      rw [planned]
      rfl
    have begun := (Run.nil.snoc ControlAction.tryBeginPublication leased).snoc _ publishing
    exact ⟨_, published, _, begun.append completed, observedStep_settled sizes settled',
      (Shows.settled settled').identified sizes⟩

-- A fresh root

def freshIncarnation : Bytes := List.replicate 32 7

/-- The ASCII codes of `CGBUILD1`. -/
def buildPayload : Bytes := [67, 71, 66, 85, 73, 76, 68, 49]

def buildDigest : Bytes :=
  [123, 20, 99, 156, 146, 81, 119, 163, 112, 43, 55, 208, 73, 209, 21, 165,
    61, 153, 237, 118, 214, 240, 74, 23, 122, 14, 122, 16, 28, 95, 135, 60]

/-- The SHA-256 of what is hashed for the files of a fresh root. -/
def freshDigests : List (Bytes × Bytes) :=
  [
    (slotBody freshIncarnation 0 buildPayload, buildDigest),
    (
      slotBody freshIncarnation 0 [],
      [14, 231, 128, 57, 134, 106, 57, 171, 246, 65, 33, 222, 228, 172, 89, 156,
        124, 86, 44, 130, 46, 191, 20, 108, 137, 76, 120, 213, 150, 224, 195, 155]
    ),
    (
      commitBody freshIncarnation { generation := 0, active := 0, slotDigest := buildDigest },
      [135, 91, 75, 62, 121, 122, 209, 52, 11, 192, 19, 91, 76, 196, 216, 228,
        233, 131, 162, 201, 146, 15, 23, 215, 76, 43, 193, 199, 251, 17, 48, 184]
    )
  ]

def freshSha256 (bytes : Bytes) : Bytes :=
  match freshDigests.find? (fun entry => entry.1 = bytes) with
  | some entry => entry.2
  | none => List.replicate 32 0

theorem fresh_sizes : ControlSizes freshSha256 freshIncarnation where
  digest bytes := by
    have all : ∀ entry ∈ freshDigests, entry.2.length = 32 := by
      simp [freshDigests, buildDigest]
    unfold freshSha256
    split
    · next entry found => exact all entry (List.mem_of_find?_eq_some found)
    · rfl
  incarnation := rfl

theorem controls_crashAtomic_fresh
    : ∃ files,
        initializeCreationControls freshSha256 freshIncarnation buildPayload = some files
        ∧ CrashAtomic freshSha256 freshIncarnation buildPayload files := by
  have created := initializeCreationControls_eq fresh_sizes (by decide : buildPayload.length ≤ _)
  exact ⟨_, created, controls_crashAtomic fresh_sizes created⟩

end CodebaseGraph.Storage.Maintenance
