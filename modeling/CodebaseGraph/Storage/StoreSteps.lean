import CodebaseGraph.Storage.Managed
import CodebaseGraph.Storage.Readiness
import CodebaseGraph.Transition.Runs

/-! The managed store under any sequence of its operations.
Each operation runs with fates of its own, so that it may fail or die between any two of its
steps; its event is the list of the stores it passes through.
-/

namespace CodebaseGraph.Storage

open CodebaseGraph.Crash CodebaseGraph.Transition Program

/-- The store and the write sessions that are alive, by the run they own. -/
structure Service where
  store : Store := {}
  sessions : String → Option ManagedWriteSession := fun _ => none

inductive Operation where
  | beginWrite (runId candidateId : String) (registered : Bool) (order : List RunEntry)
  | fillCandidate (runId : String) (change : GenerationDirectory → GenerationDirectory)
  | sharePhase (runId : String) (owned : Bool)
  | markReady (runId : String) (stats : GenerationStats) (nowMs : Nat)
  | publish (runId : String) (stats : GenerationStats) (nowMs : Nat) (order : List RunEntry)
  | abort (runId : String) (error : Option String) (order : List RunEntry)
  | recover (listings : List RunListing)
  | changeRegistry (answer : Except String Bool)
  | crash (runId : String)

namespace Service

def setSession (service : Service) (runId : String) (session : Option ManagedWriteSession)
    : Service :=
  { service with sessions := Function.update service.sessions runId session }

/-- A program has run: its trail, and the store it leaves behind. -/
def conclude {Error α : Type} (service : Service) (outcome : Outcome Store NativeError Error α)
    : List Store × Service :=
  (outcome.trail, { service with store := outcome.state })

/-- A change of the store from outside its operations. -/
def replaceStore (service : Service) (store : Store) : List Store × Service :=
  ([store], { service with store := store })

/-- A session after `begin_write`. -/
def afterBegin {Error : Type} (service : Service) (runId : String)
    : Exit Error ManagedWriteSession → Service
  | .value session => service.setSession runId (some session)
  | .stopped _ | .crashed => service

/-- A session after `mark_ready_with_stats`. -/
def afterMark {Error : Type} (service : Service) (runId : String)
    (session : ManagedWriteSession)
    : Exit Error Unit → Service
  | .value _ => service.setSession runId (some { session with ready := true })
  | .stopped _ => service
  | .crashed => service.setSession runId none

@[simp] theorem afterBegin_store {Error : Type} {service : Service} {runId : String}
    {exit : Exit Error ManagedWriteSession}
    : (service.afterBegin runId exit).store = service.store := by
  cases exit <;> rfl

@[simp] theorem afterMark_store {Error : Type} {service : Service} {runId : String}
    {session : ManagedWriteSession} {exit : Exit Error Unit}
    : (service.afterMark runId session exit).store = service.store := by
  cases exit <;> rfl

/-- One operation. A fresh candidate id is one that no journal has recorded; a published or
aborted session is finished, and the session of a dead process is gone.
-/
def step (host : Host) : StepFn Service (Operation × List (Fate NativeError)) (List Store) :=
  fun service (operation, fates) =>
    let store := service.store
    match operation with
    | .beginWrite runId candidateId registered order =>
        if candidateId ∈ store.recorded then
          none
        else
          let outcome := beginWrite host runId candidateId registered order store fates
          some ((service.conclude outcome).map id (fun next =>
            next.afterBegin runId outcome.exit))
    | .fillCandidate runId change => do
        let session ← service.sessions runId
        let _ ← session.workspace
        some (service.replaceStore (store.changeFiles (.staged runId session.candidateId) change))
    | .sharePhase runId owned => do
        let session ← service.sessions runId
        let workspace ← session.workspace
        some ([], service.setSession runId
          (some { session with workspace := some { workspace with phaseOwned := owned } }))
    | .markReady runId stats nowMs => do
        let session ← service.sessions runId
        let outcome := markReadyWithStats host session stats nowMs store fates
        some ((service.conclude outcome).map id (fun next =>
          next.afterMark runId session outcome.exit))
    | .publish runId stats nowMs order => do
        let session ← service.sessions runId
        some ((service.conclude
          (publishWithStatsTyped host session stats nowMs order store fates)).map id
            (fun next => next.setSession runId none))
    | .abort runId error order => do
        let session ← service.sessions runId
        let workspace ← session.workspace
        some ((service.conclude (closeWorkspace host workspace error order store fates)).map id
          (fun next => next.setSession runId none))
    | .recover listings =>
        some (service.conclude (recoverRequiredWithOwnedWriter host listings store fates))
    | .changeRegistry answer => some (service.replaceStore { store with registry := answer })
    | .crash runId => some ([], service.setSession runId none)

end Service

/-- Each operation changes the store in allowed steps only; a new session may count on a
candidate id that no journal has recorded.
-/
structure OperationsKeep (host : Host) (allowed : Store → Store → Prop) : Prop where
  begins
    : ∀ {runId candidateId registered order},
        Ensures (fun store => candidateId ∉ store.recorded) allowed
          (beginWrite host runId candidateId registered order) (fun _ _ => True) (fun _ _ => True)
  fills
    : ∀ {store : Store} {runId generationId change},
        allowed store (store.changeFiles (.staged runId generationId) change)
  marks : ∀ {session stats nowMs}, Keeps allowed (markReadyWithStats host session stats nowMs)
  publishes
    : ∀ {session stats nowMs order},
        Keeps allowed (publishWithStatsTyped host session stats nowMs order)
  closes
    : ∀ {workspace error order}, Keeps allowed (closeWorkspace host workspace error order)
  recovers : ∀ {listings}, Keeps allowed (recoverRequiredWithOwnedWriter host listings)
  registers : ∀ {store : Store} {answer}, allowed store { store with registry := answer }

section Runs

variable {host : Host} {allowed : Store → Store → Prop}

/-- One operation is a path of allowed steps. -/
theorem OperationsKeep.step_path (kept : OperationsKeep host allowed) {service next : Service}
    {operation : Operation} {fates : List (Fate NativeError)} {event : List Store}
    (enabled : Service.step host service (operation, fates) = some (event, next))
    : Path allowed service.store event next.store := by
  cases operation with
  | beginWrite runId candidateId registered order =>
      simp only [Service.step, Option.ite_none_left_eq_some, Option.some.injEq] at enabled
      obtain ⟨fresh, taken⟩ := enabled
      obtain ⟨rfl, rfl⟩ := Prod.mk.inj taken
      rw [Service.afterBegin_store]
      exact (kept.begins service.store fates fresh).1
  | fillCandidate runId change =>
      simp only [Service.step, Option.bind_eq_bind, Option.bind_eq_some_iff, Option.some.injEq]
        at enabled
      obtain ⟨session, _, _, _, taken⟩ := enabled
      obtain ⟨rfl, rfl⟩ := Prod.mk.inj taken
      exact .cons kept.fills (.nil _)
  | sharePhase runId owned =>
      simp only [Service.step, Option.bind_eq_bind, Option.bind_eq_some_iff, Option.some.injEq]
        at enabled
      obtain ⟨session, _, _, _, taken⟩ := enabled
      obtain ⟨rfl, rfl⟩ := Prod.mk.inj taken
      exact .nil _
  | markReady runId stats nowMs =>
      simp only [Service.step, Option.bind_eq_bind, Option.bind_eq_some_iff, Option.some.injEq]
        at enabled
      obtain ⟨session, _, taken⟩ := enabled
      obtain ⟨rfl, rfl⟩ := Prod.mk.inj taken
      rw [Service.afterMark_store]
      exact kept.marks.path service.store fates
  | publish runId stats nowMs order =>
      simp only [Service.step, Option.bind_eq_bind, Option.bind_eq_some_iff, Option.some.injEq]
        at enabled
      obtain ⟨session, _, taken⟩ := enabled
      obtain ⟨rfl, rfl⟩ := Prod.mk.inj taken
      exact kept.publishes.path service.store fates
  | abort runId error order =>
      simp only [Service.step, Option.bind_eq_bind, Option.bind_eq_some_iff, Option.some.injEq]
        at enabled
      obtain ⟨session, _, workspace, _, taken⟩ := enabled
      obtain ⟨rfl, rfl⟩ := Prod.mk.inj taken
      exact kept.closes.path service.store fates
  | recover listings =>
      obtain ⟨rfl, rfl⟩ := Prod.mk.inj (Option.some.inj enabled)
      exact kept.recovers.path service.store fates
  | changeRegistry answer =>
      obtain ⟨rfl, rfl⟩ := Prod.mk.inj (Option.some.inj enabled)
      exact .cons kept.registers (.nil _)
  | crash runId =>
      obtain ⟨rfl, rfl⟩ := Prod.mk.inj (Option.some.inj enabled)
      exact .nil _

/-- A whole run is one path of allowed steps. -/
theorem OperationsKeep.run_path (kept : OperationsKeep host allowed) {service last : Service}
    {trace : List (List Store)} (run : Run (Service.step host) service trace last)
    : Path allowed service.store trace.flatten last.store := by
  induction run with
  | nil => exact .nil _
  | snoc _ action enabled ih =>
      rw [List.flatten_append, List.flatten_singleton]
      exact ih.append (kept.step_path enabled)

end Runs

/-- Every store a run passes through, from the first one on. -/
def visited (start : Store) (trace : List (List Store)) : List Store :=
  start :: trace.flatten

end CodebaseGraph.Storage

/-! What a single step of an operation can change in the store.
Steps on run directories keep the identity of every journal; the pointer moves only from the
base of a publishing run to its candidate; a ready generation stays ready.
-/

namespace CodebaseGraph.Storage

open CodebaseGraph.Crash Program

namespace Store

/-- The journal that a run directory holds. -/
def HasJournal (store : Store) (runId : String) (journal : RunJournal) : Prop :=
  ∃ run, store.runs runId = some run ∧ run.journal = some (.ok journal)

theorem HasJournal.unique {store : Store} {runId : String} {journal other : RunJournal}
    (held : store.HasJournal runId journal) (held' : store.HasJournal runId other)
    : journal = other := by
  obtain ⟨run, found, content⟩ := held
  obtain ⟨run', found', content'⟩ := held'
  rw [found] at found'
  cases found'
  rw [content] at content'
  exact Except.ok.inj (Option.some.inj content')

/-- A published generation that `validate_ready_generation` accepts. -/
def Ready (host : Host) (store : Store) (generationId : String) : Prop :=
  ∃ files,
    store.generations generationId = some (.directory files)
    ∧ validateReadyGeneration host (.published generationId) files = .ok ()

theorem ready_iff {host : Host} {store : Store} {generationId : String}
    : store.Ready host generationId ↔ store.ReadyAt host (.published generationId) := by
  simp [Ready, ReadyAt, root?, validateReadyGeneration_eq_ok]

/-- The generation that the pointer names. -/
def activeId (store : Store) : Option String :=
  match store.active with
  | .regular (.ok active) => some active.generationId
  | _ => none

/-- The pointer file holds what the program believes to be active. -/
def PointsTo (store : Store) : Option ActiveGeneration → Prop
  | some active => store.active = .regular (.ok active)
  | none => store.active = .absent

theorem PointsTo.activeId {store : Store} {active : Option ActiveGeneration}
    (points : store.PointsTo active)
    : store.activeId = active.map ActiveGeneration.generationId := by
  cases active with
  | none => simp only [PointsTo] at points; simp [Store.activeId, points]
  | some active => simp only [PointsTo] at points; simp [Store.activeId, points]

end Store

/-- Two journals of the same base and candidate. -/
def RunJournal.SameIdentity (old new : RunJournal) : Prop :=
  old.baseGenerationId = new.baseGenerationId
  ∧ old.candidateGenerationId = new.candidateGenerationId

/-- A change of run directories only. A journal is new, with no candidate yet, or keeps its
base and candidate.
-/
structure RunsOnly (before after : Store) : Prop where
  active : after.active = before.active
  generations : after.generations = before.generations
  recorded : after.recorded = before.recorded
  journals
    : ∀ {runId journal},
        after.HasJournal runId journal
        → journal.candidateGenerationId = none
          ∨ ∃ old, before.HasJournal runId old ∧ old.SameIdentity journal

/-- The pointer moves from the base of a publishing run to its ready candidate. -/
def Activates (host : Host) (before after : Store) : Prop :=
  ∃ runId journal candidateId active,
    before.HasJournal runId journal
    ∧ (journal.phase = .publishing ∨ journal.phase = .published)
    ∧ journal.baseGenerationId = before.activeId
    ∧ journal.candidateGenerationId = some candidateId
    ∧ before.Ready host candidateId
    ∧ after.PointsTo (some active)
    ∧ active.generationId = candidateId

/-- Where the journal of a run comes from: it has no candidate, or it is the journal the run
had before, or it names a candidate for the first time.
-/
def JournalOrigin (before after : Store) (runId : String) (journal : RunJournal) : Prop :=
  journal.candidateGenerationId = none
  ∨ (∃ old, before.HasJournal runId old ∧ old.SameIdentity journal)
  ∨ ∃ candidateId,
      journal.candidateGenerationId = some candidateId
      ∧ candidateId ∉ before.recorded
      ∧ candidateId ∈ after.recorded
      ∧ ∀ other, other ≠ runId → after.runs other = before.runs other

/-- One step of any operation. -/
structure StoreStep (host : Host) (before after : Store) : Prop where
  ready : ∀ {generationId}, before.Ready host generationId → after.Ready host generationId
  pointer : after.active = before.active ∨ Activates host before after
  recorded : ∀ {candidateId}, candidateId ∈ before.recorded → candidateId ∈ after.recorded
  journals
    : ∀ {runId journal},
        after.HasJournal runId journal → JournalOrigin before after runId journal

theorem RunsOnly.storeStep {host : Host} {before after : Store} (only : RunsOnly before after)
    : StoreStep host before after where
  ready := by
    rintro generationId ⟨files, held, ready⟩
    exact ⟨files, by rw [only.generations, held], ready⟩
  pointer := .inl only.active
  recorded := by
    intro candidateId member
    rwa [only.recorded]
  journals := by
    intro runId journal held
    rcases only.journals held with fresh | old
    · exact .inl fresh
    · exact .inr (.inl old)

section Updates

variable {store : Store} {runId : String}

theorem Store.HasJournal.of_updateRun {change : RunDirectory → RunDirectory} {other : String}
    {journal : RunJournal} (held : (store.updateRun runId change).HasJournal other journal)
    : (other ≠ runId ∧ store.HasJournal other journal)
      ∨ (other = runId
        ∧ ∃ run, store.runs runId = some run
          ∧ (change run).journal = some (.ok journal)) := by
  obtain ⟨run, found, content⟩ := held
  by_cases same : other = runId
  · subst same
    simp only [Store.updateRun, Function.update_self, Option.map_eq_some_iff] at found
    obtain ⟨old, present, rfl⟩ := found
    exact .inr ⟨rfl, old, present, content⟩
  · simp only [Store.updateRun, ne_eq, same, not_false_eq_true, Function.update_of_ne] at found
    exact .inl ⟨same, run, found, content⟩

/-- A run directory may change in any way that keeps or removes its journal. -/
theorem RunsOnly.updateRun {change : RunDirectory → RunDirectory}
    (kept
      : ∀ run journal,
          (change run).journal = some (.ok journal) → run.journal = some (.ok journal))
    : RunsOnly store (store.updateRun runId change) where
  active := rfl
  generations := rfl
  recorded := rfl
  journals := by
    intro other journal held
    right
    rcases held.of_updateRun with ⟨_, unchanged⟩ | ⟨rfl, run, present, content⟩
    · exact ⟨journal, unchanged, rfl, rfl⟩
    · exact ⟨journal, ⟨run, present, kept run journal content⟩, rfl, rfl⟩

/-- A journal is replaced by one of the same identity. -/
theorem RunsOnly.writeJournal {journal old : RunJournal} (held : store.HasJournal runId old)
    (same : old.SameIdentity journal)
    : RunsOnly store
        (store.updateRun runId (fun run => { run with journal := some (.ok journal) })) where
  active := rfl
  generations := rfl
  recorded := rfl
  journals := by
    intro other found holding
    right
    rcases holding.of_updateRun with ⟨_, unchanged⟩ | ⟨rfl, run, _, content⟩
    · exact ⟨found, unchanged, rfl, rfl⟩
    · simp only [Option.some.injEq, Except.ok.injEq] at content
      subst content
      exact ⟨old, held, same⟩

theorem Store.HasJournal.writeJournal {journal old : RunJournal}
    (held : store.HasJournal runId old)
    : (store.updateRun runId (fun run => { run with journal := some (.ok journal) })).HasJournal
        runId journal := by
  obtain ⟨run, present, _⟩ := held
  exact ⟨{ run with journal := some (.ok journal) }, by simp [Store.updateRun, present], rfl⟩

theorem Store.HasJournal.updateRun {journal : RunJournal} {other : String}
    {change : RunDirectory → RunDirectory} (held : store.HasJournal other journal)
    (kept : ∀ run, (change run).journal = run.journal)
    : (store.updateRun runId change).HasJournal other journal := by
  obtain ⟨run, present, content⟩ := held
  by_cases same : other = runId
  · subst same
    exact ⟨change run, by simp [Store.updateRun, present], by rw [kept, content]⟩
  · exact ⟨run, by simp [Store.updateRun, Function.update_of_ne same, present], content⟩

theorem RunsOnly.changeStaged {generationId : String}
    {change : GenerationDirectory → GenerationDirectory}
    : RunsOnly store (store.changeFiles (.staged runId generationId) change) :=
  .updateRun (fun _ _ content => content)

end Updates

section Workspaces

variable {host : Host} {allowed : Store → Store → Prop}

theorem uncertainStep_keeps : Keeps allowed uncertainStep :=
  .observe

theorem ensureRegistryEmpty_keeps : Keeps allowed (ensureRegistryEmpty host) :=
  .observe

/-- A journal that was read is the one the run directory holds. -/
theorem readJournal_ensures {runId : String} {pre : Store → Prop}
    : Ensures pre allowed (readJournal runId)
        (fun journal store => pre store ∧ store.HasJournal runId journal)
        (fun _ store => pre store) := by
  refine .observe ?_ (fun _ _ start _ => start) (fun _ _ start => start)
  intro store journal start answer
  refine ⟨start, ?_⟩
  split at answer
  · next content found => exact ⟨_, found, by rw [answer]⟩
  · simp at answer

/-- Marking a phase keeps the identity of the journal and leaves the phase behind. -/
theorem markPhase_ensures {runId : String} {phase : RunPhase}
    {activeGenerationId lastError : Option String}
    : Ensures (fun _ => True) RunsOnly (markPhase runId phase activeGenerationId lastError)
        (fun _ store => ∃ journal, store.HasJournal runId journal ∧ journal.phase = phase)
        (fun _ _ => True) := by
  refine .bind _ (readJournal_ensures.anyFailure) (fun journal => ?_)
  refine .effect ?_ ?_ (fun _ _ _ => trivial) (fun _ _ _ => trivial)
  · rintro store ⟨_, held⟩
    exact .writeJournal held ⟨rfl, rfl⟩
  · rintro store ⟨_, held⟩
    exact ⟨_, held.writeJournal, rfl⟩

theorem markPhase_keeps {runId : String} {phase : RunPhase}
    {activeGenerationId lastError : Option String}
    : Keeps RunsOnly (markPhase runId phase activeGenerationId lastError) :=
  markPhase_ensures.keeps

theorem markCandidateReady_keeps {runId : String}
    : Keeps RunsOnly (markCandidateReady runId) := by
  refine Ensures.bind _ (readJournal_ensures.anyFailure) (fun journal => ?_)
  split
  · exact .raise (fun _ _ => trivial)
  · refine .effect ?_ (fun _ _ => trivial) (fun _ _ _ => trivial) (fun _ _ _ => trivial)
    rintro store ⟨_, held⟩
    exact .writeJournal held ⟨rfl, rfl⟩

theorem RunsOnly.removeRun {store : Store} {runId : String} {run : Option RunDirectory}
    (unwritten : ∀ directory, run = some directory → directory.journal = none)
    : RunsOnly store { store with runs := Function.update store.runs runId run } where
  active := rfl
  generations := rfl
  recorded := rfl
  journals := by
    rintro other journal ⟨directory, found, content⟩
    by_cases same : other = runId
    · subst same
      simp only [Function.update_self] at found
      simp [unwritten directory found] at content
    · simp only [ne_eq, same, not_false_eq_true, Function.update_of_ne] at found
      exact .inr ⟨journal, ⟨directory, found, content⟩, rfl, rfl⟩

theorem RunDirectory.removeEntry_journal {run : RunDirectory} {entry : RunEntry}
    {content : Except NativeError RunJournal}
    (held : (run.removeEntry entry).journal = some content)
    : run.journal = some content := by
  cases entry <;> simp_all [RunDirectory.removeEntry]

theorem removeRunTree_keeps {runId : String} {order : List RunEntry}
    : Keeps RunsOnly (removeRunTree runId order) := by
  induction order with
  | nil => exact .bind uncertainStep_keeps (fun _ => .effect (fun _ => .removeRun (by simp)))
  | cons entry rest ih =>
      refine .bind (.effect (fun _ => .updateRun ?_)) (fun _ => ih)
      exact fun _ _ held => RunDirectory.removeEntry_journal held

theorem checkBarrier_keeps {barrier : Bool} : Keeps allowed (checkBarrier host barrier) := by
  unfold checkBarrier
  split
  · exact ensureRegistryEmpty_keeps
  · exact .ret

theorem ensureCleanupAllowed_keeps {workspace : RunWorkspace}
    : Keeps allowed (ensureCleanupAllowed host workspace) :=
  .bind checkBarrier_keeps (fun _ => .bind .observe (fun _ => checkBarrier_keeps))

theorem terminateRegistered_keeps {workspace : RunWorkspace} {primaryError : Option String}
    : Keeps RunsOnly (terminateRegistered workspace primaryError) := by
  refine .bind (Keeps.mapError Keeps.observe) (fun journal => ?_)
  split
  · exact .raise
  · refine .recoverWith (.effect (fun _ => .updateRun (fun _ _ held => held))) (fun _ => ?_)
    exact .bind markPhase_keeps.ignore (fun _ => .raise)

theorem removeUnregistered_keeps {workspace : RunWorkspace} {primaryError : Option String}
    {order : List RunEntry}
    : Keeps RunsOnly (removeUnregistered workspace primaryError order) :=
  .recoverWith removeRunTree_keeps (fun _ => .bind markPhase_keeps.mapError (fun _ => .raise))

theorem markFailed_keeps {runId : String} {primaryError : Option String}
    : Keeps RunsOnly (markFailed runId primaryError) := by
  cases primaryError with
  | none => exact .ret
  | some error => exact markPhase_keeps.mapError

theorem finishInner_keeps {workspace : RunWorkspace} {primaryError : Option String}
    {order : List RunEntry}
    : Keeps RunsOnly (finishInner host workspace primaryError order) := by
  unfold finishInner
  split
  · exact .raise
  · refine .bind (.recoverWith ensureCleanupAllowed_keeps (fun _ => ?_)) (fun _ => ?_)
    · exact .bind markPhase_keeps.ignore (fun _ => .raise)
    · refine .bind markFailed_keeps (fun _ => ?_)
      unfold releaseDirectory
      split
      · exact terminateRegistered_keeps
      · exact removeUnregistered_keeps

theorem closeWorkspace_keeps {workspace : RunWorkspace} {primaryError : Option String}
    {order : List RunEntry}
    : Keeps RunsOnly (closeWorkspace host workspace primaryError order) := by
  refine .recoverWith finishInner_keeps (fun failure => ?_)
  split
  · exact .raise
  · exact .bind finishInner_keeps.ignore (fun _ => .raise)

theorem prepareCandidate_keeps {workspace : RunWorkspace} {candidateId : String}
    {stats : GenerationStats} {nowMs : Nat}
    : Keeps RunsOnly (prepareCandidate host workspace candidateId stats nowMs) := by
  refine .bind ensureRegistryEmpty_keeps (fun _ => .bind .observe (fun _ => ?_))
  refine .bind .observe (fun journal => .bind ?metadata (fun _ => .bind ?ready (fun _ => ?_)))
  case metadata =>
    exact .bind .observe (fun _ => .bind (.effect (fun _ => .changeStaged)) (fun _ => .observe))
  case ready =>
    refine .bind .observe (fun _ => .bind (.effect (fun _ => .changeStaged)) (fun _ => ?_))
    exact .bind (.effect (fun _ => .changeStaged)) (fun _ => uncertainStep_keeps)
  exact .bind .observe (fun _ => markCandidateReady_keeps)

theorem markReadyWithStats_keeps {session : ManagedWriteSession} {stats : GenerationStats}
    {nowMs : Nat}
    : Keeps RunsOnly (markReadyWithStats host session stats nowMs) := by
  unfold markReadyWithStats
  split
  · exact prepareCandidate_keeps
  · exact .raise

/-- An aborted publication never goes on. -/
theorem failAfterAbort_ensures {α : Type} {workspace : RunWorkspace}
    {failure : PublicationFailure} {order : List RunEntry}
    : Ensures (fun _ => True) RunsOnly (failAfterAbort host workspace failure order : Disk _ α)
        (fun _ _ => False)
        (fun problem _ => problem.mayHaveEffects = failure.mayHaveEffects) := by
  refine .bind (fun _ _ => True) (Ensures.mapError ?_) (fun _ => .raise (fun _ _ => rfl))
  refine .recoverWith (fun _ _ => True) ?_ (fun _ => .ret (fun _ _ => trivial))
  exact .bind _ closeWorkspace_keeps (fun _ => .ret (fun _ _ => trivial))

end Workspaces

end CodebaseGraph.Storage
