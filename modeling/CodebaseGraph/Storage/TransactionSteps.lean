import CodebaseGraph.Storage.StoreSteps

/-! Every step of publication, recovery and the beginning of a write is a step of the store.
-/

namespace CodebaseGraph.Storage

open CodebaseGraph.Crash Program
open CodebaseGraph.Transition (bind_eq_ok)

section Activation

variable {host : Host} {store : Store} {runId candidateId : String} {journal : RunJournal}
  {active : Option ActiveGeneration}

/-- A store in which a run is being finished: its journal and the pointer as they were read. -/
def Finishing (runId : String) (journal : RunJournal) (active : Option ActiveGeneration)
    (store : Store)
    : Prop :=
  store.HasJournal runId journal ∧ store.PointsTo active

/-- Files of one published generation change and it stays ready if it was. -/
theorem StoreStep.changePublished {change : GenerationDirectory → GenerationDirectory}
    (kept
      : ∀ files,
          store.generations candidateId = some (.directory files)
          → ReadyFiles host candidateId files
          → ReadyFiles host candidateId (change files))
    : StoreStep host store (store.changeFiles (.published candidateId) change) where
  ready := by
    intro generationId ready
    rw [Store.ready_iff] at ready ⊢
    obtain ⟨files, held, ready⟩ := ready
    by_cases same : generationId = candidateId
    · subst same
      refine ⟨change files, ?_, kept files held ready⟩
      simp only [Store.root?] at held
      simp [Store.root?, Store.changeFiles, held]
    · refine ⟨files, ?_, ready⟩
      simpa [Store.root?, Store.changeFiles, Function.update_of_ne same] using held
  pointer := .inl rfl
  recorded := fun member => member
  journals := by
    rintro other found ⟨run, present, content⟩
    exact .inr (.inl ⟨found, ⟨run, present, content⟩, rfl, rfl⟩)

theorem Store.ReadyAt.changePublished {change : GenerationDirectory → GenerationDirectory}
    (ready : store.ReadyAt host (.published candidateId))
    (kept : ∀ files, ReadyFiles host candidateId files → ReadyFiles host candidateId (change files))
    : (store.changeFiles (.published candidateId) change).ReadyAt host
        (.published candidateId) := by
  obtain ⟨files, held, ready⟩ := ready
  refine ⟨change files, ?_, kept files ready⟩
  simp only [Store.root?] at held
  simp [Store.root?, Store.changeFiles, held]

/-- Promotion fills a free place with the directory of the run. -/
theorem StoreStep.promote (free : store.generations candidateId = none)
    : StoreStep host store (store.promote runId candidateId) where
  ready := by
    rintro generationId ⟨files, held, valid⟩
    have different : generationId ≠ candidateId := by
      rintro rfl
      simp [free] at held
    exact ⟨files, by simpa [Store.promote, Function.update_of_ne different] using held, valid⟩
  pointer := .inl rfl
  recorded := fun member => member
  journals := by
    intro other found held
    have only : RunsOnly store (store.updateRun runId (fun run => { run with candidate := none })) :=
      .updateRun (fun _ _ content => content)
    rcases only.journals held with fresh | old
    · exact .inl fresh
    · exact .inr (.inl old)

theorem Store.ReadyAt.promote (ready : store.ReadyAt host (.staged runId candidateId))
    : (store.promote runId candidateId).ReadyAt host (.published candidateId) := by
  obtain ⟨files, held, ready⟩ := ready
  exact ⟨files, by simpa [Store.root?, Store.promote] using held, ready⟩

theorem Finishing.promote (finishing : Finishing runId journal active store)
    : Finishing runId journal active (store.promote runId candidateId) :=
  ⟨finishing.1.updateRun (fun _ => rfl), by
    have points := finishing.2
    cases active <;> exact points⟩

theorem promoteCandidateGenerationLocked_ensures
    : Ensures (Finishing runId journal active) (StoreStep host)
        (promoteCandidateGenerationLocked host runId candidateId)
        (fun _ store =>
          Finishing runId journal active store
          ∧ store.ReadyAt host (.published candidateId))
        (fun _ _ => True) := by
  refine .bind _ (validateReady_ensures.anyFailure) (fun _ => ?_)
  refine .bind
    (fun _ store =>
      (Finishing runId journal active store
        ∧ store.ReadyAt host (.staged runId candidateId))
      ∧ store.generations candidateId = none)
    (.observe ?_ (fun _ _ _ _ => trivial) (fun _ _ _ => trivial)) (fun _ => ?_)
  · intro store _ start answer
    refine ⟨start, ?_⟩
    split at answer
    · simp at answer
    · next free => simpa using free
  refine .bind _ (Ensures.peek.anyFailure) (fun _ => ?_)
  refine .bind
    (fun _ store =>
      Finishing runId journal active store ∧ store.ReadyAt host (.published candidateId))
    (.effect ?_ ?_ (fun _ _ _ => trivial) (fun _ _ _ => trivial)) (fun _ => ?_)
  · exact fun store start => .promote start.2
  · exact fun store start => ⟨start.1.1.promote, start.1.2.promote⟩
  · exact syncParentDir_ensures.anyFailure

/-- What the programs know while they activate the candidate of a run: the journal allows it,
its base is active, and the generation is ready.
-/
structure Activating (host : Host) (runId candidateId : String) (journal : RunJournal)
    (active : Option ActiveGeneration) (store : Store)
    : Prop where
  finishing : Finishing runId journal active store
  phase : journal.phase = .publishing ∨ journal.phase = .published
  candidate : journal.candidateGenerationId = some candidateId
  base : journal.baseGenerationId = active.map ActiveGeneration.generationId
  ready : store.ReadyAt host (.published candidateId)

theorem Activating.changePublished {change : GenerationDirectory → GenerationDirectory}
    (activating : Activating host runId candidateId journal active store)
    (kept : ∀ files, ReadyFiles host candidateId files → ReadyFiles host candidateId (change files))
    : Activating host runId candidateId journal active
        (store.changeFiles (.published candidateId) change) where
  finishing :=
    ⟨activating.finishing.1, by
      have points := activating.finishing.2
      cases active <;> exact points⟩
  phase := activating.phase
  candidate := activating.candidate
  base := activating.base
  ready := activating.ready.changePublished kept

/-- Renaming the pointer file is the one step that moves the pointer. -/
theorem Activating.storeStep {next : ActiveGeneration}
    (activating : Activating host runId candidateId journal active store)
    (names : next.generationId = candidateId)
    : StoreStep host store { store with active := .regular (.ok next) } where
  ready := fun ready => ready
  pointer := by
    refine .inr ⟨runId, journal, candidateId, next, activating.finishing.1, activating.phase, ?_,
      activating.candidate, Store.ready_iff.mpr activating.ready, rfl, names⟩
    rw [activating.finishing.2.activeId, activating.base]
  recorded := fun member => member
  journals := fun held => .inr (.inl ⟨_, held, rfl, rfl⟩)

/-- One in-place rewrite of a file of the generation that is being activated. -/
theorem Activating.rewrite {change : GenerationDirectory → GenerationDirectory}
    (kept : ∀ files, ReadyFiles host candidateId files → ReadyFiles host candidateId (change files))
    : Ensures (Activating host runId candidateId journal active) (StoreStep host)
        (effect id (fun store => store.changeFiles (.published candidateId) change))
        (fun _ => Activating host runId candidateId journal active)
        (fun (_ : NativeError) _ => True) :=
  .effect (fun _ _ => .changePublished (fun files _ => kept files))
    (fun _ start => start.changePublished kept) (fun _ _ _ => trivial) (fun _ _ _ => trivial)

theorem activatePublishedGenerationLocked_ensures {nowMs : Nat}
    : Ensures (Activating host runId candidateId journal active) (StoreStep host)
        (activatePublishedGenerationLocked host candidateId nowMs)
        (fun activated => Finishing runId journal (some activated)) (fun _ _ => True) := by
  refine .bind (fun _ => Activating host runId candidateId journal active)
    (validateReady_ensures.weaken (fun _ start => start) (fun step => step)
      (fun _ _ held => held.1) (fun _ _ _ => trivial)) (fun _ => ?_)
  refine .bind _ readMetadata_ensures.anyFailure (fun metadata => ?_)
  refine .bind (fun _ => Activating host runId candidateId journal active)
    (.effect ?_ ?_ (fun _ _ _ => trivial) (fun _ _ _ => trivial)) (fun _ => ?_)
  · rintro store ⟨_, _, version, identity⟩
    exact .changePublished (fun _ _ ready => ready.withMetadata version identity)
  · rintro store ⟨start, _, version, identity⟩
    exact start.changePublished (fun _ ready => ready.withMetadata version identity)
  refine .bind _ (Activating.rewrite (fun _ ready => ready.withReady _)) (fun _ => ?_)
  refine .bind _ (Activating.rewrite (fun _ ready => ready.withReady _)) (fun _ => ?_)
  refine .bind _ Ensures.peek.anyFailure (fun _ => ?_)
  refine .bind
    (fun _ => Finishing runId journal (some
      { schemaVersion := managedSchemaVersion
        generationId := candidateId
        publishedAt := s!"unix:{nowMs}"
        activatedAtMs := nowMs }))
    (.effect ?_ ?_ (fun _ _ _ => trivial) (fun _ _ _ => trivial)) (fun _ => ?_)
  · exact fun store start => start.storeStep rfl
  · exact fun store start => ⟨start.finishing.1, rfl⟩
  · exact .bind _ Ensures.peek.anyFailure (fun _ => .ret (fun _ start => start))

theorem placeCandidate_ensures
    : Ensures (Finishing runId journal active) (StoreStep host)
        (placeCandidate host runId candidateId)
        (fun _ store =>
          Finishing runId journal active store
          ∧ store.ReadyAt host (.published candidateId))
        (fun _ _ => True) := by
  refine .bind _ probeReady_ensures.anyFailure (fun probe => ?_)
  cases probe with
  | invalid error => exact .raise (fun _ _ => trivial)
  | valid => exact .ret (fun _ ⟨start, ready, _⟩ => ⟨start, ready rfl⟩)
  | absent =>
      refine .bind (fun _ => Finishing runId journal active) (.mapError ?_) (fun _ => ?_)
      · exact requireReady_ensures.weaken (fun _ start => start.1) (fun step => step)
          (fun _ _ held => held.1) (fun _ _ _ => trivial)
      · exact promoteCandidateGenerationLocked_ensures.mapError

theorem commitCandidate_ensures {nowMs : Nat}
    (phase : journal.phase = .publishing ∨ journal.phase = .published)
    (candidate : journal.candidateGenerationId = some candidateId)
    (base : journal.baseGenerationId = active.map ActiveGeneration.generationId)
    : Ensures (Finishing runId journal active) (StoreStep host)
        (commitCandidate host runId candidateId nowMs)
        (fun activated => Finishing runId journal (some activated)) (fun _ _ => True) := by
  refine .bind _ placeCandidate_ensures (fun _ => ?_)
  refine .bind _ syncParentDir_ensures.anyFailure.mapError (fun _ => ?_)
  have activating (store : Store)
      (placed
        : Finishing runId journal active store ∧ store.ReadyAt host (.published candidateId))
      : Activating host runId candidateId journal active store :=
    ⟨placed.1, phase, candidate, base, placed.2⟩
  exact (activatePublishedGenerationLocked_ensures.given activating).mapError

theorem journalCandidate_eq_ok (accepted : journalCandidate journal = .ok candidateId)
    : journal.candidateGenerationId = some candidateId := by
  unfold journalCandidate at accepted
  split at accepted
  · simp at accepted
  · next found named =>
      simp only [bind_eq_ok] at accepted
      obtain ⟨_, _, _, _, same⟩ := accepted
      rw [named, Except.ok.inj same]

theorem confirmActivated_keeps {allowed : Store → Store → Prop}
    : Keeps allowed (confirmActivated host candidateId) :=
  .bind (.mapError requireReady_ensures.keeps) (fun _ =>
    .bind (.mapError syncParentDir_ensures.keeps) (fun _ => .mapError uncertainStep_keeps))

theorem resolveStale_keeps {allowed : Store → Store → Prop} {recovery : Bool}
    : Keeps allowed (resolveStale host journal candidateId active recovery) := by
  unfold resolveStale
  split
  · exact .raise
  · cases active with
    | none => exact .raise
    | some current =>
        refine .bind (.ofExcept (fun _ _ _ _ => trivial) (fun _ _ _ _ => trivial)) (fun _ => ?_)
        exact .bind (.mapError requireReady_ensures.keeps) (fun _ => .ret)

end Activation

section Operations

variable {host : Host} {runId candidateId : String} {journal : RunJournal}
  {active : Option ActiveGeneration}

/-- Finishing a run takes steps of the store, and afterwards its journal is still there and
the pointer is the one that is returned.
-/
theorem finishRunTransactionLocked_ensures {recovery : Bool} {nowMs : Nat}
    (phase : journal.phase = .publishing ∨ journal.phase = .published)
    : Ensures (Finishing runId journal active) (StoreStep host)
        (finishRunTransactionLocked host journal runId active recovery nowMs)
        (fun result => Finishing runId journal result.2) (fun _ _ => True) := by
  refine .bind _ (Ensures.peek.anyFailure.mapError) (fun _ => ?_)
  refine .bind
    (fun candidateId store =>
      Finishing runId journal active store
      ∧ journal.candidateGenerationId = some candidateId)
    (.ofExcept (fun _ _ start accepted => ⟨start, journalCandidate_eq_ok accepted⟩)
      (fun _ _ _ _ => trivial)) (fun candidateId => ?_)
  dsimp only
  split
  · refine .bind _ confirmActivated_keeps.frame.anyFailure (fun _ => ?_)
    exact .ret (fun _ start => start.1)
  · split
    · refine .bind _ resolveStale_keeps.frame.anyFailure (fun _ => ?_)
      exact .ret (fun _ start => start.1)
    · next unchanged =>
        refine .bind (fun activated => Finishing runId journal (some activated)) ?_
          (fun _ => .ret (fun _ start => start))
        by_cases candidate : journal.candidateGenerationId = some candidateId
        · have base : journal.baseGenerationId = active.map ActiveGeneration.generationId := by
            simpa using Eq.symm (not_not.mp unchanged)
          exact (commitCandidate_ensures phase candidate base).given (fun _ start => start.1)
        · exact fun _ _ start => absurd start.2 candidate

theorem readActiveGeneration_ensures {pre : Store → Prop} {allowed : Store → Store → Prop}
    : Ensures pre allowed (readActiveGeneration host)
        (fun active store => pre store ∧ store.PointsTo active) (fun _ store => pre store) := by
  refine .observe ?_ (fun _ _ start _ => start) (fun _ _ start => start)
  intro store active start answer
  refine ⟨start, ?_⟩
  split at answer
  case h_1 absent =>
    cases Except.ok.inj answer
    exact absent
  case h_5 pointer held =>
    split at answer
    · simp at answer
    · cases valid : validateGenerationId pointer.generationId with
      | error problem => simp [valid, Except.map] at answer
      | ok _ =>
          simp only [valid, Except.map, Except.ok.injEq] at answer
          subst answer
          exact held
  all_goals simp at answer

/-- The journal that `mark_phase` left is the one that is read again. -/
theorem publishCandidateInnerTyped_ensures {workspace : RunWorkspace} {nowMs : Nat}
    : Ensures
        (fun store =>
          ∃ journal, store.HasJournal workspace.runId journal ∧ journal.phase = .publishing)
        (StoreStep host) (publishCandidateInnerTyped host workspace nowMs) (fun _ _ => True)
        (fun _ _ => True) := by
  refine .bind _ Ensures.peek.anyFailure.mapError (fun _ => ?_)
  refine .bind _ Ensures.peek.anyFailure.mapError (fun _ => ?_)
  refine .bind _ readActiveGeneration_ensures.anyFailure.mapError (fun active => ?_)
  refine .bind _ readJournal_ensures.anyFailure.mapError (fun journal => ?_)
  refine .bind (fun _ _ => True) ?_ (fun _ => .ret (fun _ _ => trivial))
  intro store fates start
  obtain ⟨⟨⟨marked, held, publishing⟩, points⟩, read⟩ := start
  have same := held.unique read
  subst same
  exact ((finishRunTransactionLocked_ensures (.inl publishing)).weaken (fun _ held => held)
    (fun step => step) (fun _ _ _ => trivial) (fun _ _ _ => trivial)) store fates ⟨read, points⟩

theorem failAfterAbort_never {α : Type} {workspace : RunWorkspace}
    {failure : PublicationFailure} {order : List RunEntry} {post : α → Store → Prop}
    : Ensures (fun _ => True) (StoreStep host)
        (failAfterAbort host workspace failure order : Disk _ α) post (fun _ _ => True) :=
  failAfterAbort_ensures.weaken (fun _ _ => trivial) RunsOnly.storeStep
    (fun _ _ never => never.elim) (fun _ _ _ => trivial)

theorem publishWorkspace_keeps {workspace : RunWorkspace} {nowMs : Nat}
    {order : List RunEntry}
    : Keeps (StoreStep host) (publishWorkspace host workspace candidateId nowMs order) := by
  refine Ensures.bind _ (.recoverWith (fun _ _ => True)
    (markPhase_ensures.weaken (fun _ start => start) RunsOnly.storeStep (fun _ _ held => held)
      (fun _ _ _ => trivial)) (fun _ => failAfterAbort_never)) (fun _ => ?_)
  refine .bind (fun _ _ => True) (.recoverWith (fun _ _ => True)
    publishCandidateInnerTyped_ensures (fun failure => ?_)) (fun _ => ?_)
  · split
    · exact .raise (fun _ _ => trivial)
    · exact failAfterAbort_never
  refine .bind (fun _ _ => True) (Keeps.ignore (markPhase_keeps.mono RunsOnly.storeStep)) (fun _ => ?_)
  exact .bind (fun _ _ => True) (Keeps.ignore (closeWorkspace_keeps.mono RunsOnly.storeStep))
    (fun _ => .ret (fun _ _ => trivial))

theorem publishWithStatsTyped_keeps {session : ManagedWriteSession} {stats : GenerationStats}
    {nowMs : Nat} {order : List RunEntry}
    : Keeps (StoreStep host) (publishWithStatsTyped host session stats nowMs order) := by
  refine Keeps.mapError ?_
  unfold publishWithStats
  split
  · refine .bind ?_ (fun _ => publishWorkspace_keeps)
    unfold ensureMarkedReady
    split
    · exact .ret
    · exact .recoverWith (markReadyWithStats_keeps.mono RunsOnly.storeStep)
        (fun _ => failAfterAbort_never)
  · exact .raise

/-- A fresh candidate is recorded by the journal of one run. -/
theorem StoreStep.register {store : Store} {journal : RunJournal}
    (fresh : candidateId ∉ store.recorded)
    (names : journal.candidateGenerationId = some candidateId)
    : StoreStep host store
        { store.updateRun runId (fun run => { run with journal := some (.ok journal) }) with
          recorded := candidateId :: store.recorded } where
  ready := fun ready => ready
  pointer := .inl rfl
  recorded := fun member => List.mem_cons_of_mem _ member
  journals := by
    intro other found held
    have updated
        : (store.updateRun runId
            (fun run => { run with journal := some (.ok journal) })).HasJournal other found :=
      held
    rcases updated.of_updateRun with ⟨_, unchanged⟩ | ⟨rfl, run, _, content⟩
    · exact .inr (.inl ⟨found, unchanged, rfl, rfl⟩)
    · simp only [Option.some.injEq, Except.ok.injEq] at content
      subst content
      refine .inr (.inr ⟨candidateId, names, fresh, by simp, ?_⟩)
      intro another different
      simp [Store.updateRun, Function.update_of_ne different]

/-- The journal of a new run has no candidate. -/
theorem RunsOnly.createJournal {store : Store} {journal : RunJournal}
    (unnamed : journal.candidateGenerationId = none)
    : RunsOnly store
        (store.updateRun runId (fun run => { run with journal := some (.ok journal) })) where
  active := rfl
  generations := rfl
  recorded := rfl
  journals := by
    intro other found held
    rcases held.of_updateRun with ⟨_, unchanged⟩ | ⟨rfl, run, _, content⟩
    · exact .inr ⟨found, unchanged, rfl, rfl⟩
    · simp only [Option.some.injEq, Except.ok.injEq] at content
      subst content
      exact .inl unnamed

/-- Steps on run directories leave a fresh candidate fresh. -/
theorem Keeps.staysFresh {Error α : Type} {program : Disk Error α}
    (kept : Keeps RunsOnly program)
    : Ensures (fun store => candidateId ∉ store.recorded) (StoreStep host) program
        (fun _ store => candidateId ∉ store.recorded) (fun _ _ => True) := by
  refine (kept.preserves ?_).weaken (fun _ start => start) RunsOnly.storeStep
    (fun _ _ held => held) (fun _ _ _ => trivial)
  intro before after only fresh
  rwa [only.recorded]

theorem createRunRoot_keeps {registered : Bool}
    : Keeps RunsOnly (createRunRoot runId registered) := by
  refine .bind .observe (fun _ => .bind (.effect (fun _ => .removeRun ?_)) (fun _ => .observe))
  intro directory created
  cases created
  rfl

theorem createScoped_keeps {baseGenerationId : Option String}
    : Keeps RunsOnly (createScoped runId baseGenerationId) := by
  refine .bind (.effect (fun _ => .updateRun (fun _ _ held => held))) (fun _ => ?_)
  exact .bind (.effect (fun _ => .createJournal rfl)) (fun _ => .observe)

theorem setUpCandidate_ensures
    : Ensures (fun store => candidateId ∉ store.recorded) (StoreStep host)
        (setUpCandidate runId candidateId) (fun _ _ => True) (fun _ _ => True) := by
  refine .bind _ (Keeps.staysFresh (.effect (fun _ => .updateRun (fun _ _ held => held))))
    (fun _ => ?_)
  refine .bind _ (Keeps.staysFresh (.effect (fun _ => .updateRun (fun _ _ held => held))))
    (fun _ => ?_)
  refine .bind _ Ensures.peek.anyFailure (fun journal => ?_)
  refine .effect ?_ (fun _ _ => trivial) (fun _ _ _ => trivial) (fun _ _ _ => trivial)
  exact fun _ fresh => .register fresh rfl

theorem orDrop_ensures {α : Type} {workspace : RunWorkspace} {order : List RunEntry}
    {attempt : Disk NativeError α} {pre : Store → Prop} {post : α → Store → Prop}
    (ensured : Ensures pre (StoreStep host) attempt post (fun _ _ => True))
    : Ensures pre (StoreStep host) (orDrop host workspace order attempt) post
        (fun _ _ => True) := by
  refine .recoverWith (fun _ _ => True) ensured (fun _ => ?_)
  exact .bind (fun _ _ => True) (Keeps.ignore (finishInner_keeps.mono RunsOnly.storeStep))
    (fun _ => .raise (fun _ _ => trivial))

theorem beginWrite_ensures {registered : Bool} {order : List RunEntry}
    : Ensures (fun store => candidateId ∉ store.recorded) (StoreStep host)
        (beginWrite host runId candidateId registered order) (fun _ _ => True)
        (fun _ _ => True) := by
  refine .bind _ Ensures.peek.anyFailure (fun _ => ?_)
  refine .bind _ Ensures.peek.anyFailure (fun _ => ?_)
  refine .bind _ Ensures.peek.anyFailure (fun _ => ?_)
  refine .bind _ Ensures.peek.anyFailure (fun _ => ?_)
  refine .bind _ Ensures.peek.anyFailure (fun active => ?_)
  refine .bind _ (Keeps.staysFresh createRunRoot_keeps) (fun _ => ?_)
  refine .bind _ (orDrop_ensures (Keeps.staysFresh createScoped_keeps)) (fun _ => ?_)
  exact .bind _ (orDrop_ensures setUpCandidate_ensures) (fun _ => .ret (fun _ _ => trivial))

theorem closeResolved_ensures {resolution : RunResolution} {result : Option ActiveGeneration}
    : Ensures (Finishing runId journal active) (StoreStep host)
        (closeResolved runId journal resolution result)
        (fun _ store => store.PointsTo active) (fun _ store => store.PointsTo active) := by
  have points (store : Store) (change : RunDirectory → RunDirectory)
      (start : store.PointsTo active)
      : (store.updateRun runId change).PointsTo active := by
    cases active <;> exact start
  refine .bind _ (Ensures.peek.weaken (fun _ start => start) (fun step => step)
    (fun _ _ held => held) (fun _ _ held => held.2)) (fun _ => ?_)
  refine .bind (fun _ store => store.PointsTo active) (.effect ?_ ?_ ?_ ?_) (fun _ => ?_)
  · exact fun store start => RunsOnly.storeStep (.writeJournal start.1 ⟨rfl, rfl⟩)
  · exact fun store start => points store _ start.2
  · exact fun store _ start => start.2
  · exact fun store _ start => points store _ start.2
  refine .bind _ Ensures.peek (fun _ => .effect ?_ ?_ ?_ ?_)
  · exact fun store _ => RunsOnly.storeStep (.updateRun (fun _ _ held => held))
  · exact fun store start => points store _ start
  · exact fun store _ start => start
  · exact fun store _ start => points store _ start

theorem readRunJournalOrDefault_ensures {pre : Store → Prop} {allowed : Store → Store → Prop}
    : Ensures pre allowed (readRunJournalOrDefault runId)
        (fun journal store =>
          pre store
          ∧ (journal.phase = .publishing ∨ journal.phase = .published
            → store.HasJournal runId journal))
        (fun _ store => pre store) := by
  refine .observe ?_ (fun _ _ start _ => start) (fun _ _ start => start)
  intro store journal start answer
  refine ⟨start, fun phase => ?_⟩
  split at answer
  · next content found => exact ⟨_, found, by rw [answer]⟩
  · cases Except.ok.inj answer
    simp at phase

/-- What recovery believes to be active stays true from run to run. -/
theorem recoverRun_ensures {listing : RunListing} {report : ManagedRecoveryReport}
    : Ensures (fun store => store.PointsTo active) (StoreStep host)
        (recoverRun host listing active report)
        (fun result store => store.PointsTo result.1) (fun _ _ => True) := by
  refine .bind _ Ensures.peek.anyFailure (fun found => ?_)
  cases found with
  | none => exact .ret (fun _ start => start)
  | some run =>
      dsimp only
      split
      · exact .ret (fun _ start => start)
      · refine .bind (fun _ store => store.PointsTo active) ?registration
          (fun registration => ?_)
        case registration =>
          refine .recoverWith _ (.bind _ Ensures.peek (fun _ => .ret (fun _ start => start)))
            (fun _ => .ret (fun _ start => start))
        split
        · exact .ret (fun _ start => start)
        · refine .bind _ readRunJournalOrDefault_ensures.anyFailure (fun journal => ?_)
          unfold resolveRun
          split
          · next phase =>
              refine .bind (fun result => Finishing listing.runId journal result.2)
                (Ensures.mapError ?_) (fun result => ?_)
              · exact (finishRunTransactionLocked_ensures phase).given
                  (fun _ start => ⟨start.2 phase, start.1⟩)
              · refine .bind (fun _ store => store.PointsTo result.2) ?_
                  (fun _ => .ret (fun _ start => start))
                unfold closeLive
                split
                · exact closeResolved_ensures.ignore
                · exact .ret (fun _ start => start.2)
          · exact .ret (fun _ start => start.1)

theorem recoverRunsLockedTyped_ensures {listings : List RunListing}
    {report : ManagedRecoveryReport}
    : Ensures (fun store => store.PointsTo active) (StoreStep host)
        (recoverRunsLockedTyped host listings active report) (fun _ _ => True)
        (fun _ _ => True) := by
  induction listings generalizing active report with
  | nil => exact .ret (fun _ _ => trivial)
  | cons listing rest ih => exact .bind _ recoverRun_ensures (fun _ => ih)

theorem succeeds_keeps {Error : Type} {allowed : Store → Store → Prop}
    {attempt : Disk NativeError Unit} (kept : Keeps allowed attempt)
    : Keeps allowed (succeeds attempt : Disk Error Bool) :=
  .recoverWith (.bind kept (fun _ => .ret)) (fun _ => .ret)

theorem recoverRequiredWithOwnedWriter_keeps {listings : List RunListing}
    : Keeps (StoreStep host) (recoverRequiredWithOwnedWriter host listings) := by
  have underState : Keeps (StoreStep host) (recoverWithState host listings) := by
    refine .bind uncertainStep_keeps (fun _ => ?_)
    refine Ensures.bind _ readActiveGeneration_ensures.anyFailure (fun active => ?_)
    exact recoverRunsLockedTyped_ensures.given (fun _ start => start.2)
  refine .bind .observe (fun work => ?_)
  split
  · exact .ret
  · refine .bind (succeeds_keeps ensureRegistryEmpty_keeps) (fun empty => ?_)
    split
    · refine .bind uncertainStep_keeps (fun _ => .bind (succeeds_keeps uncertainStep_keeps)
        (fun mutation => ?_))
      split
      · exact underState
      · exact .ret
    · exact .ret

end Operations

end CodebaseGraph.Storage
