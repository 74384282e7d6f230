import CodebaseGraph.Storage.TransactionSteps

/-! Publication is crash-atomic: whatever prefix of its steps survives a crash, finishing the run
again ends where the uninterrupted publication ends.
-/

namespace CodebaseGraph.Storage

open CodebaseGraph.Crash Program
open CodebaseGraph.Transition (bind_eq_ok)

/-- The files of a generation without the timestamps that publication writes. -/
def GenerationDirectory.untimed (files : GenerationDirectory) : GenerationDirectory :=
  { files with
    metadata :=
      match files.metadata with
      | .regular (.ok metadata) => .regular (.ok { metadata with publishedAtMs := 0 })
      | unread => unread
    ready :=
      match files.ready with
      | .regular _ => .regular ""
      | unmarked => unmarked }

def GenerationRoot.untimed : GenerationRoot → GenerationRoot
  | .directory files => .directory files.untimed
  | .other => .other

/-- The published generations of a store, timestamps aside. -/
def Store.untimedGenerations (store : Store) (generationId : String) : Option GenerationRoot :=
  (store.generations generationId).map GenerationRoot.untimed

section Completion

variable {host : Host} {store : Store} {paths : GenerationPaths} {runId candidateId : String}
  {post : Unit → Store → Prop}

theorem uncertainStep_succeeds (holds : post () store) : Succeeds uncertainStep store post :=
  .observe rfl holds

theorem validateReady_succeeds (ready : store.ReadyAt host paths) (holds : post () store)
    : Succeeds (validateReady host paths) store post := by
  obtain ⟨files, held, ready⟩ := ready
  refine .observe ?_ holds
  simp only [bind_eq_ok, files_eq_ok]
  exact ⟨files, held, validateReadyGeneration_eq_ok.mpr ready⟩

theorem probeReady_succeeds {Error : Type} {probe : ReadyProbe} {post : ReadyProbe → Store → Prop}
    (probed : probeStore host paths store = probe) (holds : post probe store)
    : Succeeds (probeReady host paths : Disk Error ReadyProbe) store post :=
  .recoverWith (.observe (by rw [probed]) holds)

theorem requireReady_succeeds (ready : store.ReadyAt host paths) (holds : post () store)
    : Succeeds (requireReady host paths) store post :=
  .bind (probeReady_succeeds (probeStore_valid.mpr ready) (.ret holds))

theorem syncDir_succeeds (ready : store.ReadyAt host paths) (holds : post () store)
    : Succeeds (syncDir host paths) store post := by
  obtain ⟨files, held, _⟩ := ready
  exact .observe (by rw [held]) holds

theorem syncParentDir_succeeds (ready : store.ReadyAt host paths) (holds : post () store)
    : Succeeds (syncParentDir host paths) store post :=
  .bind (syncDir_succeeds ready (uncertainStep_succeeds holds))

theorem promoteCandidateGenerationLocked_succeeds
    (ready : store.ReadyAt host (.staged runId candidateId))
    (free : store.generations candidateId = none)
    (holds : post () (store.promote runId candidateId))
    : Succeeds (promoteCandidateGenerationLocked host runId candidateId) store post := by
  refine .bind (validateReady_succeeds ready (.bind (.observe (if_neg (by simp [free])) ?_)))
  refine .bind (uncertainStep_succeeds (.bind (.effect ?_)))
  exact syncParentDir_succeeds ready.promote holds

theorem activatePublishedGenerationLocked_succeeds {nowMs : Nat}
    (ready : store.ReadyAt host (.published candidateId))
    : Succeeds (activatePublishedGenerationLocked host candidateId nowMs) store
        (fun _ _ => True) := by
  refine .bind (validateReady_succeeds ready (.bind ?_))
  obtain ⟨files, held, accepted⟩ := ready
  obtain ⟨metadata, read, version, identity⟩ := accepted.metadata
  refine .observe (bind_eq_ok.mpr ⟨files, files_eq_ok.mpr held,
    readGenerationMetadata_eq_ok.mpr ⟨read, version, identity⟩⟩) ?_
  refine .bind (.effect (.bind (.effect (.bind (.effect (.bind (syncDir_succeeds ?_ ?_)))))))
  · refine Store.ReadyAt.changePublished (.changePublished (.changePublished
      ⟨files, held, accepted⟩ ?_) ?_) ?_
    · exact fun _ ready => ready.withMetadata version identity
    · exact fun _ ready => ready.withReady _
    · exact fun _ ready => ready.withReady _
  · exact .bind (.effect (.bind (uncertainStep_succeeds (.ret trivial))))

/-- Where the candidate may be when its run is finished. -/
theorem commitCandidate_succeeds {nowMs : Nat}
    (evidence
      : store.ReadyAt host (.published candidateId)
        ∨ (store.ReadyAt host (.staged runId candidateId)
          ∧ store.generations candidateId = none))
    : Succeeds (commitCandidate host runId candidateId nowMs) store (fun _ _ => True) := by
  refine .bind ?_
  have finish (placed : Store) (ready : placed.ReadyAt host (.published candidateId))
      : Succeeds
          (((syncParentDir host (.published candidateId)).mapError .ambiguous : Disk _ _)
            >>= fun _ =>
              (activatePublishedGenerationLocked host candidateId nowMs).mapError
                PublicationFailure.ambiguous)
          placed (fun _ _ => True) :=
    .bind (.mapError (syncParentDir_succeeds ready
      (.mapError (activatePublishedGenerationLocked_succeeds ready))))
  rcases evidence with ready | ⟨ready, free⟩
  · exact .bind (probeReady_succeeds (probeStore_valid.mpr ready) (.ret (finish _ ready)))
  · refine .bind (probeReady_succeeds (probeStore_absent.mpr free) ?_)
    refine .bind (.mapError (requireReady_succeeds ready (.mapError ?_)))
    exact promoteCandidateGenerationLocked_succeeds ready free (finish _ ready.promote)

theorem confirmActivated_succeeds (ready : store.ReadyAt host (.published candidateId))
    : Succeeds (confirmActivated host candidateId) store (fun _ _ => True) :=
  .bind (.mapError (requireReady_succeeds ready (.bind (.mapError
    (syncParentDir_succeeds ready (.mapError (uncertainStep_succeeds trivial)))))))

end Completion

section Survival

variable (host : Host) (runId candidateId : String) (journal : RunJournal) (origin : Store)
  (content : GenerationDirectory)

/-- What no step of the publication of a candidate touches. -/
structure Untouched (store : Store) : Prop where
  registry : store.registry = .ok true
  journal : store.HasJournal runId journal
  others
    : ∀ generationId,
        generationId ≠ candidateId
        → store.generations generationId = origin.generations generationId

/-- The candidate is still in its run. -/
structure AtStaged (store : Store) : Prop where
  untouched : Untouched runId candidateId journal origin store
  pointer : store.active = origin.active
  free : store.generations candidateId = none
  held : store.root? (.staged runId candidateId) = some (.directory content)
  ready : ReadyFiles host candidateId content

/-- The candidate stands at its published place, as it was but for timestamps. -/
def InPlace (store : Store) : Prop :=
  ∃ files,
    store.generations candidateId = some (.directory files)
    ∧ files.untimed = content.untimed
    ∧ ReadyFiles host candidateId files

/-- The candidate is published and not yet active. -/
structure AtPlaced (store : Store) : Prop where
  untouched : Untouched runId candidateId journal origin store
  pointer : store.active = origin.active
  inPlace : InPlace host candidateId content store

/-- The candidate is active. -/
structure AtActivated (active : ActiveGeneration) (store : Store) : Prop where
  untouched : Untouched runId candidateId journal origin store
  pointer : store.PointsTo (some active)
  names : active.generationId = candidateId
  inPlace : InPlace host candidateId content store

/-- What a crash may leave of a publication. -/
def Surviving (store : Store) : Prop :=
  AtStaged host runId candidateId journal origin content store
  ∨ AtPlaced host runId candidateId journal origin content store
  ∨ ∃ active, AtActivated host runId candidateId journal origin content active store

variable {host runId candidateId journal origin content} {store : Store}

theorem InPlace.readyAt (inPlace : InPlace host candidateId content store)
    : store.ReadyAt host (.published candidateId) := by
  obtain ⟨files, held, _, ready⟩ := inPlace
  exact ⟨files, held, ready⟩

theorem Untouched.changePublished {change : GenerationDirectory → GenerationDirectory}
    (untouched : Untouched runId candidateId journal origin store)
    : Untouched runId candidateId journal origin
        (store.changeFiles (.published candidateId) change) where
  registry := untouched.registry
  journal := untouched.journal
  others := by
    intro generationId different
    simpa [Store.changeFiles, Function.update_of_ne different]
      using untouched.others generationId different

theorem AtPlaced.changePublished {change : GenerationDirectory → GenerationDirectory}
    (placed : AtPlaced host runId candidateId journal origin content store)
    (kept
      : ∀ files,
          store.generations candidateId = some (.directory files)
          → ReadyFiles host candidateId files
          → (change files).untimed = files.untimed ∧ ReadyFiles host candidateId (change files))
    : AtPlaced host runId candidateId journal origin content
        (store.changeFiles (.published candidateId) change) where
  untouched := placed.untouched.changePublished
  pointer := placed.pointer
  inPlace := by
    obtain ⟨files, held, same, ready⟩ := placed.inPlace
    obtain ⟨untimed, ready⟩ := kept files held ready
    refine ⟨change files, ?_, untimed.trans same, ready⟩
    simp [Store.changeFiles, held]

theorem AtStaged.promote (staged : AtStaged host runId candidateId journal origin content store)
    : AtPlaced host runId candidateId journal origin content
        (store.promote runId candidateId) where
  untouched :=
    { registry := staged.untouched.registry
      journal := staged.untouched.journal.updateRun (fun _ => rfl)
      others := by
        intro generationId different
        simpa [Store.promote, Function.update_of_ne different]
          using staged.untouched.others generationId different }
  pointer := staged.pointer
  inPlace := ⟨content, by simp [Store.promote, staged.held], rfl, staged.ready⟩

theorem promoteCandidateGenerationLocked_survives
    : Ensures (AtStaged host runId candidateId journal origin content)
        (fun _ after => Surviving host runId candidateId journal origin content after)
        (promoteCandidateGenerationLocked host runId candidateId)
        (fun _ => AtPlaced host runId candidateId journal origin content)
        (fun _ _ => True) := by
  refine .bind _ Ensures.peek.anyFailure (fun _ => ?_)
  refine .bind _ Ensures.peek.anyFailure (fun _ => ?_)
  refine .bind _ Ensures.peek.anyFailure (fun _ => ?_)
  refine .bind (fun _ => AtPlaced host runId candidateId journal origin content)
    (.effect ?_ ?_ (fun _ _ _ => trivial) (fun _ _ _ => trivial)) (fun _ => ?_)
  · exact fun store staged => .inr (.inl staged.promote)
  · exact fun store staged => staged.promote
  · exact syncParentDir_ensures.anyFailure

theorem placeCandidate_survives
    : Ensures
        (fun store =>
          AtStaged host runId candidateId journal origin content store
          ∨ AtPlaced host runId candidateId journal origin content store)
        (fun _ after => Surviving host runId candidateId journal origin content after)
        (placeCandidate host runId candidateId)
        (fun _ => AtPlaced host runId candidateId journal origin content)
        (fun _ _ => True) := by
  refine .bind _ probeReady_ensures.anyFailure (fun probe => ?_)
  cases probe with
  | invalid error => exact .raise (fun _ _ => trivial)
  | valid =>
      refine .ret ?_
      rintro store ⟨staged | placed, ready, _⟩
      · obtain ⟨files, held, _⟩ := ready rfl
        simp [Store.root?, staged.free] at held
      · exact placed
  | absent =>
      refine .bind (fun _ => AtStaged host runId candidateId journal origin content)
        (.mapError ?_) (fun _ => promoteCandidateGenerationLocked_survives.mapError)
      refine requireReady_ensures.weaken (fun _ start => ?_) (fun step => step)
        (fun _ _ held => held.1) (fun _ _ _ => trivial)
      obtain ⟨staged | placed, _, missing⟩ := start
      · exact staged
      · obtain ⟨files, held, _⟩ := placed.inPlace
        have none := missing rfl
        simp [Store.root?, held] at none

theorem activatePublishedGenerationLocked_survives {nowMs : Nat}
    : Ensures (AtPlaced host runId candidateId journal origin content)
        (fun _ after => Surviving host runId candidateId journal origin content after)
        (activatePublishedGenerationLocked host candidateId nowMs)
        (fun active => AtActivated host runId candidateId journal origin content active)
        (fun _ _ => True) := by
  have remark (text : String)
      : Ensures (AtPlaced host runId candidateId journal origin content)
          (fun _ after => Surviving host runId candidateId journal origin content after)
          (effect id (fun store => store.changeFiles (.published candidateId)
            (fun files => { files with ready := .regular text })))
          (fun _ => AtPlaced host runId candidateId journal origin content)
          (fun (_ : NativeError) _ => True) := by
    have kept (store : Store)
        (placed : AtPlaced host runId candidateId journal origin content store)
        : AtPlaced host runId candidateId journal origin content
            (store.changeFiles (.published candidateId)
              (fun files => { files with ready := .regular text })) := by
      refine placed.changePublished (fun files _ ready => ⟨?_, ready.withReady text⟩)
      obtain ⟨old, marked⟩ := ready.ready
      simp [GenerationDirectory.untimed, marked]
    exact .effect (fun store placed => .inr (.inl (kept store placed))) kept
      (fun _ _ _ => trivial) (fun _ _ _ => trivial)
  refine .bind _ Ensures.peek.anyFailure (fun _ => ?_)
  refine .bind _ readMetadata_ensures.anyFailure (fun metadata => ?_)
  refine .bind (fun _ => AtPlaced host runId candidateId journal origin content) ?metadata
    (fun _ => ?_)
  case metadata =>
    have kept (store : Store)
        (start
          : AtPlaced host runId candidateId journal origin content store
            ∧ (∃ files,
                store.root? (.published candidateId) = some (.directory files)
                ∧ files.metadata = .regular (.ok metadata))
            ∧ metadata.schemaVersion = managedSchemaVersion
            ∧ metadata.generationId = candidateId)
        : AtPlaced host runId candidateId journal origin content
            (store.changeFiles (.published candidateId) (fun files =>
              { files with
                metadata := .regular (.ok { metadata with publishedAtMs := nowMs }) })) := by
      obtain ⟨placed, ⟨files, found, read⟩, version, identity⟩ := start
      refine placed.changePublished (fun current held ready =>
        ⟨?_, ready.withMetadata version identity⟩)
      simp only [Store.root?, held, Option.some.injEq, GenerationRoot.directory.injEq] at found
      subst found
      simp [GenerationDirectory.untimed, read]
    exact .effect (fun store start => .inr (.inl (kept store start))) kept
      (fun _ _ _ => trivial) (fun _ _ _ => trivial)
  refine .bind _ (remark _) (fun _ => .bind _ (remark _) (fun _ => ?_))
  refine .bind _ Ensures.peek.anyFailure (fun _ => ?_)
  have switched (store : Store) (active : ActiveGeneration)
      (names : active.generationId = candidateId)
      (placed : AtPlaced host runId candidateId journal origin content store)
      : AtActivated host runId candidateId journal origin content active
          { store with active := .regular (.ok active) } :=
    ⟨⟨placed.untouched.registry, placed.untouched.journal, placed.untouched.others⟩, rfl, names,
      placed.inPlace⟩
  refine .bind
    (fun _ => AtActivated host runId candidateId journal origin content
      { schemaVersion := managedSchemaVersion
        generationId := candidateId
        publishedAt := s!"unix:{nowMs}"
        activatedAtMs := nowMs })
    (.effect ?_ ?_ (fun _ _ _ => trivial) (fun _ _ _ => trivial)) (fun _ => ?_)
  · exact fun store placed => .inr (.inr ⟨_, switched store _ rfl placed⟩)
  · exact fun store placed => switched store _ rfl placed
  · exact .bind _ Ensures.peek.anyFailure (fun _ => .ret (fun _ held => held))

theorem commitCandidate_survives {nowMs : Nat}
    : Ensures
        (fun store =>
          AtStaged host runId candidateId journal origin content store
          ∨ AtPlaced host runId candidateId journal origin content store)
        (fun _ after => Surviving host runId candidateId journal origin content after)
        (commitCandidate host runId candidateId nowMs)
        (fun active => AtActivated host runId candidateId journal origin content active)
        (fun _ _ => True) := by
  refine .bind _ placeCandidate_survives (fun _ => ?_)
  refine .bind _ syncParentDir_ensures.anyFailure.mapError (fun _ => ?_)
  exact activatePublishedGenerationLocked_survives.mapError

end Survival

/-- A run that may be finished: its journal is publishing, its base is active, and its
candidate stands ready, still staged with its place free or already published. Candidate ids
are fresh, so the base is another generation.
-/
structure PublishingRun (host : Host) (runId candidateId : String) (journal : RunJournal)
    (active : Option ActiveGeneration) (store : Store)
    : Prop where
  registry : store.registry = .ok true
  held : store.HasJournal runId journal
  phase : journal.phase = .publishing
  ids : journalCandidate journal = .ok candidateId
  pointer : store.PointsTo active
  base : journal.baseGenerationId = active.map ActiveGeneration.generationId
  fresh : journal.baseGenerationId ≠ some candidateId
  candidate
    : (store.ReadyAt host (.staged runId candidateId) ∧ store.generations candidateId = none)
      ∨ store.ReadyAt host (.published candidateId)

section Finish

variable {host : Host} {runId candidateId : String} {journal : RunJournal}
  {active current : Option ActiveGeneration} {origin store : Store}
  {content : GenerationDirectory}

/-- A run that may be finished has lost nothing yet. -/
theorem PublishingRun.survives
    (publishing : PublishingRun host runId candidateId journal active store)
    : ∃ content, Surviving host runId candidateId journal store content store := by
  have untouched : Untouched runId candidateId journal store store :=
    ⟨publishing.registry, publishing.held, fun _ _ => rfl⟩
  rcases publishing.candidate with ⟨⟨files, held, ready⟩, free⟩ | ⟨files, held, ready⟩
  · exact ⟨files, .inl ⟨untouched, rfl, free, held, ready⟩⟩
  · exact ⟨files, .inr (.inl ⟨untouched, rfl, files, held, rfl, ready⟩)⟩

theorem Surviving.untouched
    (surviving : Surviving host runId candidateId journal origin content store)
    : Untouched runId candidateId journal origin store := by
  rcases surviving with staged | placed | ⟨_, activated⟩
  · exact staged.untouched
  · exact placed.untouched
  · exact activated.untouched

/-- The pointer of a surviving store: it is the candidate, once that is active, or still the
base, and then the candidate is staged or placed.
-/
theorem Surviving.pointer (publishing : PublishingRun host runId candidateId journal active origin)
    (surviving : Surviving host runId candidateId journal origin content store)
    (points : store.PointsTo current)
    : (∃ activated,
        current = some activated
        ∧ AtActivated host runId candidateId journal origin content activated store)
      ∨ (current = active
        ∧ (AtStaged host runId candidateId journal origin content store
          ∨ AtPlaced host runId candidateId journal origin content store)) := by
  have sameBase (unmoved : store.active = origin.active) : current = active := by
    have before := publishing.pointer
    cases current <;> cases active <;> simp_all [Store.PointsTo]
  rcases surviving with staged | placed | ⟨activated, switched⟩
  · exact .inr ⟨sameBase staged.pointer, .inl staged⟩
  · exact .inr ⟨sameBase placed.pointer, .inr placed⟩
  · refine .inl ⟨activated, ?_, switched⟩
    have held := switched.pointer
    cases current <;> simp_all [Store.PointsTo]

/-- Whatever happens to it, the transaction leaves a surviving store, and when it returns the
candidate is active.
-/
theorem finishRunTransactionLocked_survives (recovery : Bool) (nowMs : Nat)
    (publishing : PublishingRun host runId candidateId journal active origin)
    : Ensures
        (fun store =>
          Surviving host runId candidateId journal origin content store
          ∧ store.PointsTo current)
        (fun _ after => Surviving host runId candidateId journal origin content after)
        (finishRunTransactionLocked host journal runId current recovery nowMs)
        (fun result store =>
          result.1 = .committed journal.baseGenerationId
          ∧ ∃ activated,
              result.2 = some activated
              ∧ AtActivated host runId candidateId journal origin content activated store)
        (fun _ _ => True) := by
  refine .bind _ Ensures.peek.anyFailure.mapError (fun _ => ?_)
  refine .bind
    (fun chosen store =>
      chosen = candidateId
      ∧ Surviving host runId candidateId journal origin content store
      ∧ store.PointsTo current)
    (.ofExcept ?_ (fun _ _ _ _ => trivial)) (fun chosen => ?_)
  · intro store chosen start accepted
    exact ⟨Except.ok.inj (accepted.symm.trans publishing.ids), start⟩
  dsimp only
  split
  · next same =>
      refine .bind _ confirmActivated_keeps.frame.anyFailure (fun _ => .ret ?_)
      rintro store ⟨rfl, surviving, points⟩
      refine ⟨rfl, ?_⟩
      rcases surviving.pointer publishing points with switched | ⟨rfl, _⟩
      · exact switched
      · exact absurd (publishing.base.trans same) publishing.fresh
  · next different =>
      split
      · next stale =>
          -- no surviving store has a third pointer
          refine .bind (fun _ _ => False) ?_ (fun _ _ _ never => never.elim)
          intro store fates start
          exfalso
          obtain ⟨rfl, surviving, points⟩ := start
          rcases surviving.pointer publishing points with ⟨activated, rfl, switched⟩ | ⟨rfl, _⟩
          · exact different (by simp [switched.names])
          · exact stale publishing.base.symm
      · next unmoved =>
          refine .bind
            (fun activated => AtActivated host runId candidateId journal origin content activated)
            ?_ (fun activated => .ret (fun _ switched => ⟨rfl, activated, rfl, switched⟩))
          intro store fates start
          obtain ⟨rfl, surviving, points⟩ := start
          rcases surviving.pointer publishing points with ⟨activated, rfl, switched⟩ | ⟨_, at_⟩
          · exact absurd (by simp [switched.names]) different
          · exact commitCandidate_survives store fates at_

/-- From a surviving store the transaction returns unless something fails. -/
theorem finishRunTransactionLocked_succeeds {recovery : Bool} {nowMs : Nat}
    (publishing : PublishingRun host runId candidateId journal active origin)
    (surviving : Surviving host runId candidateId journal origin content store)
    (points : store.PointsTo current)
    : Succeeds (finishRunTransactionLocked host journal runId current recovery nowMs) store
        (fun _ _ => True) := by
  refine .bind (.mapError (.observe (by rw [surviving.untouched.registry]) ?_))
  refine .bind (.ofExcept publishing.ids ?_)
  dsimp only
  rcases surviving.pointer publishing points with ⟨activated, rfl, switched⟩ | ⟨rfl, evidence⟩
  · rw [if_pos (by simp [switched.names])]
    exact .bind ((confirmActivated_succeeds switched.inPlace.readyAt).mono
      (fun _ _ _ => .ret trivial))
  · have different : current.map ActiveGeneration.generationId ≠ some candidateId := by
      rw [← publishing.base]
      exact publishing.fresh
    rw [if_neg different, if_neg (not_not.mpr publishing.base.symm)]
    have places
        : store.ReadyAt host (.published candidateId)
          ∨ (store.ReadyAt host (.staged runId candidateId)
            ∧ store.generations candidateId = none) := by
      rcases evidence with staged | placed
      · exact .inr ⟨⟨content, staged.held, staged.ready⟩, staged.free⟩
      · exact .inl placed.inPlace.readyAt
    exact .bind ((commitCandidate_succeeds places).mono (fun _ _ _ => .ret trivial))

/-- Without a failure, the transaction commits and leaves the candidate active. -/
theorem finishRunTransactionLocked_commits (recovery : Bool) (nowMs : Nat)
    (publishing : PublishingRun host runId candidateId journal active origin)
    (surviving : Surviving host runId candidateId journal origin content store)
    (points : store.PointsTo current)
    : ∃ activated,
        (finishRunTransactionLocked host journal runId current recovery nowMs store []).exit
          = .value (.committed journal.baseGenerationId, some activated)
        ∧ AtActivated host runId candidateId journal origin content activated
            (finishRunTransactionLocked host journal runId current recovery nowMs store
              []).state := by
  obtain ⟨⟨resolution, pointer⟩, exit, _, _, committed, activated, same, switched⟩ :=
    (finishRunTransactionLocked_succeeds publishing surviving points).ensures
      (finishRunTransactionLocked_survives recovery nowMs publishing) ⟨surviving, points⟩
  obtain rfl : resolution = _ := committed
  obtain rfl : pointer = _ := same
  exact ⟨activated, exit, switched⟩

/-- Finishing a run whose candidate is active touches no file. -/
theorem finishRunTransactionLocked_idempotent {recovery : Bool} {nowMs : Nat}
    {activated : ActiveGeneration} (ids : journalCandidate journal = .ok candidateId)
    (names : activated.generationId = candidateId)
    : Keeps (fun _ _ => False)
        (finishRunTransactionLocked host journal runId (some activated) recovery nowMs) := by
  refine .bind (.mapError .observe) (fun _ => ?_)
  refine Ensures.bind (fun chosen _ => chosen = candidateId)
    (.ofExcept (fun _ _ _ accepted => Except.ok.inj (accepted.symm.trans ids))
      (fun _ _ _ _ => trivial)) (fun chosen => ?_)
  dsimp only
  split
  · exact (Keeps.bind confirmActivated_keeps (fun _ => .ret)).given (fun _ _ => trivial)
  · next different => exact fun _ _ same => absurd (by simp [names, same]) different

/-- Some pointer is there in every surviving store. -/
theorem Surviving.exists_pointer
    (publishing : PublishingRun host runId candidateId journal active origin)
    (surviving : Surviving host runId candidateId journal origin content store)
    : ∃ current, store.PointsTo current := by
  have unmoved (same : store.active = origin.active) : store.PointsTo active := by
    have before := publishing.pointer
    cases active <;> simp_all [Store.PointsTo]
  rcases surviving with staged | placed | ⟨activated, switched⟩
  · exact ⟨active, unmoved staged.pointer⟩
  · exact ⟨active, unmoved placed.pointer⟩
  · exact ⟨some activated, switched.pointer⟩

end Finish

section Before

variable {host : Host} {origin : Store} {runId candidateId : String}

/-- The pointer and the published generations are those of another store. -/
def SamePublished (origin store : Store) : Prop :=
  store.active = origin.active ∧ store.generations = origin.generations

/-- A failure that claims to have had no effects has left the publications alone. -/
def Flagged (origin : Store) (failure : PublicationFailure) (store : Store) : Prop :=
  failure.mayHaveEffects = false → SamePublished origin store

/-- Any change may happen. -/
def AnyChange (_ _ : Store) : Prop :=
  True

theorem RunsOnly.samePublished {before after : Store} (only : RunsOnly before after)
    (same : SamePublished origin before)
    : SamePublished origin after :=
  ⟨only.active.trans same.1, only.generations.trans same.2⟩

theorem Keeps.samePublished {Error α : Type} {program : Disk Error α}
    (kept : Keeps RunsOnly program)
    : Ensures (SamePublished origin) AnyChange program (fun _ => SamePublished origin)
        (fun _ => SamePublished origin) :=
  (kept.preserves RunsOnly.samePublished).weaken (fun _ start => start) (fun _ => trivial)
    (fun _ _ held => held) (fun _ _ held => held)

/-- A failure in a step that is marked as ambiguous claims nothing. -/
theorem Keeps.ambiguous {α : Type} {program : Disk NativeError α} {pre : Store → Prop}
    (kept : Keeps AnyChange program)
    : Ensures pre AnyChange (program.mapError .ambiguous) (fun _ _ => True) (Flagged origin) :=
  Ensures.mapError (kept.weaken (fun _ _ => trivial) (fun step => step) (fun _ _ held => held)
    (fun _ _ _ claimed => by simp [PublicationFailure.ambiguous] at claimed))

/-- A failure in a step that changes nothing may be marked as being before all effects. -/
theorem Keeps.before {α : Type} {program : Disk NativeError α}
    (still : Keeps (fun _ _ => False) program)
    : Ensures (SamePublished origin) AnyChange (program.mapError .before)
        (fun _ => SamePublished origin) (Flagged origin) :=
  Ensures.mapError (still.frame.weaken (fun _ start => start) (fun step => step)
    (fun _ _ held => held) (fun _ _ held _ => held))

theorem promoteCandidateGenerationLocked_keeps
    : Keeps AnyChange (promoteCandidateGenerationLocked host runId candidateId) :=
  .bind .observe (fun _ => .bind .observe (fun _ => .bind .observe (fun _ =>
    .bind (.effect (fun _ => trivial)) (fun _ => syncParentDir_ensures.keeps))))

theorem activatePublishedGenerationLocked_keeps {nowMs : Nat}
    : Keeps AnyChange (activatePublishedGenerationLocked host candidateId nowMs) := by
  refine .bind .observe (fun _ => .bind .observe (fun _ => ?_))
  refine .bind (.effect (fun _ => trivial)) (fun _ => .bind (.effect (fun _ => trivial))
    (fun _ => .bind (.effect (fun _ => trivial)) (fun _ => .bind .observe (fun _ => ?_))))
  exact .bind (.effect (fun _ => trivial)) (fun _ => .bind .observe (fun _ => .ret))

theorem placeCandidate_flagged
    : Ensures (SamePublished origin) AnyChange (placeCandidate host runId candidateId)
        (fun _ _ => True) (Flagged origin) := by
  refine .bind (fun _ => SamePublished origin) ?_ (fun probe => ?_)
  · exact probeReady_ensures.weaken (fun _ start => start) (fun step => step)
      (fun _ _ held => held.1) (fun _ _ held _ => held)
  cases probe with
  | invalid error => exact .raise (fun _ same _ => same)
  | valid => exact .ret (fun _ _ => trivial)
  | absent =>
      exact .bind _ (Keeps.before requireReady_ensures.keeps)
        (fun _ => Keeps.ambiguous promoteCandidateGenerationLocked_keeps)

theorem finishRunTransactionLocked_flagged {journal : RunJournal}
    {active : Option ActiveGeneration} {recovery : Bool} {nowMs : Nat}
    : Ensures (SamePublished origin) AnyChange
        (finishRunTransactionLocked host journal runId active recovery nowMs)
        (fun _ _ => True) (Flagged origin) := by
  refine .bind _ (Keeps.before ensureRegistryEmpty_keeps) (fun _ => ?_)
  refine .bind (fun _ => SamePublished origin)
    (.ofExcept (fun _ _ same _ => same) (fun _ _ same _ _ => same)) (fun candidateId => ?_)
  dsimp only
  split
  · refine .bind (fun _ _ => True) ?_ (fun _ => .ret (fun _ _ => trivial))
    exact .bind _ (Keeps.ambiguous requireReady_ensures.keeps) (fun _ =>
      .bind _ (Keeps.ambiguous syncParentDir_ensures.keeps) (fun _ =>
        Keeps.ambiguous uncertainStep_keeps))
  · split
    · refine .bind (fun _ _ => True) ?_ (fun _ => .ret (fun _ _ => trivial))
      exact resolveStale_keeps.frame.weaken (fun _ start => start) (fun step => step)
        (fun _ _ _ => trivial) (fun _ _ same _ => same)
    · refine .bind (fun _ _ => True) ?_ (fun _ => .ret (fun _ _ => trivial))
      refine .bind _ placeCandidate_flagged (fun _ => ?_)
      exact .bind _ (Keeps.ambiguous syncParentDir_ensures.keeps)
        (fun _ => Keeps.ambiguous activatePublishedGenerationLocked_keeps)

theorem publishCandidateInnerTyped_flagged {workspace : RunWorkspace} {nowMs : Nat}
    : Ensures (SamePublished origin) AnyChange
        (publishCandidateInnerTyped host workspace nowMs) (fun _ _ => True) (Flagged origin) :=
  .bind _ (Keeps.before ensureRegistryEmpty_keeps) (fun _ =>
    .bind _ (Keeps.before uncertainStep_keeps) (fun _ =>
      .bind _ (Keeps.before Keeps.observe) (fun _ =>
        .bind _ (Keeps.before Keeps.observe) (fun _ =>
          .bind _ finishRunTransactionLocked_flagged (fun _ => .ret (fun _ _ => trivial))))))

theorem failAfterAbort_flagged {α : Type} {workspace : RunWorkspace}
    {failure : PublicationFailure} {order : List RunEntry} {post : α → Store → Prop}
    : Ensures (SamePublished origin) AnyChange
        (failAfterAbort host workspace failure order : Disk _ α) post (Flagged origin) := by
  refine .bind (fun _ => SamePublished origin) (Ensures.mapError ?_)
    (fun _ => .raise (fun _ same _ => same))
  refine .recoverWith (fun _ => SamePublished origin) ?_ (fun _ => .ret (fun _ same => same))
  exact .bind _ (Keeps.samePublished closeWorkspace_keeps) (fun _ => .ret (fun _ same => same))

/-- Nothing depends on the optional steps after a publication. -/
theorem Keeps.ignored {Error α : Type} {program : Disk Error α} (kept : Keeps RunsOnly program)
    : Ensures (fun _ => True) AnyChange program.ignore (fun _ _ => True) (Flagged origin) :=
  Ensures.ignore (kept.weaken (fun _ _ => trivial) (fun _ => trivial) (fun _ _ _ => trivial)
    (fun _ _ _ => trivial))

theorem publishWithStats_flagged {session : ManagedWriteSession} {stats : GenerationStats}
    {nowMs : Nat} {order : List RunEntry}
    : Ensures (SamePublished origin) AnyChange
        (publishWithStats host session stats nowMs order) (fun _ _ => True)
        (Flagged origin) := by
  unfold publishWithStats
  split
  · next workspace held =>
      refine .bind (fun _ => SamePublished origin) ?_ (fun _ => ?_)
      · unfold ensureMarkedReady
        split
        · exact .ret (fun _ same => same)
        · exact .recoverWith _ (Keeps.samePublished markReadyWithStats_keeps)
            (fun _ => failAfterAbort_flagged)
      · refine .bind _ (.recoverWith _ (Keeps.samePublished markPhase_keeps)
          (fun _ => failAfterAbort_flagged)) (fun _ => ?_)
        refine .bind _ (.recoverWith (Flagged origin) publishCandidateInnerTyped_flagged
          (fun failure => ?_)) (fun _ => ?_)
        · split
          · next effects => exact .raise (fun _ _ claimed => by simp [effects] at claimed)
          · next none =>
              exact failAfterAbort_flagged.given (fun _ flagged => flagged (by simpa using none))
        · exact .bind _ (Keeps.ignored markPhase_keeps) (fun _ =>
            .bind _ (Keeps.ignored closeWorkspace_keeps) (fun _ => .ret (fun _ _ => trivial)))
  · exact .raise (fun _ same _ => same)

end Before

/-- Two ends of one publication agree on everything published but the timestamps. -/
theorem AtActivated.untimedGenerations {host : Host} {runId candidateId : String}
    {journal : RunJournal} {origin first second : Store} {content : GenerationDirectory}
    {active other : ActiveGeneration}
    (left : AtActivated host runId candidateId journal origin content active first)
    (right : AtActivated host runId candidateId journal origin content other second)
    : first.untimedGenerations = second.untimedGenerations := by
  funext generationId
  unfold Store.untimedGenerations
  by_cases same : generationId = candidateId
  · obtain ⟨files, held, untimed, _⟩ := left.inPlace
    obtain ⟨files', held', untimed', _⟩ := right.inPlace
    simp [same, held, held', GenerationRoot.untimed, untimed, untimed']
  · rw [left.untouched.others generationId same, right.untouched.others generationId same]

/-- A publication whose run may be finished commits. Cut at any step by any failure or crash,
it leaves the journal and a pointer, from which finishing the run again commits to the same
active generation and the same published generations but for timestamps; once more changes
nothing. And a failed publication that claims to have had no effects has changed neither
pointer nor generations. Witness: the three stages that survive a crash.
-/
theorem publication_crashAtomic
    : (∀ {host : Host} {runId candidateId : String} {journal : RunJournal}
        {active : Option ActiveGeneration} {store : Store},
        PublishingRun host runId candidateId journal active store
        → ∀ (recovery : Bool) (nowMs retryMs againMs : Nat)
            (fates againFates : List (Fate NativeError)),
            let finish := finishRunTransactionLocked host journal runId
            let whole := finish active recovery nowMs store []
            let survived := (finish active recovery nowMs store fates).state
            ∃ published pointer activated,
              whole.exit = .value (.committed journal.baseGenerationId, published)
              ∧ survived.HasJournal runId journal
              ∧ survived.PointsTo pointer
              ∧ let retried := finish pointer true retryMs survived []
                retried.exit = .value (.committed journal.baseGenerationId, some activated)
                ∧ retried.state.PointsTo (some activated)
                ∧ activated.generationId = candidateId
                ∧ retried.state.activeId = whole.state.activeId
                ∧ retried.state.untimedGenerations = whole.state.untimedGenerations
                ∧ let again := finish (some activated) true againMs retried.state
                  (again []).exit
                    = .value (.committed journal.baseGenerationId, some activated)
                  ∧ (again againFates).state.active = retried.state.active
                  ∧ (again againFates).state.generations = retried.state.generations)
      ∧ ∀ (host : Host) (session : ManagedWriteSession) (stats : GenerationStats) (nowMs : Nat)
          (order : List RunEntry) (store : Store) (fates : List (Fate NativeError))
          (failure : PublicationFailure),
          (publishWithStats host session stats nowMs order store fates).exit = .stopped failure
          → failure.mayHaveEffects = false
          → let left := (publishWithStats host session stats nowMs order store fates).state
            left.active = store.active ∧ left.generations = store.generations := by
  constructor
  · intro host runId candidateId journal active store publishing recovery nowMs retryMs againMs
      fates againFates
    obtain ⟨content, initial⟩ := publishing.survives
    have survived :=
      (finishRunTransactionLocked_survives recovery nowMs publishing).final fates
        ⟨initial, publishing.pointer⟩ initial
    obtain ⟨pointer, points⟩ := survived.exists_pointer publishing
    obtain ⟨published, committed, whole⟩ :=
      finishRunTransactionLocked_commits recovery nowMs publishing initial publishing.pointer
    obtain ⟨activated, recommitted, retried⟩ :=
      finishRunTransactionLocked_commits true retryMs publishing survived points
    obtain ⟨confirmed, again, unchanged⟩ :=
      finishRunTransactionLocked_commits true againMs publishing
        (.inr (.inr ⟨activated, retried⟩)) retried.pointer
    have still
        : Keeps (fun _ _ => False)
            (finishRunTransactionLocked host journal runId (some activated) true againMs) :=
      finishRunTransactionLocked_idempotent publishing.ids retried.names
    have same : confirmed = activated := by
      have pointer := unchanged.pointer
      rw [still.unmoved] at pointer
      have expected := retried.pointer
      simp_all [Store.PointsTo]
    refine ⟨some published, pointer, activated, committed, survived.untouched.journal, points,
      recommitted, retried.pointer, retried.names, ?_, retried.untimedGenerations whole, ?_, ?_, ?_⟩
    · rw [retried.pointer.activeId, whole.pointer.activeId, Option.map_some, Option.map_some,
        retried.names, whole.names]
    · rw [again, same]
    · rw [still.unmoved]
    · rw [still.unmoved]
  · intro host session stats nowMs order store fates failure stopped claimed
    exact publishWithStats_flagged.of_stopped ⟨rfl, rfl⟩ stopped claimed

/-- A run that is about to publish a first generation. -/
def firstPublication : RunJournal where
  runId := "a"
  phase := .publishing
  baseGenerationId := none
  candidateGenerationId := some "first"
  activeGenerationId := none
  lastError := none

/-- The store of that run, with its prepared candidate. -/
def preparedStore : Store where
  runs := Function.update (fun _ => none) "a" (some
    { journal := some (.ok firstPublication)
      candidate := some
        { generationId := "first"
          root := .directory
            { database := .regular [1]
              manifest := .regular [2]
              metadata := .regular (.ok
                { schemaVersion := 2
                  generationId := "first"
                  createdAtMs := 3
                  publishedAtMs := 0
                  baseGenerationId := none
                  logicalSizeBytes := 2
                  physicalSizeBytes := 2
                  nodeCount := 1
                  edgeCount := 0 })
              ready := .regular "prepared\n" } }
      inDomain := true })

theorem preparedStore_publishing
    : PublishingRun plainHost "a" "first" firstPublication none preparedStore where
  registry := rfl
  held := ⟨_, rfl, rfl⟩
  phase := rfl
  ids := rfl
  pointer := rfl
  base := rfl
  fresh := by decide
  candidate := .inl ⟨⟨_, rfl, validateReadyGeneration_eq_ok.mp (by rfl)⟩, rfl⟩

/-- A crash right before the pointer is renamed, recovered at a later time; and a publication
refused because the phase registry is not empty.
-/
theorem publication_crashAtomic_beforePointer
    : (finishRunTransactionLocked plainHost firstPublication "a" none true 9
          (finishRunTransactionLocked plainHost firstPublication "a" none false 5 preparedStore
            (List.replicate 17 .proceed ++ [.crash])).state []).state.activeId
        = (finishRunTransactionLocked plainHost firstPublication "a" none false 5
            preparedStore []).state.activeId
      ∧ ((publishWithStats plainHost ⟨"first", some { runId := "a", registered := true }, true⟩
            ⟨1, 0⟩ 5 [] { preparedStore with registry := .ok false } []).state.active
          = .absent) := by
  constructor
  · obtain ⟨published, pointer, activated, _, _, points, _, _, _, same, _⟩ :=
      publication_crashAtomic.1 preparedStore_publishing false 5 9 11
        (List.replicate 17 .proceed ++ [.crash]) []
    obtain rfl : pointer = none := by
      cases pointer with
      | none => rfl
      | some active => cases points
    exact same
  · exact (publication_crashAtomic.2 plainHost _ _ _ _ _ _ _ rfl rfl).1

end CodebaseGraph.Storage
