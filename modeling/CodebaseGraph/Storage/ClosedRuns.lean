import CodebaseGraph.Storage.TransactionSteps

/-! Closed runs stay closed. Recovery passes a run by whose registration has the terminal control;
no operation takes that control back, and only a run without a journal begins without it.
-/

namespace CodebaseGraph.Storage

open CodebaseGraph.Crash CodebaseGraph.Transition Program

/-- Recovery reads the registration of the run as terminal. -/
def RunDirectory.closed (run : RunDirectory) : Bool := run.registered && run.terminal

/-- A run with a journal is open only if it was open before. -/
def LeavesClosed (before after : Store) : Prop :=
  ∀ runId run,
    after.runs runId = some run
    → run.closed = false
    → run.journal = none ∨ ∃ earlier, before.runs runId = some earlier ∧ earlier.closed = false

theorem LeavesClosed.of_runs {before after : Store} (same : after.runs = before.runs)
    : LeavesClosed before after := by
  intro runId run found opened
  exact .inr ⟨run, same ▸ found, opened⟩

theorem LeavesClosed.updateRun {store : Store} {runId : String}
    {change : RunDirectory → RunDirectory}
    (kept : ∀ run, (change run).closed = false → run.closed = false)
    : LeavesClosed store (store.updateRun runId change) := by
  intro other run found opened
  by_cases same : other = runId
  · subst same
    simp only [Store.updateRun, Function.update_self, Option.map_eq_some_iff] at found
    obtain ⟨old, present, rfl⟩ := found
    exact .inr ⟨old, present, kept old opened⟩
  · simp only [Store.updateRun, ne_eq, same, not_false_eq_true, Function.update_of_ne] at found
    exact .inr ⟨run, found, opened⟩

/-- A run directory is removed, or made without a journal. -/
theorem LeavesClosed.replaceRun {store : Store} {runId : String} {run : Option RunDirectory}
    (unwritten : ∀ directory, run = some directory → directory.journal = none)
    : LeavesClosed store { store with runs := Function.update store.runs runId run } := by
  intro other directory found opened
  by_cases same : other = runId
  · subst same
    simp only [Function.update_self] at found
    exact .inl (unwritten directory found)
  · simp only [ne_eq, same, not_false_eq_true, Function.update_of_ne] at found
    exact .inr ⟨directory, found, opened⟩

theorem LeavesClosed.changeFiles {store : Store} {paths : GenerationPaths}
    {change : GenerationDirectory → GenerationDirectory}
    : LeavesClosed store (store.changeFiles paths change) := by
  cases paths with
  | published generationId => exact .of_runs rfl
  | staged runId generationId => exact .updateRun (fun _ opened => opened)

section Programs

variable {host : Host} {runId candidateId : String}

theorem writeJournal_leavesClosed {journal : RunJournal}
    : Keeps LeavesClosed (writeJournal runId journal) :=
  .effect (fun _ => .updateRun (fun _ opened => opened))

theorem markPhase_leavesClosed {phase : RunPhase} {activeGenerationId lastError : Option String}
    : Keeps LeavesClosed (markPhase runId phase activeGenerationId lastError) :=
  .bind .observe (fun _ => writeJournal_leavesClosed)

theorem setTerminal_leavesClosed
    : Keeps LeavesClosed
        (effect id (fun store =>
            store.updateRun runId (fun run => { run with terminal := true }))
          : Disk NativeError Unit) := by
  refine .effect (fun _ => .updateRun (fun run opened => ?_))
  simp only [RunDirectory.closed, Bool.and_true] at opened ⊢
  rw [opened, Bool.false_and]

theorem removeRunTree_leavesClosed {order : List RunEntry}
    : Keeps LeavesClosed (removeRunTree runId order) := by
  induction order with
  | nil => exact .bind .observe (fun _ => .effect (fun _ => .replaceRun (by simp)))
  | cons entry rest ih =>
      refine .bind (.effect (fun _ => .updateRun (fun run opened => ?_))) (fun _ => ih)
      cases entry <;> exact opened

theorem finishInner_leavesClosed {workspace : RunWorkspace} {primaryError : Option String}
    {order : List RunEntry}
    : Keeps LeavesClosed (finishInner host workspace primaryError order) := by
  have failed : Keeps LeavesClosed (markFailed workspace.runId primaryError) := by
    cases primaryError with
    | none => exact .ret
    | some error => exact markPhase_leavesClosed.mapError
  have terminated : Keeps LeavesClosed (terminateRegistered workspace primaryError) := by
    refine .bind (Keeps.mapError Keeps.observe) (fun journal => ?_)
    split
    · exact .raise
    · refine .recoverWith setTerminal_leavesClosed (fun _ => ?_)
      exact .bind markPhase_leavesClosed.ignore (fun _ => .raise)
  have removed : Keeps LeavesClosed (removeUnregistered workspace primaryError order) :=
    .recoverWith removeRunTree_leavesClosed
      (fun _ => .bind markPhase_leavesClosed.mapError (fun _ => .raise))
  unfold finishInner
  split
  · exact .raise
  · refine .bind (.recoverWith ensureCleanupAllowed_keeps (fun _ => ?_)) (fun _ => ?_)
    · exact .bind markPhase_leavesClosed.ignore (fun _ => .raise)
    · refine .bind failed (fun _ => ?_)
      unfold releaseDirectory
      split
      · exact terminated
      · exact removed

theorem closeWorkspace_leavesClosed {workspace : RunWorkspace} {primaryError : Option String}
    {order : List RunEntry}
    : Keeps LeavesClosed (closeWorkspace host workspace primaryError order) := by
  refine .recoverWith finishInner_leavesClosed (fun failure => ?_)
  split
  · exact .raise
  · exact .bind finishInner_leavesClosed.ignore (fun _ => .raise)

theorem markReadyWithStats_leavesClosed {session : ManagedWriteSession} {stats : GenerationStats}
    {nowMs : Nat}
    : Keeps LeavesClosed (markReadyWithStats host session stats nowMs) := by
  unfold markReadyWithStats
  split
  · refine .bind ensureRegistryEmpty_keeps (fun _ => .bind .observe (fun _ => ?_))
    refine .bind .observe (fun journal => .bind ?metadata (fun _ => .bind ?ready (fun _ => ?_)))
    case metadata =>
      exact .bind .observe (fun _ => .bind (.effect (fun _ => .changeFiles)) (fun _ => .observe))
    case ready =>
      refine .bind .observe (fun _ => .bind (.effect (fun _ => .changeFiles)) (fun _ => ?_))
      exact .bind (.effect (fun _ => .changeFiles)) (fun _ => uncertainStep_keeps)
    refine .bind .observe (fun _ => .bind .observe (fun marked => ?_))
    split
    · exact .raise
    · exact writeJournal_leavesClosed
  · exact .raise

theorem failAfterAbort_leavesClosed {α : Type} {workspace : RunWorkspace}
    {failure : PublicationFailure} {order : List RunEntry}
    : Keeps LeavesClosed (failAfterAbort host workspace failure order : Disk _ α) := by
  refine .bind (Keeps.mapError ?_) (fun _ => .raise)
  exact .recoverWith (.bind closeWorkspace_leavesClosed (fun _ => .ret)) (fun _ => .ret)

-- Publication

theorem activatePublishedGenerationLocked_leavesClosed {nowMs : Nat}
    : Keeps LeavesClosed (activatePublishedGenerationLocked host candidateId nowMs) := by
  refine .bind .observe (fun _ => .bind .observe (fun _ => ?_))
  refine .bind (.effect (fun _ => .changeFiles)) (fun _ => ?_)
  refine .bind (.effect (fun _ => .changeFiles)) (fun _ => ?_)
  refine .bind (.effect (fun _ => .changeFiles)) (fun _ => .bind .observe (fun _ => ?_))
  refine .bind (.effect (fun _ => .of_runs rfl)) (fun _ => ?_)
  exact .bind .observe (fun _ => .ret)

theorem promoteCandidateGenerationLocked_leavesClosed
    : Keeps LeavesClosed (promoteCandidateGenerationLocked host runId candidateId) := by
  refine .bind .observe (fun _ => .bind .observe (fun _ => .bind .observe (fun _ => ?_)))
  refine .bind (.effect (fun store => ?_)) (fun _ => .bind .observe (fun _ => .observe))
  have moved : LeavesClosed store (store.updateRun runId (fun run => { run with candidate := none })) :=
    .updateRun (fun _ opened => opened)
  exact moved

theorem commitCandidate_leavesClosed {nowMs : Nat}
    : Keeps LeavesClosed (commitCandidate host runId candidateId nowMs) := by
  refine .bind (.bind probeReady_ensures.keeps (fun probe => ?_)) (fun _ => ?_)
  · cases probe with
    | invalid error => exact .raise
    | valid => exact .ret
    | absent =>
        exact .bind requireReady_ensures.keeps.mapError
          (fun _ => promoteCandidateGenerationLocked_leavesClosed.mapError)
  · exact .bind syncParentDir_ensures.keeps.mapError
      (fun _ => activatePublishedGenerationLocked_leavesClosed.mapError)

theorem finishRunTransactionLocked_leavesClosed {journal : RunJournal}
    {active : Option ActiveGeneration} {recovery : Bool} {nowMs : Nat}
    : Keeps LeavesClosed
        (finishRunTransactionLocked host journal runId active recovery nowMs) := by
  refine .bind (Keeps.mapError ensureRegistryEmpty_keeps) (fun _ => ?_)
  refine .bind (Ensures.ofExcept (fun _ _ _ _ => trivial) (fun _ _ _ _ => trivial))
    (fun candidateId => ?_)
  dsimp only
  split
  · exact .bind confirmActivated_keeps (fun _ => .ret)
  · split
    · exact .bind resolveStale_keeps (fun _ => .ret)
    · exact .bind commitCandidate_leavesClosed (fun _ => .ret)

theorem publishWorkspace_leavesClosed {workspace : RunWorkspace} {nowMs : Nat}
    {order : List RunEntry}
    : Keeps LeavesClosed (publishWorkspace host workspace candidateId nowMs order) := by
  refine .bind (.recoverWith markPhase_leavesClosed (fun _ => failAfterAbort_leavesClosed))
    (fun _ => ?_)
  refine .bind (.recoverWith ?inner (fun failure => ?_)) (fun _ => ?_)
  case inner =>
    refine .bind (Keeps.mapError ensureRegistryEmpty_keeps) (fun _ => ?_)
    refine .bind (Keeps.mapError uncertainStep_keeps) (fun _ => ?_)
    refine .bind (Keeps.mapError .observe) (fun _ => .bind (Keeps.mapError .observe) (fun _ => ?_))
    exact .bind finishRunTransactionLocked_leavesClosed (fun _ => .ret)
  · split
    · exact .raise
    · exact failAfterAbort_leavesClosed
  refine .bind (Keeps.ignore markPhase_leavesClosed) (fun _ => ?_)
  exact .bind (Keeps.ignore closeWorkspace_leavesClosed) (fun _ => .ret)

theorem publishWithStatsTyped_leavesClosed {session : ManagedWriteSession}
    {stats : GenerationStats} {nowMs : Nat} {order : List RunEntry}
    : Keeps LeavesClosed (publishWithStatsTyped host session stats nowMs order) := by
  refine Keeps.mapError ?_
  unfold publishWithStats
  split
  · refine .bind ?_ (fun _ => publishWorkspace_leavesClosed)
    unfold ensureMarkedReady
    split
    · exact .ret
    · exact .recoverWith markReadyWithStats_leavesClosed (fun _ => failAfterAbort_leavesClosed)
  · exact .raise

-- Beginning and recovery

theorem orDrop_leavesClosed {α : Type} {workspace : RunWorkspace} {order : List RunEntry}
    {attempt : Disk NativeError α} (kept : Keeps LeavesClosed attempt)
    : Keeps LeavesClosed (orDrop host workspace order attempt) :=
  .recoverWith kept (fun _ => .bind finishInner_leavesClosed.ignore (fun _ => .raise))

theorem beginWrite_leavesClosed {registered : Bool} {order : List RunEntry}
    : Keeps LeavesClosed (beginWrite host runId candidateId registered order) := by
  refine .bind uncertainStep_keeps (fun _ => .bind ensureRegistryEmpty_keeps (fun _ => ?_))
  refine .bind ensureRegistryEmpty_keeps (fun _ => .bind uncertainStep_keeps (fun _ => ?_))
  refine .bind .observe (fun active => .bind ?created (fun _ => ?_))
  case created =>
    refine .bind .observe (fun _ => .bind (.effect (fun _ => .replaceRun ?_)) (fun _ => .observe))
    intro directory fresh
    cases fresh
    rfl
  refine .bind (orDrop_leavesClosed ?begun) (fun _ => .bind (orDrop_leavesClosed ?_) (fun _ => .ret))
  case begun =>
    refine .bind (.effect (fun _ => .updateRun (fun _ opened => opened))) (fun _ => ?_)
    exact .bind writeJournal_leavesClosed (fun _ => .observe)
  refine .bind (.effect (fun _ => .updateRun (fun _ opened => opened))) (fun _ => ?_)
  refine .bind (.effect (fun _ => .updateRun (fun _ opened => opened))) (fun _ => ?_)
  refine .bind .observe (fun journal => .effect (fun store => ?_))
  have written : LeavesClosed store (store.updateRun runId (fun run =>
      { run with
        journal := some (.ok
          { journal with
            candidateGenerationId := some candidateId
            phase := .staged }) })) :=
    .updateRun (fun _ opened => opened)
  exact written

theorem recoverRun_leavesClosed {listing : RunListing} {active : Option ActiveGeneration}
    {report : ManagedRecoveryReport}
    : Keeps LeavesClosed (recoverRun host listing active report) := by
  refine .bind .observe (fun found => ?_)
  cases found with
  | none => exact .ret
  | some run =>
      dsimp only
      split
      · exact .ret
      · refine .bind (.recoverWith (.bind uncertainStep_keeps (fun _ => .ret)) (fun _ => .ret))
          (fun registration => ?_)
        split
        · exact .ret
        · refine .bind .observe (fun journal => ?_)
          unfold resolveRun
          split
          · refine .bind (Keeps.mapError finishRunTransactionLocked_leavesClosed) (fun result => ?_)
            refine .bind ?_ (fun _ => .ret)
            unfold closeLive
            split
            · refine Keeps.ignore (.bind uncertainStep_keeps (fun _ => ?_))
              refine .bind writeJournal_leavesClosed (fun _ => .bind uncertainStep_keeps (fun _ => ?_))
              exact setTerminal_leavesClosed
            · exact .ret
          · exact .ret

theorem recoverRequiredWithOwnedWriter_leavesClosed {listings : List RunListing}
    : Keeps LeavesClosed (recoverRequiredWithOwnedWriter host listings) := by
  have recovered {listings : List RunListing} {active : Option ActiveGeneration}
      {report : ManagedRecoveryReport}
      : Keeps LeavesClosed (recoverRunsLockedTyped host listings active report) := by
    induction listings generalizing active report with
    | nil => exact .ret
    | cons listing rest ih => exact .bind recoverRun_leavesClosed (fun _ => ih)
  refine .bind .observe (fun work => ?_)
  split
  · exact .ret
  · refine .bind (succeeds_keeps ensureRegistryEmpty_keeps) (fun empty => ?_)
    split
    · refine .bind uncertainStep_keeps (fun _ => .bind (succeeds_keeps uncertainStep_keeps)
        (fun mutation => ?_))
      split
      · exact .bind uncertainStep_keeps (fun _ => .bind .observe (fun _ => recovered))
      · exact .ret
    · exact .ret

theorem LeavesClosed.operationsKeep : OperationsKeep host LeavesClosed where
  begins := beginWrite_leavesClosed.ensures
  fills := .changeFiles
  marks := markReadyWithStats_leavesClosed
  publishes := publishWithStatsTyped_leavesClosed
  closes := closeWorkspace_leavesClosed
  recovers := recoverRequiredWithOwnedWriter_leavesClosed
  registers := .of_runs rfl

end Programs

end CodebaseGraph.Storage
