import CodebaseGraph.Refresh.Pipeline

/-! What one step does to the history and to the reported status. -/

namespace CodebaseGraph.Refresh

variable {filter : WatchEventFilter} {backend : GraphRefreshBackend}
  {state next : LeaderState} {action : RefreshAction}

/-- The refresh under way. -/
def Position.attempt? : Position → Option (Duty × Began)
  | .materializing duty _ began => some (duty, began)
  | _ => none

def Duty.servesPoll : Duty → Bool
  | .serve .poll _ => true
  | _ => false

/-- The native loop has been left, or was never chosen. -/
def Position.leftNative : Position → Bool
  | .attempting duty _ | .materializing duty _ _ => duty.servesPoll
  | .batched .poll _ | .baseline _ | .polling _ _ | .returned => true
  | _ => false

/-- The files and the edits so far are the same. -/
structure SameWorld (state next : LeaderState) : Prop where
  files : next.files = state.files
  edits : next.edits = state.edits

/-- The whole history and the status are the same. -/
structure SameHistory (state next : LeaderState) : Prop extends SameWorld state next where
  marked : next.marked = state.marked
  status : next.status = state.status
  succeeded : next.succeeded = state.succeeded

/-- The effects of a step: an edit, none at all, a change marked by the callback or by the
leader, and the beginning, the success and the failure of a refresh.
-/
inductive Effect (filter : WatchEventFilter) (state : LeaderState) (action : RefreshAction)
    (next : LeaderState)
    : Prop where
  | edited (path : String) (file : Option WatchFileState) (event : Event)
    (edits : action = .edit path file event)
    (moved : editStep filter state path file event = some next)
    : Effect filter state action next
  | quiet (same : SameHistory state next)
    (position : next.position.attempt? = none ∨ next.position = state.position)
    : Effect filter state action next
  | reported (world : SameWorld state next) (event : Event)
    (visible : isProbeEvent filter event = false)
    (marked
      : next.marked
        = state.marked ++ [(state.status.markDirty.dirtyEpoch, .event event)])
    (status : next.status = state.status.markDirty)
    (succeeded : next.succeeded = state.succeeded)
    (position : next.position = state.position)
    (sends : next.callback = some (.sending (.event event)))
    : Effect filter state action next
  | scheduled (world : SameWorld state next) (batch : WatchChangeBatch)
    (changes : batch.hasChanges = true)
    (marked
      : next.marked
        = state.marked ++ [(state.status.markDirty.dirtyEpoch, .batch batch)])
    (status : next.status = state.status.markDirty)
    (succeeded : next.succeeded = state.succeeded) (idle : next.position.attempt? = none)
    (held : ∀ concern : Concern filter, concern.coveredBy batch → Held concern next)
    : Effect filter state action next
  | began (begins : action = .beginAttempt) (duty : Duty) (attempts : Nat)
    (position : state.position = .attempting duty attempts)
    (result
      : next
        = {
          state with
          status := state.status.markPending.markRefreshing,
          position :=
            .materializing duty (attempts + 1) ⟨state.edits.length, state.marked.length⟩
        })
    : Effect filter state action next
  | succeeded (world : SameWorld state next) (duty : Duty) (began : Began)
    (attempt : state.position.attempt? = some (duty, began))
    (marked : next.marked = state.marked) (status : next.status = state.status.markRefreshed)
    (succeeded : next.succeeded = state.succeeded ++ [⟨duty.batch, began⟩])
    (idle : next.position.attempt? = none)
    : Effect filter state action next
  | failed (world : SameWorld state next) (marked : next.marked = state.marked)
    (status
      : next.status = state.status.markRefreshError
        ∨ next.status = state.status.markRefreshError.markRetrying)
    (succeeded : next.succeeded = state.succeeded) (idle : next.position.attempt? = none)
    : Effect filter state action next

theorem waiting_attempt? (loop : WatchLoop) : (waiting loop).attempt? = none := by
  cases loop <;> rfl

/-- The end of a refresh changes the position and the failed batch only. -/
theorem finishRefresh_effect (state : LeaderState) (duty : Duty) (ok : Bool)
    : SameHistory state (state.finishRefresh duty ok)
      ∧ (state.finishRefresh duty ok).position.attempt? = none := by
  match duty, ok with
  | .startup .native, true | .startup .poll, true | .startup .native, false
  | .startup .poll, false => exact ⟨⟨⟨rfl, rfl⟩, rfl, rfl, rfl⟩, rfl⟩
  | .serve loop _, true | .serve loop _, false =>
      exact ⟨⟨⟨rfl, rfl⟩, rfl, rfl, rfl⟩, waiting_attempt? loop⟩

theorem nextMessage_history {message : WatchMessage}
    (taken : state.nextMessage = some (message, next))
    : SameHistory state next := by
  unfold LeaderState.nextMessage at taken
  split at taken
  · obtain ⟨-, rfl⟩ := Prod.mk.inj (Option.some.inj taken)
    exact ⟨⟨rfl, rfl⟩, rfl, rfl, rfl⟩
  · obtain ⟨first, -, same⟩ := Option.map_eq_some_iff.mp taken
    obtain ⟨-, rfl⟩ := Prod.mk.inj same
    exact ⟨⟨rfl, rfl⟩, rfl, rfl, rfl⟩

theorem SameHistory.nativeFailed (same : SameHistory state next) (error : String)
    : Effect filter state action (next.nativeFailed backend error) := by
  unfold LeaderState.nativeFailed
  split
  · exact .quiet ⟨⟨same.files, same.edits⟩, same.marked, same.status, same.succeeded⟩
      (Or.inl rfl)
  · exact .quiet ⟨⟨same.files, same.edits⟩, same.marked, same.status, same.succeeded⟩
      (Or.inl rfl)

theorem SameHistory.rfl {state : LeaderState} : SameHistory state state :=
  ⟨⟨Eq.refl _, Eq.refl _⟩, Eq.refl _, Eq.refl _, Eq.refl _⟩

theorem callbackStep_effect {directories : List String}
    (move : callbackStep filter state directories = some next)
    : Effect filter state action next := by
  unfold callbackStep at move
  split at move
  · next event rest waits free =>
      dsimp only at move
      split at move
      · obtain rfl := Option.some.inj move
        by_cases probe : isProbeEvent filter event = true
        · rw [if_pos probe]
          exact .quiet ⟨⟨rfl, rfl⟩, rfl, rfl, rfl⟩ (Or.inr rfl)
        · rw [if_neg probe]
          exact .reported ⟨rfl, rfl⟩ event (by simpa using probe) rfl rfl rfl rfl rfl
      · obtain rfl := Option.some.inj move
        exact .quiet ⟨⟨rfl, rfl⟩, rfl, rfl, rfl⟩ (Or.inr rfl)
  · obtain rfl := Option.some.inj move
    exact .quiet ⟨⟨rfl, rfl⟩, rfl, rfl, rfl⟩ (Or.inr rfl)
  · simp at move

theorem proceedStep_effect {configurationChanged retryDue reconciliationDue : Bool}
    (move : proceedStep state configurationChanged retryDue reconciliationDue = some next)
    : Effect filter state action next := by
  obtain ⟨loop, collected, position, outcome⟩ := proceedStep_cases move
  set batch := joinedBatch state.pendingFailed collected configurationChanged
  have idle : next.position.attempt? = none := by
    obtain rfl | ⟨final, -, rfl | rfl⟩ := outcome
    · rfl
    · exact waiting_attempt? loop
    · rfl
  have held (concern : Concern filter) (covered : concern.coveredBy batch)
      : Held concern next := by
    obtain rfl | ⟨final, grows, rfl | rfl⟩ := outcome
    · trivial
    · cases loop with
      | native => exact Or.inr ⟨final, rfl, concern.grows grows covered⟩
      | poll => trivial
    · cases loop with
      | native => exact Or.inl (concern.grows grows covered)
      | poll => trivial
  have same : SameHistory (beforeRefresh state loop batch) next := by
    obtain rfl | ⟨final, -, rfl | rfl⟩ := outcome <;> exact ⟨⟨rfl, rfl⟩, rfl, rfl, rfl⟩
  unfold beforeRefresh at same
  dsimp only at same
  split at same
  · next marks =>
      have changes : batch.hasChanges = true := by
        have hook := (Bool.and_eq_true_iff.mp marks).2
        cases loop with
        | native => exact (Bool.and_eq_true_iff.mp hook).2
        | poll => exact hook
      exact .scheduled ⟨same.files, same.edits⟩ batch changes same.marked same.status
        same.succeeded idle held
  · exact .quiet ⟨⟨same.files, same.edits⟩, same.marked, same.status, same.succeeded⟩
      (Or.inl idle)

theorem refreshMove_effect
    (move : refreshMove filter backend state action = some next)
    : Effect filter state action next := by
  cases action with
  | edit path file event => exact .edited path file event rfl move
  | report message =>
      simp only [refreshMove] at move
      split at move
      · obtain rfl := Option.some.inj move
        exact .quiet ⟨⟨rfl, rfl⟩, rfl, rfl, rfl⟩ (Or.inr rfl)
      · simp at move
  | callback directories => exact callbackStep_effect move
  | trySend =>
      simp only [refreshMove, trySendStep] at move
      split at move
      · split at move <;> obtain rfl := Option.some.inj move <;>
          exact .quiet ⟨⟨rfl, rfl⟩, rfl, rfl, rfl⟩ (Or.inr rfl)
      · simp at move
  | storeOverflow =>
      simp only [refreshMove, storeOverflowStep] at move
      split at move
      · obtain rfl := Option.some.inj move
        exact .quiet ⟨⟨rfl, rfl⟩, rfl, rfl, rfl⟩ (Or.inr rfl)
      · simp at move
  | start started =>
      simp only [refreshMove, startStep] at move
      split at move
      · split at move <;> obtain rfl := Option.some.inj move <;>
          exact .quiet ⟨⟨rfl, rfl⟩, rfl, rfl, rfl⟩ (Or.inl rfl)
      · simp at move
  | probeReceive =>
      simp only [refreshMove, probeReceiveStep] at move
      split at move
      · obtain rfl := Option.some.inj move
        exact .quiet ⟨⟨rfl, rfl⟩, rfl, rfl, rfl⟩ (Or.inl rfl)
      · obtain rfl := Option.some.inj move
        unfold probeEnd
        split <;> exact .quiet ⟨⟨rfl, rfl⟩, rfl, rfl, rfl⟩ (Or.inl rfl)
      · simp at move
  | probeTimeout =>
      simp only [refreshMove, probeTimeoutStep] at move
      split at move
      · obtain rfl := Option.some.inj move
        unfold probeEnd
        split <;> exact .quiet ⟨⟨rfl, rfl⟩, rfl, rfl, rfl⟩ (Or.inl rfl)
      · simp at move
  | probeError =>
      simp only [refreshMove, probeErrorStep] at move
      split at move
      · obtain rfl := Option.some.inj move
        exact .quiet ⟨⟨rfl, rfl⟩, rfl, rfl, rfl⟩ (Or.inl rfl)
      · simp at move
  | startupDirty =>
      simp only [refreshMove, startupDirtyStep] at move
      split at move
      · obtain rfl := Option.some.inj move
        exact .scheduled ⟨rfl, rfl⟩ startupBatch rfl rfl rfl rfl rfl (fun _ _ => trivial)
      · simp at move
  | beginAttempt =>
      simp only [refreshMove, beginAttemptStep] at move
      split at move
      · next duty attempts position =>
          split at move
          · exact .began rfl duty attempts position (Option.some.inj move).symm
          · obtain rfl := Option.some.inj move
            obtain ⟨same, idle⟩ := finishRefresh_effect state duty true
            exact .quiet same (Or.inl idle)
      · simp at move
  | attemptOk stopping =>
      simp only [refreshMove, attemptOkStep] at move
      split at move
      · next duty attempts began position =>
          obtain rfl := Option.some.inj move
          obtain ⟨same, idle⟩ := finishRefresh_effect
            {
              state with
              status := state.status.markRefreshed,
              succeeded := state.succeeded ++ [⟨duty.batch, began⟩]
            } duty (!stopping)
          exact .succeeded ⟨same.files, same.edits⟩ duty began (by rw [position]; rfl)
            same.marked same.status same.succeeded idle
      · simp at move
  | attemptFailed retrying =>
      simp only [refreshMove, attemptFailedStep] at move
      split at move
      · next duty attempts began position =>
          split at move
          · obtain rfl := Option.some.inj move
            exact .failed ⟨rfl, rfl⟩ rfl (Or.inl rfl) rfl rfl
          · obtain rfl := Option.some.inj move
            set failed : LeaderState :=
              {
                state with
                status :=
                  if retrying then state.status.markRefreshError.markRetrying
                  else state.status.markRefreshError
              }
            obtain ⟨same, idle⟩ := finishRefresh_effect failed duty false
            refine .failed ⟨same.files, same.edits⟩ same.marked ?_ same.succeeded idle
            rw [same.status]
            cases retrying
            · exact Or.inl rfl
            · exact Or.inr rfl
      · simp at move
  | receive deadlinePassed =>
      simp only [refreshMove, receiveStep] at move
      split at move
      · next taken =>
          obtain rfl := Option.some.inj move
          have same := nextMessage_history taken
          exact .quiet ⟨⟨same.files, same.edits⟩, same.marked, same.status, same.succeeded⟩
            (Or.inl rfl)
      · split at move
        · obtain rfl := Option.some.inj move
          exact .quiet ⟨⟨rfl, rfl⟩, rfl, rfl, rfl⟩ (Or.inl rfl)
        · simp at move
      · simp at move
  | disconnect =>
      simp only [refreshMove, disconnectStep] at move
      split at move
      · obtain rfl := Option.some.inj move
        exact SameHistory.rfl.nativeFailed _
      · obtain rfl := Option.some.inj move
        exact SameHistory.rfl.nativeFailed _
      · simp at move
  | openBatch directories deadlinePassed =>
      simp only [refreshMove, openBatchStep] at move
      split at move
      · split at move
        · obtain rfl := Option.some.inj move
          exact SameHistory.rfl.nativeFailed _
        · split at move
          · obtain rfl := Option.some.inj move
            exact .quiet ⟨⟨rfl, rfl⟩, rfl, rfl, rfl⟩ (Or.inl rfl)
          · split at move <;> obtain rfl := Option.some.inj move <;>
              exact .quiet ⟨⟨rfl, rfl⟩, rfl, rfl, rfl⟩ (Or.inl rfl)
      · simp at move
  | collectMore directories =>
      simp only [refreshMove, collectMoreStep] at move
      split at move
      · next taken =>
          have same := nextMessage_history taken
          split at move
          · obtain rfl := Option.some.inj move
            exact same.nativeFailed _
          · obtain rfl := Option.some.inj move
            exact .quiet ⟨⟨same.files, same.edits⟩, same.marked, same.status, same.succeeded⟩
              (Or.inl rfl)
      · simp at move
  | collectEnd =>
      simp only [refreshMove, collectEndStep] at move
      split at move
      · obtain rfl := Option.some.inj move
        exact .quiet ⟨⟨rfl, rfl⟩, rfl, rfl, rfl⟩ (Or.inl rfl)
      · simp at move
  | proceed configurationChanged retryDue reconciliationDue => exact proceedStep_effect move
  | visit path =>
      simp only [refreshMove, visitStep] at move
      split at move
      · obtain rfl := Option.some.inj move
        exact .quiet ⟨⟨rfl, rfl⟩, rfl, rfl, rfl⟩ (Or.inl rfl)
      · obtain rfl := Option.some.inj move
        exact .quiet ⟨⟨rfl, rfl⟩, rfl, rfl, rfl⟩ (Or.inl rfl)
      · simp at move
  | finishWalk deadlinePassed =>
      simp only [refreshMove, finishWalkStep] at move
      split at move
      · obtain rfl := Option.some.inj move
        exact .quiet ⟨⟨rfl, rfl⟩, rfl, rfl, rfl⟩ (Or.inl rfl)
      · split at move
        · split at move
          · split at move <;> obtain rfl := Option.some.inj move <;>
              exact .quiet ⟨⟨rfl, rfl⟩, rfl, rfl, rfl⟩ (Or.inl rfl)
          · obtain rfl := Option.some.inj move
            exact .quiet ⟨⟨rfl, rfl⟩, rfl, rfl, rfl⟩ (Or.inl rfl)
        · split at move <;> obtain rfl := Option.some.inj move <;>
            exact .quiet ⟨⟨rfl, rfl⟩, rfl, rfl, rfl⟩ (Or.inl rfl)
      · simp at move
  | settle =>
      simp only [refreshMove, settleStep] at move
      split at move
      · obtain rfl := Option.some.inj move
        exact .quiet ⟨⟨rfl, rfl⟩, rfl, rfl, rfl⟩ (Or.inl rfl)
      · simp at move
  | walkError =>
      simp only [refreshMove, walkErrorStep] at move
      split at move
      · obtain rfl := Option.some.inj move
        exact .quiet ⟨⟨rfl, rfl⟩, rfl, rfl, rfl⟩ (Or.inl rfl)
      · obtain rfl := Option.some.inj move
        exact .quiet ⟨⟨rfl, rfl⟩, rfl, rfl, rfl⟩ (Or.inl rfl)
      · simp at move
  | stop =>
      simp only [refreshMove, stopStep] at move
      split at move
      · obtain rfl := Option.some.inj move
        exact .quiet ⟨⟨rfl, rfl⟩, rfl, rfl, rfl⟩ (Or.inl rfl)
      · obtain rfl := Option.some.inj move
        exact .quiet ⟨⟨rfl, rfl⟩, rfl, rfl, rfl⟩ (Or.inl rfl)
      · simp at move

/-- The native loop is not entered a second time. -/
theorem leftNative_step (left : state.position.leftNative = true)
    (move : refreshMove filter backend state action = some next)
    : next.position.leftNative = true := by
  have same (position : next.position = state.position) : next.position.leftNative = true :=
    position ▸ left
  have finish (start : LeaderState) (duty : Duty) (ok : Bool)
      (serves : duty.servesPoll = true)
      : (start.finishRefresh duty ok).position.leftNative = true := by
    match duty, ok with
    | .serve .poll _, true | .serve .poll _, false => rfl
    | .startup _, _ | .serve .native _, _ => simp [Duty.servesPoll] at serves
  have poll (position : next.position.unheld = true) : next.position.leftNative = true := by
    revert position
    cases next.position with
    | batched loop batch => cases loop <;> simp [Position.unheld, Position.leftNative]
    | _ => simp [Position.unheld, Position.leftNative]
  cases action with
  | edit path file event =>
      simp only [refreshMove, editStep] at move
      split at move
      · obtain rfl := Option.some.inj move
        exact left
      · simp at move
  | report message =>
      simp only [refreshMove] at move
      split at move
      · obtain rfl := Option.some.inj move
        exact left
      · simp at move
  | callback directories => exact same (callbackStep_sameLeader move).position
  | trySend => exact same (trySendStep_sameLeader move).position
  | storeOverflow => exact same (storeOverflowStep_sameLeader move).position
  | start started =>
      simp only [refreshMove, startStep] at move
      split at move
      · next position => simp [position, Position.leftNative] at left
      · simp at move
  | probeReceive =>
      simp only [refreshMove, probeReceiveStep] at move
      split at move
      · next position _ => simp [position, Position.leftNative] at left
      · next position _ => simp [position, Position.leftNative] at left
      · simp at move
  | probeTimeout =>
      simp only [refreshMove, probeTimeoutStep] at move
      split at move
      · next position => simp [position, Position.leftNative] at left
      · simp at move
  | probeError =>
      simp only [refreshMove, probeErrorStep] at move
      split at move
      · next position => simp [position, Position.leftNative] at left
      · simp at move
  | startupDirty =>
      simp only [refreshMove, startupDirtyStep] at move
      split at move
      · next position => simp [position, Position.leftNative] at left
      · simp at move
  | beginAttempt =>
      simp only [refreshMove, beginAttemptStep] at move
      split at move
      · next duty attempts position =>
          rw [position] at left
          split at move
          · obtain rfl := Option.some.inj move
            exact left
          · obtain rfl := Option.some.inj move
            exact finish _ _ _ left
      · simp at move
  | attemptOk stopping =>
      simp only [refreshMove, attemptOkStep] at move
      split at move
      · next duty attempts began position =>
          obtain rfl := Option.some.inj move
          rw [position] at left
          exact finish _ _ _ left
      · simp at move
  | attemptFailed retrying =>
      simp only [refreshMove, attemptFailedStep] at move
      split at move
      · next duty attempts began position =>
          rw [position] at left
          split at move
          · obtain rfl := Option.some.inj move
            exact left
          · obtain rfl := Option.some.inj move
            exact finish _ _ _ left
      · simp at move
  | receive deadlinePassed =>
      simp only [refreshMove, receiveStep] at move
      split at move
      · next position _ => simp [position, Position.leftNative] at left
      · next position _ => simp [position, Position.leftNative] at left
      · simp at move
  | disconnect =>
      simp only [refreshMove, disconnectStep] at move
      split at move
      · next position _ => simp [position, Position.leftNative] at left
      · next position _ => simp [position, Position.leftNative] at left
      · simp at move
  | openBatch directories deadlinePassed =>
      simp only [refreshMove, openBatchStep] at move
      split at move
      · next position => simp [position, Position.leftNative] at left
      · simp at move
  | collectMore directories =>
      simp only [refreshMove, collectMoreStep] at move
      split at move
      · next position _ => simp [position, Position.leftNative] at left
      · simp at move
  | collectEnd =>
      simp only [refreshMove, collectEndStep] at move
      split at move
      · next position => simp [position, Position.leftNative] at left
      · simp at move
  | proceed configurationChanged retryDue reconciliationDue =>
      obtain ⟨loop, collected, position, outcome⟩ := proceedStep_cases move
      cases loop with
      | native => simp [position, Position.leftNative] at left
      | poll => obtain rfl | ⟨final, -, rfl | rfl⟩ := outcome <;> rfl
  | visit path => exact poll (visitStep_unheld move)
  | finishWalk deadlinePassed => exact poll (finishWalkStep_unheld move)
  | settle => exact poll (settleStep_unheld move)
  | walkError => exact poll (walkErrorStep_unheld move)
  | stop => exact poll (stopStep_unheld move)

end CodebaseGraph.Refresh
