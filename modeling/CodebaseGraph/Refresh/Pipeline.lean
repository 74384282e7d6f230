import CodebaseGraph.Refresh.Leader

/-! What becomes of a change on its way from the watcher's callback to a refresh.
A concern says which events carry the change and which batches cover it; while the native loop
runs, a change that no refresh has covered is held in one of the places between the two.
-/

namespace CodebaseGraph.Refresh

open CodebaseGraph.Transition

variable {filter : WatchEventFilter} {backend : GraphRefreshBackend}

/-- A change to be refreshed: the events that carry it, the batches that cover it and the
attempts that began after it.
-/
structure Concern (filter : WatchEventFilter) where
  carriedBy : Event → Prop
  coveredBy : WatchChangeBatch → Prop
  early : Began → Prop
  full : ∀ {batch}, batch.fullRescan = true → coveredBy batch
  grows : ∀ {batch next}, WatchChangeBatch.Extends batch next → coveredBy batch → coveredBy next
  nonempty : ∀ {batch}, coveredBy batch → batch.hasChanges = true
  applied
    : ∀ {directories event} (batch : WatchChangeBatch),
        carriedBy event
        → Recorded filter directories event
        → coveredBy (applyEvent filter directories event batch)

variable (concern : Concern filter)

def Concern.carriedIn : WatchMessage → Prop
  | .event event => concern.carriedBy event
  | .error _ => False

/-- A change between the callback and a batch; a raised overflow flag stands for any change. -/
inductive Carried (callback : Option Callback) (overflowed : Bool)
    (channel : Option WatchMessage) (queued : List WatchMessage)
    : Prop where
  | sending {message} (sends : callback = some (.sending message))
    (carries : concern.carriedIn message)
    : Carried callback overflowed channel queued
  | overflowing (overflows : callback = some .overflowing)
    : Carried callback overflowed channel queued
  | flagged (raised : overflowed = true) : Carried callback overflowed channel queued
  | sent {message} (inside : channel = some message) (carries : concern.carriedIn message)
    : Carried callback overflowed channel queued
  | waiting {message} (member : message ∈ queued) (carries : concern.carriedIn message)
    : Carried callback overflowed channel queued

def LeaderState.carries (state : LeaderState) : Prop :=
  Carried concern state.callback state.overflowed state.channel state.queued

/-- The messages between the callback and a batch. -/
def LeaderState.inFlight (state : LeaderState) : List WatchMessage :=
  (match state.callback with
    | some (.sending message) => [message]
    | _ => [])
  ++ state.channel.toList
  ++ state.queued

/-- The batch of an earlier failure covers the change. -/
def LeaderState.failed (state : LeaderState) : Prop :=
  ∃ batch, state.pendingFailed = some batch ∧ concern.coveredBy batch

/-- The change is in the pipeline of the native loop, or a full rescan at startup is still to
come. Nothing is said about the poll loop.
-/
def Held (state : LeaderState) : Prop :=
  match state.position with
  | .materializing (.startup .native) _ began =>
      concern.early began ∨ state.carries concern
  | .nativeWaiting => state.carries concern ∨ state.failed concern
  | .received message =>
      concern.carriedIn message ∨ state.carries concern ∨ state.failed concern
  | .collecting batch | .batched .native batch =>
      concern.coveredBy batch ∨ state.carries concern ∨ state.failed concern
  | .attempting (.serve .native batch) _ =>
      concern.coveredBy batch ∨ state.carries concern
  | .materializing (.serve .native batch) _ began =>
      (concern.coveredBy batch ∧ concern.early began) ∨ state.carries concern
  | .starting | .probing _ | .startup _ | .attempting (.startup _) _
  | .materializing (.startup .poll) _ _ | .batched .poll _ | .attempting (.serve .poll _) _
  | .materializing (.serve .poll _) _ _ | .baseline _ | .polling _ _ | .returned => True

/-- A refresh that began after the change has covered it. -/
def Settled (state : LeaderState) : Prop :=
  ∃ refresh ∈ state.succeeded, concern.early refresh.began ∧ concern.coveredBy refresh.batch

/-- The event that a step of the leader puts into its batch. -/
def consumed (state : LeaderState) : RefreshAction → Option (List String × Event)
  | .openBatch directories _ =>
      match state.position with
      | .received (.event event) => some (directories, event)
      | _ => none
  | .collectMore directories =>
      match state.position, state.nextMessage with
      | .collecting _, some (.event event, _) => some (directories, event)
      | _, _ => none
  | _ => none

variable {concern} {state next : LeaderState}

-----------------------------------------------------------------------------------------
-- The callback and the channel
-----------------------------------------------------------------------------------------

theorem Carried.of_callback_none {callback : Option Callback} {overflowed : Bool}
    {channel : Option WatchMessage} {queued : List WatchMessage}
    (carried : Carried concern none overflowed channel queued)
    : Carried concern callback overflowed channel queued := by
  cases carried with
  | sending sends => simp at sends
  | overflowing overflows => simp at overflows
  | flagged raised => exact .flagged raised
  | sent inside carries => exact .sent inside carries
  | waiting member carries => exact .waiting member carries

/-- `try_send` moves the message into the channel or turns it into an overflow. -/
theorem Carried.trySend (carried : state.carries concern) (move : trySendStep state = some next)
    : next.carries concern := by
  unfold trySendStep at move
  split at move
  · next message sends =>
      split at move
      · next empty =>
          obtain rfl := Option.some.inj move
          cases carried with
          | sending same carries =>
              rw [sends] at same
              obtain rfl := Callback.sending.inj (Option.some.inj same)
              exact .sent rfl carries
          | overflowing overflows => simp [sends] at overflows
          | flagged raised => exact .flagged raised
          | sent inside carries => simp [empty] at inside
          | waiting member carries => exact .waiting member carries
      · obtain rfl := Option.some.inj move
        exact .overflowing rfl
  · simp at move

theorem Carried.storeOverflow (move : storeOverflowStep state = some next)
    : next.carries concern := by
  unfold storeOverflowStep at move
  split at move
  · obtain rfl := Option.some.inj move
    exact .flagged rfl
  · simp at move

/-- A step of the callback starts only while no message is being sent. -/
theorem Carried.callback {directories : List String} (carried : state.carries concern)
    (move : callbackStep filter state directories = some next)
    : next.carries concern := by
  unfold callbackStep at move
  split at move
  · next free =>
      have idle : Carried concern none state.overflowed state.channel state.queued := by
        rw [LeaderState.carries, free] at carried
        exact carried
      dsimp only at move
      split at move
      · obtain rfl := Option.some.inj move
        split
        · exact idle.of_callback_none
        · exact idle.of_callback_none
      · obtain rfl := Option.some.inj move
        exact carried
  · next free =>
      obtain rfl := Option.some.inj move
      rw [LeaderState.carries, free] at carried
      exact carried.of_callback_none
  · simp at move

/-- A message that is taken no longer waits. -/
theorem Carried.nextMessage {message : WatchMessage} (carried : state.carries concern)
    (taken : state.nextMessage = some (message, next))
    : concern.carriedIn message ∨ next.carries concern := by
  unfold LeaderState.nextMessage at taken
  split at taken
  · next first rest queue =>
      obtain ⟨rfl, rfl⟩ := Prod.mk.inj (Option.some.inj taken)
      cases carried with
      | sending sends carries => exact Or.inr (.sending sends carries)
      | overflowing overflows => exact Or.inr (.overflowing overflows)
      | flagged raised => exact Or.inr (.flagged raised)
      | sent inside carries => exact Or.inr (.sent inside carries)
      | waiting member carries =>
          rw [queue] at member
          rcases List.mem_cons.mp member with rfl | later
          · exact Or.inl carries
          · exact Or.inr (.waiting later carries)
  · next empty =>
      obtain ⟨first, inside, same⟩ := Option.map_eq_some_iff.mp taken
      obtain ⟨rfl, rfl⟩ := Prod.mk.inj same
      cases carried with
      | sending sends carries => exact Or.inr (.sending sends carries)
      | overflowing overflows => exact Or.inr (.overflowing overflows)
      | flagged raised => exact Or.inr (.flagged raised)
      | sent there carries =>
          rw [inside] at there
          obtain rfl := Option.some.inj there
          exact Or.inl carries
      | waiting member carries => simp [empty] at member

theorem nextMessage_pendingFailed {message : WatchMessage}
    (taken : state.nextMessage = some (message, next))
    : next.pendingFailed = state.pendingFailed := by
  unfold LeaderState.nextMessage at taken
  split at taken
  · obtain ⟨-, rfl⟩ := Prod.mk.inj (Option.some.inj taken)
    rfl
  · obtain ⟨first, -, same⟩ := Option.map_eq_some_iff.mp taken
    obtain ⟨-, rfl⟩ := Prod.mk.inj same
    rfl

/-- Lowering the flag loses nothing: the batch becomes a full rescan. -/
theorem Carried.swapOverflow {batch : WatchChangeBatch} (carried : state.carries concern)
    : concern.coveredBy (state.swapOverflow batch).2
      ∨ (state.swapOverflow batch).1.carries concern := by
  unfold LeaderState.swapOverflow
  by_cases raised : state.overflowed = true
  · left
    apply concern.full
    simp [raised, WatchChangeBatch.markOverflow, WatchChangeBatch.markFullRescan]
  · right
    cases carried with
    | sending sends carries => exact .sending sends carries
    | overflowing overflows => exact .overflowing overflows
    | flagged flag => exact absurd flag raised
    | sent inside carries => exact .sent inside carries
    | waiting member carries => exact .waiting member carries

theorem swapOverflow_covers {batch : WatchChangeBatch} (covered : concern.coveredBy batch)
    : concern.coveredBy (state.swapOverflow batch).2 := by
  apply concern.grows _ covered
  unfold LeaderState.swapOverflow
  dsimp only
  split
  · exact batch.extends_markOverflow
  · exact .refl batch

/-- The watcher thread touches nothing but its own hand-over and the dirty epoch. -/
structure SameLeader (state next : LeaderState) : Prop where
  files : next.files = state.files
  pendingFailed : next.pendingFailed = state.pendingFailed
  previousSnapshot : next.previousSnapshot = state.previousSnapshot
  position : next.position = state.position
  edits : next.edits = state.edits
  succeeded : next.succeeded = state.succeeded

theorem callbackStep_sameLeader {directories : List String}
    (move : callbackStep filter state directories = some next)
    : SameLeader state next := by
  unfold callbackStep at move
  split at move
  · dsimp only at move
    split at move
    · obtain rfl := Option.some.inj move
      split <;> exact ⟨rfl, rfl, rfl, rfl, rfl, rfl⟩
    · obtain rfl := Option.some.inj move
      exact ⟨rfl, rfl, rfl, rfl, rfl, rfl⟩
  · obtain rfl := Option.some.inj move
    exact ⟨rfl, rfl, rfl, rfl, rfl, rfl⟩
  · simp at move

theorem trySendStep_sameLeader (move : trySendStep state = some next)
    : SameLeader state next := by
  unfold trySendStep at move
  split at move
  · split at move
    · obtain rfl := Option.some.inj move
      exact ⟨rfl, rfl, rfl, rfl, rfl, rfl⟩
    · obtain rfl := Option.some.inj move
      exact ⟨rfl, rfl, rfl, rfl, rfl, rfl⟩
  · simp at move

theorem storeOverflowStep_sameLeader (move : storeOverflowStep state = some next)
    : SameLeader state next := by
  unfold storeOverflowStep at move
  split at move
  · obtain rfl := Option.some.inj move
    exact ⟨rfl, rfl, rfl, rfl, rfl, rfl⟩
  · simp at move

-----------------------------------------------------------------------------------------
-- One step of the system
-----------------------------------------------------------------------------------------

/-- Steps of the environment and of the watcher leave the leader where it is. -/
theorem Held.mono (held : Held concern state) (position : next.position = state.position)
    (pending : next.pendingFailed = state.pendingFailed)
    (carries : state.carries concern → next.carries concern)
    : Held concern next := by
  have failed : state.failed concern → next.failed concern := by
    unfold LeaderState.failed
    rw [pending]
    exact id
  unfold Held at held ⊢
  rw [position]
  split at held
  · exact held.imp_right carries
  · exact held.imp carries failed
  · exact held.imp_right (Or.imp carries failed)
  · exact held.imp_right (Or.imp carries failed)
  · exact held.imp_right (Or.imp carries failed)
  · exact held.imp_right carries
  · exact held.imp_right carries
  all_goals trivial

theorem Held.of_carries (carries : state.carries concern)
    : Held concern state := by
  unfold Held
  split
  · exact Or.inr carries
  · exact Or.inl carries
  · exact Or.inr (Or.inl carries)
  · exact Or.inr (Or.inl carries)
  · exact Or.inr (Or.inl carries)
  · exact Or.inr carries
  · exact Or.inr carries
  all_goals trivial

theorem finishRefresh_succeeded (state : LeaderState) (duty : Duty) (ok : Bool)
    : (state.finishRefresh duty ok).succeeded = state.succeeded := by
  match duty, ok with
  | .startup .native, true | .startup .poll, true | .startup .native, false
  | .startup .poll, false | .serve _ _, true | .serve _ _, false => rfl

theorem Held.nativeFailed (error : String)
    : Held concern (state.nativeFailed backend error) := by
  unfold LeaderState.nativeFailed
  split
  · trivial
  · trivial

theorem Held.start {started : Bool} (move : startStep backend state started = some next)
    : Held concern next := by
  unfold startStep at move
  split at move
  · split at move <;> obtain rfl := Option.some.inj move <;> trivial
  · simp at move

theorem Held.probeEnd (delivered : Bool) : Held concern (probeEnd backend state delivered) := by
  unfold Refresh.probeEnd
  split <;> trivial

theorem Held.probeReceive (move : probeReceiveStep filter backend state = some next)
    : Held concern next := by
  unfold probeReceiveStep at move
  split at move
  · obtain rfl := Option.some.inj move
    trivial
  · obtain rfl := Option.some.inj move
    exact .probeEnd _
  · simp at move

theorem Held.probeTimeout (move : probeTimeoutStep backend state = some next)
    : Held concern next := by
  unfold probeTimeoutStep at move
  split at move
  · obtain rfl := Option.some.inj move
    exact .probeEnd _
  · simp at move

theorem Held.probeError (move : probeErrorStep state = some next) : Held concern next := by
  unfold probeErrorStep at move
  split at move
  · obtain rfl := Option.some.inj move
    trivial
  · simp at move

theorem Held.startupDirty (move : startupDirtyStep state = some next) : Held concern next := by
  unfold startupDirtyStep at move
  split at move
  · obtain rfl := Option.some.inj move
    trivial
  · simp at move

theorem Held.disconnect (move : disconnectStep backend state = some next)
    : Held concern next := by
  unfold disconnectStep at move
  split at move
  · obtain rfl := Option.some.inj move
    exact .nativeFailed _
  · obtain rfl := Option.some.inj move
    exact .nativeFailed _
  · simp at move

/-- The positions of the poll loop, of which `Held` says nothing. -/
def Position.unheld : Position → Bool
  | .batched .poll _ | .baseline _ | .polling _ _ | .returned => true
  | _ => false

theorem Held.of_unheld (position : next.position.unheld = true) : Held concern next := by
  unfold Held
  split <;> simp_all [Position.unheld]

theorem visitStep_unheld {path : String} (move : visitStep state path = some next)
    : next.position.unheld = true := by
  unfold visitStep at move
  split at move
  · obtain rfl := Option.some.inj move
    rfl
  · obtain rfl := Option.some.inj move
    rfl
  · simp at move

theorem finishWalkStep_unheld {deadlinePassed : Bool}
    (move : finishWalkStep state deadlinePassed = some next)
    : next.position.unheld = true := by
  unfold finishWalkStep at move
  split at move
  · obtain rfl := Option.some.inj move
    rfl
  · dsimp only at move
    split at move
    · split at move
      · split at move <;> obtain rfl := Option.some.inj move <;> rfl
      · obtain rfl := Option.some.inj move
        rfl
    · split at move <;> obtain rfl := Option.some.inj move <;> rfl
  · simp at move

theorem settleStep_unheld (move : settleStep state = some next)
    : next.position.unheld = true := by
  unfold settleStep at move
  split at move
  · obtain rfl := Option.some.inj move
    rfl
  · simp at move

theorem walkErrorStep_unheld (move : walkErrorStep state = some next)
    : next.position.unheld = true := by
  unfold walkErrorStep at move
  split at move
  · obtain rfl := Option.some.inj move
    rfl
  · obtain rfl := Option.some.inj move
    rfl
  · simp at move

theorem stopStep_unheld (move : stopStep state = some next) : next.position.unheld = true := by
  unfold stopStep at move
  split at move
  · obtain rfl := Option.some.inj move
    rfl
  · obtain rfl := Option.some.inj move
    rfl
  · simp at move

theorem Held.beginAttempt (held : Held concern state)
    (present : concern.early ⟨state.edits.length, state.marked.length⟩)
    (move : beginAttemptStep state = some next)
    : Held concern next := by
  unfold beginAttemptStep at move
  split at move
  · next duty attempts position =>
      unfold Held at held
      rw [position] at held
      split at move
      · obtain rfl := Option.some.inj move
        match duty with
        | .startup .native => exact Or.inl present
        | .startup .poll => trivial
        | .serve .native batch => exact held.imp_left (fun covered => ⟨covered, present⟩)
        | .serve .poll batch => trivial
      · next unchanged =>
          obtain rfl := Option.some.inj move
          match duty with
          | .startup _ => exact absurd rfl unchanged
          | .serve .native batch =>
              rcases held with covered | carries
              · exact absurd (concern.nonempty covered) unchanged
              · exact Or.inl carries
          | .serve .poll batch => trivial
  · simp at move

/-- A successful refresh settles what its batch covers, and the rest stays where it was. -/
theorem Held.attemptOk {stopping : Bool} (held : Held concern state)
    (move : attemptOkStep state stopping = some next)
    : Held concern next ∨ Settled concern next := by
  unfold attemptOkStep at move
  split at move
  · next duty attempts began position =>
      obtain rfl := Option.some.inj move
      unfold Held at held
      rw [position] at held
      have settled (covered : concern.coveredBy duty.batch) (early : concern.early began)
          : Settled concern
              (LeaderState.finishRefresh
                {
                  state with
                  status := state.status.markRefreshed,
                  succeeded := state.succeeded ++ [⟨duty.batch, began⟩]
                } duty (!stopping)) := by
        refine ⟨⟨duty.batch, began⟩, ?_, early, covered⟩
        rw [finishRefresh_succeeded]
        simp
      match duty with
      | .startup .native =>
          rcases held with early | carries
          · exact Or.inr (settled (concern.full rfl) early)
          · left
            cases stopping with
            | false => exact Or.inl carries
            | true => trivial
      | .startup .poll =>
          left
          cases stopping <;> trivial
      | .serve .native batch =>
          rcases held with ⟨covered, early⟩ | carries
          · exact Or.inr (settled covered early)
          · left
            cases stopping <;> exact Or.inl carries
      | .serve .poll batch =>
          left
          cases stopping <;> trivial
  · simp at move

/-- A failed refresh keeps its batch: for the next attempt, or as the failed batch. -/
theorem Held.attemptFailed {retrying : Bool} (held : Held concern state)
    (move : attemptFailedStep state retrying = some next)
    : Held concern next := by
  unfold attemptFailedStep at move
  split at move
  · next duty attempts began position =>
      unfold Held at held
      rw [position] at held
      dsimp only at move
      split at move
      · obtain rfl := Option.some.inj move
        match duty with
        | .startup _ => trivial
        | .serve .native batch => exact held.imp_left And.left
        | .serve .poll batch => trivial
      · obtain rfl := Option.some.inj move
        match duty with
        | .startup .native => trivial
        | .startup .poll => trivial
        | .serve .native batch =>
            rcases held with ⟨covered, -⟩ | carries
            · exact Or.inr ⟨batch, rfl, covered⟩
            · exact Or.inl carries
        | .serve .poll batch => trivial
  · simp at move

theorem Held.receive {deadlinePassed : Bool} (held : Held concern state)
    (move : receiveStep state deadlinePassed = some next)
    : Held concern next := by
  unfold receiveStep at move
  split at move
  · next message rest position taken =>
      obtain rfl := Option.some.inj move
      unfold Held at held
      rw [position] at held
      rcases held with carries | failed
      · exact (Carried.nextMessage carries taken).imp_right Or.inl
      · obtain ⟨batch, pending, covered⟩ := failed
        exact Or.inr (Or.inr ⟨batch, (nextMessage_pendingFailed taken).trans pending, covered⟩)
  · next position taken =>
      unfold Held at held
      rw [position] at held
      split at move
      · obtain rfl := Option.some.inj move
        exact Or.inr held
      · simp at move
  · simp at move

/-- A batch that a message is applied to covers what the message carried and what it covered
before.
-/
theorem applyWatchMessage_covers {directories : List String} {message : WatchMessage}
    {batch applied : WatchChangeBatch}
    (recorded
      : ∀ event,
          message = .event event
          → concern.carriedBy event
          → Recorded filter directories event)
    (held : concern.carriedIn message ∨ concern.coveredBy batch)
    (result : applyWatchMessage filter directories message batch = .ok applied)
    : concern.coveredBy applied := by
  cases message with
  | error error => simp [applyWatchMessage] at result
  | event event =>
      obtain rfl := Except.ok.inj result
      rcases held with carries | covered
      · exact concern.applied batch carries (recorded event rfl carries)
      · exact concern.grows (applyEvent_spec directories event batch).1 covered

theorem Held.openBatch {directories : List String} {deadlinePassed : Bool}
    (held : Held concern state)
    (recorded
      : ∀ event,
          state.position = .received (.event event)
          → concern.carriedBy event
          → Recorded filter directories event)
    (move : openBatchStep filter backend state directories deadlinePassed = some next)
    : Held concern next := by
  unfold openBatchStep at move
  split at move
  · next message position =>
      unfold Held at held
      rw [position] at held
      split at move
      · obtain rfl := Option.some.inj move
        exact .nativeFailed _
      · next batch applied =>
          have moved
              : concern.coveredBy (state.swapOverflow batch).2
                ∨ (state.swapOverflow batch).1.carries concern
                ∨ (state.swapOverflow batch).1.failed concern := by
            rcases held with carries | carries | failed
            · refine Or.inl (swapOverflow_covers ?_)
              refine applyWatchMessage_covers ?_ (Or.inl carries) applied
              exact fun event same => recorded event (position.trans (congrArg _ same))
            · exact (Carried.swapOverflow carries).imp_right Or.inl
            · exact Or.inr (Or.inr failed)
          dsimp only at move
          split at move
          · obtain rfl := Option.some.inj move
            exact moved
          · next unchanged =>
              have rest := moved.resolve_left
                (fun covered => unchanged (concern.nonempty covered))
              split at move
              · obtain rfl := Option.some.inj move
                exact Or.inr rest
              · obtain rfl := Option.some.inj move
                exact rest
  · simp at move

theorem Held.collectMore {directories : List String} (held : Held concern state)
    (recorded
      : ∀ event rest,
          state.nextMessage = some (.event event, rest)
          → concern.carriedBy event
          → Recorded filter directories event)
    (move : collectMoreStep filter backend state directories = some next)
    : Held concern next := by
  unfold collectMoreStep at move
  split at move
  · next batch message rest position taken =>
      unfold Held at held
      rw [position] at held
      split at move
      · obtain rfl := Option.some.inj move
        exact .nativeFailed _
      · next extended applied =>
          obtain rfl := Option.some.inj move
          have covers (held : concern.carriedIn message ∨ concern.coveredBy batch)
              : concern.coveredBy extended :=
            applyWatchMessage_covers (fun event same => recorded event rest (same ▸ taken)) held
              applied
          rcases held with covered | carries | failed
          · exact Or.inl (covers (Or.inr covered))
          · rcases Carried.nextMessage carries taken with carries | carries
            · exact Or.inl (covers (Or.inl carries))
            · exact Or.inr (Or.inl carries)
          · obtain ⟨other, pending, covered⟩ := failed
            exact Or.inr (Or.inr
              ⟨other, (nextMessage_pendingFailed taken).trans pending, covered⟩)
  · simp at move

theorem Held.collectEnd (held : Held concern state) (move : collectEndStep state = some next)
    : Held concern next := by
  unfold collectEndStep at move
  split at move
  · next batch position =>
      obtain rfl := Option.some.inj move
      unfold Held at held
      rw [position] at held
      rcases held with covered | carries | failed
      · exact Or.inl (swapOverflow_covers covered)
      · exact (Carried.swapOverflow carries).imp_right Or.inl
      · exact Or.inr (Or.inr failed)
  · simp at move

theorem joinedBatch_extends (pendingFailed : Option WatchChangeBatch)
    (collected : WatchChangeBatch) (configurationChanged : Bool)
    : collected.Extends (joinedBatch pendingFailed collected configurationChanged)
      ∧ ∀ previous,
          pendingFailed = some previous
          → previous.Extends (joinedBatch pendingFailed collected configurationChanged) := by
  have configured
      : collected.Extends
          (if configurationChanged then
            { collected with configurationChanged := true }.markFullRescan
          else collected) := by
    split
    · exact .of_full rfl
    · exact .refl collected
  unfold joinedBatch
  cases pendingFailed with
  | none => exact ⟨configured, by simp⟩
  | some previous =>
      refine ⟨configured.trans (previous.merge_spec _).2, ?_⟩
      rintro _ ⟨⟩
      exact (previous.merge_spec _).1

/-- What `proceed` does with the joined batch: the leader returns, or a batch that covers at
least as much waits for its retry or is attempted.
-/
theorem proceedStep_cases {configurationChanged retryDue reconciliationDue : Bool}
    (move : proceedStep state configurationChanged retryDue reconciliationDue = some next)
    : ∃ loop collected,
        state.position = .batched loop collected
        ∧ (next
            = (beforeRefresh state loop
                (joinedBatch state.pendingFailed collected configurationChanged)).returns
          ∨ ∃ batch,
              (joinedBatch state.pendingFailed collected configurationChanged).Extends batch
              ∧ (next
                  = {
                    beforeRefresh state loop
                      (joinedBatch state.pendingFailed collected configurationChanged) with
                    pendingFailed := some batch, position := waiting loop
                  }
                ∨ next
                  = {
                    beforeRefresh state loop
                      (joinedBatch state.pendingFailed collected configurationChanged) with
                    position := .attempting (.serve loop batch) 0
                  })) := by
  unfold proceedStep at move
  split at move
  · next loop collected position =>
      refine ⟨loop, collected, position, ?_⟩
      dsimp only at move
      split at move
      · exact Or.inl (Option.some.inj move).symm
      · right
        have grows
            : (joinedBatch state.pendingFailed collected configurationChanged).Extends
                (if state.pendingFailed.isSome && retryDue || reconciliationDue then
                  (joinedBatch state.pendingFailed collected
                    configurationChanged).markFullRescan
                else joinedBatch state.pendingFailed collected configurationChanged) := by
          split
          · exact WatchChangeBatch.extends_markFullRescan _
          · exact .refl _
        refine ⟨_, grows, ?_⟩
        split at move
        · exact Or.inl (Option.some.inj move).symm
        · exact Or.inr (Option.some.inj move).symm
  · simp at move

theorem beforeRefresh_carries {loop : WatchLoop} {batch : WatchChangeBatch}
    (carries : state.carries concern)
    : (beforeRefresh state loop batch).carries concern := by
  unfold beforeRefresh
  dsimp only
  split
  · exact carries
  · exact carries

theorem Held.proceed {configurationChanged retryDue reconciliationDue : Bool}
    (held : Held concern state)
    (move : proceedStep state configurationChanged retryDue reconciliationDue = some next)
    : Held concern next := by
  obtain ⟨loop, collected, position, outcome⟩ := proceedStep_cases move
  unfold Held at held
  rw [position] at held
  obtain ⟨grows, growsFailed⟩ :=
    joinedBatch_extends state.pendingFailed collected configurationChanged
  cases loop with
  | poll =>
      obtain rfl | ⟨batch, -, rfl | rfl⟩ := outcome <;> trivial
  | native =>
      have joined
          : concern.coveredBy (joinedBatch state.pendingFailed collected configurationChanged)
            ∨ state.carries concern := by
        rcases held with covered | carries | ⟨previous, pending, covered⟩
        · exact Or.inl (concern.grows grows covered)
        · exact Or.inr carries
        · exact Or.inl (concern.grows (growsFailed previous pending) covered)
      obtain rfl | ⟨batch, final, rfl | rfl⟩ := outcome
      · trivial
      · rcases joined with covered | carries
        · exact Or.inr ⟨batch, rfl, concern.grows final covered⟩
        · exact Or.inl (beforeRefresh_carries carries)
      · exact joined.imp (concern.grows final) beforeRefresh_carries

/-- One step of the system: a held change stays held or is settled by the refresh that ends.
Witness: every event that carries the change and enters a batch leaves a trace in it.
-/
theorem Held.step {action : RefreshAction} (held : Held concern state)
    (present : concern.early ⟨state.edits.length, state.marked.length⟩)
    (recorded
      : ∀ directories event,
          consumed state action = some (directories, event)
          → concern.carriedBy event
          → Recorded filter directories event)
    (move : refreshMove filter backend state action = some next)
    : Held concern next ∨ Settled concern next := by
  cases action with
  | edit path file event =>
      simp only [refreshMove, editStep] at move
      split at move
      · obtain rfl := Option.some.inj move
        exact Or.inl (held.mono rfl rfl id)
      · simp at move
  | report message =>
      simp only [refreshMove] at move
      split at move
      · obtain rfl := Option.some.inj move
        exact Or.inl (held.mono rfl rfl id)
      · simp at move
  | callback directories =>
      have same := callbackStep_sameLeader move
      exact Or.inl (held.mono same.position same.pendingFailed (Carried.callback · move))
  | trySend =>
      have same := trySendStep_sameLeader move
      exact Or.inl (held.mono same.position same.pendingFailed (Carried.trySend · move))
  | storeOverflow =>
      have same := storeOverflowStep_sameLeader move
      exact Or.inl (held.mono same.position same.pendingFailed (fun _ => Carried.storeOverflow move))
  | start started => exact Or.inl (Held.start move)
  | probeReceive => exact Or.inl (Held.probeReceive move)
  | probeTimeout => exact Or.inl (Held.probeTimeout move)
  | probeError => exact Or.inl (Held.probeError move)
  | startupDirty => exact Or.inl (Held.startupDirty move)
  | beginAttempt => exact Or.inl (held.beginAttempt present move)
  | attemptOk stopping => exact held.attemptOk move
  | attemptFailed retrying => exact Or.inl (held.attemptFailed move)
  | receive deadlinePassed => exact Or.inl (held.receive move)
  | disconnect => exact Or.inl (Held.disconnect move)
  | openBatch directories deadlinePassed =>
      refine Or.inl (held.openBatch ?_ move)
      intro event position
      exact recorded directories event (by simp [consumed, position])
  | collectMore directories =>
      refine Or.inl (held.collectMore ?_ move)
      intro event rest taken
      refine recorded directories event ?_
      simp only [refreshMove, collectMoreStep] at move
      split at move
      · next position _ => simp [consumed, position, taken]
      · simp at move
  | collectEnd => exact Or.inl (held.collectEnd move)
  | proceed configurationChanged retryDue reconciliationDue =>
      exact Or.inl (held.proceed move)
  | visit path => exact Or.inl (.of_unheld (visitStep_unheld move))
  | finishWalk deadlinePassed => exact Or.inl (.of_unheld (finishWalkStep_unheld move))
  | settle => exact Or.inl (.of_unheld (settleStep_unheld move))
  | walkError => exact Or.inl (.of_unheld (walkErrorStep_unheld move))
  | stop => exact Or.inl (.of_unheld (stopStep_unheld move))

end CodebaseGraph.Refresh
