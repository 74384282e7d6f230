import CodebaseGraph.Maintenance.History

/-! The legacy quiescence confirmation is bound to its target and used at most once.
The gate behind the permit is the only place that hands a token out: it takes the pending
demand, and only one whose facts the attempt had observed before it prepared.
-/

namespace CodebaseGraph.Maintenance

open CodebaseGraph.Transition

variable {Facts : Type*}

/-- An accepted request that carried a confirmation. -/
def MaintenanceEvent.confirms : MaintenanceEvent Facts → Bool
  | .requested _ confirmed _ _ _ _ => confirmed
  | _ => false

/-- A token that reached the callback. -/
def MaintenanceEvent.handsOut : MaintenanceEvent Facts → Bool
  | .mutated token => token.isSome
  | _ => false

def MaintenanceEvent.claims : MaintenanceEvent Facts → Bool
  | .claimed _ => true
  | _ => false

/-- A confirmation for this target was accepted under this generation. -/
def ConfirmedIn (trace : List (MaintenanceEvent Facts)) (binding : TargetBinding)
    (generation : Nat)
    : Prop :=
  ∃ trigger source waiter,
    MaintenanceEvent.requested trigger true source binding generation waiter ∈ trace

/-- The latest attempt of the history observed this demand before its preparation. -/
def ObservedIn (trace : List (MaintenanceEvent Facts)) (metadata : Option (Nat × Option Facts))
    : Prop :=
  ∃ before after,
    trace = before ++ .observed metadata :: after ∧ ∀ event ∈ after, event.isBegun = false

/-- The gate of the latest attempt of the history handed out this token. -/
def ClaimedIn (trace : List (MaintenanceEvent Facts))
    (token : LegacyQuiescenceConfirmation Facts)
    : Prop :=
  ∃ before after,
    trace = before ++ .claimed token :: after ∧ ∀ event ∈ after, event.isBegun = false

theorem ConfirmedIn.append {trace : List (MaintenanceEvent Facts)} {binding : TargetBinding}
    {generation : Nat} (confirmed : ConfirmedIn trace binding generation)
    (event : MaintenanceEvent Facts)
    : ConfirmedIn (trace ++ [event]) binding generation := by
  obtain ⟨trigger, source, waiter, member⟩ := confirmed
  exact ⟨trigger, source, waiter, List.mem_append_left _ member⟩

/-- An event that begins no attempt extends a stretch without begins. -/
theorem noBegin_append {trace : List (MaintenanceEvent Facts)}
    {event : MaintenanceEvent Facts} (none : ∀ other ∈ trace, other.isBegun = false)
    (quiet : event.isBegun = false)
    : ∀ other ∈ trace ++ [event], other.isBegun = false := by
  intro other member
  rcases List.mem_append.mp member with old | new
  · exact none other old
  · rw [List.mem_singleton.mp new]
    exact quiet

theorem ObservedIn.append {trace : List (MaintenanceEvent Facts)}
    {metadata : Option (Nat × Option Facts)} {event : MaintenanceEvent Facts}
    (observed : ObservedIn trace metadata) (quiet : event.isBegun = false)
    : ObservedIn (trace ++ [event]) metadata := by
  obtain ⟨before, after, rfl, none⟩ := observed
  exact ⟨before, after ++ [event], by simp, noBegin_append none quiet⟩

theorem ClaimedIn.append {trace : List (MaintenanceEvent Facts)}
    {token : LegacyQuiescenceConfirmation Facts} {event : MaintenanceEvent Facts}
    (claimed : ClaimedIn trace token) (quiet : event.isBegun = false)
    : ClaimedIn (trace ++ [event]) token := by
  obtain ⟨before, after, rfl, none⟩ := claimed
  exact ⟨before, after ++ [event], by simp, noBegin_append none quiet⟩

/-- How a worker was started: with or without a confirmation of its own. -/
structure Startup where
  binding : TargetBinding
  confirmation : Bool

/-- A demand for this target: an accepted confirmation, or the one of the start itself. -/
def Startup.Demanded (startup : Startup) (trace : List (MaintenanceEvent Facts))
    (binding : TargetBinding) (generation : Nat)
    : Prop :=
  ConfirmedIn trace binding generation
  ∨ (startup.confirmation = true ∧ binding = startup.binding ∧ generation = 0)

theorem Startup.Demanded.append {startup : Startup} {trace : List (MaintenanceEvent Facts)}
    {binding : TargetBinding} {generation : Nat}
    (demanded : startup.Demanded trace binding generation) (event : MaintenanceEvent Facts)
    : startup.Demanded (trace ++ [event]) binding generation :=
  demanded.imp_left (fun confirmed => confirmed.append event)

/-- What the history says about the pending demand, the running attempt and its token. -/
structure DemandInvariant (startup : Startup) (trace : List (MaintenanceEvent Facts))
    (state : MaintenanceState Facts)
    : Prop where
  demand
    : state.control.confirmation = true
      → startup.Demanded trace state.control.binding state.control.generation
  prepared : ∀ metadata, state.stage.prepared? = some metadata → ObservedIn trace metadata
  token
    : ∀ token,
        state.stage.token? = some token
        → startup.Demanded trace token.binding token.generation
          ∧ ObservedIn trace (some (token.generation, token.source))
          ∧ ClaimedIn trace token
  count
    : trace.countP MaintenanceEvent.handsOut + state.stage.token?.isSome.toNat
        + state.control.confirmation.toNat
      ≤ trace.countP MaintenanceEvent.confirms + startup.confirmation.toNat
  running : state.stage.attempt?.isSome = true → state.control.snapshot.running = true

variable [DecidableEq Facts]

/-- A pending demand was pending before for the same target, or has just been accepted. -/
theorem MaintenanceMove.demand {state next : MaintenanceState Facts}
    {event : MaintenanceEvent Facts} (move : MaintenanceMove state event next)
    (pending : next.control.confirmation = true)
    : (state.control.confirmation = true
        ∧ next.control.binding = state.control.binding
        ∧ next.control.generation = state.control.generation)
      ∨ ∃ trigger source waiter,
          event
          = .requested trigger true source next.control.binding next.control.generation
              waiter := by
  cases move with
  | @requested trigger confirmation source accepts =>
      cases confirmation with
      | none =>
          exact .inl ⟨by simpa [Control.enqueue] using pending, rfl, rfl⟩
      | some binding => exact .inr ⟨_, _, _, rfl⟩
  | @awaited trigger confirmation source accepts =>
      cases confirmation with
      | none =>
          exact .inl ⟨by simpa [Control.enqueue] using pending, rfl, rfl⟩
      | some binding => exact .inr ⟨_, _, _, rfl⟩
  | @completed attempt outcome panicked now desired parked stage =>
      simp only [Control.complete] at pending ⊢
      rcases handoff_cases (state.control.publish attempt outcome now parked) attempt desired now
        with same | ⟨binding, same⟩ | same
      · rw [same] at pending ⊢
        exact .inl ⟨pending, rfl, rfl⟩
      · rw [same] at pending
        simp [Control.replace, Control.continueDemand] at pending
      · rw [same] at pending ⊢
        exact .inl ⟨pending, rfl, rfl⟩
  | captured idle => simp at pending
  | rebindReplaced other => simp [Control.replace] at pending
  | stopRequested => simp [Control.requestStop] at pending
  | claimed => simp at pending
  | workerFailed error stage => simp [Control.failWorker] at pending
  | exited panicking stage => simp [Control.workerExit] at pending
  | _ => exact .inl ⟨pending, rfl, rfl⟩

/-- The observed demand of the next stage was observed before, or just now. -/
theorem MaintenanceMove.prepared? {state next : MaintenanceState Facts}
    {event : MaintenanceEvent Facts} (move : MaintenanceMove state event next)
    {metadata : Option (Nat × Option Facts)}
    (prepared : next.stage.prepared? = some metadata)
    : (event.isBegun = false ∧ state.stage.prepared? = some metadata)
      ∨ event = .observed metadata := by
  cases move with
  | observed stage =>
      obtain rfl := Option.some.inj prepared
      exact .inr rfl
  | advanced advance =>
      rcases advance.prepared with none | same
      · simp [none] at prepared
      · exact .inl ⟨rfl, same ▸ prepared⟩
  | passed advance =>
      rcases advance.prepared with none | same
      · simp [none] at prepared
      · exact .inl ⟨rfl, same ▸ prepared⟩
  | unclaimed advance =>
      rcases advance.prepared with none | same
      · simp [none] at prepared
      · exact .inl ⟨rfl, same ▸ prepared⟩
  | @completed _ _ panicked now desired parked stage =>
      cases panicked <;> simp [WorkerStage.prepared?] at prepared
  | leftLoop waiting => simp [WorkerStage.prepared?] at prepared
  | begun waiting live due => simp [WorkerStage.prepared?] at prepared
  | claimed stage live generation binding confirmation current =>
      simp [WorkerStage.prepared?] at prepared
  | mutated stage => simp [WorkerStage.prepared?] at prepared
  | workerFailed error stage => simp [WorkerStage.prepared?] at prepared
  | exited panicking stage => simp [WorkerStage.prepared?] at prepared
  | _ => exact .inl ⟨rfl, prepared⟩

/-- The token of the next stage is the one claimed just now, for the pending demand. -/
theorem MaintenanceMove.token? {state next : MaintenanceState Facts}
    {event : MaintenanceEvent Facts} (move : MaintenanceMove state event next)
    {token : LegacyQuiescenceConfirmation Facts} (held : next.stage.token? = some token)
    : (event.isBegun = false ∧ state.stage.token? = some token)
      ∨ (event = .claimed token
          ∧ state.control.confirmation = true
          ∧ state.control.binding = token.binding
          ∧ state.control.generation = token.generation
          ∧ state.stage.prepared? = some (some (token.generation, token.source))) := by
  cases move with
  | claimed stage live generation binding confirmation current =>
      obtain rfl := Option.some.inj held
      exact .inr ⟨rfl, confirmation, binding, generation, by rw [stage, current]; rfl⟩
  | advanced advance => simp [advance.token] at held
  | passed advance => simp [advance.token] at held
  | unclaimed advance => simp [advance.token] at held
  | @completed _ _ panicked now desired parked stage =>
      cases panicked <;> simp [WorkerStage.token?] at held
  | leftLoop waiting => simp [WorkerStage.token?] at held
  | begun waiting live due => simp [WorkerStage.token?] at held
  | observed stage => simp [WorkerStage.token?] at held
  | mutated stage => simp [WorkerStage.token?] at held
  | workerFailed error stage => simp [WorkerStage.token?] at held
  | exited panicking stage => simp [WorkerStage.token?] at held
  | _ => exact .inl ⟨rfl, held⟩

/-- Every token and every pending demand is paid for by an accepted confirmation. -/
theorem MaintenanceMove.count {state next : MaintenanceState Facts}
    {event : MaintenanceEvent Facts} (move : MaintenanceMove state event next)
    : event.handsOut.toNat + next.stage.token?.isSome.toNat + next.control.confirmation.toNat
      ≤ state.stage.token?.isSome.toNat + state.control.confirmation.toNat
        + event.confirms.toNat := by
  cases move with
  | @requested trigger confirmation source accepts =>
      cases confirmation <;> cases pending : state.control.confirmation <;>
        simp [Control.enqueue, MaintenanceEvent.handsOut, MaintenanceEvent.confirms, pending]
  | @awaited trigger confirmation source accepts =>
      cases confirmation <;> cases pending : state.control.confirmation <;>
        simp [Control.enqueue, MaintenanceEvent.handsOut, MaintenanceEvent.confirms, pending]
  | claimed stage live generation binding confirmation current =>
      simp [stage, confirmation, WorkerStage.token?, MaintenanceEvent.handsOut]
  | mutated stage => simp [stage, WorkerStage.token?, MaintenanceEvent.handsOut]
  | @completed attempt outcome panicked now desired parked stage =>
      have kept
          : (state.control.complete attempt outcome now desired parked).2.confirmation.toNat
            ≤ state.control.confirmation.toNat := by
        simp only [Control.complete]
        rcases
          handoff_cases (state.control.publish attempt outcome now parked) attempt desired now
          with same | ⟨binding, same⟩ | same
        · rw [same]; exact le_refl _
        · rw [same]; exact Nat.zero_le _
        · rw [same]; exact le_refl _
      cases panicked <;>
        simpa [stage, WorkerStage.token?, MaintenanceEvent.handsOut,
          MaintenanceEvent.confirms] using kept
  | advanced advance =>
      simp only [advance.token, MaintenanceEvent.handsOut, MaintenanceEvent.confirms,
        Option.isSome_none, Bool.toNat_false]
      omega
  | passed advance =>
      simp only [advance.token, MaintenanceEvent.handsOut, MaintenanceEvent.confirms,
        Option.isSome_none, Bool.toNat_false]
      omega
  | unclaimed advance =>
      simp only [advance.token, MaintenanceEvent.handsOut, MaintenanceEvent.confirms,
        Option.isSome_none, Bool.toNat_false]
      omega
  | observed stage => simp [stage, WorkerStage.token?, MaintenanceEvent.handsOut]
  | begun waiting live due => simp [waiting, WorkerStage.token?, MaintenanceEvent.handsOut]
  | leftLoop waiting => simp [waiting, WorkerStage.token?, MaintenanceEvent.handsOut]
  | captured idle => simp [MaintenanceEvent.handsOut, Nat.add_assoc]
  | rebindReplaced other => simp [Control.replace, MaintenanceEvent.handsOut, Nat.add_assoc]
  | stopRequested => simp [Control.requestStop, MaintenanceEvent.handsOut, Nat.add_assoc]
  | workerFailed error stage =>
      simp [Control.failWorker, WorkerStage.token?, MaintenanceEvent.handsOut]
  | exited panicking stage =>
      simp [Control.workerExit, WorkerStage.token?, MaintenanceEvent.handsOut]
  | _ => simp [MaintenanceEvent.handsOut]

/-- The snapshot shows a running worker during every attempt. -/
theorem MaintenanceMove.running {state next : MaintenanceState Facts}
    {event : MaintenanceEvent Facts} (move : MaintenanceMove state event next)
    (running : state.stage.attempt?.isSome = true → state.control.snapshot.running = true)
    (attempt : next.stage.attempt?.isSome = true)
    : next.control.snapshot.running = true := by
  obtain ⟨current, found⟩ := Option.isSome_iff_exists.mp attempt
  rcases move.attempt? found with ⟨-, old⟩ | ⟨rfl, -⟩
  · have before := running (by rw [old]; rfl)
    cases move with
    | @completed _ _ panicked now desired parked stage =>
        cases panicked <;> simp [WorkerStage.attempt?] at attempt
    | leftLoop waiting => simp [WorkerStage.attempt?] at attempt
    | workerFailed error stage => simp [WorkerStage.attempt?] at attempt
    | exited panicking stage => simp [WorkerStage.attempt?] at attempt
    | begun waiting live due => rfl
    | _ => exact before
  · cases move with
    | begun waiting live due => rfl

theorem DemandInvariant.step {startup : Startup} {trace : List (MaintenanceEvent Facts)}
    {state next : MaintenanceState Facts} {event : MaintenanceEvent Facts}
    (holds : DemandInvariant startup trace state) (move : MaintenanceMove state event next)
    : DemandInvariant startup (trace ++ [event]) next where
  demand := by
    intro pending
    rcases move.demand pending with ⟨old, binding, generation⟩ | ⟨trigger, source, waiter, rfl⟩
    · rw [binding, generation]
      exact (holds.demand old).append event
    · exact .inl ⟨trigger, source, waiter, by simp⟩
  prepared := by
    intro metadata prepared
    rcases move.prepared? prepared with ⟨quiet, old⟩ | rfl
    · exact (holds.prepared metadata old).append quiet
    · exact ⟨trace, [], rfl, by simp⟩
  token := by
    intro token held
    rcases move.token? held with ⟨quiet, old⟩ | ⟨rfl, pending, binding, generation, prepared⟩
    · obtain ⟨demanded, observed, claimed⟩ := holds.token token old
      exact ⟨demanded.append event, observed.append quiet, claimed.append quiet⟩
    · refine ⟨?_, (holds.prepared _ prepared).append rfl, trace, [], rfl, by simp⟩
      rw [← binding, ← generation]
      exact (holds.demand pending).append _
  count := by
    have before := holds.count
    have step := move.count
    simp only [List.countP_append, List.countP_singleton]
    cases handed : event.handsOut <;> cases confirmed : event.confirms <;>
      simp only [handed, confirmed, Bool.toNat_true, Bool.toNat_false, if_true, if_false,
        Bool.false_eq_true] at step ⊢ <;>
      omega
  running := move.running holds.running

omit [DecidableEq Facts] in
theorem complete_stopping (control : Control Facts) (attempt : Attempt)
    (outcome : AttemptOutcome) (now : Nat) (desired : Option TargetBinding) (parked : Bool)
    (stopping : control.stopping = true)
    : (control.complete attempt outcome now desired parked).2.stopping = true := by
  simp only [Control.complete]
  rcases handoff_cases (control.publish attempt outcome now parked) attempt desired now
    with same | ⟨binding, same⟩ | same
  · rw [same]; exact stopping
  · rw [same]; exact stopping
  · rw [same]; rfl

theorem MaintenanceMove.stopping {state next : MaintenanceState Facts}
    {event : MaintenanceEvent Facts} (move : MaintenanceMove state event next)
    (stopping : state.control.stopping = true)
    : next.control.stopping = true := by
  cases move with
  | completed now desired parked stage => exact complete_stopping _ _ _ _ _ _ stopping
  | rebindExhausted => rfl
  | stopRequested => rfl
  | workerFailed error stage => rfl
  | exited panicking stage => rfl
  | _ => exact stopping

end CodebaseGraph.Maintenance
