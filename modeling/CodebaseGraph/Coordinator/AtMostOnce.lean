import CodebaseGraph.Collections.Lists
import CodebaseGraph.Coordinator.RetryMoves

/-! One call of `send_command_with_recovery` executes at most once.
The client sends again only on a reply with a reserved code, and only a handler that ended
without a submission writes such a reply.
-/

namespace CodebaseGraph.Coordinator

open CodebaseGraph.Transition CodebaseGraph.Collections

variable {Response : Type*}

def CallEvent.accepts (index : Nat) : CallEvent Response → Bool
  | .accepted connection => connection = index
  | _ => false

/-- A call of the owner's execute function for one of this call's connections. -/
def CallEvent.executes (index : Nat) : CallEvent Response → Bool
  | .executed job _ => job = .connection index
  | _ => false

/-- An execute function that never answers with one of the two reserved codes. -/
def CallEvent.honest : CallEvent Response → Bool
  | .executed _ (.failed error) =>
      error.code != coordinatorRequestReceiveFailed
      && error.code != coordinatorAuthenticationFailed
  | _ => true

/-- The connections the client has given up for another one. -/
def CallState.abandoned (state : CallState Response) : Nat :=
  match state.client with
  | .sending => state.connections.length
  | .awaiting index => index
  | .returned _ => state.connections.length - 1

structure CallInvariant (trace : List (CallEvent Response)) (state : CallState Response)
    : Prop where
  once : ∀ index, trace.countP (CallEvent.accepts index) ≤ 1
  ledger
    : ∀ index,
        trace.countP (CallEvent.executes index)
          + (state.owners.map (Owner.waitingJobs index)).sum
        ≤ trace.countP (CallEvent.accepts index)
  dispatched
    : ∀ index connection,
        state.connections[index]? = some connection
        → connection.stage.dispatched = false
        → trace.countP (CallEvent.accepts index) = 0
  known
    : ∀ index,
        state.connections.length ≤ index → trace.countP (CallEvent.accepts index) = 0
  replies
    : ∀ connection ∈ state.connections,
        ∀ reply, connection.stage = .answered (some reply) → reply.reserved = false
  bodies
    : ∀ owner ∈ state.owners,
        ∀ reply, owner.body.reply? = some reply → reply.reserved = false
  settled : ∀ owner ∈ state.owners, owner.Settled
  awaiting : ∀ index, state.client = .awaiting index → index + 1 = state.connections.length
  abandoned
    : ∀ index < state.abandoned,
        trace.countP (CallEvent.accepts index) = 0
        ∧ ∃ connection,
            state.connections[index]? = some connection
            ∧ connection.stage.unresolved = false

/-- A body of an honest executor leaves no reserved reply. -/
theorem reserved_bodyReply {job : JobSource} {result : BodyResult Response}
    {reply : CoordinatorReply Response}
    (honest : (CallEvent.executed job result).honest = true) (body : result.reply = some reply)
    : reply.reserved = false := by
  cases result with
  | succeeded response =>
      obtain rfl := Option.some.inj body
      rfl
  | failed error =>
      obtain rfl := Option.some.inj body
      simp only [CallEvent.honest, Bool.and_eq_true, bne_iff_ne] at honest
      simp [CoordinatorReply.reserved, replyIsSafeToRetry, replyRequiresRouteRefresh, honest]
  | _ => simp [BodyResult.reply] at body

theorem setConnection_getElem? (state : CallState Response) (index other : Nat)
    (stage : HandlerStage Response)
    : (state.setConnection index stage).connections[other]?
      = if index = other then
          (state.connections[other]?).map ({ · with stage := stage })
        else
          state.connections[other]? := by
  simp only [CallState.setConnection, List.getElem?_modify]
  split
  · rfl
  · cases state.connections[other]? <;> rfl

/-- A step that submits and executes nothing keeps the invariant when it brings no new job,
turns no dispatched connection back and keeps every abandoned connection resolved.
-/
theorem CallInvariant.quiet {trace : List (CallEvent Response)}
    {state next : CallState Response} {event : CallEvent Response}
    (holds : CallInvariant trace state)
    (silent : ∀ index, event.accepts index = false ∧ event.executes index = false)
    (jobs
      : ∀ index,
          (next.owners.map (Owner.waitingJobs index)).sum
          ≤ (state.owners.map (Owner.waitingJobs index)).sum)
    (length : state.connections.length ≤ next.connections.length)
    (dispatched
      : ∀ index connection,
          next.connections[index]? = some connection
          → connection.stage.dispatched = false
          → state.connections.length ≤ index
            ∨ ∃ earlier,
                state.connections[index]? = some earlier
                ∧ earlier.stage.dispatched = false)
    (replies
      : ∀ connection ∈ next.connections,
          ∀ reply, connection.stage = .answered (some reply) → reply.reserved = false)
    (bodies
      : ∀ owner ∈ next.owners,
          ∀ reply, owner.body.reply? = some reply → reply.reserved = false)
    (settled : ∀ owner ∈ next.owners, owner.Settled)
    (awaiting : ∀ index, next.client = .awaiting index → index + 1 = next.connections.length)
    (abandoned
      : ∀ index < next.abandoned,
          trace.countP (CallEvent.accepts index) = 0
          ∧ ∃ connection,
              next.connections[index]? = some connection
              ∧ connection.stage.unresolved = false)
    : CallInvariant (trace ++ [event]) next := by
  have accepted (index : Nat)
      : (trace ++ [event]).countP (CallEvent.accepts index)
        = trace.countP (CallEvent.accepts index) := by
    simp [(silent index).1]
  have executed (index : Nat)
      : (trace ++ [event]).countP (CallEvent.executes index)
        = trace.countP (CallEvent.executes index) := by
    simp [(silent index).2]
  refine {
    once := fun index => accepted index ▸ holds.once index
    ledger := fun index => ?_
    dispatched := fun index connection found stage => ?_
    known := fun index beyond => accepted index ▸ holds.known index (length.trans beyond)
    replies := replies
    bodies := bodies
    settled := settled
    awaiting := awaiting
    abandoned := fun index below => accepted index ▸ abandoned index below
  }
  · rw [accepted, executed]
    exact (Nat.add_le_add_left (jobs index) _).trans (holds.ledger index)
  · rw [accepted]
    rcases dispatched index connection found stage with beyond | ⟨earlier, known, undispatched⟩
    · exact holds.known index beyond
    · exact holds.dispatched index earlier known undispatched

/-- Replacing one owner by one with no more jobs of this call brings no new job. -/
theorem sum_waitingJobs_set {owners : List (Owner Response)} {position : Nat}
    {owner next : Owner Response} (found : owners[position]? = some owner) {index : Nat}
    (fewer : next.waitingJobs index ≤ owner.waitingJobs index)
    : ((owners.set position next).map (Owner.waitingJobs index)).sum
      ≤ (owners.map (Owner.waitingJobs index)).sum := by
  have total := sum_map_set (Owner.waitingJobs index) next found
  omega

/-- The client's own steps leave jobs and handlers alone. -/
theorem CallInvariant.client {trace : List (CallEvent Response)}
    {state next : CallState Response} {event : CallEvent Response}
    (holds : CallInvariant trace state)
    (silent : ∀ index, event.accepts index = false ∧ event.executes index = false)
    (owners : next.owners = state.owners) (connections : next.connections = state.connections)
    (awaiting : ∀ index, next.client ≠ .awaiting index)
    (abandoned
      : ∀ index < next.abandoned,
          trace.countP (CallEvent.accepts index) = 0
          ∧ ∃ connection,
              state.connections[index]? = some connection
              ∧ connection.stage.unresolved = false)
    : CallInvariant (trace ++ [event]) next := by
  refine holds.quiet silent (fun index => by rw [owners]) (by rw [connections]) ?_
    (connections ▸ holds.replies) (owners ▸ holds.bodies) (owners ▸ holds.settled) ?_
    (connections ▸ abandoned)
  · intro index connection found stage
    rw [connections] at found
    exact .inr ⟨connection, found, stage⟩
  · intro index client
    exact absurd client (awaiting index)

theorem CallInvariant.connected {trace : List (CallEvent Response)}
    {state : CallState Response} (holds : CallInvariant trace state) (owner : Nat)
    (request : CoordinatorRequest) (sending : state.client = .sending)
    : CallInvariant (trace ++ [.connected state.connections.length])
        {
          state with
          client := .awaiting state.connections.length,
          connections := state.connections ++ [{ owner := owner, request := request }]
        } := by
  refine holds.quiet (fun _ => ⟨rfl, rfl⟩) (fun _ => le_rfl) (by simp) ?_ ?_ holds.bodies
    holds.settled ?_ ?_
  · intro index connection found stage
    rcases Nat.lt_or_ge index state.connections.length with below | beyond
    · rw [List.getElem?_append_left below] at found
      exact .inr ⟨connection, found, stage⟩
    · exact .inl beyond
  · intro connection member reply stage
    rcases List.mem_append.mp member with old | new
    · exact holds.replies connection old reply stage
    · rw [List.mem_singleton.mp new] at stage
      simp at stage
  · intro index client
    obtain rfl := ClientStage.awaiting.inj client
    simp
  · intro index below
    have earlier : index < state.abandoned := by
      simpa only [CallState.abandoned, sending] using below
    obtain ⟨none, connection, found, resolved⟩ := holds.abandoned index earlier
    refine ⟨none, connection, ?_, resolved⟩
    rw [List.getElem?_append_left (List.getElem?_eq_some_iff.mp found).1]
    exact found

theorem CallInvariant.returned {trace : List (CallEvent Response)}
    {state : CallState Response} (holds : CallInvariant trace state)
    (result : Except ApiError (CoordinatorReply Response))
    (running : ∀ earlier, state.client ≠ .returned earlier)
    : CallInvariant (trace ++ [.returned result])
        { state with client := .returned result } := by
  refine holds.client (fun _ => ⟨rfl, rfl⟩) rfl rfl (by simp) ?_
  intro index below
  refine holds.abandoned index ?_
  simp only [CallState.abandoned] at below ⊢
  cases client : state.client with
  | sending =>
      simp only
      omega
  | awaiting current =>
      have length := holds.awaiting current client
      simp only
      omega
  | returned earlier => exact absurd client (running earlier)

/-- A reserved reply proves that the connection it came from submitted nothing. -/
theorem CallInvariant.retried {trace : List (CallEvent Response)}
    {state : CallState Response} {index : Nat} {connection : Connection Response}
    {reply : CoordinatorReply Response} (holds : CallInvariant trace state)
    (awaiting : state.client = .awaiting index)
    (found : state.connections[index]? = some connection)
    (written
      : connection.stage = .rejected (some reply) ∨ connection.stage = .answered (some reply))
    (reserved : reply.reserved = true)
    : CallInvariant (trace ++ [.retried]) { state with client := .sending } := by
  have length := holds.awaiting index awaiting
  have rejected : connection.stage = .rejected (some reply) := by
    rcases written with stage | stage
    · exact stage
    · have unreserved := holds.replies connection (List.mem_of_getElem? found) reply stage
      simp [reserved] at unreserved
  refine holds.client (fun _ => ⟨rfl, rfl⟩) rfl rfl (by simp) ?_
  intro other below
  simp only [CallState.abandoned] at below
  rcases Nat.lt_or_ge other index with earlier | last
  · refine holds.abandoned other ?_
    simpa only [CallState.abandoned, awaiting] using earlier
  · obtain rfl : other = index := by omega
    refine ⟨holds.dispatched other connection found (by rw [rejected]; rfl), connection, found,
      by rw [rejected]; rfl⟩

theorem HandlerStage.undispatched_of_unresolved {stage : HandlerStage Response}
    (unresolved : stage.unresolved = true)
    : stage.dispatched = false := by
  cases stage <;> simp_all [HandlerStage.unresolved, HandlerStage.dispatched]

/-- An unresolved handler is not one of an abandoned connection. -/
theorem CallInvariant.ne_of_abandoned {trace : List (CallEvent Response)}
    {state : CallState Response} {index other : Nat} {connection : Connection Response}
    (holds : CallInvariant trace state) (found : state.connections[index]? = some connection)
    (unresolved : connection.stage.unresolved = true) (below : other < state.abandoned)
    : index ≠ other := by
  rintro rfl
  obtain ⟨-, abandoned, same, resolved⟩ := holds.abandoned index below
  obtain rfl := Option.some.inj (found.symm.trans same)
  simp [unresolved] at resolved

theorem CallInvariant.handled {trace : List (CallEvent Response)}
    {state : CallState Response} {index : Nat} {connection : Connection Response}
    {stage : HandlerStage Response} (holds : CallInvariant trace state)
    (found : state.connections[index]? = some connection)
    (unresolved : connection.stage.unresolved = true) (quiet : stage.dispatched = false)
    : CallInvariant (trace ++ [.internal]) (state.setConnection index stage) := by
  refine holds.quiet (fun _ => ⟨rfl, rfl⟩) (fun _ => le_rfl)
    (by simp [CallState.setConnection]) ?_ ?_ holds.bodies holds.settled ?_ ?_
  · intro other changed lookup undispatched
    rw [setConnection_getElem?] at lookup
    split at lookup
    · next same =>
        subst same
        exact .inr
          ⟨connection, found, HandlerStage.undispatched_of_unresolved unresolved⟩
    · exact .inr ⟨changed, lookup, undispatched⟩
  · intro changed member reply answered
    obtain ⟨other, lookup⟩ := List.mem_iff_getElem?.mp member
    rw [setConnection_getElem?] at lookup
    split at lookup
    · obtain ⟨old, -, rfl⟩ := Option.map_eq_some_iff.mp lookup
      simp only at answered
      simp [answered, HandlerStage.dispatched] at quiet
    · exact holds.replies changed (List.mem_of_getElem? lookup) reply answered
  · intro current client
    simpa [CallState.setConnection] using holds.awaiting current client
  · intro other below
    have below : other < state.abandoned := by
      simpa [CallState.abandoned, CallState.setConnection] using below
    obtain ⟨none, abandoned, lookup, resolved⟩ := holds.abandoned other below
    refine ⟨none, abandoned, ?_, resolved⟩
    rw [setConnection_getElem?, if_neg (holds.ne_of_abandoned found unresolved below)]
    exact lookup

/-- A submission is the first one of its connection and brings exactly one job. -/
theorem CallInvariant.accepted {trace : List (CallEvent Response)}
    {state : CallState Response} {index : Nat} {connection : Connection Response}
    {owner : Owner Response} {dispatcher : ExecutionDispatcher JobSource}
    (holds : CallInvariant trace state)
    (found : state.connections[index]? = some connection)
    (unresolved : connection.stage.unresolved = true)
    (target : state.owners[connection.owner]? = some owner)
    (empty : owner.slot.dispatcher.state.job = none)
    (queued : dispatcher.state.job = some (.connection index))
    : CallInvariant (trace ++ [.accepted index])
        ((state.setConnection index .submitted).setOwner connection.owner
          { owner with slot := { owner.slot with dispatcher := dispatcher } }) := by
  have fresh : trace.countP (CallEvent.accepts index) = 0 :=
    holds.dispatched index connection found
      (HandlerStage.undispatched_of_unresolved unresolved)
  have executed (other : Nat)
      : (trace ++ [CallEvent.accepted index]).countP (CallEvent.executes other)
        = trace.countP (CallEvent.executes other) := by
    simp [CallEvent.executes]
  have accepted (other : Nat)
      : (trace ++ [CallEvent.accepted index]).countP (CallEvent.accepts other)
        = trace.countP (CallEvent.accepts other) + (decide (index = other)).toNat := by
    by_cases same : index = other <;> simp [CallEvent.accepts, same]
  have others (other : Nat) (different : index ≠ other)
      : (trace ++ [CallEvent.accepted index]).countP (CallEvent.accepts other)
        = trace.countP (CallEvent.accepts other) := by
    simp [accepted, different]
  refine {
    once := fun other => ?_
    ledger := fun other => ?_
    dispatched := fun other changed lookup undispatched => ?_
    known := fun other beyond => ?_
    replies := fun changed member reply answered => ?_
    bodies := fun changed member reply body => ?_
    settled := fun changed member => ?_
    awaiting := fun current client => ?_
    abandoned := fun other below => ?_
  }
  · by_cases same : index = other
    · subst same
      simp [accepted, fresh]
    · rw [others other same]
      exact holds.once other
  · have total := sum_map_set (Owner.waitingJobs other)
      { owner with slot := { owner.slot with dispatcher := dispatcher } } target
    have before := holds.ledger other
    have gained
        : Owner.waitingJobs other
              { owner with slot := { owner.slot with dispatcher := dispatcher } }
          = owner.waitingJobs other + (decide (index = other)).toNat := by
      simp only [Owner.waitingJobs, queued, empty, Option.some.injEq,
        JobSource.connection.injEq, reduceCtorEq, decide_false, Bool.toNat_false]
      omega
    rw [executed, accepted]
    simp only [CallState.setOwner, CallState.setConnection] at total gained ⊢
    omega
  · have lookup : (state.setConnection index .submitted).connections[other]? = some changed :=
      lookup
    rw [setConnection_getElem?] at lookup
    split at lookup
    · obtain ⟨old, -, rfl⟩ := Option.map_eq_some_iff.mp lookup
      simp [HandlerStage.dispatched] at undispatched
    · next different =>
        rw [others other different]
        exact holds.dispatched other changed lookup undispatched
  · have beyond : state.connections.length ≤ other := by
      simpa [CallState.setOwner, CallState.setConnection] using beyond
    have different : index ≠ other := by
      have inside := (List.getElem?_eq_some_iff.mp found).1
      omega
    rw [others other different]
    exact holds.known other beyond
  · have member : changed ∈ (state.setConnection index .submitted).connections := member
    obtain ⟨other, lookup⟩ := List.mem_iff_getElem?.mp member
    rw [setConnection_getElem?] at lookup
    split at lookup
    · obtain ⟨old, -, rfl⟩ := Option.map_eq_some_iff.mp lookup
      simp at answered
    · exact holds.replies changed (List.mem_of_getElem? lookup) reply answered
  · rcases List.mem_or_eq_of_mem_set member with old | rfl
    · exact holds.bodies changed old reply body
    · exact holds.bodies owner (List.mem_of_getElem? target) reply body
  · rcases List.mem_or_eq_of_mem_set member with old | rfl
    · exact holds.settled changed old
    · exact holds.settled owner (List.mem_of_getElem? target)
  · simpa [CallState.setOwner, CallState.setConnection] using holds.awaiting current client
  · have below : other < state.abandoned := by
      simpa [CallState.abandoned, CallState.setOwner, CallState.setConnection] using below
    have different := holds.ne_of_abandoned found unresolved below
    obtain ⟨none, abandoned, lookup, resolved⟩ := holds.abandoned other below
    refine ⟨(others other different).trans none, abandoned, ?_, resolved⟩
    have same := setConnection_getElem? state index other .submitted
    rw [if_neg different] at same
    exact same.trans lookup

/-- Other steps of one owner. -/
theorem CallInvariant.slotMoved {trace : List (CallEvent Response)}
    {state : CallState Response} {index : Nat} {owner next : Owner Response}
    {event : CallEvent Response} (holds : CallInvariant trace state)
    (silent : ∀ index, event.accepts index = false ∧ event.executes index = false)
    (found : state.owners[index]? = some owner)
    (same : ∀ connection, next.waitingJobs connection ≤ owner.waitingJobs connection)
    (replies : ∀ reply, next.body.reply? = some reply → owner.body.reply? = some reply)
    (settled : owner.Settled → next.Settled)
    : CallInvariant (trace ++ [event]) (state.setOwner index next) := by
  refine holds.quiet silent (fun connection => sum_waitingJobs_set found (same connection))
    le_rfl (fun other connection lookup stage => .inr ⟨connection, lookup, stage⟩)
    holds.replies ?_ ?_ holds.awaiting holds.abandoned
  · intro changed member reply body
    rcases List.mem_or_eq_of_mem_set member with old | rfl
    · exact holds.bodies changed old reply body
    · exact holds.bodies owner (List.mem_of_getElem? found) reply (replies reply body)
  · intro changed member
    rcases List.mem_or_eq_of_mem_set member with old | rfl
    · exact holds.settled changed old
    · exact settled (holds.settled owner (List.mem_of_getElem? found))

/-- Running a body uses up the job it runs. -/
theorem CallInvariant.executed {trace : List (CallEvent Response)}
    {state : CallState Response} {index : Nat} {owner : Owner Response} {job : JobSource}
    {result : BodyResult Response} (holds : CallInvariant trace state)
    (honest : (CallEvent.executed job result).honest = true)
    (found : state.owners[index]? = some owner) (running : owner.slot.worker = .running job)
    (idle : owner.body = .idle)
    : CallInvariant (trace ++ [.executed job result])
        (state.setOwner index { owner with body := .ran result.reply }) := by
  have accepted (other : Nat)
      : (trace ++ [CallEvent.executed job result]).countP (CallEvent.accepts other)
        = trace.countP (CallEvent.accepts other) := by
    simp [CallEvent.accepts]
  have executed (other : Nat)
      : (trace ++ [CallEvent.executed job result]).countP (CallEvent.executes other)
        = trace.countP (CallEvent.executes other)
          + (decide (job = .connection other)).toNat := by
    by_cases same : job = .connection other <;> simp [CallEvent.executes, same]
  refine {
    once := fun other => accepted other ▸ holds.once other
    ledger := fun other => ?_
    dispatched := fun other connection lookup stage =>
      accepted other ▸ holds.dispatched other connection lookup stage
    known := fun other beyond => accepted other ▸ holds.known other beyond
    replies := holds.replies
    bodies := fun changed member reply body => ?_
    settled := fun changed member => ?_
    awaiting := holds.awaiting
    abandoned := fun other below => accepted other ▸ holds.abandoned other below
  }
  · have total := sum_map_set (Owner.waitingJobs other)
      { owner with body := .ran result.reply } found
    have before := holds.ledger other
    have used
        : Owner.waitingJobs other { owner with body := .ran result.reply }
            + (decide (job = .connection other)).toNat
          = owner.waitingJobs other := by
      simp only [Owner.waitingJobs, running, idle]
      omega
    rw [executed, accepted]
    simp only [CallState.setOwner]
    omega
  · rcases List.mem_or_eq_of_mem_set member with old | rfl
    · exact holds.bodies changed old reply body
    · exact reserved_bodyReply honest body
  · rcases List.mem_or_eq_of_mem_set member with old | rfl
    · exact holds.settled changed old
    · intro _ _ body
      simp at body

/-- The worker's answer resolves a connection and carries no reserved reply. -/
theorem CallInvariant.answered {trace : List (CallEvent Response)}
    {state : CallState Response} {index : Nat} {owner : Owner Response} {job : JobSource}
    {reply : Option (CoordinatorReply Response)} (holds : CallInvariant trace state)
    (found : state.owners[index]? = some owner) (body : owner.body = .answering job reply)
    : CallInvariant (trace ++ [.answered job])
        ((state.setOwner index { owner with body := .idle }).answer job reply) := by
  have settled := holds.settled owner (List.mem_of_getElem? found)
  have same (connection : Nat)
      : ({ owner with body := .idle } : Owner Response).waitingJobs connection
        ≤ owner.waitingJobs connection := by
    simp only [Owner.waitingJobs, body]
    cases worker : owner.slot.worker with
    | running other => exact absurd worker (settled job reply body other)
    | _ => exact le_rfl
  have moved : CallInvariant (trace ++ [.answered job])
      (state.setOwner index { owner with body := .idle }) :=
    holds.slotMoved (fun _ => ⟨rfl, rfl⟩) found same (by simp [WorkerBody.reply?])
      (fun _ _ _ idle => by simp at idle)
  cases job with
  | other id => exact moved
  | connection target =>
      have unreserved (written : CoordinatorReply Response) (some : reply = some written)
          : written.reserved = false :=
        holds.bodies owner (List.mem_of_getElem? found) written
          (by rw [body]; exact some)
      refine {
        once := moved.once
        ledger := moved.ledger
        dispatched := fun other changed lookup undispatched => ?_
        known := fun other beyond => ?_
        replies := fun changed member written answered => ?_
        bodies := moved.bodies
        settled := moved.settled
        awaiting := fun current client => ?_
        abandoned := fun other below => ?_
      }
      · have lookup
            : ((state.setOwner index { owner with body := .idle }).setConnection target
                (.answered reply)).connections[other]?
              = some changed := lookup
        rw [setConnection_getElem?] at lookup
        split at lookup
        · obtain ⟨old, -, rfl⟩ := Option.map_eq_some_iff.mp lookup
          simp [HandlerStage.dispatched] at undispatched
        · exact moved.dispatched other changed lookup undispatched
      · refine moved.known other ?_
        simpa [CallState.answer, CallState.setConnection] using beyond
      · obtain ⟨other, lookup⟩ := List.mem_iff_getElem?.mp member
        have lookup
            : ((state.setOwner index { owner with body := .idle }).setConnection target
                (.answered reply)).connections[other]?
              = some changed := lookup
        rw [setConnection_getElem?] at lookup
        split at lookup
        · obtain ⟨old, -, rfl⟩ := Option.map_eq_some_iff.mp lookup
          simp only [HandlerStage.answered.injEq] at answered
          exact unreserved written answered
        · exact moved.replies changed (List.mem_of_getElem? lookup) written answered
      · simpa [CallState.answer, CallState.setConnection] using moved.awaiting current client
      · have below : other < (state.setOwner index { owner with body := .idle }).abandoned := by
          simpa [CallState.abandoned, CallState.answer, CallState.setConnection] using below
        obtain ⟨none, abandoned, lookup, resolved⟩ := moved.abandoned other below
        have changed := setConnection_getElem?
          (state.setOwner index { owner with body := .idle }) target other (.answered reply)
        by_cases here : target = other
        · rw [if_pos here, lookup] at changed
          exact ⟨none, _, changed, rfl⟩
        · rw [if_neg here, lookup] at changed
          exact ⟨none, abandoned, changed, resolved⟩

theorem CallInvariant.startedOwner {trace : List (CallEvent Response)}
    {state : CallState Response} (holds : CallInvariant trace state) (version : Nat)
    (token : String)
    : CallInvariant (trace ++ [.internal])
        { state with owners := state.owners ++ [{ version := version, token := token }] } := by
  refine holds.quiet (fun _ => ⟨rfl, rfl⟩) (fun index => ?_) le_rfl
    (fun other connection lookup stage => .inr ⟨connection, lookup, stage⟩) holds.replies ?_ ?_
    holds.awaiting holds.abandoned
  · simp [Owner.waitingJobs]
  · intro changed member reply body
    rcases List.mem_append.mp member with old | new
    · exact holds.bodies changed old reply body
    · rw [List.mem_singleton.mp new] at body
      simp [WorkerBody.reply?] at body
  · intro changed member
    rcases List.mem_append.mp member with old | new
    · exact holds.settled changed old
    · rw [List.mem_singleton.mp new]
      intro _ _ body
      simp at body

theorem CallInvariant.step {trace : List (CallEvent Response)}
    {state next : CallState Response} {event : CallEvent Response}
    (holds : CallInvariant trace state) (move : CallMove state event next)
    (honest : event.honest = true)
    : CallInvariant (trace ++ [event]) next := by
  cases move with
  | connected owner request sending => exact holds.connected owner request sending
  | returned result running => exact holds.returned result running
  | retried awaiting found written reserved =>
      exact holds.retried awaiting found written reserved
  | handled found unresolved quiet => exact holds.handled found unresolved quiet
  | accepted dispatcher found unresolved target empty queued =>
      exact holds.accepted found unresolved target empty queued
  | slotMoved next found same replies settled =>
      exact holds.slotMoved (fun _ => ⟨rfl, rfl⟩) found same replies settled
  | executed result found running idle => exact holds.executed honest found running idle
  | answered found body => exact holds.answered found body
  | startedOwner version token => exact holds.startedOwner version token

/-- The invariant holds along every run of a call whose executor is honest. -/
theorem callInvariant_of_run {bounded : Bool} {trace : List (CallEvent Response)}
    {state : CallState Response}
    (run : Run callStep { bounded := bounded, owners := [] } trace state)
    (honest : ∀ event ∈ trace, event.honest = true)
    : CallInvariant trace state := by
  induction run with
  | nil =>
      exact {
        once := by simp
        ledger := by simp
        dispatched := by simp
        known := by simp
        replies := by simp
        bodies := by simp
        settled := by simp
        awaiting := by simp
        abandoned := by simp [CallState.abandoned]
      }
  | @snoc trace mid last event run action next ih =>
      have before := ih (fun other member => honest other (List.mem_append_left _ member))
      exact before.step (callStep_move next) (honest event (by simp))

theorem CallMove.connections_length {state next : CallState Response}
    {event : CallEvent Response} (move : CallMove state event next)
    : state.connections.length ≤ next.connections.length := by
  cases move with
  | connected owner request sending => simp
  | @answered _ _ job _ found body =>
      cases job <;> simp [CallState.answer, CallState.setConnection, CallState.setOwner]
  | _ => simp [CallState.setConnection, CallState.setOwner]

theorem connections_length_of_run {start last : CallState Response}
    {trace : List (CallEvent Response)} (run : Run callStep start trace last)
    : start.connections.length ≤ last.connections.length := by
  induction run with
  | nil => exact le_rfl
  | snoc run action next ih => exact ih.trans (callStep_move next).connections_length

/-- Only the last connection of a call can have been dispatched. -/
theorem CallInvariant.accepts_eq_zero {trace : List (CallEvent Response)}
    {state : CallState Response} (holds : CallInvariant trace state) (index : Nat)
    (earlier : index + 1 < state.connections.length)
    : trace.countP (CallEvent.accepts index) = 0 := by
  refine (holds.abandoned index ?_).1
  simp only [CallState.abandoned]
  cases client : state.client with
  | sending =>
      simp only
      omega
  | awaiting current =>
      have length := holds.awaiting current client
      simp only
      omega
  | returned result =>
      simp only
      omega

/-- A call of the owner's execute function on behalf of this call. -/
def CallEvent.executesCall : CallEvent Response → Bool
  | .executed (.connection _) _ => true
  | _ => false

/-- One call of `send_command_with_recovery` leads to at most one execution, whatever the
network, the handlers and the owners do: the client opens another connection only when no
earlier one was ever submitted, and none of them is submitted later. The executor is assumed
not to answer with a reserved code. Witness: `execution_atMostOnce_staleRoute`.
-/
theorem execution_atMostOnce {bounded : Bool} {trace : List (CallEvent Response)}
    {state : CallState Response}
    (run : Run callStep { bounded := bounded, owners := [] } trace state)
    (honest : ∀ event ∈ trace, event.honest = true)
    : trace.countP CallEvent.executesCall ≤ 1
      ∧ ∀ (before after : List (CallEvent Response)) (index : Nat),
          trace = before ++ .connected index :: after
          → ∀ earlier < index, CallEvent.accepted earlier ∉ trace := by
  have holds := callInvariant_of_run run honest
  refine ⟨?_, ?_⟩
  · have onlyLast
        : ∀ event ∈ trace,
            event.executesCall = true
            → event.executes (state.connections.length - 1) = true := by
      intro event member executes
      cases event with
      | executed job result =>
          cases job with
          | other id => simp [CallEvent.executesCall] at executes
          | connection index =>
              have counted : 0 < trace.countP (CallEvent.executes index) :=
                List.countP_pos_iff.mpr ⟨_, member, by simp [CallEvent.executes]⟩
              have paid := holds.ledger index
              have known := holds.known index
              have last : index = state.connections.length - 1 := by
                by_contra different
                rcases Nat.lt_or_ge (index + 1) state.connections.length with low | high
                · have none := holds.accepts_eq_zero index low
                  omega
                · rcases Nat.lt_or_ge index state.connections.length with inside | beyond
                  · omega
                  · have none := known beyond
                    omega
              simp [CallEvent.executes, ← last]
      | _ => simp [CallEvent.executesCall] at executes
    calc trace.countP CallEvent.executesCall
        ≤ trace.countP (CallEvent.executes (state.connections.length - 1)) :=
          List.countP_mono_left onlyLast
      _ ≤ trace.countP (CallEvent.accepts (state.connections.length - 1)) :=
          (Nat.le_add_right _ _).trans (holds.ledger _)
      _ ≤ 1 := holds.once _
  · rintro before after index split earlier below member
    rw [split] at run
    obtain ⟨mid, action, next, -, step, later⟩ := run.split_at
    have opened : next.connections.length = index + 1 := by
      generalize connects : CallEvent.connected index = event at step
      cases callStep_move step with
      | connected owner request sending =>
          obtain rfl := CallEvent.connected.inj connects
          simp
      | _ => simp at connects
    have grown := connections_length_of_run later
    have none := holds.accepts_eq_zero earlier (by omega)
    have counted : 0 < trace.countP (CallEvent.accepts earlier) :=
      List.countP_pos_iff.mpr ⟨_, member, by simp [CallEvent.accepts]⟩
    omega

/-- A stale route: the first connection is refused, the second one is executed. -/
def staleRoute : List (CallAction Nat) :=
  [.startOwner 1 "fresh", .connect 0 ⟨1, "stale", none, "index"⟩, .readRequest 0,
    .receive false (.ok ()), .connect 0 ⟨1, "fresh", none, "index"⟩, .readRequest 1,
    .prepare 1 (.ok ()), .submit 1, .take 0, .runBody 0 (.succeeded 7), .finish 0, .answer 0,
    .receive false (.ok ())]

theorem execution_atMostOnce_staleRoute
    : ∃ (trace : List (CallEvent Nat)) (state : CallState Nat),
        Run callStep { bounded := false, owners := [] } trace state
        ∧ state.client = .returned (.ok (.success 7))
        ∧ state.connections.length = 2
        ∧ trace.countP CallEvent.executesCall = 1
        ∧ trace.countP CallEvent.executesCall ≤ 1 := by
  have run : Run callStep ({ bounded := false, owners := [] } : CallState Nat)
      [_, _, _, _, _, _, _, _, _, _, _, _, _] _ :=
    .of_execute staleRoute rfl
  exact ⟨_, _, run, rfl, rfl, rfl, (execution_atMostOnce run (by decide)).1⟩

end CodebaseGraph.Coordinator
