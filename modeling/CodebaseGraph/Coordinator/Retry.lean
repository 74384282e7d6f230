import CodebaseGraph.Coordinator.Dispatcher

/-! One call of `send_command_with_recovery` against the owners it reaches
(`src/coordinator.rs`).
The client opens one connection per attempt; every connection has a handler of its own, and
an owner's jobs go through its single execution slot.
-/

namespace CodebaseGraph.Coordinator

open CodebaseGraph.Transition

structure ApiError where
  code : String
  message : String
  retryable : Bool := false
deriving DecidableEq, Repr

inductive CoordinatorReply (Response : Type*) where
  | pong
  | success (response : Response)
  | failure (error : ApiError)
deriving DecidableEq, Repr

variable {Response : Type*}

def coordinatorProtocolVersion : Nat := 1

def coordinatorAuthenticationFailed : String := "coordinator_authentication_failed"

def coordinatorRequestReceiveFailed : String := "coordinator_request_receive_failed"

def coordinatorRequestReceiveFailure (error : String) : CoordinatorReply Response :=
  .failure ⟨coordinatorRequestReceiveFailed, error, true⟩

def authenticationFailure : CoordinatorReply Response :=
  .failure
    ⟨coordinatorAuthenticationFailed, "repository coordinator protocol or token is invalid",
      false⟩

def expiredError : ApiError :=
  ⟨"deadline_exceeded", "request execution deadline expired", false⟩

def graphBusy : CoordinatorReply Response :=
  .failure
    ⟨"graph_busy", "repository graph executor is already handling another operation", true⟩

def replyRequiresRouteRefresh : CoordinatorReply Response → Bool
  | .failure error => error.code = coordinatorAuthenticationFailed
  | _ => false

def replyIsSafeToRetry : CoordinatorReply Response → Bool
  | .failure error => error.code = coordinatorRequestReceiveFailed && error.retryable
  | _ => false

/-- An `Execute` request as it is framed for an owner. -/
structure CoordinatorRequest where
  version : Nat
  token : String
  timeoutMs : Option Nat
  operationId : String
deriving DecidableEq, Repr

/-- `coordinator_execution_context`: whether the execution is bounded. -/
def coordinatorExecutionContext (timeoutMs : Option Nat) : Except ApiError Bool :=
  match timeoutMs with
  | none => .ok false
  | some 0 =>
      .error
        ⟨"invalid_coordinator_deadline", "coordinator timeout_ms must be greater than zero",
          false⟩
  | some _ => .ok true

/-- Bounded execution is offered for two operations only. -/
def CoordinatorRequest.deadlineUnsupported (request : CoordinatorRequest) : Bool :=
  request.timeoutMs.isSome
  && !(request.operationId = "health" || request.operationId = "search")

/-- The part of `handle_connection_dispatch` from a complete request up to `prepare`: a reply
that ends the connection, or whether the execution is bounded.
-/
def admitRequest (version : Nat) (token : String) (request : CoordinatorRequest)
    : Except (CoordinatorReply Response) Bool :=
  if request.version ≠ version ∨ request.token ≠ token then
    .error authenticationFailure
  else if request.deadlineUnsupported then
    .error
      (.failure
        ⟨"invalid_coordinator_deadline",
          "bounded coordinator execution is only supported for health and search", false⟩)
  else
    match coordinatorExecutionContext request.timeoutMs with
    | .error error => .error (.failure error)
    | .ok bounded => .ok bounded

/-- Where a connection's handler stands. A handler that ends without a submission has
`rejected`, with the reply it wrote or none; a submitted job is `answered` by the worker.
-/
inductive HandlerStage (Response : Type*) where
  | reading
  | admitted (bounded : Bool)
  | prepared (bounded : Bool)
  | submitted
  | rejected (reply : Option (CoordinatorReply Response))
  | answered (reply : Option (CoordinatorReply Response))
deriving DecidableEq, Repr

structure Connection (Response : Type*) where
  owner : Nat
  request : CoordinatorRequest
  stage : HandlerStage Response := .reading
deriving DecidableEq, Repr

/-- Whose job it is: one of this call's connections, or somebody else's. -/
inductive JobSource where
  | connection (index : Nat)
  | other (id : Nat)
deriving DecidableEq, Repr

/-- What the worker does between two calls of `take`: the body under `catch_unwind`, then
`finish_one`, then the reply or the shutdown of the connection.
-/
inductive WorkerBody (Response : Type*) where
  | idle
  | ran (reply : Option (CoordinatorReply Response))
  | answering (job : JobSource) (reply : Option (CoordinatorReply Response))
deriving DecidableEq, Repr

/-- One owner process. -/
structure Owner (Response : Type*) where
  version : Nat := coordinatorProtocolVersion
  token : String
  slot : SlotState JobSource := {}
  body : WorkerBody Response := .idle
deriving DecidableEq, Repr

/-- The loop of `send_command_with_recovery`. -/
inductive ClientStage (Response : Type*) where
  | sending
  | awaiting (connection : Nat)
  | returned (result : Except ApiError (CoordinatorReply Response))

/-- The call, with its connections and the owners around it. -/
structure CallState (Response : Type*) where
  bounded : Bool
  client : ClientStage Response := .sending
  connections : List (Connection Response) := []
  owners : List (Owner Response)

/-- How one run of the worker's body ends. -/
inductive BodyResult (Response : Type*) where
  | expiredBefore
  | succeeded (response : Response)
  | expiredAfter
  | failed (error : ApiError)
  | panicked
deriving DecidableEq, Repr

/-- The reply of the worker's body; without one the connection is shut down. -/
def BodyResult.reply : BodyResult Response → Option (CoordinatorReply Response)
  | .succeeded response => some (.success response)
  | .failed error => some (.failure error)
  | _ => none

def BodyResult.executes : BodyResult Response → Bool
  | .expiredBefore => false
  | _ => true

/-- The choices of the client's environment, the network, the handlers and the owners. -/
inductive CallAction (Response : Type*) where
  | connect (owner : Nat) (request : CoordinatorRequest)
  | giveUp (error : ApiError)
  | receive (late : Bool) (refresh : Except ApiError Unit)
  | dropConnection (connection : Nat)
  | failRequest (connection : Nat) (message : String)
  | readRequest (connection : Nat)
  | prepare (connection : Nat) (result : Except ApiError Unit)
  | expire (connection : Nat)
  | failClone (connection : Nat)
  | submit (connection : Nat)
  | slot (owner : Nat) (action : SlotAction Nat)
  | take (owner : Nat)
  | runBody (owner : Nat) (result : BodyResult Response)
  | finish (owner : Nat)
  | answer (owner : Nat)
  | startOwner (version : Nat) (token : String)

inductive CallEvent (Response : Type*) where
  | connected (connection : Nat)
  | returned (result : Except ApiError (CoordinatorReply Response))
  | retried
  | accepted (connection : Nat)
  | executed (job : JobSource) (result : BodyResult Response)
  | answered (job : JobSource)
  | internal

/-- What the client does with a reply. -/
def clientReceive (bounded late : Bool) (refresh : Except ApiError Unit)
    (reply : CoordinatorReply Response)
    : ClientStage Response :=
  if replyIsSafeToRetry reply then
    if late then
      .returned
        (.error
          (if bounded then
            expiredError
          else
            ⟨"coordinator_unavailable",
              "repository coordinator kept rejecting the request before dispatch", true⟩))
    else
      .sending
  else if replyRequiresRouteRefresh reply then
    if late then
      .returned
        (.error
          (if bounded then
            expiredError
          else
            ⟨"coordinator_unavailable", "repository coordinator route stayed stale", true⟩))
    else if bounded then
      .returned
        (.error
          ⟨"coordinator_route_stale",
            "repository coordinator rejected the request; route recovery continues in the background",
            true⟩)
    else
      match refresh with
      | .error error => .returned (.error error)
      | .ok () => .sending
  else
    .returned (.ok reply)

def CallState.setConnection (state : CallState Response) (index : Nat)
    (stage : HandlerStage Response)
    : CallState Response :=
  { state with connections := state.connections.modify index ({ · with stage := stage }) }

def CallState.setOwner (state : CallState Response) (index : Nat) (owner : Owner Response)
    : CallState Response :=
  { state with owners := state.owners.set index owner }

/-- The client's own steps. Every error of `send_command`, before or after the request was
transmitted, ends the call.
-/
def clientStep (state : CallState Response)
    : CallAction Response → Option (CallEvent Response × CallState Response)
  | .connect owner request =>
      match state.client with
      | .sending =>
          some
            (.connected state.connections.length,
              {
                state with
                client := .awaiting state.connections.length,
                connections := state.connections ++ [{ owner := owner, request := request }]
              })
      | _ => none
  | .giveUp error =>
      match state.client with
      | .returned _ => none
      | _ => some (.returned (.error error), { state with client := .returned (.error error) })
  | .receive late refresh =>
      match state.client with
      | .awaiting index =>
          match (state.connections[index]?).map Connection.stage with
          | some (.rejected (some reply)) | some (.answered (some reply)) =>
              match clientReceive state.bounded late refresh reply with
              | .returned result =>
                  some (.returned result, { state with client := .returned result })
              | client => some (.retried, { state with client := client })
          | _ => none
      | _ => none
  | _ => none

/-- The steps of a connection's handler. -/
def handlerStep (state : CallState Response)
    : CallAction Response → Option (CallEvent Response × CallState Response)
  | .dropConnection index =>
      match (state.connections[index]?).map Connection.stage with
      | some .reading => some (.internal, state.setConnection index (.rejected none))
      | _ => none
  | .failRequest index message =>
      match (state.connections[index]?).map Connection.stage with
      | some .reading =>
          some
            (.internal,
              state.setConnection index
                (.rejected (some (coordinatorRequestReceiveFailure message))))
      | _ => none
  | .readRequest index =>
      match state.connections[index]? with
      | some ⟨owner, request, .reading⟩ =>
          match state.owners[owner]? with
          | none => none
          | some owner =>
              match admitRequest owner.version owner.token request with
              | .error reply =>
                  some (.internal, state.setConnection index (.rejected (some reply)))
              | .ok bounded => some (.internal, state.setConnection index (.admitted bounded))
      | _ => none
  | .prepare index result =>
      match (state.connections[index]?).map Connection.stage with
      | some (.admitted bounded) =>
          match result with
          | .error error =>
              some (.internal, state.setConnection index (.rejected (some (.failure error))))
          | .ok () => some (.internal, state.setConnection index (.prepared bounded))
      | _ => none
  | .expire index =>
      match (state.connections[index]?).map Connection.stage with
      | some (.prepared true) =>
          some
            (.internal, state.setConnection index (.rejected (some (.failure expiredError))))
      | _ => none
  | .failClone index =>
      match (state.connections[index]?).map Connection.stage with
      | some (.prepared _) => some (.internal, state.setConnection index (.rejected none))
      | _ => none
  | .submit index =>
      match state.connections[index]? with
      | some ⟨ownerIndex, _, .prepared _⟩ =>
          match state.owners[ownerIndex]? with
          | none => none
          | some owner =>
              match owner.slot.dispatcher.trySubmit (.connection index) with
              | .error _ =>
                  some (.internal, state.setConnection index (.rejected (some graphBusy)))
              | .ok dispatcher =>
                  some
                    (.accepted index,
                      (state.setConnection index .submitted).setOwner ownerIndex
                        { owner with slot := { owner.slot with dispatcher := dispatcher } })
      | _ => none
  | _ => none

/-- Other users of an owner's slot: their jobs, maintenance permits and the stop. -/
def SlotAction.foreign : SlotAction Nat → Option (SlotAction JobSource)
  | .submit id => some (.submit (.other id))
  | .acquire => some .acquire
  | .dropPermit => some .dropPermit
  | .stop => some .stop
  | .take | .finish => none

/-- The worker answers the connection of a finished job. -/
def CallState.answer (state : CallState Response) (job : JobSource)
    (reply : Option (CoordinatorReply Response))
    : CallState Response :=
  match job with
  | .connection index => state.setConnection index (.answered reply)
  | .other _ => state

/-- The steps of the owners: the worker loop, other users of the slot, and new owners. -/
def ownerStep (state : CallState Response)
    : CallAction Response → Option (CallEvent Response × CallState Response)
  | .slot index action =>
      match state.owners[index]?, action.foreign with
      | some owner, some action =>
          (slotStep owner.slot action).map
            (fun result => (.internal, state.setOwner index { owner with slot := result.2 }))
      | _, _ => none
  | .take index =>
      match state.owners[index]? with
      | some owner =>
          match owner.body with
          | .idle =>
              (slotStep owner.slot .take).map
                (fun result =>
                  (.internal, state.setOwner index { owner with slot := result.2 }))
          | _ => none
      | none => none
  | .runBody index result =>
      match state.owners[index]? with
      | some owner =>
          match owner.slot.worker, owner.body with
          | .running job, .idle =>
              let next := state.setOwner index { owner with body := .ran result.reply }
              if result.executes then
                some (.executed job result, next)
              else
                some (.internal, next)
          | _, _ => none
      | none => none
  | .finish index =>
      match state.owners[index]? with
      | some owner =>
          match owner.slot.worker, owner.body, slotStep owner.slot .finish with
          | .running job, .ran reply, some (_, slot) =>
              some
                (.internal,
                  state.setOwner index
                    { owner with slot := slot, body := .answering job reply })
          | _, _, _ => none
      | none => none
  | .answer index =>
      match state.owners[index]? with
      | some owner =>
          match owner.body with
          | .answering job reply =>
              some
                (.answered job,
                  (state.setOwner index { owner with body := .idle }).answer job reply)
          | _ => none
      | none => none
  | .startOwner version token =>
      some
        (.internal,
          { state with owners := state.owners ++ [{ version := version, token := token }] })
  | _ => none

/-- One step of the call: the client's, a handler's or an owner's. -/
def callStep : StepFn (CallState Response) (CallAction Response) (CallEvent Response) :=
  fun state action =>
    (clientStep state action).or ((handlerStep state action).or (ownerStep state action))

end CodebaseGraph.Coordinator
