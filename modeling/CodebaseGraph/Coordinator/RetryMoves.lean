import CodebaseGraph.Coordinator.Retry
import Mathlib.Tactic

/-! Everything one step of a recovering call can do to jobs, handlers and replies. -/

namespace CodebaseGraph.Coordinator

open CodebaseGraph.Transition

variable {Response : Type*}

/-- The replies on which the client may send again. -/
def CoordinatorReply.reserved (reply : CoordinatorReply Response) : Bool :=
  replyIsSafeToRetry reply || replyRequiresRouteRefresh reply

/-- A handler that may still submit a job. -/
def HandlerStage.unresolved : HandlerStage Response → Bool
  | .reading | .admitted _ | .prepared _ => true
  | _ => false

/-- Whether the connection's job was handed to a worker. -/
def HandlerStage.dispatched : HandlerStage Response → Bool
  | .submitted | .answered _ => true
  | _ => false

/-- The jobs of one connection that an owner has accepted and not yet run. -/
def Owner.waitingJobs (index : Nat) (owner : Owner Response) : Nat :=
  (decide (owner.slot.dispatcher.state.job = some (.connection index))).toNat
  + (match owner.slot.worker, owner.body with
      | .running job, .idle => (decide (job = .connection index)).toNat
      | _, _ => 0)

def WorkerBody.reply? : WorkerBody Response → Option (CoordinatorReply Response)
  | .idle => none
  | .ran reply | .answering _ reply => reply

/-- A worker that is answering has finished its job. -/
def Owner.Settled (owner : Owner Response) : Prop :=
  ∀ job reply, owner.body = .answering job reply → ∀ other, owner.slot.worker ≠ .running other

/-- Everything a step can do, as far as jobs and replies are concerned. -/
inductive CallMove (state : CallState Response)
    : CallEvent Response → CallState Response → Prop where
  | connected (owner : Nat) (request : CoordinatorRequest) (sending : state.client = .sending)
    : CallMove state (.connected state.connections.length)
        {
          state with
          client := .awaiting state.connections.length,
          connections := state.connections ++ [{ owner := owner, request := request }]
        }
  | returned (result : Except ApiError (CoordinatorReply Response))
    (running : ∀ earlier, state.client ≠ .returned earlier)
    : CallMove state (.returned result) { state with client := .returned result }
  | retried {index connection reply} (awaiting : state.client = .awaiting index)
    (found : state.connections[index]? = some connection)
    (written
      : connection.stage = .rejected (some reply) ∨ connection.stage = .answered (some reply))
    (reserved : reply.reserved = true)
    : CallMove state .retried { state with client := .sending }
  | handled {index connection stage} (found : state.connections[index]? = some connection)
    (unresolved : connection.stage.unresolved = true) (quiet : stage.dispatched = false)
    : CallMove state .internal (state.setConnection index stage)
  | accepted {index connection owner} (dispatcher : ExecutionDispatcher JobSource)
    (found : state.connections[index]? = some connection)
    (unresolved : connection.stage.unresolved = true)
    (target : state.owners[connection.owner]? = some owner)
    (empty : owner.slot.dispatcher.state.job = none)
    (queued : dispatcher.state.job = some (.connection index))
    : CallMove state (.accepted index)
        ((state.setConnection index .submitted).setOwner connection.owner
          { owner with slot := { owner.slot with dispatcher := dispatcher } })
  | slotMoved {index owner} (next : Owner Response)
    (found : state.owners[index]? = some owner)
    (same : ∀ connection, next.waitingJobs connection ≤ owner.waitingJobs connection)
    (replies : ∀ reply, next.body.reply? = some reply → owner.body.reply? = some reply)
    (settled : owner.Settled → next.Settled)
    : CallMove state .internal (state.setOwner index next)
  | executed {index owner job} (result : BodyResult Response)
    (found : state.owners[index]? = some owner) (running : owner.slot.worker = .running job)
    (idle : owner.body = .idle)
    : CallMove state (.executed job result)
        (state.setOwner index { owner with body := .ran result.reply })
  | answered {index owner job reply} (found : state.owners[index]? = some owner)
    (body : owner.body = .answering job reply)
    : CallMove state (.answered job)
        ((state.setOwner index { owner with body := .idle }).answer job reply)
  | startedOwner (version : Nat) (token : String)
    : CallMove state .internal
        { state with owners := state.owners ++ [{ version := version, token := token }] }

theorem clientReceive_sending {bounded late : Bool} {refresh : Except ApiError Unit}
    {reply : CoordinatorReply Response}
    (again : ∀ result, clientReceive bounded late refresh reply ≠ .returned result)
    : clientReceive bounded late refresh reply = .sending ∧ reply.reserved = true := by
  unfold clientReceive at again ⊢
  cases safe : replyIsSafeToRetry reply with
  | true =>
      cases late with
      | true => simp [safe] at again
      | false => simp [CoordinatorReply.reserved, safe]
  | false =>
      cases stale : replyRequiresRouteRefresh reply with
      | true =>
          cases late with
          | true => simp [safe, stale] at again
          | false =>
              cases bounded with
              | true => simp [safe, stale] at again
              | false =>
                  cases refresh with
                  | error error => simp [safe, stale] at again
                  | ok => simp [CoordinatorReply.reserved, safe, stale]
      | false => simp [safe, stale] at again

theorem clientStep_move {state next : CallState Response} {action : CallAction Response}
    {event : CallEvent Response} (step : clientStep state action = some (event, next))
    : CallMove state event next := by
  cases action with
  | connect owner request =>
      cases client : state.client with
      | sending =>
          simp only [clientStep, client, Option.some.injEq, Prod.mk.injEq] at step
          obtain ⟨rfl, rfl⟩ := step
          exact .connected owner request client
      | _ => simp [clientStep, client] at step
  | giveUp error =>
      cases client : state.client with
      | returned result => simp [clientStep, client] at step
      | _ =>
          simp only [clientStep, client, Option.some.injEq, Prod.mk.injEq] at step
          obtain ⟨rfl, rfl⟩ := step
          exact .returned _ (by simp [client])
  | receive late refresh =>
      cases client : state.client with
      | awaiting index =>
          cases found : state.connections[index]? with
          | none => simp [clientStep, client, found] at step
          | some connection =>
              have decide (reply : CoordinatorReply Response)
                  (written
                    : connection.stage = .rejected (some reply)
                      ∨ connection.stage = .answered (some reply))
                  : CallMove state event next := by
                by_cases answered
                    : ∃ result, clientReceive state.bounded late refresh reply = .returned result
                · obtain ⟨result, returned⟩ := answered
                  rcases written with stage | stage <;>
                    simp only [clientStep, client, found, stage, Option.map_some, returned,
                      Option.some.injEq, Prod.mk.injEq] at step
                  all_goals
                    obtain ⟨rfl, rfl⟩ := step
                    exact .returned _ (by simp [client])
                · obtain ⟨sending, reserved⟩ := clientReceive_sending (not_exists.mp answered)
                  have read := written
                  rcases written with stage | stage <;>
                    simp only [clientStep, client, found, stage, Option.map_some, sending,
                      Option.some.injEq, Prod.mk.injEq] at step
                  all_goals
                    obtain ⟨rfl, rfl⟩ := step
                    exact .retried client found read reserved
              cases stage : connection.stage with
              | rejected reply =>
                  cases reply with
                  | none => simp [clientStep, client, found, stage] at step
                  | some reply => exact decide reply (.inl stage)
              | answered reply =>
                  cases reply with
                  | none => simp [clientStep, client, found, stage] at step
                  | some reply => exact decide reply (.inr stage)
              | _ => simp [clientStep, client, found, stage] at step
      | _ => simp [clientStep, client] at step
  | _ => simp [clientStep] at step

theorem handlerStep_move {state next : CallState Response} {action : CallAction Response}
    {event : CallEvent Response} (step : handlerStep state action = some (event, next))
    : CallMove state event next := by
  cases action with
  | dropConnection index =>
      simp only [handlerStep] at step
      split at step
      · next stage =>
          obtain ⟨connection, found, stage⟩ := Option.map_eq_some_iff.mp stage
          simp only [Option.some.injEq, Prod.mk.injEq] at step
          obtain ⟨rfl, rfl⟩ := step
          exact .handled found (by rw [stage]; rfl) rfl
      · simp at step
  | failRequest index message =>
      simp only [handlerStep] at step
      split at step
      · next stage =>
          obtain ⟨connection, found, stage⟩ := Option.map_eq_some_iff.mp stage
          simp only [Option.some.injEq, Prod.mk.injEq] at step
          obtain ⟨rfl, rfl⟩ := step
          exact .handled found (by rw [stage]; rfl) rfl
      · simp at step
  | readRequest index =>
      simp only [handlerStep] at step
      split at step
      · next owner request found =>
          split at step
          · simp at step
          · next target =>
              split at step
              · simp only [Option.some.injEq, Prod.mk.injEq] at step
                obtain ⟨rfl, rfl⟩ := step
                exact .handled found rfl rfl
              · simp only [Option.some.injEq, Prod.mk.injEq] at step
                obtain ⟨rfl, rfl⟩ := step
                exact .handled found rfl rfl
      · simp at step
  | prepare index result =>
      simp only [handlerStep] at step
      split at step
      · next bounded stage =>
          obtain ⟨connection, found, stage⟩ := Option.map_eq_some_iff.mp stage
          cases result with
          | error error =>
              simp only [Option.some.injEq, Prod.mk.injEq] at step
              obtain ⟨rfl, rfl⟩ := step
              exact .handled found (by rw [stage]; rfl) rfl
          | ok =>
              simp only [Option.some.injEq, Prod.mk.injEq] at step
              obtain ⟨rfl, rfl⟩ := step
              exact .handled found (by rw [stage]; rfl) rfl
      · simp at step
  | expire index =>
      simp only [handlerStep] at step
      split at step
      · next stage =>
          obtain ⟨connection, found, stage⟩ := Option.map_eq_some_iff.mp stage
          simp only [Option.some.injEq, Prod.mk.injEq] at step
          obtain ⟨rfl, rfl⟩ := step
          exact .handled found (by rw [stage]; rfl) rfl
      · simp at step
  | failClone index =>
      simp only [handlerStep] at step
      split at step
      · next stage =>
          obtain ⟨connection, found, stage⟩ := Option.map_eq_some_iff.mp stage
          simp only [Option.some.injEq, Prod.mk.injEq] at step
          obtain ⟨rfl, rfl⟩ := step
          exact .handled found (by rw [stage]; rfl) rfl
      · simp at step
  | submit index =>
      simp only [handlerStep] at step
      split at step
      · next ownerIndex request bounded found =>
          cases target : state.owners[ownerIndex]? with
          | none => simp [target] at step
          | some owner =>
              cases refused : owner.slot.dispatcher.refuses with
              | true =>
                  simp only [target, ExecutionDispatcher.trySubmit, refused, if_true,
                    Option.some.injEq, Prod.mk.injEq] at step
                  obtain ⟨rfl, rfl⟩ := step
                  exact .handled found rfl rfl
              | false =>
                  simp only [target, ExecutionDispatcher.trySubmit, refused, if_false,
                    Bool.false_eq_true, Option.some.injEq, Prod.mk.injEq] at step
                  obtain ⟨rfl, rfl⟩ := step
                  refine .accepted _ found rfl target ?_ rfl
                  simp only [ExecutionDispatcher.refuses, Bool.or_eq_false_iff,
                    Option.isSome_eq_false_iff, Option.isNone_iff_eq_none] at refused
                  exact refused.2
      · simp at step
  | _ => simp [handlerStep] at step

/-- Another user of the slot neither brings nor takes a job of this call. -/
theorem waitingJobs_foreign {owner : Owner Response} {slot : SlotState JobSource}
    {action : SlotAction Nat} {translated : SlotAction JobSource}
    {event : SlotEvent JobSource} (foreign : action.foreign = some translated)
    (step : slotStep owner.slot translated = some (event, slot))
    : slot.worker = owner.slot.worker
      ∧ ∀ index,
          ({ owner with slot := slot } : Owner Response).waitingJobs index
          = owner.waitingJobs index := by
  cases action with
  | submit id =>
      obtain rfl := Option.some.inj foreign
      cases refused : owner.slot.dispatcher.refuses with
      | true =>
          simp only [slotStep, ExecutionDispatcher.trySubmit, refused, if_true,
            Option.some.injEq, Prod.mk.injEq] at step
          obtain ⟨-, rfl⟩ := step
          exact ⟨rfl, fun _ => rfl⟩
      | false =>
          simp only [slotStep, ExecutionDispatcher.trySubmit, refused, if_false,
            Bool.false_eq_true, Option.some.injEq, Prod.mk.injEq] at step
          obtain ⟨-, rfl⟩ := step
          simp only [ExecutionDispatcher.refuses, Bool.or_eq_false_iff,
            Option.isSome_eq_false_iff, Option.isNone_iff_eq_none] at refused
          exact ⟨rfl, fun index => by simp [Owner.waitingJobs, refused.2]⟩
  | acquire =>
      obtain rfl := Option.some.inj foreign
      cases refused : owner.slot.dispatcher.refuses with
      | true =>
          simp only [slotStep, ExecutionDispatcher.tryAcquireMaintenance, refused, if_true,
            Option.some.injEq, Prod.mk.injEq] at step
          obtain ⟨-, rfl⟩ := step
          exact ⟨rfl, fun _ => rfl⟩
      | false =>
          simp only [slotStep, ExecutionDispatcher.tryAcquireMaintenance, refused, if_false,
            Bool.false_eq_true, Option.some.injEq, Prod.mk.injEq] at step
          obtain ⟨-, rfl⟩ := step
          exact ⟨rfl, fun _ => rfl⟩
  | dropPermit =>
      obtain rfl := Option.some.inj foreign
      by_cases live : owner.slot.permits = 0
      · simp [slotStep, live] at step
      · simp only [slotStep, live, if_false, Option.some.injEq, Prod.mk.injEq] at step
        obtain ⟨-, rfl⟩ := step
        exact ⟨rfl, fun _ => rfl⟩
  | stop =>
      obtain rfl := Option.some.inj foreign
      simp only [slotStep, Option.some.injEq, Prod.mk.injEq] at step
      obtain ⟨-, rfl⟩ := step
      exact ⟨rfl, fun _ => rfl⟩
  | take => simp [SlotAction.foreign] at foreign
  | finish => simp [SlotAction.foreign] at foreign

/-- Taking a job moves it from the queue to the worker. -/
theorem waitingJobs_take {owner : Owner Response} {slot : SlotState JobSource}
    {event : SlotEvent JobSource} (idle : owner.body = .idle)
    (step : slotStep owner.slot .take = some (event, slot)) (index : Nat)
    : ({ owner with slot := slot } : Owner Response).waitingJobs index
      = owner.waitingJobs index := by
  cases worker : owner.slot.worker with
  | taking =>
      cases queue : owner.slot.dispatcher.state.job with
      | some job =>
          simp only [slotStep, worker, ExecutionDispatcher.take, queue, Option.some.injEq,
            Prod.mk.injEq] at step
          obtain ⟨-, rfl⟩ := step
          simp [Owner.waitingJobs, queue, worker, idle]
      | none =>
          cases stopping : owner.slot.dispatcher.state.stopping with
          | true =>
              simp only [slotStep, worker, ExecutionDispatcher.take, queue, stopping, if_true,
                Option.some.injEq, Prod.mk.injEq] at step
              obtain ⟨-, rfl⟩ := step
              simp [Owner.waitingJobs, worker]
          | false =>
              simp only [slotStep, worker, ExecutionDispatcher.take, queue, stopping, if_false,
                Bool.false_eq_true, Option.some.injEq, Prod.mk.injEq] at step
              obtain ⟨-, rfl⟩ := step
              rfl
  | _ => simp [slotStep, worker] at step

theorem ownerStep_move {state next : CallState Response} {action : CallAction Response}
    {event : CallEvent Response} (step : ownerStep state action = some (event, next))
    : CallMove state event next := by
  cases action with
  | slot index action =>
      simp only [ownerStep] at step
      split at step
      · next owner translated found foreign =>
          obtain ⟨⟨_, slot⟩, moved, same⟩ := Option.map_eq_some_iff.mp step
          obtain ⟨rfl, rfl⟩ := Prod.mk.inj same
          obtain ⟨worker, jobs⟩ := waitingJobs_foreign foreign moved
          refine .slotMoved _ found (fun connection => (jobs connection).le)
            (fun _ same => same) (fun settled job reply body other => ?_)
          exact worker ▸ settled job reply body other
      · simp at step
  | take index =>
      simp only [ownerStep] at step
      split at step
      · next owner found =>
          split at step
          · next idle =>
              obtain ⟨⟨_, slot⟩, moved, same⟩ := Option.map_eq_some_iff.mp step
              obtain ⟨rfl, rfl⟩ := Prod.mk.inj same
              exact .slotMoved _ found
                (fun connection => (waitingJobs_take idle moved connection).le)
                (fun _ same => same) (fun _ job reply body => by simp [idle] at body)
          · simp at step
      · simp at step
  | runBody index result =>
      simp only [ownerStep] at step
      split at step
      · next owner found =>
          split at step
          · next job running idle =>
              split at step
              · simp only [Option.some.injEq, Prod.mk.injEq] at step
                obtain ⟨rfl, rfl⟩ := step
                exact .executed result found running idle
              · next silent =>
                  simp only [Option.some.injEq, Prod.mk.injEq] at step
                  obtain ⟨rfl, rfl⟩ := step
                  refine .slotMoved _ found (fun connection => ?_) (fun reply body => ?_)
                    (fun _ job reply body => by simp at body)
                  · simp [Owner.waitingJobs, running]
                  · cases result <;> simp [BodyResult.executes] at silent
                    simp [WorkerBody.reply?, BodyResult.reply] at body
          · simp at step
      · simp at step
  | finish index =>
      simp only [ownerStep] at step
      split at step
      · next owner found =>
          split at step
          · next job reply _ slot running ran finished =>
              simp only [Option.some.injEq, Prod.mk.injEq] at step
              obtain ⟨rfl, rfl⟩ := step
              simp only [slotStep, running, Option.some.injEq, Prod.mk.injEq] at finished
              obtain ⟨-, rfl⟩ := finished
              refine .slotMoved _ found (fun connection => ?_) (fun reply body => ?_)
                (fun _ _ _ _ other => by simp)
              · simp only [Owner.waitingJobs, ExecutionDispatcher.finishOne, running, ran,
                  Nat.add_zero]
                exact le_rfl
              · rw [ran]
                exact body
          · simp at step
      · simp at step
  | answer index =>
      simp only [ownerStep] at step
      split at step
      · next owner found =>
          split at step
          · next job reply body =>
              simp only [Option.some.injEq, Prod.mk.injEq] at step
              obtain ⟨rfl, rfl⟩ := step
              exact .answered found body
          · simp at step
      · simp at step
  | startOwner version token =>
      simp only [ownerStep, Option.some.injEq, Prod.mk.injEq] at step
      obtain ⟨rfl, rfl⟩ := step
      exact .startedOwner version token
  | _ => simp [ownerStep] at step

theorem callStep_move {state next : CallState Response} {action : CallAction Response}
    {event : CallEvent Response} (step : callStep state action = some (event, next))
    : CallMove state event next := by
  simp only [callStep, Option.or_eq_some_iff] at step
  rcases step with client | ⟨-, handler | ⟨-, owner⟩⟩
  · exact clientStep_move client
  · exact handlerStep_move handler
  · exact ownerStep_move owner

end CodebaseGraph.Coordinator
