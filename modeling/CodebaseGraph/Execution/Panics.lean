import CodebaseGraph.Execution.Progress

/-! What a panicking worker does to the parallel branch of `build_execution_plan`.
A panic loses its index for good, while the surviving workers keep the result channel open, so
the main thread may wait for the lost index forever.
-/

namespace CodebaseGraph.Execution

open CodebaseGraph.Transition CodebaseGraph.Collections

variable {R : Type*}

/-- The parallel branch when building the path at `index` panics exactly if `panics index`.
Every path is built at most once, so each choice of the workers of `buildStep` to panic or not
is that of some `panics`.
-/
def faultyStep (plan : BuildPlan R) (workerCount : Nat) (panics : Nat → Bool)
    : StepFn (BuildState R) BuildAction BuildAction
  | state, .build worker =>
      match state.workers[worker]? with
      | some (.building index) =>
          if panics index then none else buildStep plan workerCount state (.build worker)
      | _ => none
  | state, .panic worker =>
      match state.workers[worker]? with
      | some (.building index) =>
          if panics index then buildStep plan workerCount state (.panic worker) else none
      | _ => none
  | state, action => buildStep plan workerCount state action

/-- The sequential loop over one more path, seen from its end. -/
theorem buildSequentialFrom_succ {plan : BuildPlan R} {count index : Nat}
    {before calls : List (Nat × R)} {start stats : ExecutionPlanStats} {result : R}
    (done : buildSequentialFrom plan count index before start = (calls, .ok stats))
    (built : plan.build (index + count) = .ok result)
    (accepted : plan.consume calls (index + count) result = .ok ())
    : ∃ stats,
        buildSequentialFrom plan (count + 1) index before start
          = (calls ++ [(index + count, result)], .ok stats) := by
  induction count generalizing index before start with
  | zero =>
      simp only [buildSequentialFrom, Prod.mk.injEq] at done
      obtain ⟨rfl, -⟩ := done
      simp only [Nat.add_zero] at built accepted
      simp [buildSequentialFrom, built, accepted]
  | succ count ih =>
      cases first : plan.build index with
      | error error => simp [buildSequentialFrom, first] at done
      | ok value =>
          cases taken : plan.consume before index value with
          | error error => simp [buildSequentialFrom, first, taken] at done
          | ok =>
              simp only [buildSequentialFrom, first, taken] at done
              have shift : index + (count + 1) = index + 1 + count := by omega
              rw [shift] at built accepted ⊢
              obtain ⟨last, whole⟩ := ih done built accepted
              refine ⟨last, ?_⟩
              rw [buildSequentialFrom]
              simp only [first, taken]
              exact whole

-----------------------------------------------------------------------------------------
-- The shadow state, in which a lost index is still being built
-----------------------------------------------------------------------------------------

/-- A worker and its shadow: a panicked worker's shadow still builds the index it lost. -/
inductive Revives (panics : Nat → Bool) : BuildWorker R → BuildWorker R → Prop where
  | same {worker} (live : worker ≠ .panicked) : Revives panics worker worker
  | lost {index} (panicking : panics index = true)
    : Revives panics .panicked (.building index)

/-- A panic-free state that differs from the real one in the panicked workers only. -/
structure Shadow (plan : BuildPlan R) (workerCount : Nat) (panics : Nat → Bool)
    (state : BuildState R) (revived : List (BuildWorker R))
    : Prop where
  invariant : BuildInvariant plan workerCount { state with workers := revived }
  length : state.workers.length = revived.length
  follows
    : ∀ (worker : Nat) value,
        state.workers[worker]? = some value
        → ∃ other, revived[worker]? = some other ∧ Revives panics value other
  kept
    : ∀ index < state.nextDispatch,
        panics index = true → index ∈ state.jobs ∨ .building index ∈ revived
  consumed
    : state.phase.jobsOpen = true
      → ∃ stats, buildSequentialFrom plan state.nextConsume 0 [] {} = (state.calls, .ok stats)

theorem Shadow.same {plan : BuildPlan R} {workerCount worker : Nat} {panics : Nat → Bool}
    {state : BuildState R} {revived : List (BuildWorker R)} {value : BuildWorker R}
    (shadow : Shadow plan workerCount panics state revived)
    (found : state.workers[worker]? = some value) (live : value ≠ .panicked)
    : revived[worker]? = some value := by
  obtain ⟨other, there, revives⟩ := shadow.follows worker value found
  cases revives with
  | same => exact there
  | lost => exact absurd rfl live

/-- Replacing a worker and its shadow keeps all other pairs. -/
theorem Shadow.follows_set {plan : BuildPlan R} {workerCount worker : Nat}
    {panics : Nat → Bool} {state : BuildState R} {revived : List (BuildWorker R)}
    {value other : BuildWorker R} (shadow : Shadow plan workerCount panics state revived)
    (revives : Revives panics value other)
    : ∀ (position : Nat) item,
        (state.workers.set worker value)[position]? = some item
        → ∃ ghost,
            (revived.set worker other)[position]? = some ghost
            ∧ Revives panics item ghost := by
  intro position item found
  by_cases here : worker = position
  · subst here
    have inside : worker < state.workers.length := by
      by_contra outside
      rw [List.set_eq_of_length_le (by omega)] at found
      rw [List.getElem?_eq_none (by omega)] at found
      simp at found
    rw [List.getElem?_set_self inside, Option.some.injEq] at found
    subst found
    exact ⟨other, List.getElem?_set_self (shadow.length ▸ inside), revives⟩
  · rw [List.getElem?_set_ne here] at found
    rw [List.getElem?_set_ne here]
    exact shadow.follows position item found

/-- A worker that is not building a panicking path is replaced without losing an index. -/
theorem Shadow.kept_set {plan : BuildPlan R} {workerCount worker : Nat}
    {panics : Nat → Bool} {state : BuildState R} {revived : List (BuildWorker R)}
    {value other : BuildWorker R} (shadow : Shadow plan workerCount panics state revived)
    (found : revived[worker]? = some value)
    (free : ∀ index, value = .building index → panics index = false)
    : ∀ index < state.nextDispatch,
        panics index = true
        → index ∈ state.jobs ∨ .building index ∈ revived.set worker other := by
  intro index dispatched panicking
  refine (shadow.kept index dispatched panicking).imp_right ?_
  intro held
  obtain ⟨position, there⟩ := List.mem_iff_getElem?.mp held
  by_cases here : worker = position
  · subst here
    rw [found, Option.some.injEq] at there
    simp [free index there] at panicking
  · exact List.mem_of_getElem? ((List.getElem?_set_ne here).trans there)

/-- A worker step of the real state is one of its shadow, and a panic leaves the shadow alone.
-/
theorem Shadow.workerStep {plan : BuildPlan R} {workerCount : Nat} {panics : Nat → Bool}
    {state next : BuildState R} {revived : List (BuildWorker R)} {action event : BuildAction}
    (shadow : Shadow plan workerCount panics state revived) (aside : action ≠ .main)
    (step : faultyStep plan workerCount panics state action = some (event, next))
    : ∃ revived, Shadow plan workerCount panics next revived := by
  cases action with
  | main => exact absurd rfl aside
  | receive worker =>
      simp only [faultyStep, buildStep, Execution.workerStep, Option.map_eq_some_iff,
        Prod.mk.injEq] at step
      obtain ⟨_, moved, -, rfl⟩ := step
      split at moved
      · next index rest found queue =>
          obtain rfl := Option.some.inj moved
          have there := shadow.same found (by simp)
          refine ⟨revived.set worker (.building index), ?_, by simp [shadow.length],
            shadow.follows_set (.same (by simp)), ?_, shadow.consumed⟩
          · refine shadow.invariant.workerStep (.receive worker) ?_ (by simp)
            simp [Execution.workerStep, there, queue]
          · intro other dispatched panicking
            have inside : worker < revived.length := (List.getElem?_eq_some_iff.mp there).1
            rcases shadow.kept_set there (by simp) other dispatched panicking with queued | held
            · rw [queue] at queued
              rcases List.mem_cons.mp queued with rfl | waits
              · exact Or.inr (List.mem_set inside _)
              · exact Or.inl waits
            · exact Or.inr held
      · next found queue =>
          split at moved
          · simp at moved
          · next closed =>
              obtain rfl := Option.some.inj moved
              have there := shadow.same found (by simp)
              refine ⟨revived.set worker .exited, ?_, by simp [shadow.length],
                shadow.follows_set (.same (by simp)), shadow.kept_set there (by simp),
                shadow.consumed⟩
              refine shadow.invariant.workerStep (.receive worker) ?_ (by simp)
              simp [Execution.workerStep, there, queue, closed]
      · simp at moved
  | build worker =>
      simp only [faultyStep] at step
      split at step
      · next index found =>
          split at step
          · simp at step
          · next calm =>
              simp only [buildStep, Execution.workerStep, found, Option.map_some,
                Option.some.injEq, Prod.mk.injEq] at step
              obtain ⟨-, rfl⟩ := step
              have there := shadow.same found (by simp)
              refine ⟨revived.set worker (.delivering index (plan.build index)), ?_,
                by simp [shadow.length], shadow.follows_set (.same (by simp)),
                shadow.kept_set there ?_, shadow.consumed⟩
              · refine shadow.invariant.workerStep (.build worker) ?_ (by simp)
                simp [Execution.workerStep, there]
              · intro other equal
                obtain rfl : index = other := by simpa using equal
                simpa using calm
      · simp at step
  | deliver worker =>
      simp only [faultyStep, buildStep, Execution.workerStep, Option.map_eq_some_iff,
        Prod.mk.injEq] at step
      obtain ⟨_, moved, -, rfl⟩ := step
      split at moved
      · next index result found =>
          split at moved
          · next room =>
              obtain rfl := Option.some.inj moved
              have there := shadow.same found (by simp)
              refine ⟨revived.set worker .waiting, ?_, by simp [shadow.length],
                shadow.follows_set (.same (by simp)), shadow.kept_set there (by simp),
                shadow.consumed⟩
              refine shadow.invariant.workerStep (.deliver worker) ?_ (by simp)
              simp [Execution.workerStep, there, room]
          · simp at moved
      · simp at moved
  | panic worker =>
      simp only [faultyStep] at step
      split at step
      · next index found =>
          split at step
          · next panicking =>
              simp only [buildStep, Execution.workerStep, found, Option.map_some,
                Option.some.injEq, Prod.mk.injEq] at step
              obtain ⟨-, rfl⟩ := step
              have there := shadow.same found (by simp)
              have unchanged : revived.set worker (.building index) = revived := by
                obtain ⟨inside, held⟩ := List.getElem?_eq_some_iff.mp there
                rw [← held, List.set_getElem_self]
              refine ⟨revived, shadow.invariant, by simp [shadow.length], ?_, shadow.kept,
                shadow.consumed⟩
              have pairs
                  : ∀ (position : Nat) item,
                      (state.workers.set worker .panicked)[position]? = some item
                      → ∃ ghost,
                          (revived.set worker (.building index))[position]? = some ghost
                          ∧ Revives panics item ghost :=
                shadow.follows_set (.lost panicking)
              rwa [unchanged] at pairs
          · simp at step
      · simp at step

/-- An open main thread does the same in both states, but for the closed result channel that
only the real state can see.
-/
theorem mainStep_revived {plan : BuildPlan R} {workerCount : Nat} {state next : BuildState R}
    (revived : List (BuildWorker R)) (opened : state.phase.jobsOpen = true)
    (step : mainStep plan workerCount state = some next)
    : next.workers = state.workers
      ∧ ((next.phase.jobsOpen = false ∧ next.workers.all BuildWorker.ended = true)
        ∨ mainStep plan workerCount { state with workers := revived }
            = some { next with workers := revived }) := by
  cases phase : state.phase with
  | dispatching index =>
      simp only [mainStep, phase] at step ⊢
      split at step
      · split at step
        · obtain rfl := Option.some.inj step
          exact ⟨rfl, Or.inr (by simp_all)⟩
        · simp at step
      · obtain rfl := Option.some.inj step
        exact ⟨rfl, Or.inr (by simp_all)⟩
  | receiving =>
      simp only [mainStep, phase] at step ⊢
      split at step
      · split at step
        · next index result rest queue =>
            obtain rfl := Option.some.inj step
            simp only [storeResult]
            split <;> exact ⟨rfl, Or.inr (by simp_all)⟩
        · split at step
          · next ended =>
              obtain rfl := Option.some.inj step
              exact ⟨rfl, Or.inl ⟨rfl, ended⟩⟩
          · simp at step
      · obtain rfl := Option.some.inj step
        exact ⟨rfl, Or.inr (by simp_all)⟩
  | draining =>
      simp only [mainStep, phase] at step ⊢
      split at step
      · next result found =>
          obtain rfl := Option.some.inj step
          cases result with
          | error error => exact ⟨rfl, Or.inr rfl⟩
          | ok value =>
              cases accepted : plan.consume state.calls state.nextConsume value with
              | error error => simp [consumeHead, accepted]
              | ok => simp [consumeHead, accepted]
      · obtain rfl := Option.some.inj step
        exact ⟨rfl, Or.inr (by simp_all)⟩
  | refilling =>
      simp only [mainStep, phase] at step ⊢
      split at step
      · split at step
        · obtain rfl := Option.some.inj step
          exact ⟨rfl, Or.inr (by simp_all [afterRefill])⟩
        · simp at step
      · obtain rfl := Option.some.inj step
        exact ⟨rfl, Or.inr (by simp_all [afterRefill])⟩
  | closing outcome => simp [phase, BuildPhase.jobsOpen] at opened
  | returned outcome => simp [phase, BuildPhase.jobsOpen] at opened

/-- The main thread adds an index to the jobs exactly when it counts it as dispatched. -/
theorem mainStep_jobs {plan : BuildPlan R} {workerCount : Nat} {state next : BuildState R}
    (step : mainStep plan workerCount state = some next)
    (dispatch : ∀ index, state.phase = .dispatching index → index = state.nextDispatch)
    : next.jobs = state.jobs ∧ next.nextDispatch = state.nextDispatch
      ∨ next.jobs = state.jobs ++ [state.nextDispatch]
        ∧ next.nextDispatch = state.nextDispatch + 1 := by
  cases phase : state.phase with
  | dispatching index =>
      obtain rfl := dispatch index phase
      simp only [mainStep, phase] at step
      split at step
      · split at step
        · obtain rfl := Option.some.inj step
          exact Or.inr ⟨rfl, rfl⟩
        · simp at step
      · obtain rfl := Option.some.inj step
        exact Or.inl ⟨rfl, rfl⟩
  | receiving =>
      simp only [mainStep, phase] at step
      split at step
      · split at step
        · obtain rfl := Option.some.inj step
          simp only [storeResult]
          split <;> exact Or.inl ⟨rfl, rfl⟩
        · split at step
          · obtain rfl := Option.some.inj step
            exact Or.inl ⟨rfl, rfl⟩
          · simp at step
      · obtain rfl := Option.some.inj step
        exact Or.inl ⟨rfl, rfl⟩
  | draining =>
      simp only [mainStep, phase] at step
      split at step
      · next result found =>
          obtain rfl := Option.some.inj step
          cases result with
          | error error => exact Or.inl ⟨rfl, rfl⟩
          | ok value =>
              cases accepted : plan.consume state.calls state.nextConsume value <;>
                simp [consumeHead, accepted]
      · obtain rfl := Option.some.inj step
        exact Or.inl ⟨rfl, rfl⟩
  | refilling =>
      simp only [mainStep, phase] at step
      split at step
      · split at step
        · obtain rfl := Option.some.inj step
          exact Or.inr ⟨rfl, rfl⟩
        · simp at step
      · obtain rfl := Option.some.inj step
        exact Or.inl ⟨rfl, rfl⟩
  | closing outcome =>
      simp only [mainStep, phase] at step
      split at step
      · obtain rfl := Option.some.inj step
        exact Or.inl ⟨rfl, rfl⟩
      · simp at step
  | returned outcome => simp [mainStep, phase] at step

/-- While the loop goes on, it has consumed what the sequential loop consumes first. -/
theorem BuildInvariant.mainStep_consumed {plan : BuildPlan R} {workerCount : Nat}
    {state next : BuildState R} (holds : BuildInvariant plan workerCount state)
    (consumed
      : ∃ stats,
          buildSequentialFrom plan state.nextConsume 0 [] {} = (state.calls, .ok stats))
    (step : Execution.mainStep plan workerCount state = some next)
    (opened : next.phase.jobsOpen = true)
    : ∃ stats, buildSequentialFrom plan next.nextConsume 0 [] {} = (next.calls, .ok stats) := by
  cases phase : state.phase with
  | dispatching index =>
      simp only [Execution.mainStep, phase] at step
      split at step
      · split at step
        · obtain rfl := Option.some.inj step
          exact consumed
        · simp at step
      · obtain rfl := Option.some.inj step
        exact consumed
  | receiving =>
      simp only [Execution.mainStep, phase] at step
      split at step
      · split at step
        · obtain rfl := Option.some.inj step
          simp only [storeResult]
          split <;> exact consumed
        · split at step
          · obtain rfl := Option.some.inj step
            exact consumed
          · simp at step
      · obtain rfl := Option.some.inj step
        exact consumed
  | draining =>
      have facts := holds.phase
      rw [phase] at facts
      obtain ⟨-, -, slots, -⟩ := facts
      simp only [Execution.mainStep, phase] at step
      split at step
      · next result found =>
          obtain ⟨built, -, -⟩ := slots.head_result holds found
          obtain rfl := Option.some.inj step
          cases result with
          | error error => simp [consumeHead, BuildPhase.jobsOpen] at opened
          | ok value =>
              cases accepted : plan.consume state.calls state.nextConsume value with
              | error error => simp [consumeHead, accepted, BuildPhase.jobsOpen] at opened
              | ok =>
                  obtain ⟨stats, done⟩ := consumed
                  simp only [consumeHead, accepted]
                  obtain ⟨last, whole⟩ := buildSequentialFrom_succ done
                    (by rw [Nat.zero_add]; exact built.symm)
                    (by rw [Nat.zero_add]; exact accepted)
                  rw [Nat.zero_add] at whole
                  exact ⟨last, whole⟩
      · obtain rfl := Option.some.inj step
        exact consumed
  | refilling =>
      simp only [Execution.mainStep, phase] at step
      split at step
      · split at step
        · obtain rfl := Option.some.inj step
          exact consumed
        · simp at step
      · obtain rfl := Option.some.inj step
        exact consumed
  | closing outcome =>
      simp only [Execution.mainStep, phase] at step
      split at step
      · obtain rfl := Option.some.inj step
        simp [BuildPhase.jobsOpen] at opened
      · simp at step
  | returned outcome => simp [Execution.mainStep, phase] at step

-----------------------------------------------------------------------------------------
-- Every run keeps a shadow until all of its threads have ended
-----------------------------------------------------------------------------------------

/-- The invariant of every run with panics. -/
def Survives (plan : BuildPlan R) (workerCount : Nat) (panics : Nat → Bool)
    (state : BuildState R)
    : Prop :=
  (∃ revived, Shadow plan workerCount panics state revived)
  ∨ (state.phase.jobsOpen = false ∧ state.workers.all BuildWorker.ended = true)

theorem Shadow.mainStep {plan : BuildPlan R} {workerCount : Nat} {panics : Nat → Bool}
    {state next : BuildState R} {revived : List (BuildWorker R)}
    (shadow : Shadow plan workerCount panics state revived) (positive : 0 < workerCount)
    (step : Execution.mainStep plan workerCount state = some next)
    : Survives plan workerCount panics next := by
  cases opened : state.phase.jobsOpen with
  | false =>
      cases phase : state.phase with
      | closing outcome =>
          simp only [Execution.mainStep, phase] at step
          split at step
          · next ended =>
              obtain rfl := Option.some.inj step
              exact Or.inr ⟨rfl, ended⟩
          · simp at step
      | returned outcome => simp [Execution.mainStep, phase] at step
      | _ => simp [phase, BuildPhase.jobsOpen] at opened
  | true =>
      obtain ⟨workers, closed | follows⟩ := mainStep_revived revived opened step
      · exact Or.inr closed
      · refine Or.inl ⟨revived, shadow.invariant.mainStep positive follows,
          workers ▸ shadow.length, workers ▸ shadow.follows, ?_, ?_⟩
        · intro index dispatched panicking
          have reached (index : Nat) (phase : state.phase = .dispatching index)
              : index = state.nextDispatch := by
            have facts := shadow.invariant.phase
            simp only [phase] at facts
            exact facts.1
          rcases mainStep_jobs step reached with ⟨jobs, dispatch⟩ | ⟨jobs, dispatch⟩
          · rw [jobs]
            exact shadow.kept index (dispatch ▸ dispatched) panicking
          · rw [jobs, List.mem_append, List.mem_singleton]
            by_cases newest : index = state.nextDispatch
            · exact Or.inl (Or.inr newest)
            · exact (shadow.kept index (by omega) panicking).imp_left Or.inl
        · intro stays
          have carried := shadow.invariant.mainStep_consumed (shadow.consumed opened) follows
          exact carried stays

/-- An ended worker takes no step. -/
theorem faultyStep_ended {plan : BuildPlan R} {workerCount : Nat} {panics : Nat → Bool}
    {state next : BuildState R} {action event : BuildAction}
    (ended : state.workers.all BuildWorker.ended = true) (aside : action ≠ .main)
    (step : faultyStep plan workerCount panics state action = some (event, next))
    : False := by
  have idle (worker : Nat) (value : BuildWorker R) (found : state.workers[worker]? = some value)
      : value.ended = true :=
    List.all_eq_true.mp ended value (List.mem_of_getElem? found)
  cases action with
  | main => exact aside rfl
  | receive worker =>
      simp only [faultyStep, buildStep, workerStep] at step
      split at step
      · next found _ => simpa [BuildWorker.ended] using idle _ _ found
      · next found _ => simpa [BuildWorker.ended] using idle _ _ found
      · simp at step
  | build worker =>
      simp only [faultyStep] at step
      split at step
      · next found => simpa [BuildWorker.ended] using idle _ _ found
      · simp at step
  | deliver worker =>
      simp only [faultyStep, buildStep, workerStep] at step
      split at step
      · next found => simpa [BuildWorker.ended] using idle _ _ found
      · simp at step
  | panic worker =>
      simp only [faultyStep] at step
      split at step
      · next found => simpa [BuildWorker.ended] using idle _ _ found
      · simp at step

theorem Survives.step {plan : BuildPlan R} {workerCount : Nat} {panics : Nat → Bool}
    {state next : BuildState R} {action event : BuildAction}
    (survives : Survives plan workerCount panics state) (positive : 0 < workerCount)
    (step : faultyStep plan workerCount panics state action = some (event, next))
    : Survives plan workerCount panics next := by
  by_cases main : action = .main
  · subst main
    simp only [faultyStep, buildStep, Option.map_eq_some_iff, Prod.mk.injEq] at step
    obtain ⟨_, moved, -, rfl⟩ := step
    rcases survives with ⟨revived, shadow⟩ | ⟨closed, ended⟩
    · exact shadow.mainStep positive moved
    · cases phase : state.phase with
      | closing outcome =>
          simp only [mainStep, phase, ended, if_true, Option.some.injEq] at moved
          subst moved
          exact Or.inr ⟨rfl, ended⟩
      | returned outcome => simp [mainStep, phase] at moved
      | _ => simp [phase, BuildPhase.jobsOpen] at closed
  · rcases survives with ⟨revived, shadow⟩ | ⟨closed, ended⟩
    · exact Or.inl (shadow.workerStep main step)
    · exact (faultyStep_ended ended main step).elim

/-- An unfinished worker with something to do can take a step, be it a panic. -/
theorem Shadow.worker_enabled {plan : BuildPlan R} {workerCount worker : Nat}
    {panics : Nat → Bool} {state : BuildState R} {revived : List (BuildWorker R)}
    {value : BuildWorker R} (shadow : Shadow plan workerCount panics state revived)
    (found : state.workers[worker]? = some value) (live : value.ended = false)
    (busy : value ≠ .waiting ∨ state.jobs ≠ [] ∨ state.phase.jobsOpen = false)
    : ∃ action, (faultyStep plan workerCount panics state action).isSome := by
  have there : revived[worker]? = some value := by
    refine shadow.same found ?_
    intro panicked
    simp [panicked, BuildWorker.ended] at live
  cases value with
  | building index =>
      cases panicking : panics index with
      | true =>
          exact ⟨.panic worker, by simp [faultyStep, buildStep, Execution.workerStep, found,
            panicking]⟩
      | false =>
          exact ⟨.build worker, by simp [faultyStep, buildStep, Execution.workerStep, found,
            panicking]⟩
  | delivering index result =>
      have room : state.results.length < workerCount := by
        have bound := shadow.invariant.pending_length
        have here : index ∈ revived.filterMap BuildWorker.index? :=
          List.mem_filterMap.mpr ⟨_, List.mem_of_getElem? there, rfl⟩
        have count := List.length_pos_of_mem here
        simp only [BuildState.pending, List.length_append, List.length_map] at bound
        omega
      exact ⟨.deliver worker, by simp [faultyStep, buildStep, Execution.workerStep, found,
        room]⟩
  | waiting =>
      cases queue : state.jobs with
      | cons index rest =>
          exact ⟨.receive worker, by simp [faultyStep, buildStep, Execution.workerStep, found,
            queue]⟩
      | nil =>
          have closed : state.phase.jobsOpen = false := by simpa [queue] using busy
          exact ⟨.receive worker, by simp [faultyStep, buildStep, Execution.workerStep, found,
            queue, closed]⟩
  | exited => simp [BuildWorker.ended] at live
  | panicked => simp [BuildWorker.ended] at live

end CodebaseGraph.Execution
