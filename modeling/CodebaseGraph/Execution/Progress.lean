import CodebaseGraph.Execution.Ordering

/-! No panic-free schedule of `build_execution_plan` blocks or runs forever, so every one of
them ends with the sequential calls of `consume` and the sequential outcome.
-/

namespace CodebaseGraph.Execution

open CodebaseGraph.Transition CodebaseGraph.Collections

variable {R : Type*}

/-- An unfinished worker, or the main thread in its place, can take a step: a delivery is
blocked only by a full result channel, which only an open receiving phase leaves full.
-/
theorem BuildInvariant.worker_enabled {plan : BuildPlan R} {workerCount worker : Nat}
    {state : BuildState R} {value : BuildWorker R}
    (holds : BuildInvariant plan workerCount state)
    (found : state.workers[worker]? = some value) (live : value.ended = false)
    (busy : value ≠ .waiting ∨ state.jobs ≠ [] ∨ state.phase.jobsOpen = false)
    : ∃ action,
        (∀ other, action ≠ .panic other)
        ∧ (buildStep plan workerCount state action).isSome := by
  cases value with
  | exited => simp [BuildWorker.ended] at live
  | panicked => simp [BuildWorker.ended] at live
  | building index =>
      exact ⟨.build worker, by simp, by simp [buildStep, Execution.workerStep, found]⟩
  | delivering index result =>
      have room : state.results.length < workerCount := by
        have bound := holds.pending_length
        have here : index ∈ state.workers.filterMap BuildWorker.index? :=
          List.mem_filterMap.mpr ⟨_, List.mem_of_getElem? found, rfl⟩
        have count := List.length_pos_of_mem here
        simp only [BuildState.pending, List.length_append, List.length_map] at bound
        omega
      exact ⟨.deliver worker, by simp, by simp [buildStep, Execution.workerStep, found, room]⟩
  | waiting =>
      cases queue : state.jobs with
      | cons index rest =>
          exact ⟨.receive worker, by simp, by simp [buildStep, Execution.workerStep, found, queue]⟩
      | nil =>
          have closed : state.phase.jobsOpen = false := by simpa [queue] using busy
          exact ⟨.receive worker, by simp,
            by simp [buildStep, Execution.workerStep, found, queue, closed]⟩

/-- While an index is still a job or with a worker, some worker can move. -/
theorem BuildInvariant.pending_enabled {plan : BuildPlan R} {workerCount : Nat}
    {state : BuildState R} (holds : BuildInvariant plan workerCount state)
    (positive : 0 < workerCount) (opened : state.phase.jobsOpen = true)
    (outstanding : state.jobs ≠ [] ∨ state.workers.filterMap BuildWorker.index? ≠ [])
    : ∃ action,
        (∀ other, action ≠ .panic other)
        ∧ (buildStep plan workerCount state action).isSome := by
  rcases outstanding with queued | held
  · have someWorker : 0 < state.workers.length := by rw [holds.workers]; exact positive
    obtain ⟨value, found⟩ : ∃ value, state.workers[0]? = some value :=
      ⟨_, List.getElem?_eq_getElem someWorker⟩
    exact holds.worker_enabled found
      (holds.alive opened value (List.mem_of_getElem? found)) (Or.inr (Or.inl queued))
  · obtain ⟨index, member⟩ := List.exists_mem_of_ne_nil _ held
    obtain ⟨value, inside, image⟩ := List.mem_filterMap.mp member
    obtain ⟨worker, found⟩ := List.mem_iff_getElem?.mp inside
    refine holds.worker_enabled found (holds.alive opened value inside) (Or.inl ?_)
    rintro rfl
    simp [BuildWorker.index?] at image

/-- No panic-free schedule gets stuck before the call returns. -/
theorem BuildInvariant.enabled {plan : BuildPlan R} {workerCount : Nat}
    {state : BuildState R} (holds : BuildInvariant plan workerCount state)
    (positive : 0 < workerCount) (unfinished : ∀ outcome, state.phase ≠ .returned outcome)
    : ∃ action,
        (∀ worker, action ≠ .panic worker)
        ∧ (buildStep plan workerCount state action).isSome := by
  by_cases free : ∃ next, Execution.mainStep plan workerCount state = some next
  · obtain ⟨next, step⟩ := free
    exact ⟨.main, by simp, by simp [buildStep, step]⟩
  have blocked : Execution.mainStep plan workerCount state = none := by
    cases main : Execution.mainStep plan workerCount state with
    | none => rfl
    | some next => exact absurd ⟨next, main⟩ free
  -- A blocked main thread waits for room in the job channel, for a result, or for workers.
  cases phase : state.phase with
  | returned outcome => exact absurd phase (unfinished outcome)
  | draining =>
      simp only [Execution.mainStep, phase] at blocked
      split at blocked <;> simp at blocked
  | dispatching index =>
      refine holds.pending_enabled positive (by rw [phase]; rfl) (Or.inl ?_)
      rintro empty
      simp [Execution.mainStep, phase, empty, positive] at blocked
      split at blocked <;> simp at blocked
  | refilling =>
      refine holds.pending_enabled positive (by rw [phase]; rfl) (Or.inl ?_)
      rintro empty
      simp [Execution.mainStep, phase, empty, positive] at blocked
      split at blocked <;> simp at blocked
  | receiving =>
      have facts := holds.phase
      rw [phase] at facts
      by_cases more : state.nextConsume < plan.pathCount
      · have member := facts.2.1 more
        cases queue : state.results with
        | cons entry rest => simp [Execution.mainStep, phase, more, queue] at blocked
        | nil =>
            simp only [BuildState.pending, queue, List.map_nil, List.append_nil,
              List.mem_append] at member
            exact holds.pending_enabled positive (by rw [phase]; rfl)
              (member.imp List.ne_nil_of_mem List.ne_nil_of_mem)
      · simp [Execution.mainStep, phase, more] at blocked
  | closing outcome =>
      have unended : state.workers.all BuildWorker.ended = false := by
        cases ended : state.workers.all BuildWorker.ended with
        | false => rfl
        | true => simp [Execution.mainStep, phase, ended] at blocked
      obtain ⟨value, inside, live⟩ := List.all_eq_false.mp unended
      obtain ⟨worker, found⟩ := List.mem_iff_getElem?.mp inside
      exact holds.worker_enabled found (by simpa using live)
        (Or.inr (Or.inr (by rw [phase]; rfl)))

/-- The work a worker still has to do, counted in steps. -/
def BuildWorker.effort : BuildWorker R → Nat
  | .waiting => 1
  | .building _ => 9
  | .delivering _ _ => 8
  | .exited | .panicked => 0

def BuildPhase.effort : BuildPhase → Nat
  | .dispatching _ => 5
  | .refilling => 4
  | .draining => 3
  | .receiving => 2
  | .closing _ => 1
  | .returned _ => 0

/-- An upper bound on the steps left: every item is dispatched, built, delivered, stored and
consumed once, and every thread ends once.
-/
def BuildState.effort (plan : BuildPlan R) (state : BuildState R) : Nat :=
  state.phase.effort + 11 * (plan.pathCount - state.nextDispatch) + 10 * state.jobs.length
    + (state.workers.map BuildWorker.effort).sum + 6 * state.results.length
    + 3 * state.resultSlots.countP Option.isSome

/-- Replacing a slot changes the number of occupied slots accordingly. -/
theorem countP_set {α : Type*} (test : α → Bool) {list : List α} {index : Nat} {found : α}
    (other : α) (lookup : list[index]? = some found)
    : (list.set index other).countP test + (if test found then 1 else 0)
      = list.countP test + (if test other then 1 else 0) := by
  obtain ⟨before, after, rfl, replaced⟩ := exists_split_of_getElem? lookup
  rw [replaced]
  simp only [List.countP_append, List.countP_cons]
  omega

theorem mainStep_effort {plan : BuildPlan R} {workerCount : Nat} {state next : BuildState R}
    (step : mainStep plan workerCount state = some next)
    (dispatch : ∀ index, state.phase = .dispatching index → index = state.nextDispatch)
    : next.effort plan < state.effort plan := by
  cases phase : state.phase with
  | dispatching index =>
      have reached := dispatch index phase
      subst reached
      by_cases more : state.nextDispatch < min workerCount plan.pathCount
      · by_cases room : state.jobs.length < workerCount
        · simp only [mainStep, phase, more, room, if_true, Option.some.injEq] at step
          subst next
          simp only [BuildState.effort, phase, BuildPhase.effort, List.length_append,
            List.length_singleton]
          omega
        · simp [mainStep, phase, more, room] at step
      · simp only [mainStep, phase, more, if_false, Option.some.injEq] at step
        subst next
        simp only [BuildState.effort, phase, BuildPhase.effort]
        omega
  | receiving =>
      by_cases more : state.nextConsume < plan.pathCount
      · cases queue : state.results with
        | nil =>
            by_cases ended : state.workers.all BuildWorker.ended
            · simp only [mainStep, phase, more, queue, ended, if_true,
                Option.some.injEq] at step
              subst next
              simp only [BuildState.effort, phase, BuildPhase.effort, queue]
              omega
            · simp [mainStep, phase, more, queue, ended] at step
        | cons entry rest =>
            obtain ⟨index, result⟩ := entry
            simp only [mainStep, phase, more, queue, if_true, Option.some.injEq,
              storeResult] at step
            split at step
            · next empty =>
                subst next
                have counted := countP_set Option.isSome (some result) empty
                simp only [Option.isSome_none, Option.isSome_some, Bool.false_eq_true,
                  if_false, if_true] at counted
                simp only [BuildState.effort, phase, BuildPhase.effort, queue,
                  List.length_cons]
                omega
            · subst next
              simp only [BuildState.effort, phase, BuildPhase.effort, queue,
                List.length_cons]
              omega
      · simp only [mainStep, phase, more, if_false, Option.some.injEq] at step
        subst next
        simp only [BuildState.effort, phase, BuildPhase.effort]
        omega
  | draining =>
      simp only [mainStep, phase] at step
      split at step
      · next result found =>
          have counted := countP_set Option.isSome (none : Option (Except NativeError R)) found
          simp only [Option.isSome_none, Option.isSome_some, Bool.false_eq_true, if_false,
            if_true] at counted
          cases result with
          | error error =>
              simp only [consumeHead, Option.some.injEq] at step
              subst next
              simp only [BuildState.effort, phase, BuildPhase.effort]
              omega
          | ok value =>
              cases accepted : plan.consume state.calls state.nextConsume value <;>
                simp only [consumeHead, accepted, Option.some.injEq] at step <;>
                subst next <;>
                simp only [BuildState.effort, phase, BuildPhase.effort] <;>
                omega
      · simp only [Option.some.injEq] at step
        subst next
        simp only [BuildState.effort, phase, BuildPhase.effort]
        omega
  | refilling =>
      have settles (target : BuildState R)
          : (afterRefill plan target).effort plan + target.phase.effort
            ≤ target.effort plan + 3 := by
        by_cases last : target.nextConsume = plan.pathCount <;>
          simp only [afterRefill, BuildState.effort, last, if_true, if_false,
            BuildPhase.effort] <;>
          omega
      by_cases more : state.nextDispatch < plan.pathCount
      · by_cases room : state.jobs.length < workerCount
        · simp only [mainStep, phase, more, room, if_true, Option.some.injEq] at step
          subst next
          refine Nat.lt_of_add_lt_add_right (lt_of_le_of_lt (settles _) ?_)
          simp only [BuildState.effort, phase, BuildPhase.effort, List.length_append,
            List.length_singleton]
          omega
        · simp [mainStep, phase, more, room] at step
      · simp only [mainStep, phase, more, if_false, Option.some.injEq] at step
        subst next
        have bound := settles state
        simp only [phase, BuildPhase.effort] at bound
        omega
  | closing outcome =>
      by_cases ended : state.workers.all BuildWorker.ended
      · simp only [mainStep, phase, ended, if_true, Option.some.injEq] at step
        subst next
        simp only [BuildState.effort, phase, BuildPhase.effort]
        omega
      · simp [mainStep, phase, ended] at step
  | returned outcome => simp [mainStep, phase] at step

/-- Every worker step, a panic included, uses up some of the remaining work. -/
theorem workerStep_effort {plan : BuildPlan R} {workerCount : Nat}
    {state next : BuildState R} {action : BuildAction}
    (step : workerStep plan workerCount state action = some next)
    : next.effort plan < state.effort plan := by
  cases action with
  | main => simp [workerStep] at step
  | receive worker =>
      simp only [workerStep] at step
      split at step
      · next index rest found queue =>
          have weighed := sum_map_set BuildWorker.effort (.building index) found
          simp only [Option.some.injEq] at step
          subst next
          simp only [BuildWorker.effort] at weighed
          simp only [BuildState.effort, queue, List.length_cons]
          omega
      · next found queue =>
          have weighed := sum_map_set BuildWorker.effort .exited found
          split at step
          · simp at step
          · simp only [Option.some.injEq] at step
            subst next
            simp only [BuildWorker.effort] at weighed
            simp only [BuildState.effort]
            omega
      · simp at step
  | build worker =>
      simp only [workerStep] at step
      split at step
      · next index found =>
          have weighed := sum_map_set BuildWorker.effort
            (.delivering index (plan.build index)) found
          simp only [Option.some.injEq] at step
          subst next
          simp only [BuildWorker.effort] at weighed
          simp only [BuildState.effort]
          omega
      · simp at step
  | deliver worker =>
      simp only [workerStep] at step
      split at step
      · next index result found =>
          have weighed := sum_map_set BuildWorker.effort .waiting found
          split at step
          · simp only [Option.some.injEq] at step
            subst next
            simp only [BuildWorker.effort] at weighed
            simp only [BuildState.effort, List.length_append, List.length_singleton]
            omega
          · simp at step
      · simp at step
  | panic worker =>
      simp only [workerStep] at step
      split at step
      · next index found =>
          have weighed := sum_map_set BuildWorker.effort .panicked found
          simp only [Option.some.injEq] at step
          subst next
          simp only [BuildWorker.effort] at weighed
          simp only [BuildState.effort]
          omega
      · simp at step

/-- One scheduled step from a state that satisfies the invariant uses up some work. -/
theorem BuildInvariant.effort_decreases {plan : BuildPlan R} {workerCount : Nat}
    {state next : BuildState R} {action event : BuildAction}
    (holds : BuildInvariant plan workerCount state)
    (step : buildStep plan workerCount state action = some (event, next))
    : next.effort plan < state.effort plan := by
  have dispatch (index : Nat) (phase : state.phase = .dispatching index)
      : index = state.nextDispatch := by
    have facts := holds.phase
    rw [phase] at facts
    exact facts.1
  cases action with
  | main =>
      simp only [buildStep, Option.map_eq_some_iff, Prod.mk.injEq] at step
      obtain ⟨_, moved, rfl, rfl⟩ := step
      exact mainStep_effort moved dispatch
  | _ =>
      simp only [buildStep, Option.map_eq_some_iff, Prod.mk.injEq] at step
      obtain ⟨_, moved, rfl, rfl⟩ := step
      exact workerStep_effort moved

/-- A panic-free schedule takes no more steps than the initial effort. -/
theorem trace_length_of_run {plan : BuildPlan R} {workerCount : Nat}
    {trace : List BuildAction} {state : BuildState R} (positive : 0 < workerCount)
    (run : Run (buildStep plan workerCount) (BuildState.initial workerCount) trace state)
    (calm : ∀ worker, BuildAction.panic worker ∉ trace)
    : trace.length + state.effort plan
      ≤ (BuildState.initial workerCount : BuildState R).effort plan := by
  induction run with
  | nil => simp
  | @snoc trace mid last event run action next ih =>
      have calmBefore (worker : Nat) : BuildAction.panic worker ∉ trace :=
        fun member => calm worker (List.mem_append_left _ member)
      have before := buildInvariant_of_run positive run calmBefore
      have bound := ih calmBefore
      have smaller := before.effort_decreases next
      rw [List.length_append, List.length_singleton]
      omega

/-- In every phase the calls made so far are the first calls of the sequential loop. -/
theorem BuildInvariant.calls_prefix {plan : BuildPlan R} {workerCount : Nat}
    {state : BuildState R} (holds : BuildInvariant plan workerCount state)
    : state.calls <+: (buildSequential plan).1 := by
  have behind (ahead : resumed plan state = observed (buildSequential plan))
      : state.calls <+: (buildSequential plan).1 := by
    have extended := calls_prefix_buildSequentialFrom plan
      (plan.pathCount - state.nextConsume) state.nextConsume state.calls {}
    have same : (resumed plan state).1 = (buildSequential plan).1 := by rw [ahead]; rfl
    exact same ▸ extended
  have facts := holds.phase
  cases phase : state.phase with
  | dispatching index =>
      rw [phase] at facts
      obtain ⟨-, -, -, -, -, ahead⟩ := facts
      exact behind ahead
  | receiving =>
      rw [phase] at facts
      obtain ⟨-, -, -, ahead⟩ := facts
      exact behind ahead
  | draining =>
      rw [phase] at facts
      obtain ⟨-, -, -, ahead⟩ := facts
      exact behind ahead
  | refilling =>
      rw [phase] at facts
      obtain ⟨-, -, -, -, ahead⟩ := facts
      exact behind ahead
  | closing outcome =>
      rw [phase] at facts
      exact (congrArg Prod.fst facts : state.calls = (buildSequential plan).1) ▸
        List.prefix_rfl
  | returned outcome =>
      rw [phase] at facts
      obtain ⟨value, -, same⟩ := facts
      exact (congrArg Prod.fst same : state.calls = (buildSequential plan).1) ▸
        List.prefix_rfl

/-- The parallel branch refines the sequential one under every panic-free schedule: when it
returns, `consume` has seen exactly the sequential calls and the outcome is the sequential
success or error; at any time the calls so far are a prefix of those; a received result always
finds its slot emptied, so the window never overflows; and no schedule blocks before the
return or takes more than the stated number of steps. Witness:
`parallelBuild_refines_twoPaths`.
-/
theorem parallelBuild_refines_sequential {plan : BuildPlan R} {workerCount : Nat}
    {trace : List BuildAction} {state : BuildState R} (several : 1 < workerCount)
    (run : Run (buildStep plan workerCount) (BuildState.initial workerCount) trace state)
    (calm : ∀ worker, BuildAction.panic worker ∉ trace)
    : (∀ outcome,
          state.phase = .returned outcome
          → ∃ value,
              outcome = .value value
              ∧ (state.calls, value.map (fun _ => ())) = observed (buildSequential plan))
      ∧ state.calls <+: (buildSequential plan).1
      ∧ (∀ index result rest,
          state.phase = .receiving
          → state.nextConsume < plan.pathCount
          → state.results = (index, result) :: rest
          → state.resultSlots[index % workerCount]? = some none)
      ∧ ((∀ outcome, state.phase ≠ .returned outcome)
          → ∃ action,
              (∀ worker, action ≠ .panic worker)
              ∧ (buildStep plan workerCount state action).isSome)
      ∧ trace.length ≤ (BuildState.initial workerCount : BuildState R).effort plan := by
  have positive : 0 < workerCount := by omega
  have holds := buildInvariant_of_run positive run calm
  refine ⟨?_, holds.calls_prefix, ?_, holds.enabled positive, ?_⟩
  · intro outcome phase
    have facts := holds.phase
    rwa [phase] at facts
  · intro index result rest phase more queue
    have facts := holds.phase
    rw [phase] at facts
    obtain ⟨-, -, slots, -⟩ := facts
    exact slots.slot_empty holds positive (by simp [BuildState.pending, queue])
  · have bound := trace_length_of_run positive run calm
    omega

/-- Two paths on two workers: the second path fails to build and arrives first, and yet the
first path is consumed before the error is returned.
-/
def twoPaths : BuildPlan Nat where
  pathCount := 2
  transientPlanBytes := 0
  accountedBytes := id
  build := fun index => if index = 0 then .ok 5 else .error (.invalidInput "unreadable")
  consume := fun _ _ _ => .ok ()

/-- The schedule that delivers the second result before the first. -/
def secondFirst : List BuildAction :=
  [.main, .main, .main, .receive 0, .receive 1, .build 1, .deliver 1, .main, .main, .build 0,
    .deliver 0, .main, .main, .main, .main, .receive 0, .receive 1, .main]

theorem parallelBuild_refines_twoPaths
    : ∃ state,
        Run (buildStep twoPaths 2) (BuildState.initial 2) secondFirst state
        ∧ state.calls = [(0, 5)]
        ∧ state.phase = .returned (.value (.error (.invalidInput "unreadable")))
        ∧ state.calls <+: (buildSequential twoPaths).1 := by
  have run : Run (buildStep twoPaths 2) (BuildState.initial 2) secondFirst _ :=
    .of_execute secondFirst rfl
  have calm (worker : Nat) : BuildAction.panic worker ∉ secondFirst := by
    simp [secondFirst]
  exact ⟨_, run, rfl, rfl, (parallelBuild_refines_sequential (by decide) run calm).2.1⟩

end CodebaseGraph.Execution
