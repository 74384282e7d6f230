import CodebaseGraph.Collections.Lists
import CodebaseGraph.Execution.Parallel
import Mathlib.Tactic

/-! The parallel branch of `build_execution_plan` refines the sequential one.
Dispatched but unconsumed indices form a window of at most `worker_count` consecutive
numbers, so their slots modulo `worker_count` never collide and items leave in order.
-/

namespace CodebaseGraph.Execution

open CodebaseGraph.Transition CodebaseGraph.Collections

variable {R : Type*}

-- The sequential run as a reference

/-- The observable part of a build: the calls of `consume`, and success or the error. -/
def observed (run : List (Nat × R) × Except NativeError ExecutionPlanStats)
    : List (Nat × R) × Except NativeError Unit :=
  (run.1, run.2.map (fun _ => ()))

/-- The statistics accumulated so far do not influence what the loop does next. -/
theorem observed_buildSequentialFrom (plan : BuildPlan R) (remaining index : Nat)
    (calls : List (Nat × R)) (stats other : ExecutionPlanStats)
    : observed (buildSequentialFrom plan remaining index calls stats)
      = observed (buildSequentialFrom plan remaining index calls other) := by
  induction remaining generalizing index calls stats other with
  | zero => rfl
  | succ remaining ih =>
      cases built : plan.build index with
      | error error => simp only [buildSequentialFrom, built]
      | ok result =>
          cases accepted : plan.consume calls index result with
          | error error => simp only [buildSequentialFrom, built, accepted, observed]
          | ok =>
              simp only [buildSequentialFrom, built, accepted]
              exact ih ..

/-- The loop only appends to the calls it was given. -/
theorem calls_prefix_buildSequentialFrom (plan : BuildPlan R) (remaining index : Nat)
    (calls : List (Nat × R)) (stats : ExecutionPlanStats)
    : calls <+: (buildSequentialFrom plan remaining index calls stats).1 := by
  induction remaining generalizing index calls stats with
  | zero => exact List.prefix_rfl
  | succ remaining ih =>
      cases built : plan.build index with
      | error error => simp only [buildSequentialFrom, built, List.prefix_rfl]
      | ok result =>
          cases accepted : plan.consume calls index result with
          | error error =>
              simp only [buildSequentialFrom, built, accepted, List.prefix_append]
          | ok =>
              simp only [buildSequentialFrom, built, accepted]
              exact (List.prefix_append calls _).trans (ih ..)

/-- The sequential loop resumed where the parallel main loop stands. -/
def resumed (plan : BuildPlan R) (state : BuildState R)
    : List (Nat × R) × Except NativeError Unit :=
  observed
    (buildSequentialFrom plan (plan.pathCount - state.nextConsume) state.nextConsume
      state.calls {})

-- The window invariant

def BuildWorker.index? : BuildWorker R → Option Nat
  | .building index | .delivering index _ => some index
  | _ => none

/-- Dispatched indices whose result the main thread has not received. -/
def BuildState.pending (state : BuildState R) : List Nat :=
  state.jobs ++ (state.workers.filterMap BuildWorker.index? ++ state.results.map Prod.fst)

/-- Every slot holds the result of the one received and unconsumed index it stands for. -/
structure SlotsMatch (plan : BuildPlan R) (workerCount : Nat) (state : BuildState R)
    : Prop where
  arrived
    : ∀ index,
        state.nextConsume ≤ index
        → index < state.nextDispatch
        → index ∉ state.pending
        → state.resultSlots[index % workerCount]? = some (some (plan.build index))
  owner
    : ∀ slot result,
        state.resultSlots[slot]? = some (some result)
        → ∃ index,
            state.nextConsume ≤ index
            ∧ index < state.nextDispatch
            ∧ index ∉ state.pending
            ∧ index % workerCount = slot

/-- How far the main thread has dispatched in each phase, and what it has already done. -/
def PhaseHolds (plan : BuildPlan R) (workerCount : Nat) (state : BuildState R)
    : BuildPhase → Prop
  | .dispatching index =>
      index = state.nextDispatch
      ∧ state.nextConsume = 0
      ∧ index ≤ min workerCount plan.pathCount
      ∧ (∀ dispatched < index, dispatched ∈ state.pending)
      ∧ SlotsMatch plan workerCount state
      ∧ resumed plan state = observed (buildSequential plan)
  | .receiving =>
      state.nextDispatch = min plan.pathCount (state.nextConsume + workerCount)
      ∧ (state.nextConsume < plan.pathCount → state.nextConsume ∈ state.pending)
      ∧ SlotsMatch plan workerCount state
      ∧ resumed plan state = observed (buildSequential plan)
  | .draining =>
      state.nextDispatch = min plan.pathCount (state.nextConsume + workerCount)
      ∧ state.nextConsume < plan.pathCount
      ∧ SlotsMatch plan workerCount state
      ∧ resumed plan state = observed (buildSequential plan)
  | .refilling =>
      0 < state.nextConsume
      ∧ state.nextConsume ≤ plan.pathCount
      ∧ state.nextDispatch = min plan.pathCount (state.nextConsume - 1 + workerCount)
      ∧ SlotsMatch plan workerCount state
      ∧ resumed plan state = observed (buildSequential plan)
  | .closing outcome =>
      (state.calls, outcome.map (fun _ => ())) = observed (buildSequential plan)
  | .returned outcome =>
      ∃ value,
        outcome = .value value
        ∧ (state.calls, value.map (fun _ => ())) = observed (buildSequential plan)

/-- Results on their way to the main thread are those of their index. -/
def BuildWorker.Honest (plan : BuildPlan R) : BuildWorker R → Prop
  | .delivering index result => result = plan.build index
  | .panicked => False
  | _ => True

/-- The invariant of every panic-free schedule. -/
structure BuildInvariant (plan : BuildPlan R) (workerCount : Nat) (state : BuildState R)
    : Prop where
  workers : state.workers.length = workerCount
  slots : state.resultSlots.length = workerCount
  unique : state.pending.Nodup
  inWindow
    : ∀ index ∈ state.pending, state.nextConsume ≤ index ∧ index < state.nextDispatch
  window : state.nextDispatch ≤ state.nextConsume + workerCount
  ordered : state.nextConsume ≤ state.nextDispatch ∧ state.nextDispatch ≤ plan.pathCount
  honestWorkers : ∀ worker ∈ state.workers, worker.Honest plan
  honestResults : ∀ entry ∈ state.results, entry.2 = plan.build entry.1
  alive : state.phase.jobsOpen = true → ∀ worker ∈ state.workers, worker.ended = false
  phase : PhaseHolds plan workerCount state state.phase

/-- Two indices of one window with the same slot are equal. -/
theorem eq_of_mod_eq_of_window {workerCount start left right : Nat}
    (leftLow : start ≤ left) (leftHigh : left < start + workerCount)
    (rightLow : start ≤ right) (rightHigh : right < start + workerCount)
    (same : left % workerCount = right % workerCount)
    : left = right := by
  have congruent : left ≡ right [MOD workerCount] := same
  rcases Nat.le_total left right with below | below
  · have divides := (Nat.modEq_iff_dvd' below).mp congruent
    have zero := Nat.eq_zero_of_dvd_of_lt divides (by omega)
    omega
  · have divides := (Nat.modEq_iff_dvd' below).mp congruent.symm
    have zero := Nat.eq_zero_of_dvd_of_lt divides (by omega)
    omega

/-- A window of pending indices has at most `worker_count` of them. -/
theorem BuildInvariant.pending_length {plan : BuildPlan R} {workerCount : Nat}
    {state : BuildState R} (holds : BuildInvariant plan workerCount state)
    : state.pending.length ≤ workerCount := by
  have included : state.pending ⊆ List.range' state.nextConsume workerCount := by
    intro index member
    have bounds := holds.inWindow index member
    have window := holds.window
    exact List.mem_range'_1.mpr ⟨bounds.1, by omega⟩
  simpa using holds.unique.length_le_of_subset included

-----------------------------------------------------------------------------------------
-- Worker steps only move indices between the channels and the threads
-----------------------------------------------------------------------------------------

/-- The main thread's view depends on the pending indices only as a set. -/
theorem PhaseHolds.congr {plan : BuildPlan R} {workerCount : Nat} {state next : BuildState R}
    {phase : BuildPhase} (holds : PhaseHolds plan workerCount state phase)
    (pending : ∀ index, index ∈ next.pending ↔ index ∈ state.pending)
    (slots : next.resultSlots = state.resultSlots)
    (dispatch : next.nextDispatch = state.nextDispatch)
    (consume : next.nextConsume = state.nextConsume) (calls : next.calls = state.calls)
    : PhaseHolds plan workerCount next phase := by
  have matching (old : SlotsMatch plan workerCount state)
      : SlotsMatch plan workerCount next := by
    constructor
    · simpa only [pending, slots, dispatch, consume] using old.arrived
    · simpa only [pending, slots, dispatch, consume] using old.owner
  have same : resumed plan next = resumed plan state := by
    simp only [resumed, consume, calls]
  cases phase with
  | dispatching index =>
      obtain ⟨reached, start, bound, sent, slots, ahead⟩ := holds
      refine ⟨dispatch ▸ reached, consume ▸ start, bound, ?_, matching slots,
        same.trans ahead⟩
      simpa only [pending] using sent
  | receiving =>
      obtain ⟨full, head, slots, ahead⟩ := holds
      refine ⟨by rw [dispatch, consume, full], ?_, matching slots, same.trans ahead⟩
      simpa only [consume, pending] using head
  | draining =>
      obtain ⟨full, more, slots, ahead⟩ := holds
      exact ⟨by rw [dispatch, consume, full], consume ▸ more, matching slots,
        same.trans ahead⟩
  | refilling =>
      obtain ⟨positive, bound, full, slots, ahead⟩ := holds
      exact ⟨consume ▸ positive, consume ▸ bound, by rw [dispatch, consume, full],
        matching slots, same.trans ahead⟩
  | closing outcome => simpa only [PhaseHolds, calls] using holds
  | returned outcome => simpa only [PhaseHolds, calls] using holds

/-- Rearranging the pending indices among channels and threads keeps the invariant. -/
theorem BuildInvariant.relocate {plan : BuildPlan R} {workerCount : Nat}
    {state next : BuildState R} (holds : BuildInvariant plan workerCount state)
    (moved : next.pending.Perm state.pending) (phase : next.phase = state.phase)
    (slots : next.resultSlots = state.resultSlots)
    (dispatch : next.nextDispatch = state.nextDispatch)
    (consume : next.nextConsume = state.nextConsume) (calls : next.calls = state.calls)
    (workers : next.workers.length = state.workers.length)
    (honestWorkers : ∀ worker ∈ next.workers, worker.Honest plan)
    (honestResults : ∀ entry ∈ next.results, entry.2 = plan.build entry.1)
    (alive : state.phase.jobsOpen = true → ∀ worker ∈ next.workers, worker.ended = false)
    : BuildInvariant plan workerCount next where
  workers := workers.trans holds.workers
  slots := slots ▸ holds.slots
  unique := moved.nodup_iff.mpr holds.unique
  inWindow := by
    intro index member
    rw [consume, dispatch]
    exact holds.inWindow index (moved.mem_iff.mp member)
  window := by rw [dispatch, consume]; exact holds.window
  ordered := by rw [dispatch, consume]; exact holds.ordered
  honestWorkers := honestWorkers
  honestResults := honestResults
  alive := phase ▸ alive
  phase := by
    rw [phase]
    exact holds.phase.congr (fun _ => moved.mem_iff) slots dispatch consume calls

/-- Every worker step but a panic keeps the invariant. -/
theorem BuildInvariant.workerStep {plan : BuildPlan R} {workerCount : Nat}
    {state next : BuildState R} (holds : BuildInvariant plan workerCount state)
    (action : BuildAction) (step : workerStep plan workerCount state action = some next)
    (calm : ∀ worker, action ≠ .panic worker)
    : BuildInvariant plan workerCount next := by
  have replaced {worker : Nat} {value : BuildWorker R} (honest : value.Honest plan)
      : ∀ item ∈ state.workers.set worker value, item.Honest plan := by
    intro item member
    rcases List.mem_or_eq_of_mem_set member with old | rfl
    · exact holds.honestWorkers item old
    · exact honest
  have living {worker : Nat} {value : BuildWorker R} (live : value.ended = false)
      (opened : state.phase.jobsOpen = true)
      : ∀ item ∈ state.workers.set worker value, item.ended = false := by
    intro item member
    rcases List.mem_or_eq_of_mem_set member with old | rfl
    · exact holds.alive opened item old
    · exact live
  cases action with
  | main => simp [Execution.workerStep] at step
  | panic worker => exact absurd rfl (calm worker)
  | receive worker =>
      cases found : state.workers[worker]? with
      | none => simp [Execution.workerStep, found] at step
      | some value =>
          cases value with
          | waiting =>
              cases queue : state.jobs with
              | nil =>
                  cases opened : state.phase.jobsOpen with
                  | true => simp [Execution.workerStep, found, queue, opened] at step
                  | false =>
                      simp only [Execution.workerStep, found, queue, opened,
                        Bool.false_eq_true, if_false, Option.some.injEq] at step
                      subst next
                      have moved := filterMap_set_perm (f := BuildWorker.index?)
                        BuildWorker.exited found
                      refine holds.relocate ?_ rfl rfl rfl rfl rfl (by simp)
                        (replaced trivial) holds.honestResults (by simp [opened])
                      simp only [BuildWorker.index?, Option.toList_none,
                        List.nil_append] at moved
                      simpa only [BuildState.pending, queue]
                        using (moved.append_right _).append_left []
              | cons index rest =>
                  simp only [Execution.workerStep, found, queue, Option.some.injEq] at step
                  subst next
                  have moved := filterMap_set_perm (f := BuildWorker.index?)
                    (BuildWorker.building index) found
                  refine holds.relocate ?_ rfl rfl rfl rfl rfl (by simp) (replaced trivial)
                    holds.honestResults (living rfl)
                  simp only [BuildWorker.index?, Option.toList_none, Option.toList_some,
                    List.nil_append, List.singleton_append] at moved
                  simp only [BuildState.pending, queue]
                  refine ((moved.append_right _).append_left rest).trans ?_
                  simp
          | _ => simp [Execution.workerStep, found] at step
  | build worker =>
      cases found : state.workers[worker]? with
      | none => simp [Execution.workerStep, found] at step
      | some value =>
          cases value with
          | building index =>
              simp only [Execution.workerStep, found, Option.some.injEq] at step
              subst next
              have moved := filterMap_set_perm (f := BuildWorker.index?)
                (BuildWorker.delivering index (plan.build index)) found
              refine holds.relocate ?_ rfl rfl rfl rfl rfl (by simp) (replaced rfl)
                holds.honestResults (living rfl)
              have cancelled := (List.perm_append_left_iff _).mp moved
              exact (cancelled.append_right _).append_left _
          | _ => simp [Execution.workerStep, found] at step
  | deliver worker =>
      cases found : state.workers[worker]? with
      | none => simp [Execution.workerStep, found] at step
      | some value =>
          cases value with
          | delivering index result =>
              by_cases room : state.results.length < workerCount
              · simp only [Execution.workerStep, found, room, if_true,
                  Option.some.injEq] at step
                subst next
                have honest := holds.honestWorkers _ (List.mem_of_getElem? found)
                have moved := filterMap_set_perm (f := BuildWorker.index?)
                  BuildWorker.waiting found
                refine holds.relocate ?_ rfl rfl rfl rfl rfl (by simp) (replaced trivial) ?_
                  (living rfl)
                · simp only [BuildWorker.index?, Option.toList_none, Option.toList_some,
                    List.nil_append] at moved
                  simp only [BuildState.pending, List.map_append, List.map_cons,
                    List.map_nil]
                  refine List.Perm.append_left _ (List.Perm.trans ?_ (moved.append_right _))
                  rw [← List.append_assoc]
                  exact List.perm_append_comm.trans (by simp)
                · intro entry member
                  rcases List.mem_append.mp member with old | new
                  · exact holds.honestResults entry old
                  · rw [List.mem_singleton.mp new]
                    exact honest
              · simp [Execution.workerStep, found, room] at step
          | _ => simp [Execution.workerStep, found] at step

-----------------------------------------------------------------------------------------
-- The main thread: dispatch, receive and consume
-----------------------------------------------------------------------------------------

/-- Sending one more job adds exactly its index to the pending ones. -/
theorem pending_dispatch (state : BuildState R) (index next : Nat) (phase : BuildPhase)
    : BuildState.pending
        { state with phase, jobs := state.jobs ++ [index], nextDispatch := next }
      |>.Perm (index :: state.pending) := by
  simp only [BuildState.pending, List.append_assoc, List.singleton_append]
  exact List.perm_middle

/-- Dispatching the next index leaves every slot with its owner. -/
theorem SlotsMatch.dispatch {plan : BuildPlan R} {workerCount : Nat}
    {state next : BuildState R} (holds : SlotsMatch plan workerCount state)
    (pending : next.pending.Perm (state.nextDispatch :: state.pending))
    (slots : next.resultSlots = state.resultSlots)
    (dispatch : next.nextDispatch = state.nextDispatch + 1)
    (consume : next.nextConsume = state.nextConsume)
    : SlotsMatch plan workerCount next := by
  constructor
  · intro index low high absent
    simp only [pending.mem_iff, List.mem_cons, not_or] at absent
    rw [slots]
    exact holds.arrived index (by omega) (by omega) absent.2
  · intro slot result found
    rw [slots] at found
    obtain ⟨index, low, high, absent, same⟩ := holds.owner slot result found
    refine ⟨index, by omega, by omega, ?_, same⟩
    simp only [pending.mem_iff, List.mem_cons, not_or]
    exact ⟨by omega, absent⟩

/-- The invariant after one more job was sent, given what the next phase asks for. -/
theorem BuildInvariant.dispatch {plan : BuildPlan R} {workerCount : Nat}
    {state next : BuildState R} (holds : BuildInvariant plan workerCount state)
    (pending : next.pending.Perm (state.nextDispatch :: state.pending))
    (slots : next.resultSlots = state.resultSlots)
    (dispatch : next.nextDispatch = state.nextDispatch + 1)
    (consume : next.nextConsume = state.nextConsume)
    (workers : next.workers = state.workers) (results : next.results = state.results)
    (opened : state.phase.jobsOpen = true)
    (room : state.nextDispatch < state.nextConsume + workerCount)
    (more : state.nextDispatch < plan.pathCount)
    (phase : PhaseHolds plan workerCount next next.phase)
    : BuildInvariant plan workerCount next where
  workers := workers ▸ holds.workers
  slots := slots ▸ holds.slots
  unique := by
    refine pending.nodup_iff.mpr (List.nodup_cons.mpr ⟨?_, holds.unique⟩)
    intro member
    have bounds := holds.inWindow _ member
    omega
  inWindow := by
    intro index member
    have ordered := holds.ordered
    rcases List.mem_cons.mp (pending.mem_iff.mp member) with rfl | old
    · omega
    · have bounds := holds.inWindow index old
      omega
  window := by omega
  ordered := by
    have ordered := holds.ordered
    omega
  honestWorkers := workers ▸ holds.honestWorkers
  honestResults := results ▸ holds.honestResults
  alive := fun _ => workers ▸ holds.alive opened
  phase := phase

/-- A received index finds its slot empty: an occupant would be another unconsumed index of
the same window with the same residue.
-/
theorem SlotsMatch.slot_empty {plan : BuildPlan R} {workerCount : Nat}
    {state : BuildState R} {index : Nat} (invariant : BuildInvariant plan workerCount state)
    (holds : SlotsMatch plan workerCount state) (positive : 0 < workerCount)
    (member : index ∈ state.pending)
    : state.resultSlots[index % workerCount]? = some none := by
  have bounds := invariant.inWindow index member
  have window := invariant.window
  have inside : index % workerCount < state.resultSlots.length := by
    rw [invariant.slots]
    exact Nat.mod_lt _ positive
  cases found : state.resultSlots[index % workerCount]? with
  | none => exact absurd (List.getElem?_eq_none_iff.mp found) (by omega)
  | some value =>
      cases value with
      | none => rfl
      | some result =>
          obtain ⟨other, low, high, absent, same⟩ := holds.owner _ result found
          have equal := eq_of_mod_eq_of_window low (by omega) bounds.1 (by omega) same
          exact absurd (equal ▸ member) absent

/-- An occupied slot of the head item holds exactly the head item's result. -/
theorem SlotsMatch.head_result {plan : BuildPlan R} {workerCount : Nat}
    {state : BuildState R} {result : Except NativeError R}
    (invariant : BuildInvariant plan workerCount state)
    (holds : SlotsMatch plan workerCount state)
    (found : state.resultSlots[state.nextConsume % workerCount]? = some (some result))
    : result = plan.build state.nextConsume
      ∧ state.nextConsume < state.nextDispatch
      ∧ state.nextConsume ∉ state.pending := by
  have window := invariant.window
  obtain ⟨index, low, high, absent, same⟩ := holds.owner _ result found
  have equal : index = state.nextConsume :=
    eq_of_mod_eq_of_window low (by omega) (le_refl _) (by omega) same
  subst equal
  have arrived := holds.arrived _ low high absent
  rw [found] at arrived
  exact ⟨by simpa using arrived, high, absent⟩

theorem BuildInvariant.main_dispatching {plan : BuildPlan R} {workerCount index : Nat}
    {state next : BuildState R} (holds : BuildInvariant plan workerCount state)
    (positive : 0 < workerCount) (phase : state.phase = .dispatching index)
    (step : mainStep plan workerCount state = some next)
    : BuildInvariant plan workerCount next := by
  have facts := holds.phase
  rw [phase] at facts
  obtain ⟨reached, start, bound, sent, slots, ahead⟩ := facts
  have opened : state.phase.jobsOpen = true := by rw [phase]; rfl
  subst reached
  by_cases more : state.nextDispatch < min workerCount plan.pathCount
  · by_cases room : state.jobs.length < workerCount
    · simp only [mainStep, phase, more, room, if_true, Option.some.injEq] at step
      subst next
      have pending := pending_dispatch state state.nextDispatch (state.nextDispatch + 1)
        (.dispatching (state.nextDispatch + 1))
      refine holds.dispatch pending rfl rfl rfl rfl rfl opened (by omega) (by omega) ?_
      refine ⟨rfl, start, by omega, ?_, slots.dispatch pending rfl rfl rfl, ahead⟩
      intro dispatched below
      rw [pending.mem_iff, List.mem_cons]
      rcases Nat.lt_succ_iff_lt_or_eq.mp below with earlier | rfl
      · exact Or.inr (sent dispatched earlier)
      · exact Or.inl rfl
    · simp [mainStep, phase, more, room] at step
  · simp only [mainStep, phase, more, if_false, Option.some.injEq] at step
    subst next
    refine {
      holds with
      alive := fun _ => holds.alive opened
      phase := ⟨by simp only; omega, ?_, ⟨slots.arrived, slots.owner⟩, ahead⟩
    }
    intro paths
    simp only at paths
    exact sent state.nextConsume (by omega)

theorem BuildInvariant.main_receiving {plan : BuildPlan R} {workerCount : Nat}
    {state next : BuildState R} (holds : BuildInvariant plan workerCount state)
    (positive : 0 < workerCount) (phase : state.phase = .receiving)
    (step : mainStep plan workerCount state = some next)
    : BuildInvariant plan workerCount next := by
  have facts := holds.phase
  rw [phase] at facts
  obtain ⟨full, head, slots, ahead⟩ := facts
  have opened : state.phase.jobsOpen = true := by rw [phase]; rfl
  by_cases more : state.nextConsume < plan.pathCount
  · cases queue : state.results with
    | nil =>
        -- No worker ends while the job channel is open, so the senders are still there.
        have living : state.workers.all BuildWorker.ended = false := by
          cases workers : state.workers with
          | nil => simp [← holds.workers, workers] at positive
          | cons worker rest =>
              simp [holds.alive opened worker (by simp [workers])]
        simp [mainStep, phase, more, queue, living] at step
    | cons entry rest =>
        obtain ⟨index, result⟩ := entry
        have member : index ∈ state.pending := by simp [BuildState.pending, queue]
        have bounds := holds.inWindow index member
        have window := holds.window
        have honest : result = plan.build index :=
          holds.honestResults (index, result) (by simp [queue])
        have empty := slots.slot_empty holds positive member
        simp only [mainStep, phase, more, if_true, queue, storeResult, empty,
          Option.some.injEq] at step
        have pending : state.pending.Perm (index :: next.pending) := by
          subst next
          simp only [BuildState.pending, queue, List.map_cons]
          rw [← List.append_assoc, ← List.append_assoc]
          exact List.perm_middle
        have unique := List.nodup_cons.mp (pending.nodup_iff.mp holds.unique)
        have inside : index % workerCount < state.resultSlots.length := by
          rw [holds.slots]
          exact Nat.mod_lt _ positive
        have nextSlots
            : next.resultSlots = state.resultSlots.set (index % workerCount) (some result) := by
          subst next
          rfl
        have same
            : next.nextConsume = state.nextConsume
              ∧ next.nextDispatch = state.nextDispatch
              ∧ next.calls = state.calls
              ∧ next.workers = state.workers
              ∧ next.results = rest
              ∧ next.phase = .draining := by
          subst next
          exact ⟨rfl, rfl, rfl, rfl, rfl, rfl⟩
        obtain ⟨consume, dispatch, calls, workers, results, drains⟩ := same
        have matching : SlotsMatch plan workerCount next := by
          constructor
          · intro other low high absent
            rw [consume] at low
            rw [dispatch] at high
            rw [nextSlots]
            by_cases equal : other = index
            · subst equal
              rw [List.getElem?_set_self inside, honest]
            · have differs : index % workerCount ≠ other % workerCount := by
                intro clash
                exact equal (eq_of_mod_eq_of_window low (by omega) bounds.1 (by omega)
                  clash.symm)
              rw [List.getElem?_set_ne differs]
              refine slots.arrived other low high ?_
              rw [pending.mem_iff, List.mem_cons, not_or]
              exact ⟨equal, absent⟩
          · intro slot value found
            rw [nextSlots] at found
            rw [consume, dispatch]
            by_cases equal : index % workerCount = slot
            · exact ⟨index, bounds.1, bounds.2, unique.1, equal⟩
            · rw [List.getElem?_set_ne equal] at found
              obtain ⟨other, low, high, absent, residue⟩ := slots.owner slot value found
              refine ⟨other, low, high, ?_, residue⟩
              intro still
              exact absent (pending.mem_iff.mpr (List.mem_cons_of_mem _ still))
        exact {
          workers := workers ▸ holds.workers
          slots := by rw [nextSlots, List.length_set, holds.slots]
          unique := unique.2
          inWindow := by
            intro other still
            rw [consume, dispatch]
            exact holds.inWindow other (pending.mem_iff.mpr (List.mem_cons_of_mem _ still))
          window := by rw [dispatch, consume]; exact window
          ordered := by rw [dispatch, consume]; exact holds.ordered
          honestWorkers := workers ▸ holds.honestWorkers
          honestResults := by
            rw [results]
            exact fun entry still => holds.honestResults entry (by simp [queue, still])
          alive := fun _ => workers ▸ holds.alive opened
          phase := by
            rw [drains]
            refine ⟨by rw [dispatch, consume, full], consume ▸ more, matching, ?_⟩
            simpa only [resumed, consume, calls] using ahead
        }
  · simp only [mainStep, phase, more, if_false, Option.some.injEq] at step
    subst next
    refine { holds with alive := by simp [BuildPhase.jobsOpen], phase := ?_ }
    have finished : plan.pathCount - state.nextConsume = 0 := by omega
    simp only [resumed, finished, buildSequentialFrom] at ahead
    exact ahead

theorem BuildInvariant.main_draining {plan : BuildPlan R} {workerCount : Nat}
    {state next : BuildState R} (holds : BuildInvariant plan workerCount state)
    (positive : 0 < workerCount) (phase : state.phase = .draining)
    (step : mainStep plan workerCount state = some next)
    : BuildInvariant plan workerCount next := by
  have facts := holds.phase
  rw [phase] at facts
  obtain ⟨full, more, slots, ahead⟩ := facts
  have opened : state.phase.jobsOpen = true := by rw [phase]; rfl
  have window := holds.window
  have ordered := holds.ordered
  by_cases occupied
      : ∃ result, state.resultSlots[state.nextConsume % workerCount]? = some (some result)
  · obtain ⟨result, found⟩ := occupied
    obtain ⟨built, dispatched, absent⟩ := slots.head_result holds found
    simp only [mainStep, phase, found, Option.some.injEq] at step
    obtain ⟨left, remaining⟩ : ∃ left, plan.pathCount - state.nextConsume = left + 1 :=
      ⟨plan.pathCount - state.nextConsume - 1, by omega⟩
    have slotCount
        : (state.resultSlots.set (state.nextConsume % workerCount) none).length
          = workerCount := by
      rw [List.length_set, holds.slots]
    simp only [resumed, remaining] at ahead
    cases result with
    | error error =>
        simp only [consumeHead] at step
        subst next
        refine {
          holds with
          slots := slotCount
          alive := by simp [BuildPhase.jobsOpen]
          phase := ?_
        }
        simp only [buildSequentialFrom, ← built] at ahead
        exact ahead
    | ok value =>
        cases accepted : plan.consume state.calls state.nextConsume value with
        | error error =>
            simp only [consumeHead, accepted] at step
            subst next
            refine {
              holds with
              slots := slotCount
              alive := by simp [BuildPhase.jobsOpen]
              phase := ?_
            }
            simp only [buildSequentialFrom, ← built, accepted] at ahead
            exact ahead
        | ok =>
            simp only [consumeHead, accepted] at step
            subst next
            refine {
              holds with
              slots := slotCount
              inWindow := ?_
              window := by simp only; omega
              ordered := by simp only; omega
              alive := fun _ => holds.alive opened
              phase := ⟨by simp only; omega, by simp only; omega, ?_, ⟨?_, ?_⟩, ?_⟩
            }
            · intro index member
              have bounds := holds.inWindow index member
              have differs : index ≠ state.nextConsume := fun same => absent (same ▸ member)
              simp only
              omega
            · simp only [Nat.add_sub_cancel]
              exact full
            · intro index low high still
              simp only at low high
              have differs : state.nextConsume % workerCount ≠ index % workerCount := by
                intro clash
                have equal := eq_of_mod_eq_of_window (le_refl state.nextConsume) (by omega)
                  (by omega) (by omega) clash
                omega
              simp only
              rw [List.getElem?_set_ne differs]
              exact slots.arrived index (by omega) high still
            · intro slot value taken
              simp only at taken
              by_cases equal : state.nextConsume % workerCount = slot
              · subst equal
                simp [List.getElem?_set] at taken
              · rw [List.getElem?_set_ne equal] at taken
                obtain ⟨index, low, high, still, residue⟩ := slots.owner slot value taken
                have differs : index ≠ state.nextConsume := fun same => equal (same ▸ residue)
                exact ⟨index, by simp only; omega, high, still, residue⟩
            · simp only [buildSequentialFrom, ← built, accepted] at ahead
              simp only [resumed]
              rw [show plan.pathCount - (state.nextConsume + 1) = left by omega]
              rw [← ahead]
              exact observed_buildSequentialFrom ..
  · have idle : next = { state with phase := .receiving } := by
      simp only [mainStep, phase] at step
      split at step
      · next result found => exact absurd ⟨result, found⟩ occupied
      · exact (Option.some.inj step).symm
    subst idle
    refine {
      holds with
      alive := fun _ => holds.alive opened
      phase := ⟨full, ?_, ⟨slots.arrived, slots.owner⟩, ahead⟩
    }
    intro _
    by_contra absent
    exact occupied ⟨_, slots.arrived _ (le_refl _) (by omega) absent⟩

theorem BuildInvariant.main_refilling {plan : BuildPlan R} {workerCount : Nat}
    {state next : BuildState R} (holds : BuildInvariant plan workerCount state)
    (positive : 0 < workerCount) (phase : state.phase = .refilling)
    (step : mainStep plan workerCount state = some next)
    : BuildInvariant plan workerCount next := by
  have facts := holds.phase
  rw [phase] at facts
  obtain ⟨consumed, bound, full, slots, ahead⟩ := facts
  have opened : state.phase.jobsOpen = true := by rw [phase]; rfl
  have ordered := holds.ordered
  by_cases more : state.nextDispatch < plan.pathCount
  · by_cases room : state.jobs.length < workerCount
    · simp only [mainStep, phase, more, room, if_true, Option.some.injEq, afterRefill,
        show state.nextConsume ≠ plan.pathCount by omega, if_false] at step
      subst next
      have pending := pending_dispatch state state.nextDispatch (state.nextDispatch + 1)
        .draining
      refine holds.dispatch pending rfl rfl rfl rfl rfl opened (by omega) more ?_
      exact ⟨by simp only; omega, by simp only; omega, slots.dispatch pending rfl rfl rfl,
        ahead⟩
    · simp [mainStep, phase, more, room] at step
  · by_cases last : state.nextConsume = plan.pathCount
    · simp only [mainStep, phase, more, if_false, Option.some.injEq, afterRefill,
        if_pos last] at step
      subst next
      exact {
        holds with
        alive := fun _ => holds.alive opened
        phase := ⟨by simp only; omega, by simp only; omega, ⟨slots.arrived, slots.owner⟩,
          ahead⟩
      }
    · simp only [mainStep, phase, more, if_false, Option.some.injEq, afterRefill,
        if_neg last] at step
      subst next
      exact {
        holds with
        alive := fun _ => holds.alive opened
        phase := ⟨by simp only; omega, by simp only; omega, ⟨slots.arrived, slots.owner⟩,
          ahead⟩
      }

theorem BuildInvariant.main_closing {plan : BuildPlan R} {workerCount : Nat}
    {state next : BuildState R} {outcome : Except NativeError ExecutionPlanStats}
    (holds : BuildInvariant plan workerCount state) (phase : state.phase = .closing outcome)
    (step : mainStep plan workerCount state = some next)
    : BuildInvariant plan workerCount next := by
  have settled := holds.phase
  rw [phase] at settled
  by_cases ended : state.workers.all BuildWorker.ended
  · simp only [mainStep, phase, ended, if_true, Option.some.injEq] at step
    subst next
    have calm : state.workers.countP BuildWorker.isPanicked = 0 := by
      rw [List.countP_eq_zero]
      intro worker member panics
      have honest := holds.honestWorkers worker member
      cases worker <;> simp_all [BuildWorker.isPanicked, BuildWorker.Honest]
    refine { holds with alive := by simp [BuildPhase.jobsOpen], phase := ?_ }
    refine ⟨outcome, ?_, settled⟩
    simp [joinWorkers, calm]
  · simp [mainStep, phase, ended] at step

/-- Every step of the main thread keeps the invariant, phase by phase. -/
theorem BuildInvariant.mainStep {plan : BuildPlan R} {workerCount : Nat}
    {state next : BuildState R} (holds : BuildInvariant plan workerCount state)
    (positive : 0 < workerCount)
    (step : mainStep plan workerCount state = some next)
    : BuildInvariant plan workerCount next := by
  cases phase : state.phase with
  | dispatching index => exact holds.main_dispatching positive phase step
  | receiving => exact holds.main_receiving positive phase step
  | draining => exact holds.main_draining positive phase step
  | refilling => exact holds.main_refilling positive phase step
  | closing outcome => exact holds.main_closing phase step
  | returned outcome => simp [Execution.mainStep, phase] at step

/-- The invariant holds when the workers have just been spawned. -/
theorem buildInvariant_initial (plan : BuildPlan R) (workerCount : Nat)
    : BuildInvariant plan workerCount (BuildState.initial workerCount) := by
  have pending : (BuildState.initial workerCount : BuildState R).pending = [] := by
    simp [BuildState.pending, BuildState.initial, BuildWorker.index?]
  have fresh : ∀ worker ∈ (BuildState.initial workerCount : BuildState R).workers,
      worker = .waiting := by
    intro worker member
    exact (List.mem_replicate.mp member).2
  refine {
    workers := by simp [BuildState.initial]
    slots := by simp [BuildState.initial]
    unique := by simp [pending]
    inWindow := by simp [pending]
    window := by simp [BuildState.initial]
    ordered := by simp [BuildState.initial]
    honestWorkers := fun worker member => by rw [fresh worker member]; trivial
    honestResults := by simp [BuildState.initial]
    alive := fun _ worker member => by rw [fresh worker member]; rfl
    phase := ⟨rfl, rfl, Nat.zero_le _, by simp, ⟨by simp [BuildState.initial], ?_⟩, rfl⟩
  }
  intro slot result found
  have member := List.mem_of_getElem? found
  simp [BuildState.initial] at member

/-- Every panic-free schedule keeps the invariant. -/
theorem buildInvariant_of_run {plan : BuildPlan R} {workerCount : Nat}
    {trace : List BuildAction} {state : BuildState R} (positive : 0 < workerCount)
    (run : Run (buildStep plan workerCount) (BuildState.initial workerCount) trace state)
    (calm : ∀ worker, BuildAction.panic worker ∉ trace)
    : BuildInvariant plan workerCount state := by
  induction run with
  | nil => exact buildInvariant_initial plan workerCount
  | @snoc trace mid last event run action next ih =>
      have before := ih (fun worker member => calm worker (List.mem_append_left _ member))
      cases action with
      | main =>
          simp only [buildStep, Option.map_eq_some_iff, Prod.mk.injEq] at next
          obtain ⟨_, step, rfl, rfl⟩ := next
          exact before.mainStep positive step
      | _ =>
          simp only [buildStep, Option.map_eq_some_iff, Prod.mk.injEq] at next
          obtain ⟨_, step, rfl, rfl⟩ := next
          refine before.workerStep _ step ?_
          rintro worker same
          exact calm worker (by simp [same])

end CodebaseGraph.Execution
