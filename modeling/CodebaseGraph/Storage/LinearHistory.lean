import CodebaseGraph.Collections.Lists
import CodebaseGraph.Storage.TransactionSteps
import Mathlib.Data.List.Chain

/-! The activations of a managed store form one chain.
A history of all activated generations follows the store through every step: the pointer names
its last entry, and every candidate in it stands right after the base of its run.
-/

namespace CodebaseGraph.Storage

open CodebaseGraph.Collections CodebaseGraph.Crash CodebaseGraph.Transition Program

/-- In the history, the successor stands right after the predecessor, or first if there is
none.
-/
def Follows (history : List String) (predecessor : Option String) (successor : String) : Prop :=
  ∃ earlier later, history = earlier ++ successor :: later ∧ earlier.getLast? = predecessor

theorem Follows.append {history : List String} {predecessor : Option String}
    {successor : String} (follows : Follows history predecessor successor) (more : List String)
    : Follows (history ++ more) predecessor successor := by
  obtain ⟨earlier, later, rfl, same⟩ := follows
  exact ⟨earlier, later ++ more, by simp, same⟩

/-- Nothing in a history without repetition follows its last entry. -/
theorem Follows.not_last {history : List String} {successor : String} (distinct : history.Nodup)
    : ¬ Follows history history.getLast? successor := by
  rintro ⟨earlier, later, rfl, same⟩
  have nonempty : (successor :: later) ≠ [] := by simp
  rw [List.getLast?_append_of_ne_nil _ nonempty, List.getLast?_eq_some_getLast nonempty] at same
  have before := List.mem_of_getLast? same
  have after := List.getLast_mem nonempty
  exact (List.nodup_append.mp distinct).2.2 _ before _ after rfl

/-- The history that belongs to a store. -/
structure HistoryOf (host : Host) (store : Store) (history : List String) : Prop where
  distinct : history.Nodup
  pointer
    : (history = [] ∧ store.active = .absent)
      ∨ ∃ active,
          store.active = .regular (.ok active)
          ∧ history.getLast? = some active.generationId
  ready : ∀ generationId ∈ history, store.Ready host generationId
  recorded : ∀ generationId ∈ history, generationId ∈ store.recorded
  candidates
    : ∀ {runId journal candidateId},
        store.HasJournal runId journal
        → journal.candidateGenerationId = some candidateId
        → candidateId ∈ store.recorded
          ∧ (candidateId ∈ history → Follows history journal.baseGenerationId candidateId)
  owners
    : ∀ {runId other journal journal' candidateId},
        store.HasJournal runId journal
        → store.HasJournal other journal'
        → journal.candidateGenerationId = some candidateId
        → journal'.candidateGenerationId = some candidateId
        → other = runId

namespace HistoryOf

variable {host : Host} {store after : Store} {history : List String}

theorem activeId (belongs : HistoryOf host store history)
    : store.activeId = history.getLast? := by
  rcases belongs.pointer with ⟨rfl, absent⟩ | ⟨active, held, last⟩
  · simp [Store.activeId, absent]
  · simp [Store.activeId, held, last]

theorem initial : HistoryOf host {} [] where
  distinct := .nil
  pointer := .inl ⟨rfl, rfl⟩
  ready := by simp
  recorded := by simp
  candidates := by rintro _ _ _ ⟨_, found, _⟩; simp at found
  owners := by rintro _ _ _ _ _ ⟨_, found, _⟩; simp at found

/-- No step lets two runs share a candidate. -/
theorem owners_step (belongs : HistoryOf host store history) (step : StoreStep host store after)
    {runId other : String} {journal journal' : RunJournal} {candidateId : String}
    (held : after.HasJournal runId journal) (held' : after.HasJournal other journal')
    (names : journal.candidateGenerationId = some candidateId)
    (names' : journal'.candidateGenerationId = some candidateId)
    : other = runId := by
  rcases step.journals held with none | ⟨old, oldHeld, _, same⟩ | ⟨fresh, named, new, _, frame⟩
  · simp [none] at names
  · rcases step.journals held' with none | ⟨old', oldHeld', _, same'⟩ | ⟨fresh', named', new', _⟩
    · simp [none] at names'
    · exact belongs.owners oldHeld oldHeld' (same.trans names) (same'.trans names')
    · obtain rfl : fresh' = candidateId := by simpa [named'] using names'
      exact absurd (belongs.candidates oldHeld (same.trans names)).1 new'
  · obtain rfl : fresh = candidateId := by simpa [named] using names
    by_contra different
    obtain ⟨run, found, content⟩ := held'
    rw [frame other different] at found
    exact new (belongs.candidates ⟨run, found, content⟩ names').1

/-- A run whose base is active and whose candidate is not in the history. -/
theorem candidate_unused (belongs : HistoryOf host store history) {runId : String}
    {journal : RunJournal} {candidateId : String} (held : store.HasJournal runId journal)
    (names : journal.candidateGenerationId = some candidateId)
    (base : journal.baseGenerationId = store.activeId)
    : candidateId ∉ history := by
  intro used
  have follows := (belongs.candidates held names).2 used
  rw [base, belongs.activeId] at follows
  exact Follows.not_last belongs.distinct follows

/-- A step that leaves the pointer alone leaves the history alone. -/
theorem unchanged (belongs : HistoryOf host store history) (step : StoreStep host store after)
    (same : after.active = store.active)
    : HistoryOf host after history where
  distinct := belongs.distinct
  pointer := by rw [same]; exact belongs.pointer
  ready := fun generationId member => step.ready (belongs.ready generationId member)
  recorded := fun generationId member => step.recorded (belongs.recorded generationId member)
  candidates := by
    intro runId journal candidateId held names
    rcases step.journals held with none | ⟨old, oldHeld, base, kept⟩ | ⟨fresh, named, new, now, _⟩
    · simp [none] at names
    · obtain ⟨recorded, follows⟩ := belongs.candidates oldHeld (kept.trans names)
      exact ⟨step.recorded recorded, by rwa [← base]⟩
    · obtain rfl : fresh = candidateId := by simpa [named] using names
      exact ⟨now, fun used => absurd (belongs.recorded _ used) new⟩
  owners := belongs.owners_step step

/-- An activation appends the candidate of the run. -/
theorem activated (belongs : HistoryOf host store history) (step : StoreStep host store after)
    {runId : String} {journal : RunJournal} {candidateId : String} {active : ActiveGeneration}
    (held : store.HasJournal runId journal)
    (names : journal.candidateGenerationId = some candidateId)
    (base : journal.baseGenerationId = store.activeId) (ready : store.Ready host candidateId)
    (points : after.PointsTo (some active)) (target : active.generationId = candidateId)
    : HistoryOf host after (history ++ [candidateId]) where
  distinct := by
    rw [List.nodup_append]
    refine ⟨belongs.distinct, by simp, ?_⟩
    rintro generationId member _ last rfl
    rw [List.mem_singleton] at last
    exact belongs.candidate_unused held names base (last ▸ member)
  pointer := .inr ⟨active, points, by simp [target]⟩
  ready := by
    intro generationId member
    rcases List.mem_append.mp member with earlier | last
    · exact step.ready (belongs.ready generationId earlier)
    · rw [List.mem_singleton.mp last]
      exact step.ready ready
  recorded := by
    intro generationId member
    rcases List.mem_append.mp member with earlier | last
    · exact step.recorded (belongs.recorded generationId earlier)
    · rw [List.mem_singleton.mp last]
      exact step.recorded (belongs.candidates held names).1
  candidates := by
    intro other found chosen found_held chosen_names
    rcases step.journals found_held with
      none | ⟨old, oldHeld, sameBase, kept⟩ | ⟨fresh, named, new, now, _⟩
    · simp [none] at chosen_names
    · obtain ⟨recorded, follows⟩ := belongs.candidates oldHeld (kept.trans chosen_names)
      refine ⟨step.recorded recorded, fun used => ?_⟩
      rcases List.mem_append.mp used with earlier | last
      · rw [← sameBase]
        exact (follows earlier).append _
      · -- the candidate just activated belongs to one run, so its base was the last entry
        rw [List.mem_singleton] at last
        subst last
        have owner := belongs.owners held oldHeld names (kept.trans chosen_names)
        subst owner
        have sameJournal := held.unique oldHeld
        subst sameJournal
        rw [← sameBase, base, belongs.activeId]
        exact ⟨history, [], rfl, rfl⟩
    · obtain rfl : fresh = chosen := by simpa [named] using chosen_names
      refine ⟨now, fun used => ?_⟩
      rcases List.mem_append.mp used with earlier | last
      · exact absurd (belongs.recorded _ earlier) new
      · rw [List.mem_singleton] at last
        exact absurd (last ▸ (belongs.candidates held names).1) new
  owners := belongs.owners_step step

end HistoryOf

/-- A step of the store with its history: either both stand still or one activation appends
the new active generation.
-/
def Recorded (host : Host) (before after : Store × List String) : Prop :=
  StoreStep host before.1 after.1
  ∧ ((after.1.active = before.1.active ∧ after.2 = before.2)
    ∨ ∃ candidateId, after.2 = before.2 ++ [candidateId])

theorem HistoryOf.follow {host : Host} {before after : Store} {history : List String}
    (step : StoreStep host before after) (belongs : HistoryOf host before history)
    : ∃ next, Recorded host (before, history) (after, next) ∧ HistoryOf host after next := by
  rcases step.pointer with
    same | ⟨runId, journal, candidateId, active, held, _, base, names, ready, points, target⟩
  · exact ⟨history, ⟨step, .inl ⟨same, rfl⟩⟩, belongs.unchanged step same⟩
  · exact ⟨history ++ [candidateId], ⟨step, .inr ⟨candidateId, rfl⟩⟩,
      belongs.activated step held names base ready points target⟩

/-- Histories only grow, and while one stands still so does the pointer. -/
def Evolves (before after : Store × List String) : Prop :=
  before.2 <+: after.2
  ∧ (after.2 = before.2 → after.1.active = before.1.active)

theorem Recorded.evolves {host : Host} {before after : Store × List String}
    (recorded : Recorded host before after)
    : Evolves before after := by
  rcases recorded.2 with ⟨same, kept⟩ | ⟨candidateId, grown⟩
  · exact ⟨by simp [kept], fun _ => same⟩
  · refine ⟨⟨[candidateId], grown.symm⟩, fun kept => ?_⟩
    rw [grown] at kept
    simp at kept

instance : IsTrans (Store × List String) Evolves where
  trans := by
    rintro first second third ⟨grows, still⟩ ⟨grows', still'⟩
    refine ⟨grows.trans grows', fun same => ?_⟩
    have unmoved : second.2 = first.2 := by
      rw [same] at grows'
      exact (grows.eq_of_length_le grows'.length_le).symm
    rw [still' (same.trans unmoved.symm), still unmoved]

section Runs

variable {host : Host}

theorem StoreStep.operationsKeep : OperationsKeep host (StoreStep host) where
  begins := beginWrite_ensures
  fills := RunsOnly.changeStaged.storeStep
  marks := markReadyWithStats_keeps.mono RunsOnly.storeStep
  publishes := publishWithStatsTyped_keeps
  closes := closeWorkspace_keeps.mono RunsOnly.storeStep
  recovers := recoverRequiredWithOwnedWriter_keeps
  registers :=
    RunsOnly.storeStep ⟨rfl, rfl, rfl, fun held => .inr ⟨_, held, rfl, rfl⟩⟩

/-- A whole run is one path of store steps. -/
theorem Service.run_path {service last : Service} {trace : List (List Store)}
    (run : Run (Service.step host) service trace last)
    : Path (StoreStep host) service.store trace.flatten last.store :=
  StoreStep.operationsKeep.run_path run

/-- The stores of a run with the histories that belong to them. -/
theorem Service.run_histories {last : Service} {trace : List (List Store)}
    (run : Run (Service.step host) {} trace last)
    : ∃ annotated : List (Store × List String),
        annotated.map Prod.fst = visited {} trace
        ∧ annotated.IsChain (Recorded host)
        ∧ ∀ pair ∈ annotated, HistoryOf host pair.1 pair.2 := by
  obtain ⟨shadowed, _, path, same, along⟩ :=
    (Service.run_path run).lift HistoryOf.follow HistoryOf.initial
  refine ⟨({}, []) :: shadowed, by simp [same, visited], path.isChain, ?_⟩
  intro pair member
  rcases List.mem_cons.mp member with rfl | later
  · exact .initial
  · exact along pair later

/-- Once the pointer has moved away from a value, no later history ends there. -/
theorem HistoryOf.never_returns {first second third : Store × List String}
    (belongs : HistoryOf host first.1 first.2) (belongs' : HistoryOf host third.1 third.2)
    (moved : Evolves first second) (later : Evolves second third)
    (changed : second.1.active ≠ first.1.active)
    : third.1.activeId ≠ first.1.activeId := by
  have grown : first.2 ≠ third.2 := by
    intro same
    have bounded := later.1.length_le
    rw [← same] at bounded
    exact changed (moved.2 (moved.1.eq_of_length_le bounded).symm)
  obtain ⟨more, extended⟩ := moved.1.trans later.1
  have nonempty : more ≠ [] := by
    rintro rfl
    exact grown (by simpa using extended)
  rw [belongs.activeId, belongs'.activeId, ← extended,
    List.getLast?_append_of_ne_nil _ nonempty, List.getLast?_eq_some_getLast nonempty]
  intro same
  have distinct := belongs'.distinct
  rw [← extended] at distinct
  exact (List.nodup_append.mp distinct).2.2 _ (List.mem_of_getLast? same.symm) _
    (List.getLast_mem nonempty) rfl

/-- A recorded step that moves the pointer finishes the one run that owns the candidate. -/
theorem HistoryOf.activation {before after : Store} {history : List String}
    (belongs : HistoryOf host before history) (step : StoreStep host before after)
    (changed : after.active ≠ before.active)
    : ∃ runId journal,
        before.HasJournal runId journal
        ∧ (journal.phase = .publishing ∨ journal.phase = .published)
        ∧ before.activeId = journal.baseGenerationId
        ∧ after.activeId = journal.candidateGenerationId
        ∧ ∀ other journal',
            before.HasJournal other journal'
            → journal'.candidateGenerationId = journal.candidateGenerationId
            → other = runId := by
  rcases step.pointer with
    still | ⟨runId, journal, candidateId, active, held, phase, base, names, _, points, target⟩
  · exact absurd still changed
  · refine ⟨runId, journal, held, phase, base.symm, ?_, ?_⟩
    · rw [points.activeId, names, Option.map_some, target]
    · intro other journal' held' names'
      exact belongs.owners held held' names (names'.trans names)

/-- In any run of operations on an empty store, with failures and crashes between any two
steps, the pointer is absent or names a ready generation; it moves only from the base of one
publishing run to the candidate of that run; a generation that was active stays ready; and the
pointer never returns to a value it has left. Witness: the history that follows the store.
-/
theorem activation_linearHistory {last : Service} {trace : List (List Store)}
    (run : Run (Service.step host) {} trace last)
    : (∀ store ∈ visited {} trace,
        store.active = .absent
        ∨ ∃ active,
            store.active = .regular (.ok active) ∧ store.Ready host active.generationId)
      ∧ (∀ before after : Store,
          [before, after] <:+: visited {} trace
          → after.active ≠ before.active
          → ∃ runId journal,
              before.HasJournal runId journal
              ∧ (journal.phase = .publishing ∨ journal.phase = .published)
              ∧ before.activeId = journal.baseGenerationId
              ∧ after.activeId = journal.candidateGenerationId
              ∧ ∀ other journal',
                  before.HasJournal other journal'
                  → journal'.candidateGenerationId = journal.candidateGenerationId
                  → other = runId)
      ∧ (∀ (first second : Store) (generationId : String),
          List.Sublist [first, second] (visited {} trace)
          → first.activeId = some generationId
          → second.Ready host generationId)
      ∧ (∀ first second third : Store,
          List.Sublist [first, second, third] (visited {} trace)
          → second.active ≠ first.active
          → third.activeId ≠ first.activeId) := by
  obtain ⟨annotated, same, chained, belong⟩ := Service.run_histories run
  rw [← same]
  have ordered : annotated.Pairwise Evolves :=
    (chained.imp (fun _ _ recorded => recorded.evolves)).pairwise
  refine ⟨?_, ?_, ?_, ?_⟩
  · intro store member
    obtain ⟨⟨_, history⟩, annotatedMember, rfl⟩ := List.mem_map.mp member
    have belongs := belong _ annotatedMember
    rcases belongs.pointer with ⟨_, absent⟩ | ⟨active, held, names⟩
    · exact .inl absent
    · exact .inr ⟨active, held, belongs.ready _ (List.mem_of_getLast? names)⟩
  · intro before after adjacent changed
    obtain ⟨history, next, inside⟩ := exists_infix_of_map_fst adjacent
    have linked := List.IsChain.infix chained inside
    have recorded := List.isChain_pair.mp linked
    exact (belong _ (inside.subset (List.mem_cons_self ..))).activation recorded.1 changed
  · intro first second generationId inOrder active
    obtain ⟨selected, mapped, inside⟩ := exists_sublist_of_map_fst inOrder
    match selected, mapped with
    | [one, two], rfl =>
        have belongs := belong one (inside.subset (by simp))
        have belongs' := belong two (inside.subset (by simp))
        have evolves := List.pairwise_pair.mp (ordered.sublist inside)
        rw [belongs.activeId] at active
        exact belongs'.ready _ (evolves.1.subset (List.mem_of_getLast? active))
  · intro first second third inOrder changed
    obtain ⟨selected, mapped, inside⟩ := exists_sublist_of_map_fst inOrder
    match selected, mapped with
    | [one, two, three], rfl =>
        have pairwise := ordered.sublist inside
        have moved : Evolves one two := List.rel_of_pairwise_cons pairwise (by simp)
        have later : Evolves two three := List.rel_of_pairwise_cons pairwise.tail (by simp)
        exact HistoryOf.never_returns (belong one (inside.subset (by simp)))
          (belong three (inside.subset (by simp))) moved later changed

end Runs

/-- A first publication that dies after its candidate was moved, and the recovery of its run. -/
def crashedPublication : List (Operation × List (Fate NativeError)) :=
  [(.beginWrite "a" "first" false [], []),
    (.fillCandidate "a" (fun files =>
      { files with database := .regular [1], manifest := .regular [2] }), []),
    (.publish "a" ⟨1, 0⟩ 5 [], List.replicate 24 .proceed ++ [.crash]),
    (.recover [⟨"a", false, 7⟩], [])]

theorem activation_linearHistory_crashedPublication
    : ∃ (trace : List (List Store)) (last : Service),
        Run (Service.step plainHost) {} trace last
        ∧ last.store.activeId = some "first"
        ∧ last.store.Ready plainHost "first" := by
  have run : Run (Service.step plainHost) {} [_, _, _, _] _ :=
    .of_execute crashedPublication rfl
  refine ⟨_, _, run, rfl, ?_⟩
  rcases (activation_linearHistory run).1 _ (Service.run_path run).last_mem with
    absent | ⟨active, held, ready⟩
  · cases absent
  · cases held
    exact ready

end CodebaseGraph.Storage
