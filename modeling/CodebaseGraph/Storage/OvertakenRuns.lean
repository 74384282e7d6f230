import CodebaseGraph.Storage.ClosedRuns
import CodebaseGraph.Storage.LinearHistory

/-! How recovery resolves a run whose candidate has been active. Its evidence is the pointer and
the base of the journal, so the run counts as published only while its candidate is still active:
a run that was overtaken before it was closed is resolved as obsolete.
-/

namespace CodebaseGraph.Storage

open CodebaseGraph.Collections CodebaseGraph.Crash CodebaseGraph.Transition Program

/-- The resolution says that the candidate was not published. -/
def RunResolution.disowns : RunResolution → Prop
  | .committed _ => False
  | .obsolete _ => True

/-- A journal that recovery still goes by. -/
def Store.Unresolved (store : Store) (runId : String) (journal : RunJournal) : Prop :=
  ∃ run,
    store.runs runId = some run ∧ run.journal = some (.ok journal) ∧ run.closed = false

theorem Store.Unresolved.hasJournal {store : Store} {runId : String} {journal : RunJournal}
    (opened : store.Unresolved runId journal)
    : store.HasJournal runId journal := by
  obtain ⟨run, found, content, -⟩ := opened
  exact ⟨run, found, content⟩

/-- The active generation is never replaced while the run it belongs to is unresolved. -/
def NeverOvertakes (stores : List Store) : Prop :=
  ∀ before after : Store,
    [before, after] <:+: stores
    → after.active ≠ before.active
    → ∀ runId journal generationId,
        before.Unresolved runId journal
        → before.activeId = some generationId
        → journal.candidateGenerationId ≠ some generationId

-- Resolutions

section Resolutions

variable {host : Host} {store : Store} {history : List String} {runId candidateId : String}
  {journal : RunJournal} {active : Option ActiveGeneration}

/-- What a resolution says of the candidate and the pointer. -/
def ResolvedBy (journal : RunJournal) (active : Option ActiveGeneration) (candidateId : String)
    (resolution : RunResolution)
    : Prop :=
  if active.map ActiveGeneration.generationId = some candidateId then ¬resolution.disowns
  else
    resolution.disowns
    ∨ active.map ActiveGeneration.generationId = journal.baseGenerationId

theorem resolveStale_disowns
    : Ensures (fun _ => True) (fun _ _ => True) (resolveStale host journal candidateId active true)
        (fun resolution _ => resolution.disowns) (fun _ _ => True) := by
  unfold resolveStale
  rw [if_neg (by decide)]
  cases active with
  | none => exact .raise (fun _ _ => trivial)
  | some current =>
      refine .bind (fun _ _ => True) (.ofExcept (fun _ _ _ _ => trivial) (fun _ _ _ _ => trivial))
        (fun _ => ?_)
      exact .bind (fun _ _ => True) (Keeps.mapError requireReady_ensures.keeps)
        (fun _ => .ret (fun _ _ => trivial))

theorem finishRunTransactionLocked_resolves {nowMs : Nat}
    (names : journal.candidateGenerationId = some candidateId)
    : Ensures (fun _ => True) (fun _ _ => True)
        (finishRunTransactionLocked host journal runId active true nowMs)
        (fun result _ => ResolvedBy journal active candidateId result.1) (fun _ _ => True) := by
  refine .bind (fun _ _ => True) (Keeps.mapError ensureRegistryEmpty_keeps) (fun _ => ?_)
  refine .bind (fun found _ => found = candidateId)
    (.ofExcept (fun _ found _ accepted => ?_) (fun _ _ _ _ => trivial)) (fun found => ?_)
  · exact Option.some.inj ((journalCandidate_eq_ok accepted).symm.trans names)
  · refine .assuming (found = candidateId) (fun _ same => same) (fun same => ?_)
    subst same
    dsimp only
    split
    case isTrue owned =>
        refine .bind (fun _ _ => True) (confirmActivated_keeps.ensures) (fun _ => ?_)
        refine .ret (fun _ _ => ?_)
        rw [ResolvedBy, if_pos owned]
        exact not_false
    case isFalse other =>
        split
        case isTrue stale =>
            refine .bind (fun resolution _ => resolution.disowns)
              (resolveStale_disowns.given (fun _ _ => trivial)) (fun resolution => ?_)
            refine .ret (fun _ disowned => ?_)
            rw [ResolvedBy, if_neg other]
            exact .inl disowned
        case isFalse based =>
            refine .bind (fun _ _ => True) (Keeps.ensures ?_) (fun _ => .ret (fun _ _ => ?_))
            · exact commitCandidate_leavesClosed.mono (fun _ => trivial)
            · rw [ResolvedBy, if_neg other]
              exact .inr (not_not.mp based)

/-- A candidate of the history is resolved as published exactly while it is active. -/
theorem HistoryOf.disowned_iff (belongs : HistoryOf host store history)
    (held : store.HasJournal runId journal)
    (names : journal.candidateGenerationId = some candidateId) (used : candidateId ∈ history)
    (points : store.PointsTo active) {nowMs : Nat} {fates : List (Fate NativeError)}
    {resolution : RunResolution} {next : Option ActiveGeneration}
    (resolved
      : (finishRunTransactionLocked host journal runId active true nowMs store fates).exit
        = .value (resolution, next))
    : resolution.disowns ↔ store.activeId ≠ some candidateId := by
  have resolves
      : Ensures (fun _ => True) (fun _ _ => True)
          (finishRunTransactionLocked host journal runId active true nowMs)
          (fun result _ => ResolvedBy journal active candidateId result.1) (fun _ _ => True) :=
    finishRunTransactionLocked_resolves names
  have ended := (resolves store fates trivial).2
  rw [resolved] at ended
  have known : ResolvedBy journal active candidateId resolution := ended
  rw [ResolvedBy, ← points.activeId] at known
  split at known
  case isTrue owned => exact iff_of_false known (not_not.mpr owned)
  case isFalse other =>
      refine iff_of_true (known.resolve_right (fun base => ?_)) other
      exact belongs.candidate_unused held names base.symm used

end Resolutions

-- Unresolved runs

/-- An unresolved run whose candidate has been active still owns the active generation. -/
def OwnersActive (store : Store) (history : List String) : Prop :=
  ∀ runId journal candidateId,
    store.Unresolved runId journal
    → journal.candidateGenerationId = some candidateId
    → candidateId ∈ history
    → history.getLast? = some candidateId

section Owners

variable {host : Host} {before after : Store} {history next : List String}

/-- The journal of an unresolved run is new, or it was unresolved before. -/
theorem Store.Unresolved.origin {runId : String} {journal : RunJournal}
    (opened : after.Unresolved runId journal) (step : StoreStep host before after)
    (closed : LeavesClosed before after)
    (belongs : HistoryOf host before history) {candidateId : String}
    (names : journal.candidateGenerationId = some candidateId) (used : candidateId ∈ history)
    : ∃ old,
        before.Unresolved runId old ∧ old.candidateGenerationId = some candidateId := by
  rcases step.journals opened.hasJournal with none | ⟨old, held, -, same⟩ | ⟨fresh, named, new, -⟩
  · rw [none] at names
    cases names
  · obtain ⟨run, found, content, unclosed⟩ := opened
    rcases closed runId run found unclosed with unwritten | ⟨earlier, present, unclosed'⟩
    · rw [unwritten] at content
      cases content
    · obtain ⟨run', found', content'⟩ := held
      obtain rfl : run' = earlier := Option.some.inj (found'.symm.trans present)
      exact ⟨old, ⟨run', found', content', unclosed'⟩, same.trans names⟩
  · obtain rfl : fresh = candidateId := by simpa [named] using names
    exact absurd (belongs.recorded _ used) new

theorem OwnersActive.initial : OwnersActive {} [] := by
  intro runId journal candidateId opened names used
  simp at used

/-- A pointer that stands still leaves the history alone. -/
theorem HistoryOf.moved (belongs : HistoryOf host before history)
    (belongs' : HistoryOf host after next) (recorded : Recorded host (before, history) (after, next))
    (grown : next ≠ history)
    : after.active ≠ before.active := by
  rcases recorded.2 with ⟨-, same⟩ | ⟨chosen, added⟩
  · exact absurd same grown
  · have added : next = history ++ [chosen] := added
    intro still
    have pointed : before.activeId = some chosen := by
      have final := belongs'.activeId
      rw [added, List.getLast?_concat] at final
      rw [← final, Store.activeId, Store.activeId, still]
    rw [belongs.activeId] at pointed
    have distinct := belongs'.distinct
    rw [added, List.nodup_append] at distinct
    exact distinct.2.2 chosen (List.mem_of_getLast? pointed) chosen (List.mem_singleton_self _) rfl

theorem OwnersActive.follow (owners : OwnersActive before history)
    (belongs : HistoryOf host before history) (belongs' : HistoryOf host after next)
    (recorded : Recorded host (before, history) (after, next)) (closed : LeavesClosed before after)
    (kept
      : after.active ≠ before.active
        → ∀ runId journal generationId,
            before.Unresolved runId journal
            → before.activeId = some generationId
            → journal.candidateGenerationId ≠ some generationId)
    : OwnersActive after next := by
  intro runId journal candidateId opened names used
  by_cases same : next = history
  · subst same
    obtain ⟨old, opened', names'⟩ := opened.origin recorded.1 closed belongs names used
    exact owners runId old candidateId opened' names' used
  · have moved := belongs.moved belongs' recorded same
    rcases recorded.2 with ⟨-, still⟩ | ⟨chosen, added⟩
    · exact absurd still same
    · have added : next = history ++ [chosen] := added
      rw [added] at used ⊢
      rcases List.mem_append.mp used with earlier | last
      · obtain ⟨old, opened', names'⟩ := opened.origin recorded.1 closed belongs names earlier
        have owner := owners runId old candidateId opened' names' earlier
        exact absurd names' (kept moved runId old candidateId opened' (belongs.activeId.trans owner))
      · rw [List.mem_singleton.mp last, List.getLast?_concat]

end Owners

-----------------------------------------------------------------------------------------
-- Whole runs
-----------------------------------------------------------------------------------------

section Runs

variable {host : Host}

/-- A step of the store with its history that leaves closed runs closed. -/
def Traced (host : Host) (before after : Store × List String) : Prop :=
  Recorded host before after ∧ LeavesClosed before.1 after.1

/-- The stores of a run with their histories; on the way closed runs stay closed. -/
theorem Service.run_traced {last : Service} {trace : List (List Store)}
    (run : Run (Service.step host) {} trace last)
    : ∃ annotated : List (Store × List String),
        annotated.map Prod.fst = visited {} trace
        ∧ annotated.head? = some ({}, [])
        ∧ annotated.IsChain (Traced host)
        ∧ ∀ pair ∈ annotated, HistoryOf host pair.1 pair.2 := by
  have path := (Service.run_path run).both (LeavesClosed.operationsKeep.run_path run)
  have follow {before after : Store} {history : List String}
      (step : StoreStep host before after ∧ LeavesClosed before after)
      (belongs : HistoryOf host before history)
      : ∃ next, Traced host (before, history) (after, next) ∧ HistoryOf host after next := by
    obtain ⟨next, recorded, belongs'⟩ := belongs.follow step.1
    exact ⟨next, ⟨recorded, step.2⟩, belongs'⟩
  obtain ⟨shadowed, _, lifted, same, along⟩ := path.lift follow HistoryOf.initial
  refine ⟨({}, []) :: shadowed, by simp [same, visited], rfl, lifted.isChain, ?_⟩
  intro pair member
  rcases List.mem_cons.mp member with rfl | later
  · exact .initial
  · exact along pair later

/-- While no unresolved run is overtaken, each one whose candidate has been active owns the
active generation.
-/
theorem OwnersActive.along {annotated : List (Store × List String)}
    {first : Store × List String} (owners : OwnersActive first.1 first.2)
    (chained : (first :: annotated).IsChain (Traced host))
    (belong : ∀ pair ∈ first :: annotated, HistoryOf host pair.1 pair.2)
    (kept : NeverOvertakes ((first :: annotated).map Prod.fst))
    : ∀ pair ∈ first :: annotated, OwnersActive pair.1 pair.2 := by
  induction annotated generalizing first with
  | nil =>
      intro pair member
      rw [List.mem_singleton.mp member]
      exact owners
  | cons second rest ih =>
      obtain ⟨⟨recorded, closed⟩, chained⟩ := List.isChain_cons_cons.mp chained
      have belongs := belong first (List.mem_cons_self ..)
      have belongs' := belong second (by simp)
      have advanced : OwnersActive second.1 second.2 :=
        owners.follow belongs belongs' recorded closed
          (kept first.1 second.1 ⟨[], rest.map Prod.fst, rfl⟩)
      intro pair member
      rcases List.mem_cons.mp member with rfl | later
      · exact owners
      · refine ih advanced chained (fun pair inside => belong pair (List.mem_cons_of_mem _ inside))
          (fun before after adjacent => kept before after ?_) pair later
        exact adjacent.trans (List.suffix_cons first.1 _).isInfix

/-- What held a pointer in the past is in the history of every later store. -/
theorem mem_history {annotated : List (Store × List String)} {last : Store × List String}
    (chained : (annotated ++ [last]).IsChain (Traced host))
    (belong : ∀ pair ∈ annotated ++ [last], HistoryOf host pair.1 pair.2)
    {past : Store} {candidateId : String} (visits : past ∈ (annotated ++ [last]).map Prod.fst)
    (active : past.activeId = some candidateId)
    : candidateId ∈ last.2 := by
  obtain ⟨pair, inside, rfl⟩ := List.mem_map.mp visits
  have used : candidateId ∈ pair.2 :=
    List.mem_of_getLast? ((belong pair inside).activeId.symm.trans active)
  rcases List.mem_append.mp inside with earlier | final
  · have ordered : (annotated ++ [last]).Pairwise Evolves :=
      (chained.imp (fun _ _ traced => traced.1.evolves)).pairwise
    have grows := (List.pairwise_append.mp ordered).2.2 pair earlier last (by simp)
    exact grows.1.subset used
  · rw [List.mem_singleton.mp final] at used
    exact used

/-- In any run, a run whose candidate has been active at some time is resolved by recovery as
not published exactly if that candidate is no longer active; and as long as no step replaces
the active generation while its run is unresolved, no unresolved run has lost it.
-/
theorem recovery_disowns_iff_overtaken {last : Service} {trace : List (List Store)}
    (run : Run (Service.step host) {} trace last)
    : ∀ (earlier : List Store) (store : Store),
        earlier ++ [store] <+: visited {} trace
        → ∀ runId journal candidateId,
            store.HasJournal runId journal
            → journal.candidateGenerationId = some candidateId
            → (∃ past ∈ earlier ++ [store], past.activeId = some candidateId)
            → (∀ active nowMs fates resolution next,
                store.PointsTo active
                → (finishRunTransactionLocked host journal runId active true nowMs store fates).exit
                  = .value (resolution, next)
                → (¬resolution.disowns ↔ store.activeId = some candidateId))
              ∧ (NeverOvertakes (earlier ++ [store])
                → store.Unresolved runId journal
                → store.activeId = some candidateId) := by
  intro earlier store reached runId journal candidateId held names ⟨past, visits, active⟩
  obtain ⟨annotated, same, started, chained, belong⟩ := Service.run_traced run
  rw [← same] at reached
  obtain ⟨before, prefixed, mapped⟩ := List.prefix_map_iff.mp reached
  obtain ⟨front, final, rfl, frontMapped, finalMapped⟩ := List.map_eq_append_iff.mp mapped.symm
  obtain ⟨pair, rfl, rfl⟩ := List.map_eq_singleton_iff.mp finalMapped
  have chained' := List.IsChain.prefix chained prefixed
  have belong' := fun pair inside => belong pair (prefixed.subset inside)
  have belongs := belong' pair (by simp)
  rw [mapped] at visits
  have used : candidateId ∈ pair.2 := mem_history chained' belong' visits active
  refine ⟨?_, ?_⟩
  · intro active nowMs fates resolution next points resolved
    exact not_iff_comm.mp (belongs.disowned_iff held names used points resolved).symm
  · intro kept opened
    rw [mapped] at kept
    have owners : OwnersActive pair.1 pair.2 := by
      obtain ⟨tail, rfl⟩ := List.head?_eq_some_iff.mp started
      rcases List.prefix_cons_iff.mp prefixed with empty | ⟨rest, whole, -⟩
      · simp at empty
      · rw [whole] at chained' belong' kept
        exact OwnersActive.initial.along chained' belong' kept pair (whole ▸ by simp)
    rw [belongs.activeId]
    exact owners runId journal candidateId opened names used

/-- Where a run has come to stays among the visited stores. -/
theorem Service.mem_visited {mid : Service} {trace : List (List Store)}
    (run : Run (Service.step host) {} trace mid) (more : List (List Store))
    : mid.store ∈ visited {} (trace ++ more) := by
  rw [visited, List.flatten_append]
  rcases List.mem_cons.mp (Service.run_path run).last_mem with start | inside
  · exact start ▸ List.mem_cons_self ..
  · exact List.mem_cons_of_mem _ (List.mem_append_left _ inside)

end Runs

/-- The first publication dies right after its candidate became active. -/
def activatedPublication : List (Operation × List (Fate NativeError)) :=
  [(.beginWrite "a" "first" true [], []),
    (.fillCandidate "a" (fun files =>
      { files with database := .regular [1], manifest := .regular [2] }), []),
    (.publish "a" ⟨1, 0⟩ 5 [], List.replicate 37 .proceed ++ [.crash])]

def secondPublication : List (Operation × List (Fate NativeError)) :=
  [(.beginWrite "b" "second" true [], []),
    (.fillCandidate "b" (fun files =>
      { files with database := .regular [1], manifest := .regular [2] }), []),
    (.publish "b" ⟨1, 0⟩ 6 [], [])]

/-- The journal that the dead publication leaves behind. -/
def activatedJournal : RunJournal :=
  { runId := "a"
    phase := .publishing
    baseGenerationId := none
    candidateGenerationId := some "first"
    activeGenerationId := none
    lastError := none }

def secondActive : ActiveGeneration :=
  { schemaVersion := managedSchemaVersion
    generationId := "second"
    publishedAt := s!"unix:{6}"
    activatedAtMs := 6 }

/-- After the second publication the first run is still unresolved. -/
theorem overtaken_publication
    : ∃ (trace : List (List Store)) (last : Service) (earlier : List Store),
        Run (Service.step plainHost) {} trace last
        ∧ earlier ++ [last.store] = visited {} trace
        ∧ last.store.HasJournal "a" activatedJournal
        ∧ (∃ past ∈ visited {} trace, past.activeId = some "first")
        ∧ last.store.PointsTo (some secondActive)
        ∧ (finishRunTransactionLocked plainHost activatedJournal "a" (some secondActive) true 7
            last.store []).exit
          = .value (.obsolete (.published "first"), some secondActive) := by
  have first : Run (Service.step plainHost) {} [_, _, _] _ :=
    .of_execute activatedPublication rfl
  have run : Run (Service.step plainHost) {} ([_, _, _] ++ [_, _, _]) _ :=
    first.append (.of_execute secondPublication rfl)
  obtain ⟨earlier, whole⟩ := List.getLast?_eq_some_iff.mp (Service.run_path run).getLast?
  refine ⟨_, _, earlier, run, whole.symm, ⟨_, rfl, rfl⟩, ?_, rfl, rfl⟩
  have past := Service.mem_visited first
  exact ⟨_, past _, rfl⟩

theorem recovery_disowns_iff_overtaken_secondPublication
    : ∃ (trace : List (List Store)) (last : Service),
        Run (Service.step plainHost) {} trace last
        ∧ (∃ past ∈ visited {} trace, past.activeId = some "first")
        ∧ last.store.activeId ≠ some "first" := by
  obtain ⟨trace, last, earlier, run, whole, held, visits, points, resolved⟩ :=
    overtaken_publication
  rw [← whole] at visits
  have told :=
    recovery_disowns_iff_overtaken run earlier last.store (whole ▸ List.prefix_refl _) "a"
      activatedJournal "first" held rfl visits
  refine ⟨trace, last, run, whole ▸ visits, fun active => ?_⟩
  exact (told.1 _ 7 [] _ _ points resolved).mpr active trivial

/-- Recovery disowns the first generation, which was active before the second one. -/
theorem recovery_disowns_activated
    : ¬ ∀ (trace : List (List Store)) (last : Service),
        Run (Service.step plainHost) {} trace last
        → ∀ (earlier : List Store) (store : Store),
            earlier ++ [store] <+: visited {} trace
            → ∀ runId journal candidateId,
                store.HasJournal runId journal
                → journal.candidateGenerationId = some candidateId
                → (∃ past ∈ earlier ++ [store], past.activeId = some candidateId)
                → ∀ active nowMs fates resolution next,
                    store.PointsTo active
                    → (finishRunTransactionLocked plainHost journal runId active true nowMs store
                        fates).exit
                      = .value (resolution, next)
                    → ¬resolution.disowns := by
  intro owned
  obtain ⟨trace, last, earlier, run, whole, held, visits, points, resolved⟩ :=
    overtaken_publication
  rw [← whole] at visits
  exact owned trace last run earlier last.store (whole ▸ List.prefix_refl _) "a" activatedJournal
    "first" held rfl visits _ 7 [] _ _ points resolved trivial

end CodebaseGraph.Storage
