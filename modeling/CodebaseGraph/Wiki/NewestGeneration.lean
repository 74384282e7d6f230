import CodebaseGraph.Collections.Lists
import CodebaseGraph.Wiki.RequestedProjection
import Mathlib.Algebra.Order.Monoid.Unbundled.WithTop

/-! The newest generation wins. The clones of a store share its files and its sequence numbers;
a call compares its token with the newest one issued, and then writes the manifest and the
pointer without holding what made the comparison true.
-/

namespace CodebaseGraph.Wiki

open CodebaseGraph.Collections CodebaseGraph.Transition

variable {functions : StoreFunctions}

-----------------------------------------------------------------------------------------
-- Clones at work
-----------------------------------------------------------------------------------------

/-- A call of `publish` in progress, or ended. -/
structure PublishCall where
  request : PublishRequest
  phase : PublishPhase := .started

def PublishPhase.isEnded : PublishPhase → Bool
  | .ended _ => true
  | _ => false

/-- Between the staleness check that passed and the write of the pointer. -/
def PublishPhase.writing : PublishPhase → Bool
  | .current _ | .manifestStaged _ | .manifestWritten _ | .pointerStaged _ => true
  | _ => false

/-- The generation is in place and the manifest not written. -/
def PublishPhase.owning : PublishPhase → Bool
  | .renamed _ | .current _ | .manifestStaged _ => true
  | _ => false

/-- One process: the store its clones share, the tokens it issued and the calls it made. -/
structure StoreProcess where
  store : ProjectionStore
  issued : List GenerationToken := []
  calls : List PublishCall := []

def StoreProcess.quiet (process : StoreProcess) : Bool := process.calls.all (fun call => call.phase.isEnded)

inductive ProcessAction where
  | begin (unique : Nat)
  | call (request : PublishRequest)
  | advance (index : Nat)

variable (functions) in
/-- Any clone begins a generation, starts a call with an issued token, or takes one step of a
call.
-/
def processStep : StepFn StoreProcess ProcessAction ProcessAction :=
  fun process action =>
    match action with
    | .begin unique =>
        let begun := process.store.beginGeneration unique
        some (action, { process with store := begun.2, issued := process.issued ++ [begun.1] })
    | .call request =>
        if request.token ∈ process.issued then
          some (action, { process with calls := process.calls ++ [{ request }] })
        else none
    | .advance index =>
        match process.calls[index]? with
        | none => none
        | some call =>
            (publishStep functions call.request call.phase process.store).map
              (fun (phase, store) =>
                (
                  action,
                  { process with store, calls := process.calls.set index { call with phase } }
                ))

/-- The sequence of the manifest on disk. -/
def ProjectionStore.publishedSequence (store : ProjectionStore) : WithBot Nat :=
  store.manifest.map (fun manifest => manifest.generation.sequence)

/-- The manifest and the pointer name one existing generation, or neither is there. -/
structure Agree (store : ProjectionStore) : Prop where
  same : store.current = store.manifest.map ProjectionManifest.generation
  existing
    : ∀ manifest,
        store.manifest = some manifest
        → ∃ directory,
            store.generations.get? manifest.generation.generationId = some directory

/-- What holds at a point of a run, of the steps that may follow. -/
structure NewestWins (step : StepFn StoreProcess ProcessAction ProcessAction)
    (process : StoreProcess)
    : Prop where
  neverDecreases
    : ∀ {trace last},
        Run step process trace last
        → process.store.publishedSequence ≤ last.store.publishedSequence
  olderIgnored
    : ∀ {index call event last},
        process.calls[index]? = some call
        → (call.request.token.sequence : WithBot Nat) < process.store.publishedSequence
        → step process (.advance index) = some (event, last)
        → last.store.manifest = process.store.manifest
  agree : process.quiet = true → Agree process.store

/-- A check does not pass while another call is between its check and its pointer. -/
def checksAlone (process : StoreProcess) (action : ProcessAction) : Bool :=
  match action with
  | .begin _ | .call _ => true
  | .advance index =>
      match process.calls[index]? with
      | some { request, phase := .renamed _ } =>
          request.token.sequence < process.store.latestIssuedSequence
            || !process.calls.any (fun call => call.phase.writing)
      | _ => true

/-- What a process finds in the directory: pointers that agree, and no sequence above the
numbers it has issued.
-/
structure Opened (store : ProjectionStore) : Prop where
  agree : Agree store
  behind : store.publishedSequence ≤ store.latestIssuedSequence

-- What one call holds

variable (functions) in
/-- What is true of the store at a phase of a call. -/
def CallHolds (store : ProjectionStore) (request : PublishRequest) : PublishPhase → Prop
  | .current _ => store.publishedSequence ≤ request.token.sequence
  | .manifestStaged _ =>
      store.publishedSequence ≤ request.token.sequence
      ∧ store.manifestTemp = some (request.manifest functions)
  | .manifestWritten _ => store.manifest = some (request.manifest functions)
  | .pointerStaged _ =>
      store.manifest = some (request.manifest functions)
      ∧ store.currentTemp = some request.pointer
  | _ => True

/-- An owner's generation exists and is not the published one. -/
structure Owns (store : ProjectionStore) (token : GenerationToken) : Prop where
  inPlace : ∃ directory, store.generations.get? token.generationId = some directory
  unpublished
    : ∀ manifest,
        store.manifest = some manifest → manifest.generation.generationId ≠ token.generationId

variable (functions) in
structure ProcessInvariant (process : StoreProcess) : Prop where
  issued
    : ∀ token ∈ process.issued, token.sequence ≤ process.store.latestIssuedSequence
  tokens : ∀ call ∈ process.calls, call.request.token ∈ process.issued
  behind : process.store.publishedSequence ≤ process.store.latestIssuedSequence
  holds
    : ∀ {index : Nat} {call : PublishCall},
        process.calls[index]? = some call
        → CallHolds functions process.store call.request call.phase
  owners
    : ∀ {index : Nat} {call : PublishCall},
        process.calls[index]? = some call
        → call.phase.owning = true
        → Owns process.store call.request.token
  distinct
    : ∀ {index other : Nat} {call call' : PublishCall},
        process.calls[index]? = some call
        → process.calls[other]? = some call'
        → call.phase.owning = true
        → call'.phase.owning = true
        → call.request.token.generationId = call'.request.token.generationId
        → index = other
  alone
    : ∀ {index other : Nat} {call call' : PublishCall},
        process.calls[index]? = some call
        → process.calls[other]? = some call'
        → call.phase.writing = true
        → call'.phase.writing = true
        → index = other
  existing
    : ∀ manifest,
        process.store.manifest = some manifest
        → ∃ directory,
            process.store.generations.get? manifest.generation.generationId = some directory
  same
    : (∀ call ∈ process.calls, call.phase.writing = false)
      → process.store.current = process.store.manifest.map ProjectionManifest.generation

-----------------------------------------------------------------------------------------
-- What one step of a call does
-----------------------------------------------------------------------------------------

/-- A change that leaves the pointers alone and takes no generation away. -/
structure SameFiles (store after : ProjectionStore) : Prop where
  manifest : after.manifest = store.manifest
  current : after.current = store.current
  manifestTemp : after.manifestTemp = store.manifestTemp
  currentTemp : after.currentTemp = store.currentTemp
  latest : after.latestIssuedSequence = store.latestIssuedSequence
  generations
    : ∀ key directory,
        store.generations.get? key = some directory → after.generations.get? key = some directory

/-- The steps of a call, by what they mean for the other calls. -/
inductive PublishMove (functions : StoreFunctions) (request : PublishRequest)
    (store : ProjectionStore)
    : PublishPhase → PublishPhase → ProjectionStore → Prop where
  | idle {phase next after} (before : phase.owning = false ∧ phase.writing = false)
    (later : next.owning = false ∧ next.writing = false) (same : SameFiles store after)
    : PublishMove functions request store phase next after
  | renamed {loaded after directory}
    (fresh : store.generations.get? request.token.generationId = none)
    (there : after.generations.get? request.token.generationId = some directory)
    (same : SameFiles store after)
    : PublishMove functions request store (.staged loaded) (.renamed loaded) after
  | stale {loaded} (problem : ProjectionStoreError)
    (older : request.token.sequence < store.latestIssuedSequence)
    : PublishMove functions request store (.renamed loaded) (.ended (.error problem))
        { store with generations := store.generations.remove request.token.generationId }
  | passed {loaded} (newest : store.latestIssuedSequence ≤ request.token.sequence)
    : PublishMove functions request store (.renamed loaded) (.current loaded) store
  | stagedManifest {loaded}
    : PublishMove functions request store (.current loaded) (.manifestStaged loaded)
        { store with manifestTemp := some (request.manifest functions) }
  | wroteManifest {loaded manifest} (temp : store.manifestTemp = some manifest)
    : PublishMove functions request store (.manifestStaged loaded) (.manifestWritten loaded)
        { store with manifest := some manifest, manifestTemp := none }
  | lostManifest {loaded} (problem : ProjectionStoreError) (temp : store.manifestTemp = none)
    : PublishMove functions request store (.manifestStaged loaded) (.ended (.error problem)) store
  | stagedPointer {loaded}
    : PublishMove functions request store (.manifestWritten loaded) (.pointerStaged loaded)
        { store with currentTemp := some request.pointer }
  | wrotePointer {loaded pointer} (temp : store.currentTemp = some pointer)
    : PublishMove functions request store (.pointerStaged loaded) (.pointerWritten loaded)
        { store with current := some pointer, currentTemp := none }
  | lostPointer {loaded} (problem : ProjectionStoreError) (temp : store.currentTemp = none)
    : PublishMove functions request store (.pointerStaged loaded) (.ended (.error problem)) store

theorem SameFiles.refl (store : ProjectionStore) : SameFiles store store :=
  ⟨rfl, rfl, rfl, rfl, rfl, fun _ _ there => there⟩

theorem loadStep_move (request : PublishRequest) (store : ProjectionStore)
    : PublishMove functions request store .started (loadStep functions request store) store := by
  refine .idle ⟨rfl, rfl⟩ ?_ (.refl store)
  unfold loadStep
  split
  · exact ⟨rfl, rfl⟩
  · split
    · exact ⟨rfl, rfl⟩
    · exact ⟨rfl, rfl⟩

theorem stageStep_move (request : PublishRequest) (loaded : Option ProjectionManifest)
    (store : ProjectionStore)
    : PublishMove functions request store (.loaded loaded)
        (stageStep functions request loaded store).1
        (stageStep functions request loaded store).2 := by
  refine .idle ⟨rfl, rfl⟩ ?_ ?_
  · simp only [stageStep]
    split
    · exact ⟨rfl, rfl⟩
    · exact ⟨rfl, rfl⟩
    · split
      · exact ⟨rfl, rfl⟩
      · split
        · exact ⟨rfl, rfl⟩
        · exact ⟨rfl, rfl⟩
  · have kept (staging : SortedMap String GenerationDirectory)
        : SameFiles store { store with staging } :=
      ⟨rfl, rfl, rfl, rfl, rfl, fun _ _ there => there⟩
    simp only [stageStep]
    split
    · exact kept _
    · exact kept _
    · split
      · exact kept _
      · split
        · exact kept _
        · exact kept _

theorem renameStep_move (request : PublishRequest) (loaded : Option ProjectionManifest)
    (store : ProjectionStore)
    : PublishMove functions request store (.staged loaded) (renameStep request loaded store).1
        (renameStep request loaded store).2 := by
  simp only [renameStep]
  split
  · exact .idle ⟨rfl, rfl⟩ ⟨rfl, rfl⟩ (.refl store)
  · next stage _ =>
      split
      · exact .idle ⟨rfl, rfl⟩ ⟨rfl, rfl⟩ (.refl store)
      · next free =>
          have fresh : store.generations.get? request.token.generationId = none := by
            simpa [SortedMap.contains] using free
          have same
              : SameFiles store
                  {
                    store with
                    staging := store.staging.remove request.token.generationId,
                    generations := store.generations.insert request.token.generationId stage
                  } := by
            refine ⟨rfl, rfl, rfl, rfl, rfl, ?_⟩
            intro key directory there
            have other : key ≠ request.token.generationId := by
              rintro rfl
              simp [fresh] at there
            simpa only [SortedMap.get?_insert_of_ne _ _ other] using there
          split
          · exact .idle ⟨rfl, rfl⟩ ⟨rfl, rfl⟩ same
          · exact .renamed fresh (SortedMap.get?_insert_self ..) same

theorem checkStep_move (request : PublishRequest) (loaded : Option ProjectionManifest)
    (store : ProjectionStore)
    : PublishMove functions request store (.renamed loaded) (checkStep request loaded store).1
        (checkStep request loaded store).2 := by
  simp only [checkStep]
  split
  · next older => exact .stale _ older
  · next newest => exact .passed (Nat.le_of_not_lt newest)

theorem publishStep_move {request : PublishRequest} {phase next : PublishPhase}
    {store after : ProjectionStore}
    (taken : publishStep functions request phase store = some (next, after))
    : PublishMove functions request store phase next after := by
  cases phase with
  | started =>
      obtain ⟨rfl, rfl⟩ := Prod.mk.inj (Option.some.inj taken)
      exact loadStep_move request store
  | loaded manifest =>
      obtain ⟨rfl, rfl⟩ := Prod.ext_iff.mp (Option.some.inj taken)
      exact stageStep_move request manifest store
  | staged manifest =>
      obtain ⟨rfl, rfl⟩ := Prod.ext_iff.mp (Option.some.inj taken)
      exact renameStep_move request manifest store
  | renamed manifest =>
      obtain ⟨rfl, rfl⟩ := Prod.ext_iff.mp (Option.some.inj taken)
      exact checkStep_move request manifest store
  | current manifest =>
      obtain ⟨rfl, rfl⟩ := Prod.mk.inj (Option.some.inj taken)
      exact .stagedManifest
  | manifestStaged manifest =>
      cases temp : store.manifestTemp with
      | none =>
          simp only [publishStep, temp, Option.some.injEq, Prod.mk.injEq] at taken
          obtain ⟨rfl, rfl⟩ := taken
          exact .lostManifest _ temp
      | some written =>
          simp only [publishStep, temp, Option.some.injEq, Prod.mk.injEq] at taken
          obtain ⟨rfl, rfl⟩ := taken
          exact .wroteManifest temp
  | manifestWritten manifest =>
      obtain ⟨rfl, rfl⟩ := Prod.mk.inj (Option.some.inj taken)
      exact .stagedPointer
  | pointerStaged manifest =>
      cases temp : store.currentTemp with
      | none =>
          simp only [publishStep, temp, Option.some.injEq, Prod.mk.injEq] at taken
          obtain ⟨rfl, rfl⟩ := taken
          exact .lostPointer _ temp
      | some written =>
          simp only [publishStep, temp, Option.some.injEq, Prod.mk.injEq] at taken
          obtain ⟨rfl, rfl⟩ := taken
          exact .wrotePointer temp
  | pointerWritten manifest =>
      obtain ⟨rfl, rfl⟩ := Prod.mk.inj (Option.some.inj taken)
      exact .idle ⟨rfl, rfl⟩ ⟨rfl, rfl⟩ ⟨rfl, rfl, rfl, rfl, rfl, fun _ _ there => there⟩
  | cached manifest =>
      obtain ⟨rfl, rfl⟩ := Prod.mk.inj (Option.some.inj taken)
      exact .idle ⟨rfl, rfl⟩ ⟨rfl, rfl⟩ ⟨rfl, rfl, rfl, rfl, rfl, fun _ _ there => there⟩
  | ended ending => cases taken

-----------------------------------------------------------------------------------------
-- The invariant of a process
-----------------------------------------------------------------------------------------

theorem CallHolds.frame {store after : ProjectionStore} {request : PublishRequest}
    {phase : PublishPhase} (holds : CallHolds functions store request phase)
    (manifest : after.manifest = store.manifest)
    (manifestTemp : after.manifestTemp = store.manifestTemp)
    (currentTemp : after.currentTemp = store.currentTemp)
    : CallHolds functions after request phase := by
  cases phase <;>
    simp_all only [CallHolds, ProjectionStore.publishedSequence, and_self]

theorem CallHolds.of_idle (store : ProjectionStore) (request : PublishRequest)
    {phase : PublishPhase} (idle : phase.writing = false)
    : CallHolds functions store request phase := by
  cases phase <;> trivial

theorem Owns.frame {store after : ProjectionStore} {token : GenerationToken}
    (owns : Owns store token) (manifest : after.manifest = store.manifest)
    (generations
      : ∀ directory,
          store.generations.get? token.generationId = some directory
          → after.generations.get? token.generationId = some directory)
    : Owns after token := by
  obtain ⟨directory, there⟩ := owns.inPlace
  exact ⟨⟨directory, generations directory there⟩, by rw [manifest]; exact owns.unpublished⟩

/-- What a step of one call has to show for the invariant to hold after it. -/
structure Advance (functions : StoreFunctions) (process : StoreProcess) (index : Nat)
    (request : PublishRequest) (phase next : PublishPhase) (after : ProjectionStore)
    : Prop where
  latest : after.latestIssuedSequence = process.store.latestIssuedSequence
  behind : after.publishedSequence ≤ process.store.latestIssuedSequence
  self : CallHolds functions after request next
  owned : next.owning = true → Owns after request.token
  fresh
    : next.owning = true
      → phase.owning = true
        ∨ process.store.generations.get? request.token.generationId = none
  exclusive
    : next.writing = true
      → ∀ other call,
          other ≠ index → process.calls[other]? = some call → call.phase.writing = false
  othersHold
    : ∀ other call,
        other ≠ index
        → process.calls[other]? = some call
        → CallHolds functions after call.request call.phase
  othersOwn
    : ∀ other call,
        other ≠ index
        → process.calls[other]? = some call
        → call.phase.owning = true
        → Owns after call.request.token
  existing
    : ∀ manifest,
        after.manifest = some manifest
        → ∃ directory,
            after.generations.get? manifest.generation.generationId = some directory
  same
    : next.writing = false
      → (phase.writing = false
        → process.store.current = process.store.manifest.map ProjectionManifest.generation)
      → after.current = after.manifest.map ProjectionManifest.generation

theorem ProcessInvariant.advance {process : StoreProcess}
    (holds : ProcessInvariant functions process) {index : Nat} {call : PublishCall}
    (found : process.calls[index]? = some call) {next : PublishPhase} {after : ProjectionStore}
    (advance : Advance functions process index call.request call.phase next after)
    : ProcessInvariant functions
        {
          process with
          store := after, calls := process.calls.set index { call with phase := next }
        } where
  issued token inside := by
    rw [advance.latest]
    exact holds.issued token inside
  tokens changed inside := by
    rcases List.mem_or_eq_of_mem_set inside with old | rfl
    · exact holds.tokens changed old
    · exact holds.tokens call (List.mem_of_getElem? found)
  behind := by
    rw [advance.latest]
    exact advance.behind
  holds there := by
    rcases getElem?_set_cases there with ⟨rfl, rfl⟩ | ⟨other, old⟩
    · exact advance.self
    · exact advance.othersHold _ _ other old
  owners there owning := by
    rcases getElem?_set_cases there with ⟨rfl, rfl⟩ | ⟨other, old⟩
    · exact advance.owned owning
    · exact advance.othersOwn _ _ other old owning
  distinct there there' owning owning' same := by
    -- a generation that was not there before is nobody else's
    have apart {other : Nat} {call' : PublishCall} (old : process.calls[other]? = some call')
        (owning : call'.phase.owning = true) (owned : next.owning = true)
        (same : call.request.token.generationId = call'.request.token.generationId)
        : index = other := by
      rcases advance.fresh owned with before | absent
      · exact holds.distinct found old before owning same
      · obtain ⟨directory, inPlace⟩ := (holds.owners old owning).inPlace
        rw [← same, absent] at inPlace
        cases inPlace
    rcases getElem?_set_cases there with ⟨rfl, rfl⟩ | ⟨other, old⟩
    · rcases getElem?_set_cases there' with ⟨rfl, rfl⟩ | ⟨other', old'⟩
      · rfl
      · exact apart old' owning' owning same
    · rcases getElem?_set_cases there' with ⟨rfl, rfl⟩ | ⟨other', old'⟩
      · exact (apart old owning owning' same.symm).symm
      · exact holds.distinct old old' owning owning' same
  alone there there' writing writing' := by
    rcases getElem?_set_cases there with ⟨rfl, rfl⟩ | ⟨other, old⟩
    · rcases getElem?_set_cases there' with ⟨rfl, rfl⟩ | ⟨other', old'⟩
      · rfl
      · exact absurd writing' (by simp [advance.exclusive writing _ _ other' old'])
    · rcases getElem?_set_cases there' with ⟨rfl, rfl⟩ | ⟨other', old'⟩
      · exact absurd writing (by simp [advance.exclusive writing' _ _ other old])
      · exact holds.alone old old' writing writing'
  existing := advance.existing
  same := by
    intro silent
    refine advance.same ?_ ?_
    · have inBounds := (List.getElem?_eq_some_iff.mp found).1
      exact silent _ (List.mem_set inBounds _)
    · intro quiet
      refine holds.same ?_
      intro old inside
      obtain ⟨other, there⟩ := List.getElem?_of_mem inside
      by_cases here : other = index
      · subst here
        obtain rfl := Option.some.inj (found.symm.trans there)
        exact quiet
      · refine silent old (List.mem_of_getElem? (i := other) ?_)
        rw [List.getElem?_set_ne (Ne.symm here)]
        exact there

variable {process : StoreProcess} {index : Nat} {call : PublishCall}

/-- While one call writes no other does. -/
theorem ProcessInvariant.silent (holds : ProcessInvariant functions process)
    (found : process.calls[index]? = some call) (writing : call.phase.writing = true)
    : ∀ other call',
        other ≠ index → process.calls[other]? = some call' → call'.phase.writing = false := by
  intro other call' different there
  by_contra busy
  exact different (holds.alone there found (by simpa using busy) writing)

/-- A step that leaves the pointers alone and takes no generation away. -/
theorem ProcessInvariant.unmoved (holds : ProcessInvariant functions process)
    {next : PublishPhase} {after : ProjectionStore} (sameFiles : SameFiles process.store after)
    (phases : call.phase.writing = false ∧ next.writing = false)
    (owned
      : next.owning = true
        → process.store.generations.get? call.request.token.generationId = none
          ∧ Owns after call.request.token)
    : Advance functions process index call.request call.phase next after where
  latest := sameFiles.latest
  behind := by
    simp only [ProjectionStore.publishedSequence, sameFiles.manifest]
    exact holds.behind
  self := .of_idle after call.request phases.2
  owned owning := (owned owning).2
  fresh owning := Or.inr (owned owning).1
  exclusive writing := absurd writing (by simp [phases.2])
  othersHold other call' _ there :=
    (holds.holds there).frame sameFiles.manifest sameFiles.manifestTemp sameFiles.currentTemp
  othersOwn other call' _ there owning :=
    (holds.owners there owning).frame sameFiles.manifest (sameFiles.generations _)
  existing manifest found := by
    rw [sameFiles.manifest] at found
    obtain ⟨directory, there⟩ := holds.existing manifest found
    exact ⟨directory, sameFiles.generations _ _ there⟩
  same _ old := by
    rw [sameFiles.current, sameFiles.manifest]
    exact old phases.1

/-- A stale call takes its own generation away, which nobody else uses. -/
theorem ProcessInvariant.removed (holds : ProcessInvariant functions process)
    (found : process.calls[index]? = some call) {loaded : Option ProjectionManifest}
    (phase : call.phase = .renamed loaded) (problem : ProjectionStoreError)
    : Advance functions process index call.request call.phase (.ended (.error problem))
        {
          process.store with
          generations := process.store.generations.remove call.request.token.generationId
        } where
  latest := rfl
  behind := holds.behind
  self := trivial
  owned owning := by cases owning
  fresh owning := by cases owning
  exclusive writing := by cases writing
  othersHold other call' _ there := (holds.holds there).frame rfl rfl rfl
  othersOwn other call' different there owning := by
    refine (holds.owners there owning).frame rfl ?_
    intro directory stored
    have apart : call'.request.token.generationId ≠ call.request.token.generationId :=
      fun same => different (holds.distinct there found owning (by rw [phase]; rfl) same)
    simpa [SortedMap.get?_remove, apart] using stored
  existing manifest published := by
    obtain ⟨directory, there⟩ := holds.existing manifest published
    have apart := (holds.owners found (by rw [phase]; rfl)).unpublished manifest published
    exact ⟨directory, by simpa [SortedMap.get?_remove, apart] using there⟩
  same _ old := old (by rw [phase]; rfl)

/-- A call whose token is the newest goes on, when nobody else is writing. -/
theorem ProcessInvariant.passed (holds : ProcessInvariant functions process)
    (found : process.calls[index]? = some call) {loaded : Option ProjectionManifest}
    (phase : call.phase = .renamed loaded)
    (newest : process.store.latestIssuedSequence ≤ call.request.token.sequence)
    (alone : ∀ call ∈ process.calls, call.phase.writing = false)
    : Advance functions process index call.request call.phase (.current loaded)
        process.store where
  latest := rfl
  behind := holds.behind
  self := holds.behind.trans (WithBot.coe_le_coe.mpr newest)
  owned _ := holds.owners found (by rw [phase]; rfl)
  fresh _ := Or.inl (by rw [phase]; rfl)
  exclusive _ other call' _ there := alone call' (List.mem_of_getElem? there)
  othersHold other call' _ there := holds.holds there
  othersOwn other call' _ there owning := holds.owners there owning
  existing := holds.existing
  same writing _ := by cases writing

/-- The manifest goes to its temporary file. -/
theorem ProcessInvariant.stagedManifest (holds : ProcessInvariant functions process)
    (found : process.calls[index]? = some call) {loaded : Option ProjectionManifest}
    (phase : call.phase = .current loaded)
    : Advance functions process index call.request call.phase (.manifestStaged loaded)
        { process.store with manifestTemp := some (call.request.manifest functions) } := by
  have silent := holds.silent found (by rw [phase]; rfl)
  have now := holds.holds found
  rw [phase] at now
  exact {
    latest := rfl,
    behind := holds.behind,
    self := ⟨now, rfl⟩,
    owned _ := (holds.owners found (by rw [phase]; rfl)).frame rfl (fun _ there => there),
    fresh _ := Or.inl (by rw [phase]; rfl),
    exclusive _ := silent,
    othersHold other call' different there := .of_idle _ _ (silent other call' different there),
    othersOwn other call' _ there owning :=
      (holds.owners there owning).frame rfl (fun _ stored => stored),
    existing := holds.existing,
    same writing _ := by cases writing
  }

/-- The manifest takes the place of the published one, which is not newer. -/
theorem ProcessInvariant.wroteManifest (holds : ProcessInvariant functions process)
    (found : process.calls[index]? = some call) {loaded : Option ProjectionManifest}
    (phase : call.phase = .manifestStaged loaded)
    : Advance functions process index call.request call.phase (.manifestWritten loaded)
        {
          process.store with
          manifest := some (call.request.manifest functions), manifestTemp := none
        } := by
  have silent := holds.silent found (by rw [phase]; rfl)
  have owned := holds.owners found (by rw [phase]; rfl)
  exact {
    latest := rfl,
    behind := by
      have issued := holds.issued _ (holds.tokens call (List.mem_of_getElem? found))
      exact WithBot.coe_le_coe.mpr issued,
    self := rfl,
    owned owning := by cases owning
    fresh owning := by cases owning
    exclusive _ := silent,
    othersHold other call' different there := .of_idle _ _ (silent other call' different there),
    othersOwn other call' different there owning := by
      refine ⟨(holds.owners there owning).inPlace, ?_⟩
      intro manifest published same
      obtain rfl := Option.some.inj published
      exact different (holds.distinct there found owning (by rw [phase]; rfl) same.symm)
    existing manifest published := by
      obtain rfl := Option.some.inj published
      exact owned.inPlace
    same writing _ := by cases writing
  }

/-- The pointer goes to its temporary file. -/
theorem ProcessInvariant.stagedPointer (holds : ProcessInvariant functions process)
    (found : process.calls[index]? = some call) {loaded : Option ProjectionManifest}
    (phase : call.phase = .manifestWritten loaded)
    : Advance functions process index call.request call.phase (.pointerStaged loaded)
        { process.store with currentTemp := some call.request.pointer } := by
  have silent := holds.silent found (by rw [phase]; rfl)
  have now := holds.holds found
  rw [phase] at now
  exact {
    latest := rfl,
    behind := holds.behind,
    self := ⟨now, rfl⟩,
    owned owning := by cases owning
    fresh owning := by cases owning
    exclusive _ := silent,
    othersHold other call' different there := .of_idle _ _ (silent other call' different there),
    othersOwn other call' _ there owning :=
      (holds.owners there owning).frame rfl (fun _ stored => stored),
    existing := holds.existing,
    same writing _ := by cases writing
  }

/-- The pointer names the generation of the manifest again. -/
theorem ProcessInvariant.wrotePointer (holds : ProcessInvariant functions process)
    (found : process.calls[index]? = some call) {loaded : Option ProjectionManifest}
    (phase : call.phase = .pointerStaged loaded)
    : Advance functions process index call.request call.phase (.pointerWritten loaded)
        { process.store with current := some call.request.pointer, currentTemp := none } := by
  have silent := holds.silent found (by rw [phase]; rfl)
  have now := holds.holds found
  rw [phase] at now
  exact {
    latest := rfl,
    behind := holds.behind,
    self := trivial,
    owned owning := by cases owning
    fresh owning := by cases owning
    exclusive writing := by cases writing
    othersHold other call' different there := .of_idle _ _ (silent other call' different there),
    othersOwn other call' _ there owning :=
      (holds.owners there owning).frame rfl (fun _ stored => stored),
    existing := holds.existing,
    same _ _ := by
      simp only [now.1, Option.map_some]
      rfl
  }

-----------------------------------------------------------------------------------------
-- Runs of a process
-----------------------------------------------------------------------------------------

variable (functions) in
/-- The steps of a process in which the checks that pass are alone. -/
def guardedStep : StepFn StoreProcess ProcessAction ProcessAction :=
  restrict (processStep functions) (fun process action => checksAlone process action = true)

/-- What advancing a call does. -/
theorem advance_cases {event : ProcessAction} {last : StoreProcess}
    (taken : processStep functions process (.advance index) = some (event, last))
    : ∃ call next after,
        process.calls[index]? = some call
        ∧ PublishMove functions call.request process.store call.phase next after
        ∧ last
          = {
              process with
              store := after, calls := process.calls.set index { call with phase := next }
            } := by
  cases found : process.calls[index]? with
  | none => simp [processStep, found] at taken
  | some call =>
      simp only [processStep, found, Option.map_eq_some_iff, Prod.mk.injEq] at taken
      obtain ⟨⟨next, after⟩, moved, _, rfl⟩ := taken
      exact ⟨call, next, after, rfl, publishStep_move moved, rfl⟩

theorem ProcessInvariant.begin (holds : ProcessInvariant functions process) (unique : Nat)
    : ProcessInvariant functions
        {
          process with
          store := (process.store.beginGeneration unique).2,
          issued := process.issued ++ [(process.store.beginGeneration unique).1]
        } where
  issued token inside := by
    rcases List.mem_append.mp inside with old | new
    · exact (holds.issued token old).trans (Nat.le_succ _)
    · obtain rfl := List.mem_singleton.mp new
      exact le_rfl
  tokens call inside := List.mem_append_left _ (holds.tokens call inside)
  behind := holds.behind.trans (WithBot.coe_le_coe.mpr (Nat.le_succ _))
  holds there := (holds.holds there).frame rfl rfl rfl
  owners there owning := (holds.owners there owning).frame rfl (fun _ stored => stored)
  distinct := holds.distinct
  alone := holds.alone
  existing := holds.existing
  same := holds.same

theorem ProcessInvariant.called (holds : ProcessInvariant functions process)
    {request : PublishRequest} (token : request.token ∈ process.issued)
    : ProcessInvariant functions { process with calls := process.calls ++ [{ request }] } := by
  have old {other : Nat} {call : PublishCall}
      (there : (process.calls ++ [({ request } : PublishCall)])[other]? = some call)
      : process.calls[other]? = some call ∨ call = .mk request .started := by
    rcases getElem?_concat_cases there with before | ⟨_, new⟩
    · exact Or.inl before
    · exact Or.inr new
  exact {
    issued := holds.issued,
    tokens := by
      intro call inside
      rcases List.mem_append.mp inside with before | new
      · exact holds.tokens call before
      · obtain rfl := List.mem_singleton.mp new
        exact token
    behind := holds.behind,
    holds there := by
      rcases old there with before | rfl
      · exact holds.holds before
      · trivial
    owners there owning := by
      rcases old there with before | rfl
      · exact holds.owners before owning
      · cases owning
    distinct there there' owning owning' same := by
      rcases old there with before | rfl
      · rcases old there' with before' | rfl
        · exact holds.distinct before before' owning owning' same
        · cases owning'
      · cases owning
    alone there there' writing writing' := by
      rcases old there with before | rfl
      · rcases old there' with before' | rfl
        · exact holds.alone before before' writing writing'
        · cases writing'
      · cases writing
    existing := holds.existing,
    same silent := holds.same (fun call inside => silent call (List.mem_append_left _ inside))
  }

/-- One step of a call whose checks are alone, by its moves. -/
theorem ProcessInvariant.move (holds : ProcessInvariant functions process)
    (found : process.calls[index]? = some call) {next : PublishPhase} {after : ProjectionStore}
    (move : PublishMove functions call.request process.store call.phase next after)
    (allowed : checksAlone process (.advance index) = true)
    : Advance functions process index call.request call.phase next after := by
  generalize phase : call.phase = current at move
  rw [← phase]
  cases move with
  | idle before later same =>
      rw [← phase] at before
      exact holds.unmoved same ⟨before.2, later.2⟩
        (fun owning => absurd owning (by simp [later.1]))
  | renamed fresh there same =>
      refine holds.unmoved same ⟨by rw [phase]; rfl, rfl⟩ (fun _ => ⟨fresh, ⟨_, there⟩, ?_⟩)
      intro manifest published equal
      rw [same.manifest] at published
      obtain ⟨directory, stored⟩ := holds.existing manifest published
      rw [equal, fresh] at stored
      cases stored
  | stale problem older => exact holds.removed found phase problem
  | passed newest =>
      refine holds.passed found phase newest ?_
      obtain ⟨request, current⟩ := call
      subst phase
      simp only [checksAlone, found, Bool.or_eq_true, decide_eq_true_eq] at allowed
      rcases allowed with older | alone
      · exact absurd older (Nat.not_lt.mpr newest)
      · simpa using alone
  | stagedManifest => exact holds.stagedManifest found phase
  | wroteManifest temp =>
      have now := holds.holds found
      rw [phase] at now
      obtain rfl := Option.some.inj (temp.symm.trans now.2)
      exact holds.wroteManifest found phase
  | lostManifest problem temp =>
      have now := holds.holds found
      rw [phase] at now
      exact absurd (temp.symm.trans now.2) (by simp)
  | stagedPointer => exact holds.stagedPointer found phase
  | wrotePointer temp =>
      have now := holds.holds found
      rw [phase] at now
      obtain rfl := Option.some.inj (temp.symm.trans now.2)
      exact holds.wrotePointer found phase
  | lostPointer problem temp =>
      have now := holds.holds found
      rw [phase] at now
      exact absurd (temp.symm.trans now.2) (by simp)

theorem ProcessInvariant.step (holds : ProcessInvariant functions process)
    {action event : ProcessAction} {last : StoreProcess}
    (taken : guardedStep functions process action = some (event, last))
    : ProcessInvariant functions last := by
  obtain ⟨allowed, taken⟩ := restrict_eq_some.mp taken
  cases action with
  | begin unique =>
      obtain ⟨_, rfl⟩ := Prod.mk.inj (Option.some.inj taken)
      exact holds.begin unique
  | call request =>
      simp only [processStep] at taken
      split at taken
      · next token =>
          obtain ⟨_, rfl⟩ := Prod.mk.inj (Option.some.inj taken)
          exact holds.called token
      · cases taken
  | advance index =>
      obtain ⟨call, next, after, found, move, rfl⟩ := advance_cases taken
      exact holds.advance found (holds.move found move allowed)

/-- Only the step that writes a manifest changes it, and what it writes is not older. -/
theorem ProcessInvariant.manifest_cases (holds : ProcessInvariant functions process)
    (found : process.calls[index]? = some call) {next : PublishPhase} {after : ProjectionStore}
    (move : PublishMove functions call.request process.store call.phase next after)
    : after.manifest = process.store.manifest
      ∨ (after.manifest = some (call.request.manifest functions)
        ∧ process.store.publishedSequence ≤ call.request.token.sequence) := by
  generalize phase : call.phase = current at move
  cases move with
  | idle before later same => exact Or.inl same.manifest
  | renamed fresh there same => exact Or.inl same.manifest
  | wroteManifest temp =>
      have now := holds.holds found
      rw [phase] at now
      exact Or.inr ⟨temp.symm.trans now.2, now.1⟩
  | stale problem older => exact Or.inl rfl
  | passed newest => exact Or.inl rfl
  | stagedManifest => exact Or.inl rfl
  | lostManifest problem temp => exact Or.inl rfl
  | stagedPointer => exact Or.inl rfl
  | wrotePointer temp => exact Or.inl rfl
  | lostPointer problem temp => exact Or.inl rfl

theorem ProcessInvariant.grows (holds : ProcessInvariant functions process)
    {action event : ProcessAction} {last : StoreProcess}
    (taken : guardedStep functions process action = some (event, last))
    : process.store.publishedSequence ≤ last.store.publishedSequence := by
  obtain ⟨_, taken⟩ := restrict_eq_some.mp taken
  cases action with
  | begin unique =>
      obtain ⟨_, rfl⟩ := Prod.mk.inj (Option.some.inj taken)
      exact le_rfl
  | call request =>
      simp only [processStep] at taken
      split at taken
      · obtain ⟨_, rfl⟩ := Prod.mk.inj (Option.some.inj taken)
        exact le_rfl
      · cases taken
  | advance index =>
      obtain ⟨call, next, after, found, move, rfl⟩ := advance_cases taken
      rcases holds.manifest_cases found move with kept | ⟨written, newer⟩
      · exact le_of_eq (by rw [ProjectionStore.publishedSequence, ← kept]; rfl)
      · refine newer.trans ?_
        simp only [ProjectionStore.publishedSequence, written]
        exact le_rfl

theorem processInvariant_opened {start : ProjectionStore} (opened : Opened start)
    : ProcessInvariant functions { store := start } where
  issued token inside := by cases inside
  tokens call inside := by cases inside
  behind := opened.behind
  holds there := by cases there
  owners there owning := by cases there
  distinct there := by cases there
  alone there := by cases there
  existing := opened.agree.existing
  same _ := opened.agree.same

/-- In every run whose passing checks are alone the newest generation wins. Witness: what the
calls hold at their phases, and the growth of the published sequence along the steps that
follow.
-/
theorem newestGeneration_wins {start : ProjectionStore} (opened : Opened start)
    {trace : List ProcessAction} {process : StoreProcess}
    (run : Run (guardedStep functions) { store := start } trace process)
    : NewestWins (guardedStep functions) process := by
  have holds : ProcessInvariant functions process :=
    run.invariant (processInvariant_opened opened) (fun holds taken => holds.step taken)
  refine ⟨?_, ?_, ?_⟩
  · intro trace' last later
    have grown
        : ProcessInvariant functions last
          ∧ process.store.publishedSequence ≤ last.store.publishedSequence := by
      refine later.invariant (motive := fun last => ProcessInvariant functions last
        ∧ process.store.publishedSequence ≤ last.store.publishedSequence) ⟨holds, le_rfl⟩ ?_
      rintro mid action event next ⟨invariant, grown⟩ taken
      exact ⟨invariant.step taken, grown.trans (invariant.grows taken)⟩
    exact grown.2
  · intro index call event last found older taken
    obtain ⟨call', next, after, found', move, rfl⟩ :=
      advance_cases (restrict_eq_some.mp taken).2
    obtain rfl := Option.some.inj (found.symm.trans found')
    rcases holds.manifest_cases found move with kept | ⟨_, newer⟩
    · exact kept
    · exact absurd newer (not_le_of_gt older)
  · intro quiet
    refine ⟨holds.same ?_, holds.existing⟩
    intro call inside
    have ended := List.all_eq_true.mp quiet call inside
    cases phase : call.phase <;> simp_all [PublishPhase.isEnded, PublishPhase.writing]

theorem opened_empty : Opened {} where
  agree := ⟨rfl, fun _ found => absurd found (by simp)⟩
  behind := bot_le

def firstBuild : PublishRequest := sampleRequest 1 [emptyBundle "a" "A"]

def secondBuild : PublishRequest := sampleRequest 2 [emptyBundle "b" "B"]

/-- Begins a generation and starts its build. -/
def beginBuild (request : PublishRequest) : List ProcessAction :=
  [.begin 0x18c0ffee, .call request]

def publishedAt (sequence : Nat) (process : StoreProcess) : Bool :=
  process.store.manifest.map (·.generation.sequence) = some sequence

def inOrder : List ProcessAction :=
  beginBuild firstBuild ++ List.replicate 10 (.advance 0)
    ++ (beginBuild secondBuild ++ List.replicate 10 (.advance 1))

/-- Two builds one after the other. -/
theorem newestGeneration_wins_inOrder
    : ∃ trace process,
        Run (guardedStep sampleFunctions) { store := {} } trace process
        ∧ publishedAt 2 process = true
        ∧ NewestWins (guardedStep sampleFunctions) process := by
  have executed
      : (execute (guardedStep sampleFunctions) { store := {} } inOrder).map
          (fun result => publishedAt 2 result.2)
        = some true := by
    decide +kernel
  obtain ⟨trace, process, run, published⟩ :=
    Run.exists_of_execute inOrder (publishedAt 2) executed
  exact ⟨trace, process, run, published, newestGeneration_wins opened_empty run⟩

/-- The first build passes its check, and then the second one writes its manifest. -/
def overtaken : List ProcessAction :=
  beginBuild firstBuild ++ List.replicate 4 (.advance 0)
    ++ (beginBuild secondBuild ++ List.replicate 6 (.advance 1))

/-- The process in which both builds are about to write or have written. -/
def overtakenProcess : StoreProcess :=
  ((execute (processStep sampleFunctions) { store := {} } overtaken).map Prod.snd).getD
    { store := {} }

theorem overtakenProcess_run
    : ∃ trace, Run (processStep sampleFunctions) { store := {} } trace overtakenProcess := by
  have executed
      : (execute (processStep sampleFunctions) { store := {} } overtaken).isSome = true := by
    decide +kernel
  obtain ⟨⟨trace, process⟩, result⟩ := Option.isSome_iff_exists.mp executed
  refine ⟨trace, ?_⟩
  rw [overtakenProcess, result]
  exact .of_execute overtaken result

/-- A build that has passed its check replaces the manifest of a newer one. -/
theorem newestGeneration_overtaken
    : ¬ ∀ (functions : StoreFunctions) (start : ProjectionStore), Opened start
        → ∀ (trace : List ProcessAction) (process : StoreProcess),
            Run (processStep functions) { store := start } trace process
            → NewestWins (processStep functions) process := by
  intro holds
  obtain ⟨trace, run⟩ := overtakenProcess_run
  have wins := holds sampleFunctions {} opened_empty trace overtakenProcess run
  have executed
      : (execute (processStep sampleFunctions) overtakenProcess
            (List.replicate 2 (.advance 0))).map
          (fun result => publishedAt 1 result.2)
        = some true := by
    decide +kernel
  obtain ⟨later, last, run', older⟩ := Run.exists_of_execute _ (publishedAt 1) executed
  have newer : publishedAt 2 overtakenProcess = true := by decide +kernel
  have grown := wins.neverDecreases run'
  simp only [publishedAt, decide_eq_true_eq] at older newer
  rw [ProjectionStore.publishedSequence, ProjectionStore.publishedSequence, older, newer] at grown
  exact absurd (WithBot.coe_le_coe.mp grown) (by decide)

end CodebaseGraph.Wiki
