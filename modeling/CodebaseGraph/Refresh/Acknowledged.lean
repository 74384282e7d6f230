import CodebaseGraph.Refresh.Effects

/-! What an acknowledged epoch says about the change that it numbers.
`mark_refreshing` captures the dirty epoch when an attempt begins, not when its batch was
collected, so that an epoch may be acknowledged whose change is still on its way to a batch.
-/

namespace CodebaseGraph.Refresh

open CodebaseGraph.Transition

variable {filter : WatchEventFilter} {backend : GraphRefreshBackend}
  {state next : LeaderState}

/-- A refresh of the batch processes the change: it is a full rescan, or it lists every path of
the change and there is one.
-/
def WatchChangeBatch.coversChange (filter : WatchEventFilter) (batch : WatchChangeBatch)
    : Change → Prop
  | .event event => batch.coversEvent filter event
  | .batch change =>
      batch.fullRescan = true
      ∨ (change.fullRescan = false
        ∧ change.paths ≠ []
        ∧ ∀ path ∈ change.paths, path ∈ batch.paths)

instance (batch : WatchChangeBatch) (change : Change)
    : Decidable (batch.coversChange filter change) :=
  match change with
  | .event event => inferInstanceAs (Decidable (batch.coversEvent filter event))
  | .batch _ => inferInstanceAs (Decidable (_ ∨ _))

namespace WatchChangeBatch

variable {batch later : WatchChangeBatch} {change : Change}

theorem coversChange_of_full (full : batch.fullRescan = true)
    : batch.coversChange filter change := by
  cases change with
  | event event => exact Or.inl full
  | batch change => exact Or.inl full

/-- Listed paths stay listed unless the batch becomes a full rescan. -/
theorem Extends.lists (grows : batch.Extends later) {paths : List String}
    (listed : ∀ path ∈ paths, path ∈ batch.paths)
    : later.fullRescan = true ∨ ∀ path ∈ paths, path ∈ later.paths := by
  by_cases full : later.fullRescan = true
  · exact Or.inl full
  · right
    intro path member
    exact (grows.covers path (Or.inr (listed path member))).resolve_left full

theorem Extends.coversChange (grows : batch.Extends later)
    (covered : batch.coversChange filter change)
    : later.coversChange filter change := by
  cases change with
  | event event =>
      rcases covered with full | ⟨some, listed⟩
      · exact Or.inl (grows.full full)
      · exact (grows.lists listed).imp_right (fun listed => ⟨some, listed⟩)
  | batch change =>
      rcases covered with full | ⟨partly, some, listed⟩
      · exact Or.inl (grows.full full)
      · exact (grows.lists listed).imp_right (fun listed => ⟨partly, some, listed⟩)

theorem hasChanges_of_lists {paths : List String} (some : paths ≠ [])
    (listed : ∀ path ∈ paths, path ∈ batch.paths)
    : batch.hasChanges = true := by
  obtain ⟨path, member⟩ := List.exists_mem_of_ne_nil paths some
  have inside := listed path member
  cases present : batch.paths with
  | nil => simp [present] at inside
  | cons first rest => simp [hasChanges, present]

theorem hasChanges_of_coversChange (covered : batch.coversChange filter change)
    : batch.hasChanges = true := by
  have rescans (full : batch.fullRescan = true) : batch.hasChanges = true := by
    simp [hasChanges, full]
  cases change with
  | event event =>
      rcases covered with full | ⟨some, listed⟩
      · exact rescans full
      · exact hasChanges_of_lists some listed
  | batch change =>
      rcases covered with full | ⟨-, some, listed⟩
      · exact rescans full
      · exact hasChanges_of_lists some listed

theorem applyEvent_coversChange {directories : List String} {event : Event}
    (batch : WatchChangeBatch) (recorded : Recorded filter directories event)
    : (applyEvent filter directories event batch).coversChange filter (.event event) := by
  obtain ⟨-, listed, rescans⟩ := applyEvent_spec directories event batch
  by_cases full : (applyEvent filter directories event batch).fullRescan = true
  · exact Or.inl full
  · right
    refine ⟨fun none => full (rescans recorded none), ?_⟩
    intro path member
    exact (listed path member).resolve_left full

/-- A batch with changes covers itself. -/
theorem coversChange_self (filter : WatchEventFilter) (changes : batch.hasChanges = true)
    : batch.coversChange filter (.batch batch) := by
  by_cases full : batch.fullRescan = true
  · exact Or.inl full
  · right
    refine ⟨by simpa using full, ?_, fun _ => id⟩
    intro none
    simp [hasChanges, full, none] at changes

end WatchChangeBatch

/-- The change that `mark_dirty` has put at a position of its list. -/
def changeConcern (filter : WatchEventFilter) (index : Nat) (change : Change)
    : Concern filter where
  carriedBy event := change = .event event
  coveredBy batch := batch.coversChange filter change
  early began := index < began.marked
  full := WatchChangeBatch.coversChange_of_full
  grows := WatchChangeBatch.Extends.coversChange
  nonempty := WatchChangeBatch.hasChanges_of_coversChange
  applied batch same recorded := same ▸ WatchChangeBatch.applyEvent_coversChange batch recorded

/-- A refresh that began after the change was marked and covers it has succeeded. -/
def Processed (filter : WatchEventFilter) (state : LeaderState) (index : Nat) (change : Change)
    : Prop :=
  ∃ refresh ∈ state.succeeded,
    index < refresh.began.marked ∧ refresh.batch.coversChange filter change

instance (index : Nat) (change : Change) : Decidable (Processed filter state index change) :=
  inferInstanceAs (Decidable (∃ refresh ∈ state.succeeded, _))

-- The condition on the steps

def reportedEvent (filter : WatchEventFilter) : WatchMessage → Option Event
  | .event event => if isProbeEvent filter event then none else some event
  | .error _ => none

/-- No marked change is on its way to a batch other than this one. -/
def WatchChangeBatch.ahead (filter : WatchEventFilter) (batch : WatchChangeBatch)
    (state : LeaderState)
    : Prop :=
  batch.fullRescan = true
  ∨ (state.overflowed = false
    ∧ state.callback ≠ some .overflowing
    ∧ ∀ event ∈ state.inFlight.filterMap (reportedEvent filter),
        batch.coversEvent filter event)

instance (batch : WatchChangeBatch) : Decidable (batch.ahead filter state) :=
  inferInstanceAs (Decidable (_ ∨ _))

/-- The batch of the attempt that a step begins. -/
def beginning (state : LeaderState) : RefreshAction → Option WatchChangeBatch
  | .beginAttempt =>
      match state.position with
      | .attempting duty _ => some duty.batch
      | _ => none
  | _ => none

/-- The steps of a run in which no attempt captures the epoch of a change that its batch does
not have: no marked change is in flight when an attempt begins unless its batch covers it, no
marked event is dropped, and the epochs have not reached the end of their range.
-/
def Attentive (filter : WatchEventFilter) (state : LeaderState) (action : RefreshAction)
    : Prop :=
  state.status.dirtyEpoch < u64Max
  ∧ (∀ batch ∈ beginning state action, batch.ahead filter state)
  ∧ ∀ taken ∈ consumed state action,
      isProbeEvent filter taken.2 = false → Recorded filter taken.1 taken.2

instance (action : RefreshAction) : Decidable (Attentive filter state action) :=
  inferInstanceAs (Decidable (_ ∧ _ ∧ _))

-----------------------------------------------------------------------------------------
-- The invariant
-----------------------------------------------------------------------------------------

/-- While the native loop runs: epochs number the marked changes, each acknowledged change has
been processed, the refresh under way covers all it will acknowledge, and each change that is
not processed is held in the pipeline.
-/
structure AcknowledgeInvariant (filter : WatchEventFilter) (state : LeaderState) : Prop where
  numbered
    : ∀ (index number : Nat) change,
        state.marked[index]? = some (number, change) → number = index + 1
  counted : state.status.dirtyEpoch = state.marked.length
  bounded : state.status.reconciledEpoch ≤ state.marked.length
  visible
    : ∀ (index number : Nat) event,
        state.marked[index]? = some (number, Change.event event)
        → isProbeEvent filter event = false
  pending
    : state.status.pending = false
      → state.status.dirtyEpoch ≤ state.status.reconciledEpoch
  acknowledged
    : ∀ index number change,
        state.marked[index]? = some (number, change)
        → index < state.status.reconciledEpoch
        → Processed filter state index change
  attempt
    : ∀ duty began,
        state.position.attempt? = some (duty, began)
        → state.status.refreshingEpoch = began.marked
          ∧ began.marked ≤ state.marked.length
          ∧ ∀ index number change,
              state.marked[index]? = some (number, change)
              → index < began.marked
              → Processed filter state index change
                ∨ duty.batch.coversChange filter change
  held
    : ∀ index number change,
        state.marked[index]? = some (number, change)
        → Processed filter state index change
          ∨ Held (changeConcern filter index change) state

theorem Processed.mono {index : Nat} {change : Change}
    (processed : Processed filter state index change)
    (kept : ∀ refresh ∈ state.succeeded, refresh ∈ next.succeeded)
    : Processed filter next index change := by
  obtain ⟨refresh, member, later, covered⟩ := processed
  exact ⟨refresh, kept refresh member, later, covered⟩

/-- Two attempts to find a change in a list that got one more. -/
theorem marked_append {marked : List (Nat × Change)} {last : Nat × Change} {index number : Nat}
    {change : Change} (found : (marked ++ [last])[index]? = some (number, change))
    : marked[index]? = some (number, change)
      ∨ (index = marked.length ∧ last = (number, change)) := by
  rw [List.getElem?_append] at found
  split at found
  · exact Or.inl found
  · next outside =>
      rw [List.getElem?_singleton] at found
      split at found
      · exact Or.inr ⟨by omega, Option.some.inj found⟩
      · simp at found

theorem markDirty_dirtyEpoch {status : RefreshStatus} (room : status.dirtyEpoch < u64Max)
    : status.markDirty.dirtyEpoch = status.dirtyEpoch + 1 := by
  unfold RefreshStatus.markDirty saturatingAdd
  exact Nat.min_eq_left (by omega)

/-- What an attempt covers when it begins ahead of the watcher.
Witness: a change in flight is an event that its batch covers.
-/
theorem AcknowledgeInvariant.began_covers {duty : Duty} {attempts index number : Nat}
    {change : Change} (invariant : AcknowledgeInvariant filter state)
    (position : state.position = .attempting duty attempts)
    (serving : duty.servesPoll = false) (ahead : duty.batch.ahead filter state)
    (found : state.marked[index]? = some (number, change))
    : Processed filter state index change ∨ duty.batch.coversChange filter change := by
  refine (invariant.held index number change found).imp_right ?_
  intro held
  rcases ahead with full | ⟨lowered, free, covers⟩
  · exact WatchChangeBatch.coversChange_of_full full
  have inFlight {message : WatchMessage} (member : message ∈ state.inFlight)
      (carries : (changeConcern filter index change).carriedIn message)
      : duty.batch.coversChange filter change := by
    cases message with
    | error error => exact carries.elim
    | event event =>
        obtain rfl : change = .event event := carries
        refine covers event (List.mem_filterMap.mpr ⟨.event event, member, ?_⟩)
        simp [reportedEvent, invariant.visible index number event found]
  unfold Held at held
  rw [position] at held
  match duty with
  | .startup _ => exact WatchChangeBatch.coversChange_of_full rfl
  | .serve .poll _ => simp [Duty.servesPoll] at serving
  | .serve .native batch =>
      rcases held with covered | carries
      · exact covered
      · cases carries with
        | sending sends carries => exact inFlight (by simp [LeaderState.inFlight, sends]) carries
        | overflowing overflows => exact absurd overflows free
        | flagged raised => simp [lowered] at raised
        | sent inside carries => exact inFlight (by simp [LeaderState.inFlight, inside]) carries
        | waiting member carries =>
            exact inFlight (by simp [LeaderState.inFlight, member]) carries

/-- The refresh under way keeps covering what it will acknowledge while changes are added. -/
theorem AcknowledgeInvariant.attempt_mono (invariant : AcknowledgeInvariant filter state)
    (refreshing : next.status.refreshingEpoch = state.status.refreshingEpoch)
    (succeeded : next.succeeded = state.succeeded)
    (position : next.position.attempt? = none ∨ next.position = state.position)
    (marked : ∃ added, next.marked = state.marked ++ added)
    : ∀ duty began,
        next.position.attempt? = some (duty, began)
        → next.status.refreshingEpoch = began.marked
          ∧ began.marked ≤ next.marked.length
          ∧ ∀ index number change,
              next.marked[index]? = some (number, change)
              → index < began.marked
              → Processed filter next index change
                ∨ duty.batch.coversChange filter change := by
  intro duty began running
  rcases position with idle | same
  · simp [idle] at running
  · rw [same] at running
    obtain ⟨captured, bound, covers⟩ := invariant.attempt duty began running
    obtain ⟨added, marked⟩ := marked
    refine ⟨refreshing.trans captured, ?_, ?_⟩
    · rw [marked, List.length_append]
      omega
    · intro index number change found earlier
      rw [marked, List.getElem?_append_left (by omega)] at found
      refine (covers index number change found earlier).imp_left ?_
      exact fun processed => processed.mono (fun _ member => succeeded ▸ member)

/-- One step keeps each unprocessed change in the pipeline. -/
theorem AcknowledgeInvariant.held_step {action : RefreshAction}
    (invariant : AcknowledgeInvariant filter state)
    (attentive : Attentive filter state action)
    (move : refreshMove filter backend state action = some next)
    (kept : ∀ refresh ∈ state.succeeded, refresh ∈ next.succeeded) {index number : Nat}
    {change : Change} (found : state.marked[index]? = some (number, change))
    : Processed filter next index change
      ∨ Held (changeConcern filter index change) next := by
  rcases invariant.held index number change found with processed | held
  · exact Or.inl (processed.mono kept)
  · have inside : index < state.marked.length := (List.getElem?_eq_some_iff.mp found).1
    refine (held.step inside ?_ move).symm
    intro directories event taken carries
    obtain rfl : change = .event event := carries
    exact attentive.2.2 (directories, event) taken
      (invariant.visible index number event found)

/-- Marking a change keeps the invariant, provided the new change is in the pipeline. -/
theorem AcknowledgeInvariant.mark {action : RefreshAction} {change : Change}
    (invariant : AcknowledgeInvariant filter state)
    (attentive : Attentive filter state action)
    (move : refreshMove filter backend state action = some next)
    (marked : next.marked = state.marked ++ [(state.status.markDirty.dirtyEpoch, change)])
    (status : next.status = state.status.markDirty)
    (succeeded : next.succeeded = state.succeeded)
    (position : next.position.attempt? = none ∨ next.position = state.position)
    (visible : ∀ event, change = .event event → isProbeEvent filter event = false)
    (enters : Held (changeConcern filter state.marked.length change) next)
    : AcknowledgeInvariant filter next := by
  have kept : ∀ refresh ∈ state.succeeded, refresh ∈ next.succeeded :=
    fun _ member => succeeded ▸ member
  have epoch := markDirty_dirtyEpoch attentive.1
  have length : next.marked.length = state.marked.length + 1 := by
    rw [marked, List.length_append]
    rfl
  refine ⟨?_, ?_, ?_, ?_, ?_, ?_, ?_, ?_⟩
  · intro index number other found
    rcases marked_append (marked ▸ found) with old | ⟨rfl, new⟩
    · exact invariant.numbered index number other old
    · rw [← (Prod.mk.inj new).1, epoch, invariant.counted]
  · rw [status, epoch, length, invariant.counted]
  · rw [status, length]
    exact Nat.le_succ_of_le invariant.bounded
  · intro index number event found
    rcases marked_append (marked ▸ found) with old | ⟨-, new⟩
    · exact invariant.visible index number event old
    · exact visible event (Prod.mk.inj new).2
  · intro idle
    simp [status, RefreshStatus.markDirty] at idle
  · intro index number other found early
    rw [status] at early
    change index < state.status.reconciledEpoch at early
    rcases marked_append (marked ▸ found) with old | ⟨rfl, -⟩
    · exact (invariant.acknowledged index number other old early).mono kept
    · exact absurd early (Nat.not_lt_of_le invariant.bounded)
  · exact invariant.attempt_mono (by rw [status]; rfl) succeeded position ⟨_, marked⟩
  · intro index number other found
    rcases marked_append (marked ▸ found) with old | ⟨rfl, new⟩
    · exact invariant.held_step attentive move kept old
    · obtain rfl := (Prod.mk.inj new).2
      exact Or.inr enters

/-- Steps that mark nothing keep what the history says, whatever they do to the flags of the
status.
-/
theorem AcknowledgeInvariant.unmarked {action : RefreshAction}
    (invariant : AcknowledgeInvariant filter state)
    (attentive : Attentive filter state action)
    (move : refreshMove filter backend state action = some next)
    (marked : next.marked = state.marked)
    (kept : ∀ refresh ∈ state.succeeded, refresh ∈ next.succeeded)
    (dirty : next.status.dirtyEpoch = state.status.dirtyEpoch)
    (pending
      : next.status.pending = false → next.status.dirtyEpoch ≤ next.status.reconciledEpoch)
    (bounded : next.status.reconciledEpoch ≤ next.marked.length)
    (acknowledged
      : ∀ index number change,
          next.marked[index]? = some (number, change)
          → index < next.status.reconciledEpoch
          → Processed filter next index change)
    (attempt
      : ∀ duty began,
          next.position.attempt? = some (duty, began)
          → next.status.refreshingEpoch = began.marked
            ∧ began.marked ≤ next.marked.length
            ∧ ∀ index number change,
                next.marked[index]? = some (number, change)
                → index < began.marked
                → Processed filter next index change
                  ∨ duty.batch.coversChange filter change)
    : AcknowledgeInvariant filter next := by
  refine ⟨?_, ?_, bounded, ?_, pending, acknowledged, attempt, ?_⟩
  · rw [marked]
    exact invariant.numbered
  · rw [dirty, marked]
    exact invariant.counted
  · rw [marked]
    exact invariant.visible
  · intro index number change found
    exact invariant.held_step attentive move kept (marked ▸ found)

/-- Steps without an effect on the marked changes and the status. -/
theorem AcknowledgeInvariant.quiet {action : RefreshAction}
    (invariant : AcknowledgeInvariant filter state)
    (attentive : Attentive filter state action)
    (move : refreshMove filter backend state action = some next)
    (marked : next.marked = state.marked) (status : next.status = state.status)
    (succeeded : next.succeeded = state.succeeded)
    (position : next.position.attempt? = none ∨ next.position = state.position)
    : AcknowledgeInvariant filter next := by
  have kept : ∀ refresh ∈ state.succeeded, refresh ∈ next.succeeded :=
    fun _ member => succeeded ▸ member
  refine invariant.unmarked attentive move marked kept (by rw [status]) ?_ ?_ ?_ ?_
  · rw [status]
    exact invariant.pending
  · rw [status, marked]
    exact invariant.bounded
  · intro index number change found early
    rw [status] at early
    exact (invariant.acknowledged index number change (marked ▸ found) early).mono kept
  · exact invariant.attempt_mono (by rw [status]) succeeded position
      ⟨[], by rw [marked, List.append_nil]⟩

/-- One attentive step of the native loop. -/
theorem AcknowledgeInvariant.step {action : RefreshAction}
    (invariant : AcknowledgeInvariant filter state)
    (attentive : Attentive filter state action)
    (move : refreshMove filter backend state action = some next)
    (serving : next.position.leftNative = false)
    : AcknowledgeInvariant filter next := by
  cases refreshMove_effect move with
  | edited path file event edits moved =>
      unfold editStep at moved
      split at moved
      · obtain rfl := Option.some.inj moved
        exact invariant.quiet attentive move rfl rfl rfl (Or.inr rfl)
      · simp at moved
  | quiet same position =>
      exact invariant.quiet attentive move same.marked same.status same.succeeded position
  | reported world event visible marked status succeeded position sends =>
      refine invariant.mark attentive move marked status succeeded (Or.inr position) ?_ ?_
      · intro other same
        obtain rfl := Change.event.inj same
        exact visible
      · exact .of_carries (.sending sends rfl)
  | scheduled world batch changes marked status succeeded idle held =>
      refine invariant.mark attentive move marked status succeeded (Or.inl idle) ?_ ?_
      · intro event same
        cases same
      · exact held (changeConcern filter state.marked.length (.batch batch))
          (WatchChangeBatch.coversChange_self filter changes)
  | began begins duty attempts position result =>
      subst begins result
      have ahead : duty.batch.ahead filter state :=
        attentive.2.1 duty.batch (by simp [beginning, position])
      refine invariant.unmarked attentive move rfl (fun _ => id) rfl ?_ invariant.bounded ?_ ?_
      · intro idle
        simp [RefreshStatus.markRefreshing] at idle
      · exact invariant.acknowledged
      · intro other began running
        obtain ⟨rfl, rfl⟩ := Prod.mk.inj (Option.some.inj running)
        refine ⟨invariant.counted, Nat.le_refl _, ?_⟩
        intro index number change found _
        exact invariant.began_covers position serving ahead found
  | succeeded world duty began attempt marked status succeeded idle =>
      obtain ⟨captured, bound, covers⟩ := invariant.attempt duty began attempt
      have kept : ∀ refresh ∈ state.succeeded, refresh ∈ next.succeeded :=
        fun _ member => succeeded ▸ List.mem_append_left _ member
      have reconciled
          : next.status.reconciledEpoch = max state.status.reconciledEpoch began.marked := by
        rw [status]
        simp only [RefreshStatus.markRefreshed, RefreshStatus.acknowledgeReconciliationLocked,
          captured, invariant.counted]
        omega
      refine invariant.unmarked attentive move marked kept (by rw [status]; rfl) ?_ ?_ ?_ ?_
      · intro idle
        rw [status] at idle ⊢
        simp only [RefreshStatus.markRefreshed, RefreshStatus.acknowledgeReconciliationLocked,
          Bool.not_eq_eq_eq_not, Bool.not_false, decide_eq_true_eq] at idle ⊢
        exact idle
      · rw [reconciled, marked]
        exact Nat.max_le.mpr ⟨invariant.bounded, bound⟩
      · intro index number change found early
        rw [marked] at found
        rw [reconciled] at early
        have settled (processed
              : Processed filter state index change
                ∨ (index < began.marked ∧ duty.batch.coversChange filter change))
            : Processed filter next index change := by
          rcases processed with before | ⟨earlier, covered⟩
          · exact before.mono kept
          · exact ⟨⟨duty.batch, began⟩, by simp [succeeded], earlier, covered⟩
        apply settled
        rcases Nat.lt_or_ge index state.status.reconciledEpoch with before | later
        · exact Or.inl (invariant.acknowledged index number change found before)
        · have during : index < began.marked := by omega
          exact (covers index number change found during).imp_right (fun covered =>
            ⟨during, covered⟩)
      · intro other start running
        simp [idle] at running
  | failed world marked status succeeded idle =>
      have kept : ∀ refresh ∈ state.succeeded, refresh ∈ next.succeeded :=
        fun _ member => succeeded ▸ member
      have flags
          : next.status.dirtyEpoch = state.status.dirtyEpoch
            ∧ next.status.reconciledEpoch = state.status.reconciledEpoch
            ∧ next.status.pending = true := by
        rcases status with same | same <;> rw [same] <;> exact ⟨rfl, rfl, rfl⟩
      refine invariant.unmarked attentive move marked kept flags.1 ?_ ?_ ?_ ?_
      · intro idle
        simp [flags.2.2] at idle
      · rw [flags.2.1, marked]
        exact invariant.bounded
      · intro index number change found early
        rw [flags.2.1] at early
        exact (invariant.acknowledged index number change (marked ▸ found) early).mono kept
      · intro duty began running
        simp [idle] at running

theorem AcknowledgeInvariant.initial (filter : WatchEventFilter) (files : WatchFileSnapshot)
    : AcknowledgeInvariant filter { files } := by
  refine ⟨?_, rfl, Nat.le_refl _, ?_, fun _ => Nat.le_refl _, ?_, ?_, ?_⟩
  · intro index number change found
    simp at found
  · intro index number event found
    simp at found
  · intro index number change found
    simp at found
  · intro duty began running
    simp [Position.attempt?] at running
  · intro index number change found
    simp at found

/-- In every attentive run, as long as the native loop serves, each change that an acknowledged
epoch numbers has been processed: a refresh that began after it succeeded with a batch that
covers it. In particular nothing is unprocessed when nothing is reported as pending.
Witness: the invariant of the steps; the native loop is never entered again.
-/
theorem reconciled_change_processed {files : WatchFileSnapshot} {trace : List RefreshAction}
    {last : LeaderState}
    (run : Run (restrict (refreshStep filter backend) (Attentive filter)) { files } trace last)
    (serving : last.position.leftNative = false)
    : (∀ index number change,
        last.marked[index]? = some (number, change)
        → number ≤ last.status.reconciledEpoch
        → Processed filter last index change)
      ∧ (last.status.pending = false
        → ∀ index number change,
            last.marked[index]? = some (number, change)
            → Processed filter last index change) := by
  have invariant : last.position.leftNative = false → AcknowledgeInvariant filter last := by
    refine run.invariant
      (motive := fun state =>
        state.position.leftNative = false → AcknowledgeInvariant filter state)
      (fun _ => .initial filter files) ?_
    intro mid action event next before taken serving
    obtain ⟨attentive, enabled⟩ := restrict_eq_some.mp taken
    obtain ⟨moved, move, same⟩ := Option.map_eq_some_iff.mp enabled
    obtain ⟨-, rfl⟩ := Prod.mk.inj same
    refine (before ?_).step attentive move serving
    cases left : mid.position.leftNative with
    | false => rfl
    | true => simp [leftNative_step left move] at serving
  have holds := invariant serving
  constructor
  · intro index number change found acknowledged
    have numbered := holds.numbered index number change found
    exact holds.acknowledged index number change found (by omega)
  · intro idle index number change found
    have inside : index < last.marked.length := (List.getElem?_eq_some_iff.mp found).1
    have reconciled := holds.pending idle
    rw [holds.counted] at reconciled
    exact holds.acknowledged index number change found (by omega)

/-- One edit, refreshed with nothing in flight. -/
def quietSchedule : List RefreshAction :=
  startupSchedule
  ++ editSchedule "a.rs" 1
  ++ [
    .receive false,
    .openBatch [] false,
    .collectEnd,
    .proceed false false false,
    .beginAttempt,
    .attemptOk false
  ]

/-- A second edit is marked and sent after the first one's batch is collected and before its
attempt begins.
-/
def racedSchedule : List RefreshAction :=
  startupSchedule
  ++ editSchedule "a.rs" 1
  ++ [.receive false, .openBatch [] false, .collectEnd]
  ++ editSchedule "b.rs" 2
  ++ [.proceed false false false, .beginAttempt, .attemptOk false]

theorem reconciled_change_processed_quiet
    : ∃ trace last,
        Run (restrict (refreshStep plainFilter .native) (Attentive plainFilter)) { files := [] }
          trace last
        ∧ last.position.leftNative = false
        ∧ last.status.pending = false
        ∧ last.marked[1]? = some (2, .event (modified "a.rs"))
        ∧ Processed plainFilter last 1 (.event (modified "a.rs")) := by
  obtain ⟨trace, last, run, serving, idle, found⟩ : ∃ trace last,
      Run (restrict (refreshStep plainFilter .native) (Attentive plainFilter)) { files := [] }
        trace last
      ∧ last.position.leftNative = false
      ∧ last.status.pending = false
      ∧ last.marked[1]? = some (2, .event (modified "a.rs")) :=
    ⟨_, _, Run.of_execute quietSchedule rfl, rfl, rfl, rfl⟩
  exact ⟨trace, last, run, serving, idle, found,
    (reconciled_change_processed run serving).2 idle 1 2 _ found⟩

/-- The raced edit is reported as reconciled, and no refresh has looked at it. -/
theorem reconciled_change_raced
    : ∃ trace last,
        Run (refreshStep plainFilter .native) { files := [] } trace last
        ∧ last.position.leftNative = false
        ∧ last.status.reconciledEpoch = 3
        ∧ last.status.pending = false
        ∧ last.marked[2]? = some (3, .event (modified "b.rs"))
        ∧ last.channel = some (.event (modified "b.rs"))
        ∧ ¬ Processed plainFilter last 2 (.event (modified "b.rs")) := by
  refine ⟨_, _, Run.of_execute racedSchedule rfl, rfl, rfl, rfl, rfl, rfl, ?_⟩
  decide

end CodebaseGraph.Refresh
