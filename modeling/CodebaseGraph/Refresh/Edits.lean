import CodebaseGraph.Refresh.Effects

/-! No edit is missed: where the leader remembers an edit that no refresh has covered.
The native loop remembers it in the pipeline of the watcher, the poll loop by the difference
between its snapshot and the file; what is missing is the hand-over between the two.
-/

namespace CodebaseGraph.Refresh

open CodebaseGraph.Transition

variable {filter : WatchEventFilter} {backend : GraphRefreshBackend}
  {state next : LeaderState} {action : RefreshAction}

-----------------------------------------------------------------------------------------
-- Snapshots
-----------------------------------------------------------------------------------------

theorem lookup_cons_ne {α : Type} {path other : String} {value : α}
    {list : List (String × α)} (different : path ≠ other)
    : ((other, value) :: list).lookup path = list.lookup path := by
  rw [List.lookup_cons, beq_eq_false_iff_ne.mpr different]

theorem lookup_filter_ne (files : WatchFileSnapshot) {path other : String}
    (different : path ≠ other)
    : (files.filter (fun file => file.1 ≠ other)).lookup path = files.lookup path := by
  induction files with
  | nil => rfl
  | cons file rest ih =>
      obtain ⟨name, value⟩ := file
      by_cases same : name = other
      · rw [List.filter_cons_of_neg (by simpa using same), ih,
          lookup_cons_ne (same ▸ different)]
      · rw [List.filter_cons_of_pos (by simpa using same)]
        by_cases here : path = name
        · subst here
          rw [List.lookup_cons_self, List.lookup_cons_self]
        · rw [lookup_cons_ne here, lookup_cons_ne here, ih]

theorem lookup_filter_self (files : WatchFileSnapshot) (path : String)
    : (files.filter (fun file => file.1 ≠ path)).lookup path = none := by
  rw [List.lookup_eq_none_iff]
  intro file member
  have different := (List.mem_filter.mp member).2
  simp only [ne_eq, decide_not, Bool.not_eq_eq_eq_not, Bool.not_true,
    decide_eq_false_iff_not] at different
  simpa using Ne.symm different

theorem lookup_editFile_self (files : WatchFileSnapshot) (path : String)
    (file : Option WatchFileState)
    : (editFile files path file).lookup path = file := by
  cases file with
  | none => exact lookup_filter_self files path
  | some file => exact List.lookup_cons_self

theorem lookup_editFile_ne (files : WatchFileSnapshot) {path other : String}
    (file : Option WatchFileState) (different : path ≠ other)
    : (editFile files other file).lookup path = files.lookup path := by
  cases file with
  | none => exact lookup_filter_ne files different
  | some file => exact (lookup_cons_ne different).trans (lookup_filter_ne files different)

theorem lookup_filterMap (paths : List String) (value : String → Option WatchFileState)
    (path : String)
    : (paths.filterMap (fun path => (value path).map (fun state => (path, state)))).lookup path
      = if path ∈ paths then value path else none := by
  induction paths with
  | nil => rfl
  | cons first rest ih =>
      by_cases same : path = first
      · subst same
        cases found : value path with
        | none => simp [found, ih]
        | some file => simp [found]
      · cases found : value first with
        | none => simp [found, ih, same]
        | some file => simp [found, lookup_cons_ne same, ih, same]

theorem lookup_eq_none_of_not_mem {α : Type} {list : List (String × α)} {path : String}
    (absent : path ∉ list.map Prod.fst)
    : list.lookup path = none := by
  rw [List.lookup_eq_none_iff]
  intro entry member
  have different : path ≠ entry.1 := by
    intro same
    exact absent (List.mem_map.mpr ⟨entry, member, same.symm⟩)
  simpa using different

/-- The snapshot holds for each file what the walk read of it. -/
theorem lookup_watchFileSnapshot (readings : Readings) (files : WatchFileSnapshot)
    (path : String)
    : (watchFileSnapshot readings files).lookup path = readFile readings files path := by
  rw [watchFileSnapshot, lookup_filterMap]
  split
  · rfl
  · next absent =>
      rw [List.mem_dedup, List.mem_append, not_or] at absent
      simp only [readFile, lookup_eq_none_of_not_mem absent.1, lookup_eq_none_of_not_mem absent.2]

theorem mem_of_lookup {α : Type} {list : List (String × α)} {path : String} {value : α}
    (found : list.lookup path = some value)
    : (path, value) ∈ list := by
  induction list with
  | nil => simp at found
  | cons entry rest ih =>
      obtain ⟨name, other⟩ := entry
      rw [List.lookup_cons] at found
      split at found
      · next same =>
          obtain rfl := Option.some.inj found
          rw [beq_iff_eq.mp same]
          exact List.mem_cons_self
      · exact List.mem_cons_of_mem _ (ih found)

/-- The diff lists every path whose state differs. -/
theorem mem_watchSnapshotDiff {previous current : WatchFileSnapshot} {path : String}
    (differs : previous.lookup path ≠ current.lookup path)
    : path ∈ watchSnapshotDiff previous current := by
  unfold watchSnapshotDiff
  rw [List.mem_append]
  cases now : current.lookup path with
  | some file =>
      left
      rw [now] at differs
      exact List.mem_map.mpr
        ⟨(path, file), List.mem_filter.mpr ⟨mem_of_lookup now, by simpa using differs⟩, rfl⟩
  | none =>
      right
      rw [now] at differs
      obtain ⟨file, before⟩ := Option.ne_none_iff_exists'.mp differs
      exact List.mem_map.mpr
        ⟨(path, file), List.mem_filter.mpr ⟨mem_of_lookup before, by simp [now]⟩, rfl⟩

theorem openPollBatch_covers {changedPaths : List String} {path : String}
    (member : path ∈ changedPaths)
    : (openPollBatch changedPaths).covers path := by
  unfold openPollBatch
  dsimp only
  split
  · exact Or.inl rfl
  · exact (WatchChangeBatch.extendPaths_spec _ changedPaths).2 path member

theorem extendPollBatch_spec (batch : WatchChangeBatch) (changedPaths : List String)
    : batch.Extends (extendPollBatch batch changedPaths)
      ∧ ∀ path ∈ changedPaths, (extendPollBatch batch changedPaths).covers path := by
  obtain ⟨grows, listed⟩ := batch.extendPaths_spec changedPaths
  unfold extendPollBatch
  dsimp only
  split
  · exact ⟨.of_full rfl, fun _ _ => Or.inl rfl⟩
  · exact ⟨⟨grows.full, grows.covers⟩, listed⟩

-- Where an edit is remembered

/-- A refresh that began after the edit and covers its path has succeeded. -/
def Refreshed (state : LeaderState) (index : Nat) (path : String) : Prop :=
  ∃ refresh ∈ state.succeeded, index < refresh.began.edits ∧ refresh.batch.covers path

instance (index : Nat) (path : String) : Decidable (Refreshed state index path) :=
  inferInstanceAs (Decidable (∃ refresh ∈ state.succeeded, _))

/-- The poll loop has its baseline. -/
def Position.polls : Position → Bool
  | .attempting duty _ | .materializing duty _ _ => duty.servesPoll
  | .batched .poll _ | .polling _ _ => true
  | _ => false

def Position.baselining : Position → Bool
  | .baseline _ => true
  | _ => false

/-- The batch that the leader works on; before and during startup it is the startup batch. -/
def Position.currentBatch : Position → Option WatchChangeBatch
  | .starting | .probing _ | .startup _ => some startupBatch
  | .attempting duty _ | .materializing duty _ _ => some duty.batch
  | .collecting batch | .batched _ batch => some batch
  | .polling batch _ => batch
  | .nativeWaiting | .received _ | .baseline _ | .returned => none

/-- The messages of the watcher that no batch has taken yet. -/
def LeaderState.messages (state : LeaderState) : List WatchMessage :=
  state.undelivered
  ++ state.inFlight
  ++ (match state.position with
    | .received message => [message]
    | _ => [])

/-- The path is recorded somewhere: in a message, by the overflow flag, in the current or the
failed batch, or as a difference between the poll loop's snapshot and the file.
-/
inductive Remembered (filter : WatchEventFilter) (state : LeaderState) (path : String)
    : Prop where
  | message {event} (member : .event event ∈ state.messages)
    (reports : path ∈ filter.relevantPaths event)
    : Remembered filter state path
  | overflow
    (raised : state.overflowed = true ∨ state.callback = some .overflowing)
    : Remembered filter state path
  | batch {batch} (current : state.position.currentBatch = some batch)
    (covers : batch.covers path)
    : Remembered filter state path
  | failed {batch} (pending : state.pendingFailed = some batch) (covers : batch.covers path)
    : Remembered filter state path
  | snapshot (polls : state.position.polls = true)
    (differs : state.previousSnapshot.lookup path ≠ state.files.lookup path)
    : Remembered filter state path

theorem hasChanges_of_covers {batch : WatchChangeBatch} {path : String}
    (covers : batch.covers path)
    : batch.hasChanges = true := by
  rcases covers with full | listed
  · simp [WatchChangeBatch.hasChanges, full]
  · cases present : batch.paths with
    | nil => simp [present] at listed
    | cons first rest => simp [WatchChangeBatch.hasChanges, present]

theorem recorded_of_mem {directories : List String} {event : Event} {path : String}
    (reports : path ∈ filter.relevantPaths event)
    : Recorded filter directories event :=
  Or.inr (Or.inl (List.ne_nil_of_mem reports))

/-- The edit of a path at a position of the list of edits. -/
def editConcern (filter : WatchEventFilter) (index : Nat) (path : String)
    : Concern filter where
  carriedBy event := path ∈ filter.relevantPaths event
  coveredBy batch := batch.covers path
  early began := index < began.edits
  full full := Or.inl full
  grows grows covered := grows.covers path covered
  nonempty := hasChanges_of_covers
  applied batch reports _ := (applyEvent_spec _ _ batch).2.1 path reports

-- The condition on the steps

/-- The text with which the native loop fails in this step. -/
def failureText (state : LeaderState) : RefreshAction → Option String
  | .disconnect => some "filesystem watcher stopped"
  | .openBatch _ _ =>
      match state.position with
      | .received (.error error) => some ("filesystem watcher error: " ++ error)
      | _ => none
  | .collectMore _ =>
      match state.nextMessage with
      | some (.error error, _) => some ("filesystem watcher error: " ++ error)
      | _ => none
  | _ => none

/-- The poll loop takes over from the native loop. -/
def FallsBack (backend : GraphRefreshBackend) (state : LeaderState) (action : RefreshAction)
    : Prop :=
  ∃ error ∈ failureText state action,
    backend = .auto ∧ ¬ "configuration changed".toList <:+: error.toList

/-- The attempt whose success hands over to the poll loop. -/
def pollStartup (state : LeaderState) : RefreshAction → Option Began
  | .attemptOk false =>
      match state.position with
      | .materializing (.startup .poll) _ began => some began
      | _ => none
  | _ => none

def editOf : RefreshAction → Option (String × Option WatchFileState)
  | .edit path file _ => some (path, file)
  | _ => none

/-- The steps of a run in which the poll loop takes over nothing unseen: it falls in for the
native loop only when every edit so far is refreshed, no edit is made between the beginning of
the startup refresh and the end of the baseline walk, and no later edit gives a file the very
state that the snapshot holds of it.
-/
def Observed (backend : GraphRefreshBackend) (state : LeaderState) (action : RefreshAction)
    : Prop :=
  (FallsBack backend state action
    → ∀ index : Fin state.edits.length, Refreshed state index state.edits[index])
  ∧ (∀ began ∈ pollStartup state action, state.edits.length ≤ began.edits)
  ∧ ∀ edit ∈ editOf action,
      state.position.baselining = false
      ∧ (state.position.polls = true → state.previousSnapshot.lookup edit.1 ≠ edit.2)

instance : Decidable (FallsBack backend state action) :=
  inferInstanceAs (Decidable (∃ error ∈ failureText state action, _))

instance : Decidable (Observed backend state action) :=
  inferInstanceAs (Decidable (_ ∧ _ ∧ _))

-----------------------------------------------------------------------------------------
-- The invariant of an edit
-----------------------------------------------------------------------------------------

/-- An event of the edit has not reached the callback yet. -/
def Undelivered (filter : WatchEventFilter) (state : LeaderState) (path : String) : Prop :=
  ∃ event, .event event ∈ state.undelivered ∧ path ∈ filter.relevantPaths event

/-- The poll loop knows of the edit; nothing is said before it. -/
def PollHeld (state : LeaderState) (index : Nat) (path : String) : Prop :=
  match state.position with
  | .baseline _ => False
  | .polling batch _ =>
      (∃ current, batch = some current ∧ current.covers path)
      ∨ (∃ failed, state.pendingFailed = some failed ∧ failed.covers path)
      ∨ state.previousSnapshot.lookup path ≠ state.files.lookup path
  | .batched .poll batch =>
      batch.covers path
      ∨ (∃ failed, state.pendingFailed = some failed ∧ failed.covers path)
      ∨ state.previousSnapshot.lookup path ≠ state.files.lookup path
  | .attempting (.serve .poll batch) _ =>
      batch.covers path ∨ state.previousSnapshot.lookup path ≠ state.files.lookup path
  | .materializing (.serve .poll batch) _ began =>
      (batch.covers path ∧ index < began.edits)
      ∨ state.previousSnapshot.lookup path ≠ state.files.lookup path
  | _ => True

/-- The edit is on its way in the loop that runs. -/
def Noticed (filter : WatchEventFilter) (state : LeaderState) (index : Nat) (path : String)
    : Prop :=
  if state.position.leftNative then PollHeld state index path
  else Undelivered filter state path ∨ Held (editConcern filter index path) state

theorem Remembered.of_failed {path : String}
    (pending : ∃ batch, state.pendingFailed = some batch ∧ batch.covers path)
    : Remembered filter state path := by
  obtain ⟨batch, pending, covers⟩ := pending
  exact .failed pending covers

theorem Remembered.of_carries {index : Nat} {path : String}
    (carries : state.carries (editConcern filter index path))
    : Remembered filter state path := by
  have inFlight {message : WatchMessage} (member : message ∈ state.inFlight)
      (carries : (editConcern filter index path).carriedIn message)
      : Remembered filter state path := by
    cases message with
    | error error => exact carries.elim
    | event event => exact .message (by simp [LeaderState.messages, member]) carries
  cases carries with
  | sending sends carries => exact inFlight (by simp [LeaderState.inFlight, sends]) carries
  | overflowing overflows => exact .overflow (Or.inr overflows)
  | flagged raised => exact .overflow (Or.inl raised)
  | sent inside carries => exact inFlight (by simp [LeaderState.inFlight, inside]) carries
  | waiting member carries => exact inFlight (by simp [LeaderState.inFlight, member]) carries

theorem PollHeld.remembered {index : Nat} {path : String} (held : PollHeld state index path)
    (left : state.position.leftNative = true) (running : state.position ≠ .returned)
    : Remembered filter state path := by
  have snapshot (polls : state.position.polls = true)
      (differs : state.previousSnapshot.lookup path ≠ state.files.lookup path)
      : Remembered filter state path :=
    .snapshot polls differs
  unfold PollHeld at held
  match position : state.position with
  | .baseline _ =>
      rw [position] at held
      exact held.elim
  | .polling batch readings =>
      rw [position] at held
      rcases held with ⟨current, rfl, covers⟩ | pending | differs
      · exact .batch (by rw [position]; rfl) covers
      · exact .of_failed pending
      · exact snapshot (by rw [position]; rfl) differs
  | .batched .poll batch =>
      rw [position] at held
      rcases held with covers | pending | differs
      · exact .batch (by rw [position]; rfl) covers
      · exact .of_failed pending
      · exact snapshot (by rw [position]; rfl) differs
  | .attempting (.serve .poll batch) attempts =>
      rw [position] at held
      rcases held with covers | differs
      · exact .batch (by rw [position]; rfl) covers
      · exact snapshot (by rw [position]; rfl) differs
  | .materializing (.serve .poll batch) attempts began =>
      rw [position] at held
      rcases held with ⟨covers, -⟩ | differs
      · exact .batch (by rw [position]; rfl) covers
      · exact snapshot (by rw [position]; rfl) differs
  | .returned => exact absurd position running
  | .starting | .probing _ | .startup _ | .nativeWaiting | .received _ | .collecting _
  | .batched .native _ | .attempting (.startup _) _ | .attempting (.serve .native _) _
  | .materializing (.startup _) _ _ | .materializing (.serve .native _) _ _ =>
      simp [position, Position.leftNative, Duty.servesPoll] at left

theorem Held.remembered {index : Nat} {path : String}
    (held : Held (editConcern filter index path) state)
    (serving : state.position.leftNative = false)
    : Remembered filter state path := by
  unfold Held at held
  match position : state.position with
  | .starting | .probing _ | .startup _ | .attempting (.startup _) _
  | .materializing (.startup _) _ _ => exact .batch (by rw [position]; rfl) (Or.inl rfl)
  | .nativeWaiting =>
      rw [position] at held
      rcases held with carries | pending
      · exact .of_carries carries
      · exact .of_failed pending
  | .received message =>
      rw [position] at held
      rcases held with carries | carries | pending
      · cases message with
        | error error => exact carries.elim
        | event event => exact .message (by simp [LeaderState.messages, position]) carries
      · exact .of_carries carries
      · exact .of_failed pending
  | .collecting batch | .batched .native batch =>
      rw [position] at held
      rcases held with covers | carries | pending
      · exact .batch (by rw [position]; rfl) covers
      · exact .of_carries carries
      · exact .of_failed pending
  | .attempting (.serve .native batch) attempts =>
      rw [position] at held
      rcases held with covers | carries
      · exact .batch (by rw [position]; rfl) covers
      · exact .of_carries carries
  | .materializing (.serve .native batch) attempts began =>
      rw [position] at held
      rcases held with ⟨covers, -⟩ | carries
      · exact .batch (by rw [position]; rfl) covers
      · exact .of_carries carries
  | .baseline _ | .polling _ _ | .returned | .batched .poll _ | .attempting (.serve .poll _) _
  | .materializing (.serve .poll _) _ _ =>
      simp [position, Position.leftNative, Duty.servesPoll] at serving

/-- While the leader runs, a noticed edit is remembered. -/
theorem Noticed.remembered {index : Nat} {path : String}
    (noticed : Noticed filter state index path) (running : state.position ≠ .returned)
    : Remembered filter state path := by
  unfold Noticed at noticed
  split at noticed
  · next left => exact noticed.remembered left running
  · next serving =>
      rcases noticed with ⟨event, member, reports⟩ | held
      · exact .message (by simp [LeaderState.messages, member]) reports
      · exact held.remembered (by simpa using serving)

-----------------------------------------------------------------------------------------
-- One step
-----------------------------------------------------------------------------------------

section Step

variable {index : Nat} {path : String}

theorem Noticed.of_returned (position : next.position = .returned)
    : Noticed filter next index path := by
  unfold Noticed PollHeld
  rw [position]
  trivial

/-- Steps within the native phase: the pipeline keeps the edit, and its event stays with the
watcher.
-/
theorem Noticed.native (noticed : Noticed filter state index path)
    (before : state.position.leftNative = false) (after : next.position.leftNative = false)
    (present : index < state.edits.length)
    (move : refreshMove filter backend state action = some next)
    (kept : ∀ message ∈ state.undelivered, message ∈ next.undelivered)
    : Refreshed next index path ∨ Noticed filter next index path := by
  unfold Noticed at noticed ⊢
  simp only [before, after, Bool.false_eq_true, if_false] at noticed ⊢
  rcases noticed with ⟨event, member, reports⟩ | held
  · exact Or.inr (Or.inl ⟨event, kept _ member, reports⟩)
  · rcases held.step present (fun _ _ _ reports => recorded_of_mem reports) move with held | done
    · exact Or.inr (Or.inr held)
    · exact Or.inl done

/-- Steps of the watcher thread within the poll loop. -/
theorem PollHeld.mono (held : PollHeld state index path) (same : SameLeader state next)
    : PollHeld next index path := by
  unfold PollHeld at held ⊢
  rw [same.position, same.pendingFailed, same.previousSnapshot, same.files]
  exact held

/-- An edit within the poll loop shows as a difference to the snapshot. -/
theorem PollHeld.edit {edited : String} {file : Option WatchFileState} {event : Event}
    (move : editStep filter state edited file event = some next)
    (polls : state.position.polls = true)
    (fresh : state.previousSnapshot.lookup edited ≠ file)
    (held : path = edited ∨ PollHeld state index path)
    : PollHeld next index path := by
  unfold editStep at move
  split at move
  · obtain rfl := Option.some.inj move
    have differs (before
          : path = edited
            ∨ state.previousSnapshot.lookup path ≠ state.files.lookup path)
        : state.previousSnapshot.lookup path
          ≠ (editFile state.files edited file).lookup path := by
      by_cases same : path = edited
      · rw [same, lookup_editFile_self]
        exact fresh
      · rw [lookup_editFile_ne state.files file same]
        exact before.resolve_left same
    unfold PollHeld at held ⊢
    match position : state.position with
    | .polling batch readings =>
        simp only [position] at held ⊢
        rcases held with here | current | failed | before
        · exact Or.inr (Or.inr (differs (Or.inl here)))
        · exact Or.inl current
        · exact Or.inr (Or.inl failed)
        · exact Or.inr (Or.inr (differs (Or.inr before)))
    | .batched .poll batch =>
        simp only [position] at held ⊢
        rcases held with here | current | failed | before
        · exact Or.inr (Or.inr (differs (Or.inl here)))
        · exact Or.inl current
        · exact Or.inr (Or.inl failed)
        · exact Or.inr (Or.inr (differs (Or.inr before)))
    | .attempting (.serve .poll batch) attempts =>
        simp only [position] at held ⊢
        rcases held with here | current | before
        · exact Or.inr (differs (Or.inl here))
        · exact Or.inl current
        · exact Or.inr (differs (Or.inr before))
    | .materializing (.serve .poll batch) attempts began =>
        simp only [position] at held ⊢
        rcases held with here | current | before
        · exact Or.inr (differs (Or.inl here))
        · exact Or.inl current
        · exact Or.inr (differs (Or.inr before))
    | .starting | .probing _ | .startup _ | .nativeWaiting | .received _ | .collecting _
    | .batched .native _ | .attempting (.startup _) _ | .attempting (.serve .native _) _
    | .materializing (.startup _) _ _ | .materializing (.serve .native _) _ _ | .baseline _
    | .returned => simp [position, Position.polls, Duty.servesPoll] at polls
  · simp at move

/-- A finished walk puts what differs into a batch; what it read before an edit still differs.
-/
theorem PollHeld.finishWalk {batch : Option WatchChangeBatch} {readings : Readings}
    {deadlinePassed : Bool} (position : state.position = .polling batch readings)
    (held : PollHeld state index path)
    (move : finishWalkStep state deadlinePassed = some next)
    : PollHeld next index path := by
  unfold PollHeld at held
  simp only [finishWalkStep, position] at move held
  have read := lookup_watchFileSnapshot readings state.files path
  set current := watchFileSnapshot readings state.files
  -- Either the walk saw the last edit, and then its path is listed, or it did not.
  have seen (differs : state.previousSnapshot.lookup path ≠ state.files.lookup path)
      : path ∈ watchSnapshotDiff state.previousSnapshot current
        ∨ current.lookup path ≠ state.files.lookup path := by
    by_cases same : current.lookup path = state.files.lookup path
    · exact Or.inl (mem_watchSnapshotDiff (same ▸ differs))
    · exact Or.inr same
  cases batch with
  | none =>
      dsimp only at move
      have known := held.resolve_left (by simp)
      split at move
      · next unchanged =>
          split at move
          · obtain rfl := Option.some.inj move
            exact Or.inl (Or.inl rfl)
          · obtain rfl := Option.some.inj move
            rcases known with failed | differs
            · exact Or.inr (Or.inl failed)
            · refine Or.inr (Or.inr ((seen differs).resolve_left ?_))
              rw [unchanged]
              exact List.not_mem_nil
      · obtain rfl := Option.some.inj move
        rcases known with failed | differs
        · exact Or.inr (Or.inl failed)
        · rcases seen differs with listed | later
          · exact Or.inl ⟨_, rfl, openPollBatch_covers listed⟩
          · exact Or.inr (Or.inr later)
  | some batch =>
      dsimp only at move
      obtain ⟨grows, listed⟩ :=
        extendPollBatch_spec batch (watchSnapshotDiff state.previousSnapshot current)
      split at move
      · next unchanged =>
          obtain rfl := Option.some.inj move
          rcases held with ⟨_, ⟨rfl⟩, covers⟩ | failed | differs
          · exact Or.inl ⟨batch, rfl, covers⟩
          · exact Or.inr (Or.inl failed)
          · refine Or.inr (Or.inr ((seen differs).resolve_left ?_))
            rw [unchanged]
            exact List.not_mem_nil
      · obtain rfl := Option.some.inj move
        rcases held with ⟨_, ⟨rfl⟩, covers⟩ | failed | differs
        · exact Or.inl ⟨_, rfl, grows.covers path covers⟩
        · exact Or.inr (Or.inl failed)
        · rcases seen differs with member | later
          · exact Or.inl ⟨_, rfl, listed path member⟩
          · exact Or.inr (Or.inr later)

theorem PollHeld.proceed {batch : WatchChangeBatch}
    {configurationChanged retryDue reconciliationDue : Bool}
    (position : state.position = .batched .poll batch) (held : PollHeld state index path)
    (move : proceedStep state configurationChanged retryDue reconciliationDue = some next)
    : PollHeld next index path := by
  obtain ⟨loop, collected, there, outcome⟩ := proceedStep_cases move
  obtain ⟨rfl, rfl⟩ := Position.batched.inj (position.symm.trans there)
  unfold PollHeld at held
  simp only [position] at held
  obtain ⟨grows, growsFailed⟩ :=
    joinedBatch_extends state.pendingFailed batch configurationChanged
  have joined
      : (joinedBatch state.pendingFailed batch configurationChanged).covers path
        ∨ state.previousSnapshot.lookup path ≠ state.files.lookup path := by
    rcases held with covers | ⟨failed, pending, covers⟩ | differs
    · exact Or.inl (grows.covers path covers)
    · exact Or.inl ((growsFailed failed pending).covers path covers)
    · exact Or.inr differs
  have frame
      : (beforeRefresh state .poll
          (joinedBatch state.pendingFailed batch configurationChanged)).previousSnapshot
          = state.previousSnapshot
        ∧ (beforeRefresh state .poll
            (joinedBatch state.pendingFailed batch configurationChanged)).files
          = state.files := by
    unfold beforeRefresh
    dsimp only
    split <;> exact ⟨rfl, rfl⟩
  obtain rfl | ⟨final, more, rfl | rfl⟩ := outcome
  · trivial
  · rcases joined with covers | differs
    · exact Or.inr (Or.inl ⟨final, rfl, more.covers path covers⟩)
    · refine Or.inr (Or.inr ?_)
      dsimp only
      rw [frame.1, frame.2]
      exact differs
  · rcases joined with covers | differs
    · exact Or.inl (more.covers path covers)
    · refine Or.inr ?_
      dsimp only
      rw [frame.1, frame.2]
      exact differs

/-- An event that the callback takes is sent on when it reports a relevant path. -/
theorem Undelivered.callback {directories : List String}
    (waits : Undelivered filter state path)
    (move : callbackStep filter state directories = some next)
    : Undelivered filter next path ∨ Held (editConcern filter index path) next := by
  obtain ⟨event, member, reports⟩ := waits
  unfold callbackStep at move
  split at move
  · next first rest queue free =>
      have relevant (same : event = first)
          : callbackRelevant filter directories first = true := by
        subst same
        unfold WatchEventFilter.relevantPaths at reports
        split at reports
        · next refreshes =>
            obtain ⟨source, inside, relevant⟩ :=
              List.mem_filterMap.mp (List.mem_dedup.mp reports)
            have any
                : event.paths.any (fun path =>
                    (filter.relevantPath path).isSome
                    || filter.directoryChangePath directories path)
                  = true :=
              List.any_eq_true.mpr ⟨source, inside, by simp [relevant]⟩
            simp [callbackRelevant, refreshes, any]
        · simp at reports
      rw [queue] at member
      dsimp only at move
      rcases List.mem_cons.mp member with same | later
      · have here := WatchMessage.event.inj same
        rw [if_pos (relevant here)] at move
        obtain rfl := Option.some.inj move
        refine Or.inr (.of_carries ?_)
        split
        · exact .sending rfl (here ▸ reports)
        · exact .sending rfl (here ▸ reports)
      · left
        split at move
        · obtain rfl := Option.some.inj move
          split
          · exact ⟨event, later, reports⟩
          · exact ⟨event, later, reports⟩
        · obtain rfl := Option.some.inj move
          exact ⟨event, later, reports⟩
  · next error rest queue free =>
      obtain rfl := Option.some.inj move
      rw [queue] at member
      rcases List.mem_cons.mp member with same | later
      · simp at same
      · exact Or.inl ⟨event, later, reports⟩
  · simp at move

/-- Falling back is the only way from the native into the poll loop, and it finds every edit
refreshed.
-/
theorem Noticed.nativeFailed {start : LeaderState} {error : String}
    (observed : Observed backend state action) (found : state.edits[index]? = some path)
    (fails : failureText state action = some error)
    (succeeded : start.succeeded = state.succeeded)
    : Refreshed (start.nativeFailed backend error) index path
      ∨ Noticed filter (start.nativeFailed backend error) index path := by
  unfold LeaderState.nativeFailed
  split
  · next falls =>
      left
      obtain ⟨inside, same⟩ := List.getElem?_eq_some_iff.mp found
      obtain ⟨refresh, member, early, covers⟩ :=
        observed.1 ⟨error, fails, falls⟩ ⟨index, inside⟩
      exact ⟨refresh, succeeded ▸ member, early, same ▸ covers⟩
  · exact Or.inr (.of_returned rfl)

/-- The poll loop's refresh settles what its batch covers; later edits differ from the
snapshot.
-/
theorem PollHeld.attemptOk {batch : WatchChangeBatch} {attempts : Nat} {began : Began}
    {stopping : Bool}
    (position : state.position = .materializing (.serve .poll batch) attempts began)
    (held : PollHeld state index path) (move : attemptOkStep state stopping = some next)
    : Refreshed next index path ∨ PollHeld next index path := by
  unfold PollHeld at held
  simp only [attemptOkStep, position] at move held
  obtain rfl := Option.some.inj move
  rcases held with ⟨covers, early⟩ | differs
  · left
    refine ⟨⟨batch, began⟩, ?_, early, covers⟩
    rw [finishRefresh_succeeded]
    exact List.mem_append_right _ List.mem_cons_self
  · right
    cases stopping <;> exact Or.inr (Or.inr differs)

theorem PollHeld.attemptFailed {batch : WatchChangeBatch} {attempts : Nat} {began : Began}
    {retrying : Bool}
    (position : state.position = .materializing (.serve .poll batch) attempts began)
    (held : PollHeld state index path) (move : attemptFailedStep state retrying = some next)
    : PollHeld next index path := by
  unfold PollHeld at held
  simp only [attemptFailedStep, position] at move held
  split at move
  · obtain rfl := Option.some.inj move
    exact held.imp_left And.left
  · obtain rfl := Option.some.inj move
    rcases held with ⟨covers, -⟩ | differs
    · exact Or.inr (Or.inl ⟨batch, rfl, covers⟩)
    · exact Or.inr (Or.inr differs)

theorem PollHeld.beginAttempt {batch : WatchChangeBatch} {attempts : Nat}
    (position : state.position = .attempting (.serve .poll batch) attempts)
    (held : PollHeld state index path) (present : index < state.edits.length)
    (move : beginAttemptStep state = some next)
    : PollHeld next index path := by
  unfold PollHeld at held
  simp only [beginAttemptStep, position] at move held
  split at move
  · obtain rfl := Option.some.inj move
    exact held.imp_left (fun covers => ⟨covers, present⟩)
  · next unchanged =>
      obtain rfl := Option.some.inj move
      rcases held with covers | differs
      · exact absurd (hasChanges_of_covers covers) unchanged
      · exact Or.inr (Or.inr differs)

theorem leftNative_cases {position : Position} (left : position.leftNative = true)
    : position.polls = true ∨ position.baselining = true ∨ position = .returned := by
  match position with
  | .attempting duty _ | .materializing duty _ _ => exact Or.inl left
  | .batched .poll _ | .polling _ _ => exact Or.inl rfl
  | .baseline _ => exact Or.inr (Or.inl rfl)
  | .returned => exact Or.inr (Or.inr rfl)
  | .starting | .probing _ | .startup _ | .nativeWaiting | .received _ | .collecting _
  | .batched .native _ => simp [Position.leftNative] at left

theorem editStep_frame {edited : String} {file : Option WatchFileState} {event : Event}
    (move : editStep filter state edited file event = some next)
    : next.position = state.position
      ∧ next.edits = state.edits ++ [edited]
      ∧ next.succeeded = state.succeeded
      ∧ ∀ message ∈ state.undelivered, message ∈ next.undelivered := by
  unfold editStep at move
  split at move
  · obtain rfl := Option.some.inj move
    refine ⟨rfl, rfl, rfl, ?_⟩
    intro message member
    dsimp only
    split
    · exact List.mem_append_left _ member
    · exact member
  · simp at move

theorem Noticed.edit {edited : String} {file : Option WatchFileState} {event : Event}
    (noticed : Noticed filter state index path) (present : index < state.edits.length)
    (observed : Observed backend state (.edit edited file event))
    (move : editStep filter state edited file event = some next)
    : Refreshed next index path ∨ Noticed filter next index path := by
  obtain ⟨position, -, -, kept⟩ := editStep_frame move
  obtain ⟨walked, fresh⟩ := observed.2.2 (edited, file) rfl
  cases left : state.position.leftNative with
  | false =>
      have moved : refreshMove filter backend state (.edit edited file event) = some next := move
      exact noticed.native left (position ▸ left) present moved kept
  | true =>
      right
      rcases leftNative_cases left with polls | baselining | returned
      · unfold Noticed at noticed ⊢
        rw [position]
        simp only [left, if_true] at noticed ⊢
        exact .edit move polls (fresh polls) (Or.inr noticed)
      · simp [walked] at baselining
      · exact .of_returned (position.trans returned)

/-- The edit that is made is noticed: the watcher has an event for it, or the startup refresh
is still to come, or the file differs from the snapshot.
-/
theorem Noticed.edited {file : Option WatchFileState} {event : Event}
    (observed : Observed backend state (.edit path file event))
    (move : editStep filter state path file event = some next)
    : Noticed filter next index path := by
  obtain ⟨position, -, -, -⟩ := editStep_frame move
  obtain ⟨walked, fresh⟩ := observed.2.2 (path, file) rfl
  unfold Noticed
  rw [position]
  cases left : state.position.leftNative with
  | true =>
      simp only [if_true]
      rcases leftNative_cases left with polls | baselining | returned
      · exact .edit move polls (fresh polls) (Or.inl rfl)
      · simp [walked] at baselining
      · unfold PollHeld
        rw [position, returned]
        trivial
  | false =>
      simp only [Bool.false_eq_true, if_false]
      unfold editStep at move
      split at move
      · next enabled =>
          obtain rfl := Option.some.inj move
          by_cases watches : state.position.watches = true
          · left
            refine ⟨event, ?_, enabled.2⟩
            dsimp only
            rw [if_pos watches]
            exact List.mem_append_right _ List.mem_cons_self
          · right
            unfold Held
            match place : state.position with
            | .starting | .startup _ | .attempting (.startup _) _
            | .materializing (.startup .poll) _ _ => trivial
            | .probing _ | .nativeWaiting | .received _ | .collecting _ | .batched .native _
            | .attempting (.serve .native _) _ | .materializing (.startup .native) _ _
            | .materializing (.serve .native _) _ _ =>
                simp [place, Position.watches, Duty.loop] at watches
            | .batched .poll _ | .attempting (.serve .poll _) _
            | .materializing (.serve .poll _) _ _ | .baseline _ | .polling _ _ | .returned =>
                simp [place, Position.leftNative, Duty.servesPoll] at left
      · simp at move

theorem Noticed.of_startup (held : Held (editConcern filter index path) next)
    (serving : next.position.leftNative = false)
    : Noticed filter next index path := by
  unfold Noticed
  simp only [serving, Bool.false_eq_true, if_false]
  exact Or.inr held

theorem probeEnd_serves (state : LeaderState) (delivered : Bool)
    : (probeEnd backend state delivered).position.leftNative = false := by
  unfold probeEnd
  split <;> rfl

theorem probeReceiveStep_serves (move : probeReceiveStep filter backend state = some next)
    : next.position.leftNative = false := by
  unfold probeReceiveStep at move
  split at move
  · obtain rfl := Option.some.inj move
    rfl
  · obtain rfl := Option.some.inj move
    exact probeEnd_serves _ _
  · simp at move

theorem probeTimeoutStep_serves (move : probeTimeoutStep backend state = some next)
    : next.position.leftNative = false := by
  unfold probeTimeoutStep at move
  split at move
  · obtain rfl := Option.some.inj move
    exact probeEnd_serves _ _
  · simp at move

theorem nextMessage_undelivered {message : WatchMessage}
    (taken : state.nextMessage = some (message, next))
    : next.undelivered = state.undelivered := by
  unfold LeaderState.nextMessage at taken
  split at taken
  · obtain ⟨-, rfl⟩ := Prod.mk.inj (Option.some.inj taken)
    rfl
  · obtain ⟨first, -, same⟩ := Option.map_eq_some_iff.mp taken
    obtain ⟨-, rfl⟩ := Prod.mk.inj same
    rfl

/-- The startup refresh that hands over to the poll loop has covered every edit. -/
theorem noticed_of_pollStartup {attempts : Nat} {began : Began} {stopping : Bool}
    (position : state.position = .materializing (.startup .poll) attempts began)
    (found : state.edits[index]? = some path)
    (observed : Observed backend state (.attemptOk stopping))
    (move : attemptOkStep state stopping = some next)
    : Refreshed next index path ∨ Noticed filter next index path := by
  have present : index < state.edits.length := (List.getElem?_eq_some_iff.mp found).1
  simp only [attemptOkStep, position] at move
  obtain rfl := Option.some.inj move
  cases stopping with
  | true => exact Or.inr (.of_returned rfl)
  | false =>
      left
      have seen := observed.2.1 began (by simp [pollStartup, position])
      refine ⟨⟨startupBatch, began⟩, ?_, Nat.lt_of_lt_of_le present seen, Or.inl rfl⟩
      exact List.mem_append_right _ List.mem_cons_self

/-- One observed step keeps an edit noticed until a refresh has covered it. -/
theorem Noticed.step (noticed : Noticed filter state index path)
    (found : state.edits[index]? = some path) (observed : Observed backend state action)
    (move : refreshMove filter backend state action = some next)
    : Refreshed next index path ∨ Noticed filter next index path := by
  have present : index < state.edits.length := (List.getElem?_eq_some_iff.mp found).1
  have native (before : state.position.leftNative = false)
      (after : next.position.leftNative = false)
      (kept : ∀ message ∈ state.undelivered, message ∈ next.undelivered)
      : Refreshed next index path ∨ Noticed filter next index path :=
    noticed.native before after present move kept
  have polled (left : state.position.leftNative = true)
      (held : PollHeld state index path → PollHeld next index path)
      : Refreshed next index path ∨ Noticed filter next index path := by
    right
    unfold Noticed at noticed ⊢
    simp only [left, leftNative_step left move, if_true] at noticed ⊢
    exact held noticed
  have watcher (same : SameLeader state next)
      (kept : next.undelivered = state.undelivered)
      : Refreshed next index path ∨ Noticed filter next index path := by
    cases left : state.position.leftNative with
    | true => exact polled left (PollHeld.mono · same)
    | false => exact native left (same.position ▸ left) (fun _ member => kept ▸ member)
  cases action with
  | edit edited file event => exact noticed.edit present observed move
  | report message =>
      simp only [refreshMove] at move
      split at move
      · obtain rfl := Option.some.inj move
        cases left : state.position.leftNative with
        | true => exact polled left id
        | false => exact native left left (fun _ => List.mem_append_left _)
      · simp at move
  | callback directories =>
      have same := callbackStep_sameLeader move
      cases left : state.position.leftNative with
      | true => exact polled left (PollHeld.mono · same)
      | false =>
          have after : next.position.leftNative = false := same.position ▸ left
          unfold Noticed at noticed ⊢
          simp only [left, after, Bool.false_eq_true, if_false] at noticed ⊢
          right
          rcases noticed with waits | held
          · exact waits.callback move
          · right
            exact held.mono same.position same.pendingFailed (Carried.callback · move)
  | trySend =>
      refine watcher (trySendStep_sameLeader move) ?_
      simp only [refreshMove, trySendStep] at move
      split at move
      · split at move <;> obtain rfl := Option.some.inj move <;> rfl
      · simp at move
  | storeOverflow =>
      refine watcher (storeOverflowStep_sameLeader move) ?_
      simp only [refreshMove, storeOverflowStep] at move
      split at move
      · obtain rfl := Option.some.inj move
        rfl
      · simp at move
  | start started =>
      simp only [refreshMove, startStep] at move
      split at move
      · next position =>
          split at move
          · obtain rfl := Option.some.inj move
            exact native (by rw [position]; rfl) rfl (fun _ => id)
          · obtain rfl := Option.some.inj move
            exact native (by rw [position]; rfl) rfl (fun _ => id)
          · obtain rfl := Option.some.inj move
            exact native (by rw [position]; rfl) rfl (fun _ => id)
          · obtain rfl := Option.some.inj move
            exact native (by rw [position]; rfl) rfl (fun _ => id)
          · obtain rfl := Option.some.inj move
            exact Or.inr (.of_returned rfl)
      · simp at move
  | probeReceive =>
      exact Or.inr (.of_startup (Held.probeReceive move) (probeReceiveStep_serves move))
  | probeTimeout =>
      exact Or.inr (.of_startup (Held.probeTimeout move) (probeTimeoutStep_serves move))
  | probeError =>
      simp only [refreshMove, probeErrorStep] at move
      split at move
      · obtain rfl := Option.some.inj move
        exact Or.inr (.of_returned rfl)
      · simp at move
  | startupDirty =>
      simp only [refreshMove, startupDirtyStep] at move
      split at move
      · next position =>
          obtain rfl := Option.some.inj move
          exact native (by rw [position]; rfl) rfl (fun _ => id)
      · simp at move
  | beginAttempt =>
      cases position : state.position with
      | attempting purpose attempts =>
          cases purpose with
          | startup loop =>
              simp only [refreshMove, beginAttemptStep, position] at move
              split at move
              · obtain rfl := Option.some.inj move
                exact native (by rw [position]; rfl) rfl (fun _ => id)
              · next unchanged => exact absurd rfl unchanged
          | serve loop batch =>
              cases loop with
              | poll =>
                  exact polled (by rw [position]; rfl)
                    (PollHeld.beginAttempt position · present move)
              | native =>
                  simp only [refreshMove, beginAttemptStep, position] at move
                  split at move
                  · obtain rfl := Option.some.inj move
                    exact native (by rw [position]; rfl) rfl (fun _ => id)
                  · obtain rfl := Option.some.inj move
                    exact native (by rw [position]; rfl) rfl (fun _ => id)
      | _ => simp [refreshMove, beginAttemptStep, position] at move
  | attemptOk stopping =>
      cases position : state.position with
      | materializing purpose attempts began =>
          cases purpose with
          | startup loop =>
              cases loop with
              | poll => exact noticed_of_pollStartup position found observed move
              | native =>
                  simp only [refreshMove, attemptOkStep, position] at move
                  obtain rfl := Option.some.inj move
                  cases stopping with
                  | true => exact Or.inr (.of_returned rfl)
                  | false => exact native (by rw [position]; rfl) rfl (fun _ => id)
          | serve loop batch =>
              cases loop with
              | poll =>
                  have left : state.position.leftNative = true := by rw [position]; rfl
                  unfold Noticed at noticed ⊢
                  simp only [left, leftNative_step left move, if_true] at noticed ⊢
                  exact noticed.attemptOk position move
              | native =>
                  simp only [refreshMove, attemptOkStep, position] at move
                  obtain rfl := Option.some.inj move
                  cases stopping <;> exact native (by rw [position]; rfl) rfl (fun _ => id)
      | _ => simp [refreshMove, attemptOkStep, position] at move
  | attemptFailed retrying =>
      cases position : state.position with
      | materializing purpose attempts began =>
          cases purpose with
          | startup loop =>
              simp only [refreshMove, attemptFailedStep, position] at move
              split at move
              · obtain rfl := Option.some.inj move
                exact native (by rw [position]; rfl) rfl (fun _ => id)
              · obtain rfl := Option.some.inj move
                cases loop <;> exact Or.inr (.of_returned rfl)
          | serve loop batch =>
              cases loop with
              | poll => exact polled (by rw [position]; rfl) (PollHeld.attemptFailed position · move)
              | native =>
                  simp only [refreshMove, attemptFailedStep, position] at move
                  split at move
                  · obtain rfl := Option.some.inj move
                    exact native (by rw [position]; rfl) rfl (fun _ => id)
                  · obtain rfl := Option.some.inj move
                    exact native (by rw [position]; rfl) rfl (fun _ => id)
      | _ => simp [refreshMove, attemptFailedStep, position] at move
  | receive deadlinePassed =>
      simp only [refreshMove, receiveStep] at move
      split at move
      · next message rest position taken =>
          obtain rfl := Option.some.inj move
          exact native (by rw [position]; rfl) rfl
              (fun _ member => nextMessage_undelivered taken ▸ member)
      · next position _ =>
          split at move
          · obtain rfl := Option.some.inj move
            exact native (by rw [position]; rfl) rfl (fun _ => id)
          · simp at move
      · simp at move
  | disconnect =>
      simp only [refreshMove, disconnectStep] at move
      split at move
      · obtain rfl := Option.some.inj move
        exact Noticed.nativeFailed observed found rfl rfl
      · obtain rfl := Option.some.inj move
        exact Noticed.nativeFailed observed found rfl rfl
      · simp at move
  | openBatch directories deadlinePassed =>
      simp only [refreshMove, openBatchStep] at move
      split at move
      · next message position =>
          split at move
          · next error failed =>
              obtain rfl := Option.some.inj move
              refine Noticed.nativeFailed observed found ?_ rfl
              cases message with
              | event event => simp [applyWatchMessage] at failed
              | error text =>
                  simp only [applyWatchMessage, Except.error.injEq] at failed
                  simp [failureText, position, failed]
          · split at move
            · obtain rfl := Option.some.inj move
              exact native (by rw [position]; rfl) rfl (fun _ => id)
            · split at move
              · obtain rfl := Option.some.inj move
                exact native (by rw [position]; rfl) rfl (fun _ => id)
              · obtain rfl := Option.some.inj move
                exact native (by rw [position]; rfl) rfl (fun _ => id)
      · simp at move
  | collectMore directories =>
      simp only [refreshMove, collectMoreStep] at move
      split at move
      · next batch message rest position taken =>
          split at move
          · next error failed =>
              obtain rfl := Option.some.inj move
              refine Noticed.nativeFailed observed found ?_ (nextMessage_history taken).succeeded
              cases message with
              | event event => simp [applyWatchMessage] at failed
              | error text =>
                  simp only [applyWatchMessage, Except.error.injEq] at failed
                  simp [failureText, taken, failed]
          · obtain rfl := Option.some.inj move
            exact native (by rw [position]; rfl) rfl
              (fun _ member => nextMessage_undelivered taken ▸ member)
      · simp at move
  | collectEnd =>
      simp only [refreshMove, collectEndStep] at move
      split at move
      · next position =>
          obtain rfl := Option.some.inj move
          exact native (by rw [position]; rfl) rfl (fun _ => id)
      · simp at move
  | proceed configurationChanged retryDue reconciliationDue =>
      obtain ⟨loop, collected, position, outcome⟩ := proceedStep_cases move
      cases loop with
      | poll => exact polled (by rw [position]; rfl) (PollHeld.proceed position · move)
      | native =>
          have kept (batch : WatchChangeBatch)
              : (beforeRefresh state .native batch).undelivered = state.undelivered := by
            unfold beforeRefresh
            dsimp only
            split <;> rfl
          obtain rfl | ⟨final, -, rfl | rfl⟩ := outcome
          · exact Or.inr (.of_returned rfl)
          · exact native (by rw [position]; rfl) rfl (fun _ member => kept _ ▸ member)
          · exact native (by rw [position]; rfl) rfl (fun _ member => kept _ ▸ member)
  | visit visited =>
      simp only [refreshMove, visitStep] at move
      split at move
      · next position =>
          obtain rfl := Option.some.inj move
          refine polled (by rw [position]; rfl) (fun held => ?_)
          unfold PollHeld at held
          rw [position] at held
          exact held.elim
      · next position =>
          obtain rfl := Option.some.inj move
          refine polled (by rw [position]; rfl) (fun held => ?_)
          unfold PollHeld at held
          rw [position] at held
          exact held
      · simp at move
  | finishWalk deadlinePassed =>
      cases position : state.position with
      | polling batch readings =>
          exact polled (by rw [position]; rfl) (PollHeld.finishWalk position · move)
      | baseline readings =>
          refine polled (by rw [position]; rfl) (fun held => ?_)
          unfold PollHeld at held
          rw [position] at held
          exact held.elim
      | _ => simp [refreshMove, finishWalkStep, position] at move
  | settle =>
      simp only [refreshMove, settleStep] at move
      split at move
      · next batch position =>
          obtain rfl := Option.some.inj move
          refine polled (by rw [position]; rfl) (fun held => ?_)
          unfold PollHeld at held
          rw [position] at held
          rcases held with ⟨_, ⟨rfl⟩, covers⟩ | failed | differs
          · exact Or.inl covers
          · exact Or.inr (Or.inl failed)
          · exact Or.inr (Or.inr differs)
      · simp at move
  | walkError =>
      simp only [refreshMove, walkErrorStep] at move
      split at move
      · obtain rfl := Option.some.inj move
        exact Or.inr (.of_returned rfl)
      · obtain rfl := Option.some.inj move
        exact Or.inr (.of_returned rfl)
      · simp at move
  | stop =>
      simp only [refreshMove, stopStep] at move
      split at move
      · obtain rfl := Option.some.inj move
        exact Or.inr (.of_returned rfl)
      · obtain rfl := Option.some.inj move
        exact Or.inr (.of_returned rfl)
      · simp at move

end Step

-----------------------------------------------------------------------------------------
-- Whole runs
-----------------------------------------------------------------------------------------

theorem Refreshed.mono {index : Nat} {path : String} (refreshed : Refreshed state index path)
    (kept : ∀ refresh ∈ state.succeeded, refresh ∈ next.succeeded)
    : Refreshed next index path := by
  obtain ⟨refresh, member, early, covers⟩ := refreshed
  exact ⟨refresh, kept refresh member, early, covers⟩

/-- Successful refreshes are never forgotten, and only an edit adds to the edits. -/
theorem refreshMove_history (move : refreshMove filter backend state action = some next)
    : (∀ refresh ∈ state.succeeded, refresh ∈ next.succeeded)
      ∧ (next.edits = state.edits
        ∨ ∃ path file event,
            action = .edit path file event ∧ next.edits = state.edits ++ [path]) := by
  have same (succeeded : next.succeeded = state.succeeded)
      : ∀ refresh ∈ state.succeeded, refresh ∈ next.succeeded :=
    fun _ member => succeeded ▸ member
  cases refreshMove_effect move with
  | edited path file event edits moved =>
      obtain ⟨-, appended, succeeded, -⟩ := editStep_frame moved
      exact ⟨same succeeded, Or.inr ⟨path, file, event, edits, appended⟩⟩
  | quiet quiet position => exact ⟨same quiet.succeeded, Or.inl quiet.edits⟩
  | reported world event visible marked status succeeded position sends =>
      exact ⟨same succeeded, Or.inl world.edits⟩
  | scheduled world batch changes marked status succeeded idle held =>
      exact ⟨same succeeded, Or.inl world.edits⟩
  | began begins duty attempts position result =>
      subst result
      exact ⟨same rfl, Or.inl rfl⟩
  | succeeded world duty began attempt marked status succeeded idle =>
      exact ⟨fun _ member => succeeded ▸ List.mem_append_left _ member, Or.inl world.edits⟩
  | failed world marked status succeeded idle => exact ⟨same succeeded, Or.inl world.edits⟩

/-- In every observed run, as long as the leader has not returned, an edit that is later than
the last successful refresh covering it is remembered.
Witness: each step keeps every edit refreshed or noticed by the loop that runs.
-/
theorem unrefreshed_edit_remembered {files : WatchFileSnapshot} {trace : List RefreshAction}
    {last : LeaderState}
    (run : Run (restrict (refreshStep filter backend) (Observed backend)) { files } trace last)
    (running : last.position ≠ .returned)
    : ∀ index path,
        last.edits[index]? = some path
        → ¬ Refreshed last index path
        → Remembered filter last path := by
  have kept
      : ∀ index path,
          last.edits[index]? = some path
          → Refreshed last index path ∨ Noticed filter last index path := by
    refine run.invariant
      (motive := fun state =>
        ∀ index path,
          state.edits[index]? = some path
          → Refreshed state index path ∨ Noticed filter state index path)
      (fun index path found => by simp at found) ?_
    intro mid action event next before taken index path found
    obtain ⟨observed, enabled⟩ := restrict_eq_some.mp taken
    obtain ⟨moved, move, same⟩ := Option.map_eq_some_iff.mp enabled
    obtain ⟨-, rfl⟩ := Prod.mk.inj same
    obtain ⟨grows, edits⟩ := refreshMove_history move
    have old (found : mid.edits[index]? = some path)
        : Refreshed moved index path ∨ Noticed filter moved index path := by
      rcases before index path found with refreshed | noticed
      · exact Or.inl (refreshed.mono grows)
      · exact noticed.step found observed move
    rcases edits with same | ⟨edited, file, report, rfl, appended⟩
    · exact old (same ▸ found)
    · rw [appended, List.getElem?_append] at found
      split at found
      · exact old found
      · rw [List.getElem?_singleton] at found
        split at found
        · obtain rfl := Option.some.inj found
          exact Or.inr (.edited observed move)
        · simp at found
  intro index path found unrefreshed
  exact ((kept index path found).resolve_left unrefreshed).remembered running

/-- The poll loop starts and refreshes the one edit that it sees. -/
def pollSchedule : List RefreshAction :=
  [
    .start true,
    .startupDirty,
    .beginAttempt,
    .attemptOk false,
    .finishWalk false,
    .edit "a.rs" (some ⟨1, 1⟩) (modified "a.rs"),
    .finishWalk false
  ]

theorem unrefreshed_edit_remembered_polled
    : ∃ trace last,
        Run (restrict (refreshStep plainFilter .poll) (Observed .poll)) { files := [] } trace last
        ∧ last.position ≠ .returned
        ∧ last.edits[0]? = some "a.rs"
        ∧ ¬ Refreshed last 0 "a.rs"
        ∧ Remembered plainFilter last "a.rs" := by
  obtain ⟨trace, last, run, checked⟩ := Run.exists_of_execute pollSchedule
    (fun last : LeaderState =>
      decide (last.position ≠ .returned
        ∧ last.edits[0]? = some "a.rs"
        ∧ ¬ Refreshed last 0 "a.rs"))
    (by decide +kernel
      : (execute (restrict (refreshStep plainFilter .poll) (Observed .poll)) { files := [] }
          pollSchedule).map _
        = some true)
  obtain ⟨running, found, unrefreshed⟩ := of_decide_eq_true checked
  exact ⟨trace, last, run, running, found, unrefreshed,
    unrefreshed_edit_remembered run running 0 "a.rs" found unrefreshed⟩

/-- An edit is taken into a batch, the watcher fails, and the poll loop takes its baseline. -/
def fallbackSchedule : List RefreshAction :=
  startupSchedule
  ++ editSchedule "a.rs" 1
  ++ [
    .receive false,
    .openBatch [] false,
    .report (.error "watch limit reached"),
    .callback [],
    .trySend,
    .collectMore [],
    .finishWalk false
  ]

/-- After the fallback the edit is in no place at all. -/
theorem fallback_forgets_edit
    : ∃ trace last,
        Run (refreshStep plainFilter .auto) { files := [] } trace last
        ∧ last.position ≠ .returned
        ∧ last.edits[0]? = some "a.rs"
        ∧ ¬ Refreshed last 0 "a.rs"
        ∧ ¬ Remembered plainFilter last "a.rs" := by
  obtain ⟨trace, last, run, checked⟩ := Run.exists_of_execute fallbackSchedule
    (fun last : LeaderState =>
      decide (last.position = .polling none []
        ∧ last.edits[0]? = some "a.rs"
        ∧ ¬ Refreshed last 0 "a.rs"
        ∧ last.messages = []
        ∧ last.overflowed = false
        ∧ last.callback = none
        ∧ last.pendingFailed = none
        ∧ last.previousSnapshot.lookup "a.rs" = last.files.lookup "a.rs"))
    (by decide +kernel
      : (execute (refreshStep plainFilter .auto) { files := [] } fallbackSchedule).map _
        = some true)
  obtain ⟨position, found, unrefreshed, messages, lowered, free, pending, same⟩ :=
    of_decide_eq_true checked
  refine ⟨trace, last, run, by simp [position], found, unrefreshed, ?_⟩
  intro remembered
  cases remembered with
  | message member reports => simp [messages] at member
  | overflow raised => simp [lowered, free] at raised
  | batch current covers => simp [position, Position.currentBatch] at current
  | failed failed covers => simp [pending] at failed
  | snapshot polls differs => exact differs same

end CodebaseGraph.Refresh
