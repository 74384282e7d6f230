import CodebaseGraph.Staging.Metered
import Mathlib.Algebra.BigOperators.Group.List.Basic
import Mathlib.Logic.Relation

/-! The memory that spools and streams account for is the memory that they hold: in every program,
after every call, whichever calls have failed.
-/

namespace CodebaseGraph.Staging.Metered

open CodebaseGraph.Sorting
open CodebaseGraph.Transition
open CodebaseGraph.Transition.Settling

-- What is held

section

variable {T Key : Type}

/-- The bytes of the heap, and of the record that was delivered last. -/
def SortedStream.heldBytes (stream : SortedStream T Key) : Nat :=
  (stream.heap.map HeapItem.accountedBytes).sum + stream.outstandingBytes

/-- The stream knows what its heap holds. -/
def SortedStream.Sound (stream : SortedStream T Key) : Prop :=
  stream.heapBytes = (stream.heap.map HeapItem.accountedBytes).sum

variable [SpillRecord T Key] (outside : Outside T)

def BufferedRecord.bytes (record : BufferedRecord Key) : Nat :=
  record.encoded.capacity + SpillRecord.keyBytes T record.key + lengthPrefixBytes
    + outside.bufferedRecordBytes

def SortedSpool.heldBytes (spool : SortedSpool Key) : Nat :=
  (spool.buffered.map (BufferedRecord.bytes outside)).sum

/-- The spool knows what it holds. -/
def SortedSpool.Sound (spool : SortedSpool Key) : Prop :=
  spool.bufferedBytes = spool.heldBytes outside

end

/-- The current bytes are this total, unless a sum was cut off. -/
structure SpillMetrics.Shows (metrics : SpillMetrics) (total : Nat) : Prop where
  bounded : metrics.currentBytes ≤ u64Max
  exactly
    : metrics.overflowed = false →
        metrics.underflowed = false ∧ metrics.currentBytes = total

namespace SpillMetrics.Shows

variable {metrics : SpillMetrics} {total : Nat}

theorem addLive (shows : metrics.Shows total) (bytes : Nat)
    : (metrics.addLive bytes).Shows (total + bytes) := by
  refine ⟨Nat.min_le_right _ _, ?_⟩
  intro fits
  rw [SpillMetrics.addLive] at fits
  simp only [Bool.or_eq_false_iff, decide_eq_false_iff_not, Nat.not_lt] at fits
  obtain ⟨never, same⟩ := shows.exactly fits.1
  refine ⟨never, ?_⟩
  have sum : (metrics.addLive bytes).currentBytes = min (metrics.currentBytes + bytes) u64Max := rfl
  rw [sum, Nat.min_eq_left fits.2, same]

theorem releaseLive {bytes : Nat} (shows : metrics.Shows (total + bytes))
    : (metrics.releaseLive bytes).Shows total := by
  refine ⟨Nat.le_trans (Nat.sub_le _ _) shows.bounded, ?_⟩
  intro fits
  obtain ⟨never, same⟩ := shows.exactly fits
  have rest : (metrics.releaseLive bytes).currentBytes = metrics.currentBytes - bytes := rfl
  refine ⟨?_, by omega⟩
  have enough : ¬ metrics.currentBytes < bytes := by omega
  simp [SpillMetrics.releaseLive, never, enough]

theorem addWritten (shows : metrics.Shows total) (bytes : Nat)
    : (metrics.addWritten bytes).Shows total :=
  ⟨shows.bounded, shows.exactly⟩

/-- A part of the total fits a word, unless a sum was cut off. -/
theorem releaseSaturated {first second : Nat} (shows : metrics.Shows (total + (first + second)))
    : (metrics.releaseLive (saturatingAdd first second)).Shows total := by
  by_cases fits : metrics.overflowed = false
  · have same := (shows.exactly fits).2
    have bounded := shows.bounded
    have sum : saturatingAdd first second = first + second := Nat.min_eq_left (by omega)
    rw [sum]
    exact shows.releaseLive
  · exact ⟨Nat.le_trans (Nat.sub_le _ _) shows.bounded, fun never => absurd never fits⟩

end SpillMetrics.Shows

-- Rules

section Rules

variable {Self α : Type} {self : Self} {meter : Meter} {failed : Self × Meter → Prop}

theorem settles_getSelf {done : Self → Self × Meter → Prop} (holds : done self (self, meter))
    : Settles getSelf (self, meter) done failed :=
  holds

theorem settles_setSelf {next : Self} {done : PUnit → Self × Meter → Prop}
    (holds : done ⟨⟩ (next, meter))
    : Settles (setSelf next) (self, meter) done failed :=
  holds

theorem settles_onMetrics {update : SpillMetrics → SpillMetrics}
    {done : PUnit → Self × Meter → Prop} (holds : done ⟨⟩ (self, meter.change update))
    : Settles (onMetrics update) (self, meter) done failed :=
  holds

theorem settles_call {answer : Nat → Except NativeError α} {done : α → Self × Meter → Prop}
    (answered : ∀ result, done result (self, meter.tick)) (broken : failed (self, meter.tick))
    : Settles (call answer) (self, meter) done failed := by
  have ran : (call answer : Method Self α).settle (self, meter)
      = (answer meter.calls, (self, meter.tick)) := rfl
  rw [Settles, ran]
  cases answer meter.calls with
  | error problem => exact broken
  | ok result => exact answered result

theorem settles_ofOption {problem : NativeError} {value : Option α}
    {done : α → Self × Meter → Prop}
    (found : ∀ result, value = some result → done result (self, meter))
    (absent : failed (self, meter))
    : Settles (ofOption problem value) (self, meter) done failed := by
  cases value with
  | none => exact absent
  | some result => exact found result rfl

/-- The object is as it was, and so is what the meter shows. -/
def Untouched (self : Self) (total : Nat) (state : Self × Meter) : Prop :=
  state.1 = self ∧ state.2.metrics.Shows total

theorem settles_untouched {action : Method Self α} {total : Nat} {done : α → Self × Meter → Prop}
    (ends : Settles action (self, meter) (fun _ => Untouched self total) (Untouched self total))
    (answered : ∀ result (meter : Meter), meter.metrics.Shows total → done result (self, meter))
    (broken : ∀ meter : Meter, meter.metrics.Shows total → failed (self, meter))
    : Settles action (self, meter) done failed := by
  refine ends.mono ?_ ?_
  · rintro result ⟨_, next⟩ ⟨rfl, shows⟩
    exact answered result next shows
  · rintro ⟨_, next⟩ ⟨rfl, shows⟩
    exact broken next shows

end Rules

-----------------------------------------------------------------------------------------
-- Streams
-----------------------------------------------------------------------------------------

section Streams

variable {T Key : Type} [LinearOrder Key] [SpillRecord T Key] (outside : Outside T) {Self : Type}
  {self : Self} {meter : Meter} {total frame : Nat}

omit [LinearOrder Key] [SpillRecord T Key] in
theorem writeEncoded_untouched (encoded : List UInt8) (shows : meter.metrics.Shows total)
    : Settles (writeEncoded outside encoded) (self, meter) (fun _ => Untouched self total)
        (Untouched self total) := by
  rw [writeEncoded]
  split
  · exact Settles.throw ⟨rfl, shows⟩
  · apply Settles.bind
    refine settles_call (fun _ => ?_) ⟨rfl, shows⟩
    apply Settles.bind
    refine settles_call (fun _ => ?_) ⟨rfl, shows⟩
    exact settles_onMetrics ⟨rfl, shows.addWritten _⟩

omit [LinearOrder Key] in
theorem heapItem_untouched (readerIndex heapBytes : Nat) (encoded : List UInt8)
    (shows : meter.metrics.Shows total)
    : Settles (heapItem outside readerIndex heapBytes encoded) (self, meter)
        (fun item next =>
          Untouched self total next
          ∧ item.2 = heapBytes + item.1.accountedBytes
          ∧ item.2 ≤ u64Max)
        (Untouched self total) := by
  have unchanged : Untouched self total (self, meter.tick) := ⟨rfl, shows⟩
  rw [heapItem]
  apply Settles.bind
  refine settles_call (fun record => ?_) unchanged
  apply Settles.bind
  refine settles_ofOption (fun accountedBytes _ => ?_) unchanged
  apply Settles.bind
  refine settles_ofOption (fun nextHeapBytes summed => ?_) unchanged
  apply Settles.bind
  refine settles_call (fun _ => ?_) ⟨rfl, shows⟩
  obtain ⟨fits, rfl⟩ := checkedAdd_eq_some.mp summed
  exact Settles.pure ⟨⟨rfl, shows⟩, rfl, fits⟩

/-- While the readers are opened, the guard has the bytes of the heap. -/
structure Opening (frame heapBytes : Nat) (heap : List (HeapItem T Key))
    (state : LiveChargeGuard × Meter)
    : Prop where
  armed : state.1.armed = true
  charged : state.1.bytes = heapBytes
  bounded : heapBytes ≤ u64Max
  items : heapBytes = (heap.map HeapItem.accountedBytes).sum
  shows : state.2.metrics.Shows (frame + heapBytes)

omit [SpillRecord T Key] in
theorem sum_insertBy (item : HeapItem T Key) (heap : List (HeapItem T Key))
    : ((insertBy HeapItem.rank item heap).map HeapItem.accountedBytes).sum
      = item.accountedBytes + (heap.map HeapItem.accountedBytes).sum :=
  ((insertBy_perm HeapItem.rank item heap).map HeapItem.accountedBytes).sum_eq

/-- By induction on the runs: what is on the heap is charged, and what was charged is released. -/
theorem openReaders_settles {guard : LiveChargeGuard} (readers : List RunReader)
    (heap : List (HeapItem T Key)) (heapBytes : Nat) (paths : List String)
    (opening : Opening frame heapBytes heap (guard, meter))
    : Settles (openReaders outside readers heap heapBytes paths) (guard, meter)
        (fun opened next => Opening frame opened.2.2 opened.2.1 next)
        (fun next => (LiveChargeGuard.drop next).metrics.Shows frame) := by
  have released {guard : LiveChargeGuard} {meter : Meter} {heapBytes : Nat}
      (armed : guard.armed = true) (charged : guard.bytes = heapBytes)
      (shows : meter.metrics.Shows (frame + heapBytes))
      : (LiveChargeGuard.drop (guard, meter)).metrics.Shows frame := by
    rw [LiveChargeGuard.drop, if_pos armed]
    exact (charged ▸ shows).releaseLive
  induction paths generalizing guard meter readers heap heapBytes with
  | nil =>
      rw [openReaders]
      exact Settles.pure opening
  | cons path rest ih =>
      obtain ⟨armed, charged, bounded, items, shows⟩ := opening
      rw [openReaders]
      apply Settles.bind
      refine settles_call (fun reader => ?_) (released armed charged shows)
      rcases reader.readRecord with ⟨problem | _ | encoded, reader⟩
      · exact Settles.throw (released armed charged shows)
      · exact ih _ _ _ ⟨armed, charged, bounded, items, shows⟩
      · have ticked : meter.tick.metrics.Shows (frame + heapBytes) := shows
        apply Settles.bind
        refine (heapItem_untouched outside readers.length heapBytes encoded ticked).mono ?_ ?_
        · rintro ⟨item, nextHeapBytes⟩ ⟨_, middle⟩ ⟨⟨rfl, shown⟩, sum, fits⟩
          dsimp only at sum fits
          subst sum
          apply Settles.bind
          apply settles_onMetrics
          apply Settles.bind
          apply settles_getSelf
          apply Settles.bind
          apply settles_setSelf
          apply ih
          refine ⟨armed, ?_, fits, ?_, ?_⟩
          · rw [← charged] at fits ⊢
            exact Nat.min_eq_left fits
          · rw [sum_insertBy, ← items, Nat.add_comm]
          · rw [← Nat.add_assoc]
            exact shown.addLive item.accountedBytes
        · rintro ⟨_, middle⟩ ⟨rfl, shown⟩
          exact released armed charged shown

theorem openRuns_settles (paths : List String) (cleanup : Bool) (shows : meter.metrics.Shows frame)
    : Settles (SortedStream.openRuns outside paths cleanup) (self, meter)
        (fun stream next =>
          stream.Sound ∧ next.1 = self ∧ next.2.metrics.Shows (frame + stream.heldBytes))
        (Untouched self frame) := by
  have opening
      : Opening frame 0 ([] : List (HeapItem T Key)) (LiveChargeGuard.new, meter.tick) :=
    ⟨rfl, rfl, Nat.zero_le _, rfl, shows⟩
  apply Settles.withPart
  apply Settles.bind
  refine settles_call (fun _ => ?_) ⟨rfl, ?_⟩
  · apply Settles.bind
    refine (openReaders_settles outside [] [] 0 paths opening).mono ?_ ?_
    · rintro ⟨readers, heap, heapBytes⟩ ⟨guard, middle⟩ opening
      apply Settles.bind
      apply settles_getSelf
      apply Settles.bind
      apply settles_setSelf
      refine Settles.pure ⟨opening.items, rfl, ?_⟩
      have held := opening.shows
      rw [opening.items] at held
      exact held
    · intro next holds
      exact ⟨rfl, holds⟩
  · exact shows.releaseLive

/-- A sound stream, and a meter that shows what it holds besides the rest. -/
def StreamBalanced (frame : Nat) (state : SortedStream T Key × Meter) : Prop :=
  state.1.Sound ∧ state.2.metrics.Shows (frame + state.1.heldBytes)

variable {stream : SortedStream T Key}

omit [LinearOrder Key] [SpillRecord T Key] in
theorem cleanupInputs_balanced (balanced : StreamBalanced frame (stream, meter))
    : Settles (cleanupInputs outside) (stream, meter) (fun _ => StreamBalanced frame)
        (StreamBalanced frame) := by
  rw [cleanupInputs]
  apply Settles.bind
  apply settles_getSelf
  apply Settles.bind
  apply settles_setSelf
  apply Settles.forM (StreamBalanced frame)
  · exact balanced
  · rintro path _ ⟨before, meter⟩ held
    apply Settles.bind
    refine settles_call (fun found => ?_) held
    split
    · exact settles_call (fun _ => held) held
    · exact Settles.pure held

omit [LinearOrder Key] [SpillRecord T Key] in
theorem releaseOutstanding_balanced (balanced : StreamBalanced frame (stream, meter))
    : Settles releaseOutstanding (stream, meter)
        (fun _ next => StreamBalanced frame next ∧ next.1.outstandingBytes = 0)
        (StreamBalanced frame) := by
  obtain ⟨sound, shows⟩ := balanced
  rw [releaseOutstanding]
  apply Settles.bind
  apply settles_getSelf
  split
  · apply Settles.bind
    apply settles_onMetrics
    refine settles_setSelf ⟨⟨sound, ?_⟩, rfl⟩
    rw [SortedStream.heldBytes, ← Nat.add_assoc] at shows
    exact shows.releaseLive
  · next empty => exact Settles.pure ⟨⟨sound, shows⟩, Nat.eq_zero_of_not_pos empty⟩

/-- What is read is charged for when it is on the heap. -/
theorem refill_balanced (balanced : StreamBalanced frame (stream, meter))
    (returned : stream.outstandingBytes = 0)
    : Settles (refill outside) (stream, meter)
        (fun _ next => StreamBalanced frame next ∧ next.1.outstandingBytes = 0)
        (StreamBalanced frame) := by
  rw [refill]
  apply Settles.bind
  apply settles_getSelf
  cases stream.pendingReader with
  | none => exact Settles.pure ⟨balanced, returned⟩
  | some readerIndex =>
      apply Settles.bind
      apply settles_setSelf
      cases stream.readers[readerIndex]? with
      | none => exact Settles.throw balanced
      | some reader =>
          dsimp only
          rcases reader.readRecord with ⟨problem | _ | encoded, reader⟩
          · apply Settles.bind
            apply settles_setSelf
            exact Settles.throw balanced
          · apply Settles.bind
            apply settles_setSelf
            exact Settles.pure ⟨balanced, returned⟩
          · apply Settles.bind
            apply settles_setSelf
            apply Settles.bind
            refine (heapItem_untouched outside readerIndex stream.heapBytes encoded
              balanced.2).mono ?_ ?_
            · rintro ⟨item, nextHeapBytes⟩ ⟨_, middle⟩ ⟨⟨rfl, shown⟩, sum, -⟩
              dsimp only at sum
              apply Settles.bind
              apply settles_onMetrics
              refine settles_setSelf ⟨⟨?_, ?_⟩, returned⟩
              · rw [SortedStream.Sound, sum_insertBy, sum, balanced.1, Nat.add_comm]
              · have shown := shown.addLive item.accountedBytes
                have held
                    : frame + stream.heldBytes + item.accountedBytes
                      = frame
                        + (((insertBy HeapItem.rank item stream.heap).map
                            HeapItem.accountedBytes).sum
                          + stream.outstandingBytes) := by
                  rw [sum_insertBy, SortedStream.heldBytes]
                  omega
                exact held ▸ shown
            · rintro ⟨_, middle⟩ ⟨rfl, shown⟩
              exact ⟨balanced.1, shown⟩

theorem nextEncoded_balanced (balanced : StreamBalanced frame (stream, meter))
    : Settles (nextEncoded outside) (stream, meter) (fun _ => StreamBalanced frame)
        (StreamBalanced frame) := by
  rw [nextEncoded]
  apply Settles.bind
  refine (releaseOutstanding_balanced balanced).mono ?_ (fun _ broken => broken)
  rintro _ ⟨first, firstMeter⟩ ⟨balanced, returned⟩
  apply Settles.bind
  refine (refill_balanced outside balanced returned).mono ?_ (fun _ broken => broken)
  rintro _ ⟨second, secondMeter⟩ ⟨balanced, returned⟩
  apply Settles.bind
  apply settles_getSelf
  have items : second.heapBytes = (second.heap.map HeapItem.accountedBytes).sum := balanced.1
  have shows : secondMeter.metrics.Shows (frame + second.heldBytes) := balanced.2
  have none : second.outstandingBytes = 0 := returned
  cases queued : second.heap with
  | nil =>
      dsimp only
      split
      · apply Settles.bind
        refine (cleanupInputs_balanced outside balanced).mono ?_ (fun _ broken => broken)
        intro _ next held
        exact Settles.pure held
      · exact Settles.pure balanced
  | cons item heap =>
      rw [SortedStream.heldBytes, queued, List.map_cons, List.sum_cons, none] at shows
      rw [queued, List.map_cons, List.sum_cons] at items
      have moved
          : frame + (item.accountedBytes + (heap.map HeapItem.accountedBytes).sum + 0)
            = frame + ((heap.map HeapItem.accountedBytes).sum + item.accountedBytes) := by
        omega
      apply Settles.bind
      refine settles_setSelf (Settles.pure ⟨?_, moved ▸ shows⟩)
      exact Nat.sub_eq_of_eq_add' items

theorem next_balanced (balanced : StreamBalanced frame (stream, meter))
    : Settles (SortedStream.next outside) (stream, meter) (fun _ => StreamBalanced frame)
        (StreamBalanced frame) := by
  apply Settles.bind
  refine (nextEncoded_balanced outside balanced).mono ?_ (fun _ broken => broken)
  intro _ next held
  exact Settles.pure held

omit [LinearOrder Key] [SpillRecord T Key] in
theorem streamDrop_shows (balanced : StreamBalanced frame (stream, meter))
    : (SortedStream.drop (stream, meter)).metrics.Shows frame := by
  obtain ⟨sound, shows⟩ := balanced
  rw [SortedStream.heldBytes, ← show stream.heapBytes = _ from sound] at shows
  exact shows.releaseSaturated

theorem copyRecords_balanced (fuel : Nat) (balanced : StreamBalanced frame (stream, meter))
    : Settles (copyRecords outside fuel) (stream, meter) (fun _ => StreamBalanced frame)
        (StreamBalanced frame) := by
  induction fuel generalizing stream meter with
  | zero => exact Settles.pure balanced
  | succ fuel ih =>
      rw [copyRecords]
      apply Settles.bind
      refine (nextEncoded_balanced outside balanced).mono ?_ (fun _ broken => broken)
      rintro (_ | item) ⟨next, nextMeter⟩ ⟨sound, shows⟩
      · exact Settles.pure ⟨sound, shows⟩
      · apply Settles.bind
        refine settles_untouched (writeEncoded_untouched outside item.encoded shows) ?_ ?_
        · intro _ written shown
          exact ih ⟨sound, shown⟩
        · intro written shown
          exact ⟨sound, shown⟩

/-- The stream of a merge is given up whether the merge succeeds or not. -/
theorem mergeRunGroup_untouched (inputs : List String) (output : String)
    (shows : meter.metrics.Shows total)
    : Settles (mergeRunGroup outside inputs output) (self, meter)
        (fun _ => Untouched self total) (Untouched self total) := by
  rw [mergeRunGroup]
  apply Settles.bind
  refine (openRuns_settles outside inputs false shows).mono ?_ (fun _ broken => broken)
  rintro stream ⟨own, opened⟩ ⟨sound, rfl, shows⟩
  apply Settles.bind
  apply Settles.withPart
  apply Settles.bind
  have balanced : StreamBalanced total (stream, opened.tick) := ⟨sound, shows⟩
  refine settles_call (fun _ => ?_) ⟨rfl, streamDrop_shows balanced⟩
  apply Settles.bind
  refine (copyRecords_balanced outside _ balanced).mono ?_ ?_
  · rintro _ ⟨copied, meter⟩ balanced
    refine settles_call (fun _ => ?_) ⟨rfl, streamDrop_shows balanced⟩
    apply Settles.bind
    refine (Settles.forM (Untouched own total) ⟨rfl, streamDrop_shows balanced⟩ ?_).mono ?_
      (fun _ broken => broken)
    · rintro input _ ⟨_, meter⟩ ⟨rfl, shown⟩
      exact settles_call (fun _ => ⟨rfl, shown⟩) ⟨rfl, shown⟩
    · intro _ next held
      exact Settles.pure held
  · rintro ⟨copied, meter⟩ balanced
    exact ⟨rfl, streamDrop_shows balanced⟩

end Streams

-----------------------------------------------------------------------------------------
-- Spools
-----------------------------------------------------------------------------------------

section Spools

variable {T Key : Type} [LinearOrder Key] [SpillRecord T Key] (outside : Outside T) {meter : Meter}
  {frame : Nat} {spool : SortedSpool Key}

def SpoolBalanced (frame : Nat) (state : SortedSpool Key × Meter) : Prop :=
  state.1.Sound outside ∧ state.2.metrics.Shows (frame + state.1.heldBytes outside)

omit [LinearOrder Key] in
theorem spoolDrop_shows (balanced : SpoolBalanced outside frame (spool, meter))
    : (SortedSpool.drop (spool, meter)).metrics.Shows frame := by
  obtain ⟨sound, shows⟩ := balanced
  rw [← show spool.bufferedBytes = _ from sound] at shows
  rw [SortedSpool.drop]
  split
  · exact shows.releaseLive
  · next empty =>
      rw [Nat.eq_zero_of_not_pos empty] at shows
      exact shows

/-- A flush gives up what is buffered only when nothing can fail any more. -/
theorem flush_balanced (balanced : SpoolBalanced outside frame (spool, meter))
    : Settles (flush outside) (spool, meter)
        (fun _ next => SpoolBalanced outside frame next ∧ next.1.buffered = [])
        (SpoolBalanced outside frame) := by
  rw [flush]
  apply Settles.bind
  apply settles_getSelf
  split
  · next empty => exact Settles.pure ⟨balanced, List.isEmpty_iff.mp empty⟩
  · apply Settles.bind
    refine settles_call (fun _ => ?_) balanced
    have same
        : ((sortBy BufferedRecord.key spool.buffered).map (BufferedRecord.bytes outside)).sum
          = (spool.buffered.map (BufferedRecord.bytes outside)).sum :=
      ((sortBy_perm BufferedRecord.key spool.buffered).map _).sum_eq
    have sorted (nextRun : Nat) (meter : Meter)
        (shows : meter.metrics.Shows (frame + spool.heldBytes outside))
        : SpoolBalanced outside frame
            ({ spool with buffered := sortBy BufferedRecord.key spool.buffered, nextRun },
              meter) := by
      rw [SpoolBalanced, SortedSpool.Sound, SortedSpool.heldBytes, same]
      exact ⟨balanced.1, shows⟩
    apply Settles.bind
    apply settles_setSelf
    apply Settles.bind
    apply Settles.bind
    apply settles_getSelf
    apply Settles.bind
    apply settles_setSelf
    apply Settles.pure
    apply Settles.bind
    refine settles_call (fun _ => ?_) (sorted _ _ balanced.2)
    apply Settles.bind
    refine (Settles.forM
      (Untouched { spool with
        buffered := sortBy BufferedRecord.key spool.buffered
        nextRun := saturatingAdd spool.nextRun 1 }
        (frame + spool.heldBytes outside)) ?_ ?_).mono ?_ ?_
    · exact ⟨rfl, balanced.2⟩
    · rintro record _ ⟨_, written⟩ ⟨rfl, shows⟩
      exact writeEncoded_untouched outside record.encoded.bytes shows
    · rintro _ ⟨_, written⟩ ⟨rfl, shows⟩
      apply Settles.bind
      refine settles_call (fun _ => ?_) (sorted _ _ shows)
      apply Settles.bind
      apply settles_getSelf
      apply Settles.bind
      apply settles_setSelf
      refine settles_onMetrics ⟨⟨rfl, ?_⟩, rfl⟩
      rw [← show spool.bufferedBytes = _ from balanced.1] at shows
      exact shows.releaseLive
    · rintro ⟨_, written⟩ ⟨rfl, shows⟩
      exact sorted _ _ shows

omit [LinearOrder Key] in
theorem recordBytes_eq {key : Key} {encoded : Encoded} {bytes : Nat}
    (counted : recordBytes outside key encoded = some bytes)
    : bytes = BufferedRecord.bytes outside { key, encoded } := by
  obtain ⟨first, one, counted⟩ := Option.bind_eq_some_iff.mp counted
  obtain ⟨second, two, three⟩ := Option.bind_eq_some_iff.mp counted
  obtain ⟨-, rfl⟩ := checkedAdd_eq_some.mp one
  obtain ⟨-, rfl⟩ := checkedAdd_eq_some.mp two
  exact (checkedAdd_eq_some.mp three).2.symm

/-- A record whose bytes are charged is buffered, or its bytes are released. -/
theorem appendRecord_balanced {item : BufferedRecord Key}
    (balanced : SpoolBalanced outside (frame + item.bytes outside) (spool, meter))
    (fits : spool.bufferedBytes + item.bytes outside ≤ u64Max)
    : Settles (appendRecord outside item (item.bytes outside)) (spool, meter)
        (fun _ => SpoolBalanced outside frame) (SpoolBalanced outside frame) := by
  obtain ⟨sound, shows⟩ := balanced
  have filled : spool.bufferedBytes = spool.heldBytes outside := sound
  have held
      : ((spool.buffered ++ [item]).map (BufferedRecord.bytes outside)).sum
        = spool.heldBytes outside + item.bytes outside := by
    rw [List.map_append, List.sum_append, List.map_singleton, List.sum_singleton]
    rfl
  have moved
      : frame + item.bytes outside + spool.heldBytes outside
        = frame + ((spool.buffered ++ [item]).map (BufferedRecord.bytes outside)).sum := by
    rw [held]
    omega
  have balanced
      : SpoolBalanced outside frame
          ({ spool with
              buffered := spool.buffered ++ [item]
              bufferedBytes := spool.bufferedBytes + item.bytes outside },
            meter.tick) :=
    ⟨(congrArg (· + _) filled).trans held.symm, moved ▸ shows⟩
  rw [appendRecord]
  apply Settles.bind
  refine Settles.cleaning (settles_call (fun _ => ?_) ⟨sound, ?_⟩)
  · apply Settles.bind
    apply settles_getSelf
    apply Settles.bind
    apply settles_setSelf
    apply Settles.bind
    rw [show checkedAdd spool.bufferedBytes _ = some _ from checkedAdd_eq_some.mpr ⟨fits, rfl⟩]
    apply Settles.pure
    apply Settles.bind
    apply settles_setSelf
    split
    · exact (flush_balanced outside balanced).mono (fun _ _ after => after.1)
        (fun _ after => after)
    · exact Settles.pure balanced
  · rw [Nat.add_right_comm] at shows
    exact shows.releaseLive

theorem push_balanced (record : T) (balanced : SpoolBalanced outside frame (spool, meter))
    : Settles (push outside record) (spool, meter) (fun _ => SpoolBalanced outside frame)
        (SpoolBalanced outside frame) := by
  rw [push]
  apply Settles.bind
  refine settles_call (fun encoded => ?_) balanced
  apply Settles.bind
  refine settles_ofOption (fun bytes counted => ?_) balanced
  obtain rfl := recordBytes_eq outside counted
  apply Settles.bind
  apply settles_getSelf
  apply Settles.bind
  refine settles_ofOption (fun nextBytes summed => ?_) balanced
  obtain ⟨fits, rfl⟩ := checkedAdd_eq_some.mp summed
  apply Settles.bind
  apply settles_onMetrics
  have charged
      : SpoolBalanced outside
          (frame + BufferedRecord.bytes outside { key := sortKey record, encoded })
          (spool, meter.tick.change
            (·.addLive (BufferedRecord.bytes outside { key := sortKey record, encoded }))) := by
    refine ⟨balanced.1, ?_⟩
    rw [Nat.add_right_comm]
    exact balanced.2.addLive _
  split
  · apply Settles.bind
    apply Settles.cleaning
    refine (flush_balanced outside charged).mono ?_ ?_
    · rintro _ ⟨flushed, after⟩ ⟨balanced, empty⟩
      have nothing : flushed.bufferedBytes = 0 := by
        have held : flushed.bufferedBytes = flushed.heldBytes outside := balanced.1
        rw [held, SortedSpool.heldBytes, show flushed.buffered = [] from empty]
        rfl
      exact appendRecord_balanced outside balanced (by omega)
    · rintro ⟨unflushed, after⟩ ⟨sound, shows⟩
      refine ⟨sound, ?_⟩
      rw [Nat.add_right_comm] at shows
      exact shows.releaseLive
  · exact appendRecord_balanced outside charged fits

theorem mergeLevel_balanced (runs : List String)
    (balanced : SpoolBalanced outside frame (spool, meter))
    : Settles (mergeLevel outside runs) (spool, meter) (fun _ => SpoolBalanced outside frame)
        (SpoolBalanced outside frame) := by
  apply Settles.mapM (SpoolBalanced outside frame) balanced
  rintro group - ⟨before, meter⟩ balanced
  split
  · exact Settles.pure balanced
  · apply Settles.bind
    apply Settles.bind
    apply settles_getSelf
    apply Settles.bind
    apply settles_setSelf
    apply Settles.pure
    refine settles_untouched (mergeRunGroup_untouched outside group _ balanced.2) ?_ ?_
    · intro _ merged shows
      exact ⟨balanced.1, shows⟩
    · intro merged shows
      exact ⟨balanced.1, shows⟩

theorem mergeLevels_balanced (fuel : Nat) (runs : List String)
    (balanced : SpoolBalanced outside frame (spool, meter))
    : Settles (mergeLevels outside fuel runs) (spool, meter)
        (fun _ => SpoolBalanced outside frame) (SpoolBalanced outside frame) := by
  induction fuel generalizing runs spool meter with
  | zero => exact Settles.pure balanced
  | succ fuel ih =>
      rw [mergeLevels]
      split
      · exact Settles.pure balanced
      · apply Settles.bind
        refine (mergeLevel_balanced outside runs balanced).mono ?_ (fun _ broken => broken)
        rintro fewer ⟨merged, after⟩ balanced
        exact ih fewer balanced

/-- The stream of a finished spool is charged for, besides what the spool still holds. -/
theorem finish_balanced (balanced : SpoolBalanced outside frame (spool, meter))
    : Settles (SortedSpool.finish outside) (spool, meter)
        (fun stream next =>
          stream.Sound ∧ SpoolBalanced outside (frame + stream.heldBytes) next)
        (SpoolBalanced outside frame) := by
  rw [SortedSpool.finish]
  apply Settles.bind
  refine (flush_balanced outside balanced).mono ?_ (fun _ broken => broken)
  rintro _ ⟨flushed, after⟩ ⟨balanced, -⟩
  apply Settles.bind
  apply settles_getSelf
  apply Settles.bind
  apply settles_setSelf
  apply Settles.bind
  refine (mergeLevels_balanced outside _ _ ?_).mono ?_ (fun _ broken => broken)
  · exact balanced
  · rintro runs ⟨merged, after⟩ ⟨sound, shows⟩
    refine (openRuns_settles outside runs true shows).mono ?_ ?_
    · rintro stream ⟨_, opened⟩ ⟨streamSound, rfl, shows⟩
      refine ⟨streamSound, sound, ?_⟩
      rw [Nat.add_right_comm]
      exact shows
    · rintro ⟨_, opened⟩ ⟨rfl, shows⟩
      exact ⟨sound, shows⟩

end Spools

-----------------------------------------------------------------------------------------
-- Programs
-----------------------------------------------------------------------------------------

section Programs

variable {kinds : Kinds} (outside : ∀ kind, Outside (kinds.Record kind))

def Live.heldBytes : Live kinds → Nat
  | .spool kind buffering => buffering.heldBytes (outside kind)
  | .stream _ merging => merging.heldBytes
  | .charge bytes => bytes

def Live.Sound : Live kinds → Prop
  | .spool kind buffering => buffering.Sound (outside kind)
  | .stream _ merging => merging.Sound
  | .charge _ => True

def heldBytes (live : List (Live kinds)) : Nat := (live.map (Live.heldBytes outside)).sum

/-- The meter shows what is held by everything that lives, besides what it showed at the start. -/
structure Program.Balanced (start : Nat) (program : Program kinds) : Prop where
  sound : ∀ object ∈ program.live, object.Sound outside
  shows : program.meter.metrics.Shows (start + heldBytes outside program.live)

variable {outside} {start : Nat} {meter : Meter} {before after : List (Live kinds)}
  {object : Live kinds}

/-- One object, and all others as its frame. -/
theorem balanced_iff
    : Program.Balanced outside start ⟨meter, before ++ object :: after⟩
      ↔ (∀ other ∈ before ++ after, other.Sound outside)
        ∧ object.Sound outside
        ∧ meter.metrics.Shows
            (start + heldBytes outside (before ++ after) + object.heldBytes outside) := by
  have sum
      : start + heldBytes outside (before ++ object :: after)
        = start + heldBytes outside (before ++ after) + object.heldBytes outside := by
    simp only [heldBytes, List.map_append, List.map_cons, List.sum_append, List.sum_cons]
    omega
  constructor
  · intro balanced
    refine ⟨?_, balanced.sound object (by simp), sum ▸ balanced.shows⟩
    intro other inside
    apply balanced.sound other
    rw [List.mem_append, List.mem_cons]
    rcases List.mem_append.mp inside with first | last
    · exact Or.inl first
    · exact Or.inr (Or.inr last)
  · rintro ⟨others, sound, shows⟩
    refine ⟨?_, sum ▸ shows⟩
    intro other inside
    rw [List.mem_append, List.mem_cons] at inside
    rcases inside with first | rfl | last
    · exact others other (List.mem_append_left _ first)
    · exact sound
    · exact others other (List.mem_append_right _ last)

/-- Every call keeps the balance, whether it succeeds or fails. -/
theorem Step.balanced {program next : Program kinds} (step : Step outside program next)
    (balanced : program.Balanced outside start)
    : next.Balanced outside start := by
  cases step with
  | new root filePrefix chunkLimit made =>
      rw [SortedSpool.new] at made
      split at made
      · cases made
      · cases made
        refine ⟨?_, ?_⟩
        · rintro other inside
          rcases List.mem_cons.mp inside with rfl | earlier
          · exact rfl
          · exact balanced.sound other earlier
        · change program.meter.metrics.Shows (start + (0 + heldBytes outside program.live))
          rw [Nat.zero_add]
          exact balanced.shows
  | push record ran =>
      obtain ⟨others, sound, shows⟩ := balanced_iff.mp balanced
      have ended := (push_balanced _ record ⟨sound, shows⟩).ends ran
      exact balanced_iff.mpr ⟨others, ended⟩
  | finish ran =>
      obtain ⟨others, sound, shows⟩ := balanced_iff.mp balanced
      obtain ⟨streamSound, ended⟩ := (finish_balanced _ ⟨sound, shows⟩).of_ok ran
      exact balanced_iff.mpr ⟨others, streamSound, spoolDrop_shows _ ended⟩
  | finishFails ran =>
      obtain ⟨others, sound, shows⟩ := balanced_iff.mp balanced
      have ended := (finish_balanced _ ⟨sound, shows⟩).of_error ran
      exact ⟨others, spoolDrop_shows _ ended⟩
  | next ran =>
      obtain ⟨others, sound, shows⟩ := balanced_iff.mp balanced
      have ended := (next_balanced _ ⟨sound, shows⟩).ends ran
      exact balanced_iff.mpr ⟨others, ended⟩
  | dropSpool spool =>
      obtain ⟨others, sound, shows⟩ := balanced_iff.mp balanced
      exact ⟨others, spoolDrop_shows _ ⟨sound, shows⟩⟩
  | dropStream stream =>
      obtain ⟨others, sound, shows⟩ := balanced_iff.mp balanced
      exact ⟨others, streamDrop_shows ⟨sound, shows⟩⟩
  | charge bytes =>
      refine ⟨?_, ?_⟩
      · rintro other inside
        rcases List.mem_cons.mp inside with rfl | earlier
        · exact trivial
        · exact balanced.sound other earlier
      · have more : start + heldBytes outside (Live.charge bytes :: program.live)
            = start + heldBytes outside program.live + bytes := by
          rw [heldBytes, List.map_cons, List.sum_cons, Live.heldBytes, ← heldBytes]
          omega
        rw [more]
        exact balanced.shows.addLive bytes
  | dropCharge bytes =>
      obtain ⟨others, -, shows⟩ := balanced_iff.mp balanced
      exact ⟨others, shows.releaseLive⟩

/-- Every run keeps the balance. -/
theorem run_balanced {first last : Program kinds} (balanced : first.Balanced outside start)
    (run : Relation.ReflTransGen (Step outside) first last)
    : last.Balanced outside start := by
  induction run with
  | refl => exact balanced
  | tail _ step ih => exact step.balanced ih

/-- After every sequence of calls, the current bytes are those at the start and those that are held
by what lives; no difference was cut off. Where nothing lives any more they are back where they
started. A sum that was cut off is left out.
-/
theorem spillMemory_balanced {first last : Program kinds}
    (outside : ∀ kind, Outside (kinds.Record kind)) (nothing : first.live = [])
    (word : first.meter.metrics.currentBytes ≤ u64Max)
    (never : first.meter.metrics.underflowed = false)
    (run : Relation.ReflTransGen (Step outside) first last)
    (fits : last.meter.metrics.overflowed = false)
    : last.meter.metrics.underflowed = false
      ∧ last.meter.metrics.currentBytes
        = first.meter.metrics.currentBytes + heldBytes outside last.live
      ∧ (last.live = [] →
          last.meter.metrics.currentBytes = first.meter.metrics.currentBytes) := by
  have started : first.Balanced outside first.meter.metrics.currentBytes := by
    refine ⟨fun object inside => ?_, word, fun _ => ⟨never, ?_⟩⟩
    · rw [nothing] at inside
      exact absurd inside List.not_mem_nil
    · rw [nothing]
      rfl
  have balanced := run_balanced started run
  obtain ⟨above, same⟩ := balanced.shows.exactly fits
  refine ⟨above, same, fun empty => ?_⟩
  rw [same, empty]
  rfl

/-- Numbers of ten bytes, as keys of themselves. -/
def numberKinds : Kinds where
  Kind := Unit
  Record := fun _ => Nat
  Key := fun _ => Nat
  order := fun _ => inferInstance
  spill := fun _ => { sortKey := id, keyBytes := fun _ => 10 }

/-- No directory can be made. -/
def readOnlyDisk : Outside Nat where
  createDirectory := fun _ => .error (.io "read-only file system")
  createFile := fun _ _ => .ok ⟨⟩
  write := fun _ _ => .ok ⟨⟩
  finishOutput := fun _ => .ok ⟨⟩
  openRun := fun _ _ => .ok { reads := [] }
  pathExists := fun _ _ => .ok false
  removeFile := fun _ _ => .ok ⟨⟩
  reserveBuffer := fun _ => .ok ⟨⟩
  reserveReaders := fun _ => .ok ⟨⟩
  reserveHeap := fun _ => .ok ⟨⟩
  encode := fun _ _ => .ok { bytes := [], capacity := 8 }
  decode := fun _ _ => .ok 0
  bufferedRecordBytes := 40
  heapItemBytes := 80

def numbersSpool : SortedSpool Nat :=
  {
    root := "spill"
    filePrefix := "numbers"
    chunkLimit := 1
    buffered := []
    bufferedBytes := 0
    runs := []
    nextRun := 0
  }

/-- A record is pushed, cannot be flushed, and is held until its spool is dropped. -/
theorem spillMemory_balanced_unflushed
    : ∃ last : Program numberKinds,
        last.live = [] ∧ last.meter.calls = 3 ∧ last.meter.metrics.currentBytes = 0 := by
  let first : Program numberKinds := { meter := { metrics := {}, calls := 0 }, live := [] }
  let outside : ∀ kind, Outside (numberKinds.Record kind) := fun _ => readOnlyDisk
  let numbers : numberKinds.Kind := ()
  let settled := (push (outside numbers) (5 : Nat)).settle (numbersSpool, first.meter)
  let last : Program numberKinds := { meter := SortedSpool.drop settled.2, live := [] }
  have created : Step outside first ⟨first.meter, [.spool numbers numbersSpool]⟩ :=
    Step.new "spill" "numbers" 1 rfl
  have pushed
      : Step outside ⟨first.meter, [] ++ .spool numbers numbersSpool :: []⟩
          ⟨settled.2.2, [] ++ .spool numbers settled.2.1 :: []⟩ :=
    Step.push (5 : Nat) rfl
  have dropped
      : Step outside ⟨settled.2.2, [] ++ .spool numbers settled.2.1 :: []⟩
          ⟨SortedSpool.drop settled.2, [] ++ []⟩ :=
    Step.dropSpool _
  have run : Relation.ReflTransGen (Step outside) first last :=
    ((Relation.ReflTransGen.single created).tail pushed).tail dropped
  have balanced := spillMemory_balanced outside rfl (Nat.zero_le _) rfl run rfl
  exact ⟨last, rfl, rfl, balanced.2.2 rfl⟩

end Programs

end CodebaseGraph.Staging.Metered
