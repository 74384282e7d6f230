import Mathlib.Algebra.BigOperators.Group.List.Basic
import CodebaseGraph.Basic
import CodebaseGraph.Transition.Runs
import Mathlib.Algebra.Ring.Nat

/-! The account of the memory that a cleanup may use, under concurrent calls
(`src/storage/maintenance_budget.rs`). A step is one atomic operation of one call on the account, or
what a call or an owner does between two of them.
-/

namespace CodebaseGraph.Storage.Maintenance.CleanupMemory

open CodebaseGraph.Transition

inductive ResourceLimit where
  | arithmeticOverflow
  | ceilingExceeded
  | allocationFailed

structure Account where
  limit : Nat
  used : Nat
  peak : Nat

/-- The account is charged for its own size, which the compiler decides. -/
def new (size limit : Nat) (allocated : Bool) : Except ResourceLimit Account :=
  if limit < size then .error .ceilingExceeded
  else if allocated then .ok { limit, used := size, peak := size }
  else .error .allocationFailed

def isizeMax : Nat := 2 ^ 63 - 1

/-- The difference of two words, which wraps below zero. -/
def wrappingSub (left right : Nat) : Nat := (left + 2 ^ 64 - right) % 2 ^ 64

-----------------------------------------------------------------------------------------
-- Calls and owners
-----------------------------------------------------------------------------------------

/-- What a reservation is made for: itself, or a box with or without a value. -/
inductive Purpose where
  | reservation
  | box (initialized : Bool)

/-- How far a call has come, or what its owner holds. -/
inductive Stage where
  | reserving (purpose : Purpose) (bytes : Nat)
  | comparing (purpose : Purpose) (bytes old : Nat)
  | raising (purpose : Purpose) (bytes new : Nat)
  | refused (problem : ResourceLimit)
  | reservation (bytes : Nat)
  | boxing (reserved size : Nat) (initialized : Bool)
  | reservedBytes (reserved len : Nat)
  | memoryBox (reserved size : Nat) (initialized : Bool)
  | releasing (bytes : Nat) (problem : Option ResourceLimit)
  | ended (problem : Option ResourceLimit)

/-- What the processor, the allocator or the owner decides. -/
inductive Choice where
  | proceed
  | failSpuriously
  | allocate (allocated : Bool)
  | bytes (len : Nat) (allocated : Bool)
  | newUninitReserved (size : Nat)
  | intoInner
  | assumeInit
  | drop

/-- The atomic operation of a step. -/
inductive Operation where
  | none
  | load
  | exchange (bytes : Nat)
  | failedExchange
  | raise
  | release (bytes : Nat)

/-- One turn of the loop of `reserve`, up to its exchange: the new sum, or why there is none. -/
def nextUsed (account : Account) (old bytes : Nat) : Except ResourceLimit Nat :=
  match checkedAdd old bytes with
  | none => .error .arithmeticOverflow
  | some new => if new > account.limit then .error .ceilingExceeded else .ok new

/-- `MemoryReservation::bytes` takes the reservation, and gives it back where it fails. -/
def bytesOf (reserved len : Nat) (allocated : Bool) : Stage :=
  if len > reserved then .releasing reserved (some .ceilingExceeded)
  else if len > isizeMax then .releasing reserved (some .arithmeticOverflow)
  else if len = 0 || allocated then .reservedBytes reserved len
  else .releasing reserved (some .allocationFailed)

/-- What is made of a reservation once the peak is raised. A box is as large as what it reserved. -/
def Purpose.reserved (bytes : Nat) : Purpose → Stage
  | .reservation => .reservation bytes
  | .box initialized => .boxing bytes bytes initialized

/-- One step of a call, or of the owner of what a call has made. -/
def Stage.move (account : Account) : Stage → Choice → Option (Operation × Account × Stage)
  | .reserving purpose bytes, .proceed =>
      some (.load, account, .comparing purpose bytes account.used)
  | .comparing purpose bytes old, choice =>
      match nextUsed account old bytes, choice with
      | .error problem, .proceed => some (.none, account, .refused problem)
      | .ok new, .proceed =>
          if account.used = old then
            some (.exchange bytes, { account with used := new }, .raising purpose bytes new)
          else some (.failedExchange, account, .comparing purpose bytes account.used)
      | .ok _, .failSpuriously =>
          some (.failedExchange, account, .comparing purpose bytes account.used)
      | _, _ => none
  | .raising purpose bytes new, .proceed =>
      some (.raise, { account with peak := max account.peak new }, purpose.reserved bytes)
  | .reservation bytes, .bytes len allocated => some (.none, account, bytesOf bytes len allocated)
  | .reservation bytes, .newUninitReserved size =>
      if bytes < size then some (.none, account, .releasing bytes (some .ceilingExceeded))
      else some (.none, account, .boxing bytes size false)
  | .reservation bytes, .drop => some (.none, account, .releasing bytes none)
  | .boxing reserved size initialized, .allocate allocated =>
      if size = 0 || allocated then some (.none, account, .memoryBox reserved size initialized)
      else some (.none, account, .releasing reserved (some .allocationFailed))
  | .reservedBytes reserved _, .drop => some (.none, account, .releasing reserved none)
  | .memoryBox reserved _ _, .drop => some (.none, account, .releasing reserved none)
  | .memoryBox reserved _ _, .intoInner => some (.none, account, .releasing reserved none)
  | .memoryBox reserved size false, .assumeInit =>
      some (.none, account, .memoryBox reserved size true)
  | .releasing bytes problem, .proceed =>
      some (.release bytes, { account with used := wrappingSub account.used bytes },
        .ended problem)
  | _, _ => none

-- The system

/-- The account, and all calls so far with what has become of them. -/
structure System where
  account : Account
  calls : List Stage

/-- A step of a call, with the account before and after it. -/
structure Event where
  call : Nat
  operation : Operation
  before : Account
  after : Account

/-- Calls begin at any time; each of them moves when it is scheduled. A reservation may be split. -/
inductive Action where
  | begin (purpose : Purpose) (bytes : Nat)
  | move (call : Nat) (choice : Choice)
  | split (call bytes : Nat)

def step : StepFn System Action Event
  | ⟨account, calls⟩, .begin purpose bytes =>
      some (⟨calls.length, .none, account, account⟩,
        ⟨account, calls ++ [.reserving purpose bytes]⟩)
  | ⟨account, calls⟩, .move call choice =>
      match calls[call]? with
      | none => none
      | some stage =>
          (stage.move account choice).map (fun (operation, next, stage) =>
            (⟨call, operation, account, next⟩, ⟨next, calls.set call stage⟩))
  | ⟨account, calls⟩, .split call bytes =>
      match calls[call]? with
      | some (.reservation reserved) =>
          if bytes > reserved then none
          else
            some (⟨call, .none, account, account⟩,
              ⟨account, calls.set call (.reservation (reserved - bytes)) ++ [.reservation bytes]⟩)
      | _ => none

end CodebaseGraph.Storage.Maintenance.CleanupMemory

/-! The account shows what is reserved, in every order of the steps of all calls. -/

namespace CodebaseGraph.Storage.Maintenance.CleanupMemory

open CodebaseGraph.Transition

/-- The bytes that are reserved from a call's exchange until they are released. -/
def Stage.held : Stage → Nat
  | .raising _ bytes _ => bytes
  | .reservation bytes => bytes
  | .boxing reserved _ _ => reserved
  | .reservedBytes reserved _ => reserved
  | .memoryBox reserved _ _ => reserved
  | .releasing bytes _ => bytes
  | _ => 0

/-- The bytes of all live reservations. -/
def held (calls : List Stage) : Nat := (calls.map Stage.held).sum

/-- A reservation has not been made, and may have been refused. -/
def Stage.Unreserved : Stage → Prop
  | .reserving _ _ => True
  | .comparing _ _ _ => True
  | .refused _ => True
  | _ => False

/-- The operation leaves the used bytes as they are. -/
def Operation.Still : Operation → Prop
  | .exchange _ => False
  | .release _ => False
  | _ => True

/-- A step changes the used bytes by the operation it makes, and wraps nowhere. -/
def Event.Exact (event : Event) : Prop :=
  match event.operation with
  | .exchange bytes => event.after.used = event.before.used + bytes
  | .release bytes => event.after.used + bytes = event.before.used
  | _ => event.after.used = event.before.used

-----------------------------------------------------------------------------------------
-- What a step can do
-----------------------------------------------------------------------------------------

section Moves

variable {account account' : Account} {stage stage' : Stage} {operation : Operation}

/-- The steps of a call, by what they do to the account. -/
inductive Moves (account : Account) : Stage → Operation → Account → Stage → Prop where
  | quiet {stage stage' : Stage} {operation : Operation}
      (still : operation.Still)
      (same : stage'.held = stage.held)
      (reserved : stage'.Unreserved → stage.Unreserved)
      (settled : ∀ purpose bytes new, stage ≠ .raising purpose bytes new)
      : Moves account stage operation account stage'
  | exchange (purpose : Purpose) (bytes : Nat) (fits : account.used + bytes ≤ account.limit)
      : Moves account (.comparing purpose bytes account.used) (.exchange bytes)
          { account with used := account.used + bytes }
          (.raising purpose bytes (account.used + bytes))
  | raise (purpose : Purpose) (bytes new : Nat)
      : Moves account (.raising purpose bytes new) .raise
          { account with peak := max account.peak new } (purpose.reserved bytes)
  | release {used : Nat} (bytes : Nat) (problem : Option ResourceLimit)
      (wrapped : used = wrappingSub account.used bytes)
      : Moves account (.releasing bytes problem) (.release bytes) { account with used }
          (.ended problem)

theorem nextUsed_eq_ok {old bytes new : Nat} (found : nextUsed account old bytes = .ok new)
    : new = old + bytes ∧ old + bytes ≤ account.limit := by
  rw [nextUsed] at found
  cases sum : checkedAdd old bytes with
  | none =>
      rw [sum] at found
      cases found
  | some added =>
      rw [sum] at found
      obtain ⟨-, rfl⟩ := checkedAdd_eq_some.mp sum
      dsimp only at found
      split at found
      · cases found
      · next below =>
          cases found
          exact ⟨rfl, Nat.le_of_not_lt below⟩

theorem bytesOf_held (reserved len : Nat) (allocated : Bool)
    : (bytesOf reserved len allocated).held = reserved
      ∧ ¬ (bytesOf reserved len allocated).Unreserved := by
  rw [bytesOf]
  split
  · exact ⟨rfl, id⟩
  · split
    · exact ⟨rfl, id⟩
    · split
      · exact ⟨rfl, id⟩
      · exact ⟨rfl, id⟩

theorem Stage.moves {choice : Choice}
    (moved : stage.move account choice = some (operation, account', stage'))
    : Moves account stage operation account' stage' := by
  rw [Stage.move.eq_def] at moved
  split at moved
  · cases moved
    exact Moves.quiet trivial rfl id (fun _ _ _ => Stage.noConfusion)
  · split at moved
    · cases moved
      exact Moves.quiet trivial rfl (fun _ => trivial) (fun _ _ _ => Stage.noConfusion)
    · next added =>
        obtain ⟨rfl, fits⟩ := nextUsed_eq_ok added
        split at moved
        · next same =>
            subst same
            cases moved
            exact Moves.exchange _ _ fits
        · cases moved
          exact Moves.quiet trivial rfl id (fun _ _ _ => Stage.noConfusion)
    · cases moved
      exact Moves.quiet trivial rfl id (fun _ _ _ => Stage.noConfusion)
    · cases moved
  · cases moved
    exact Moves.raise _ _ _
  · next bytes len allocated =>
      cases moved
      have kept := bytesOf_held bytes len allocated
      exact Moves.quiet trivial kept.1 (fun unreserved => absurd unreserved kept.2)
        (fun _ _ _ => Stage.noConfusion)
  · split at moved
    all_goals
      cases moved
      exact Moves.quiet trivial rfl id (fun _ _ _ => Stage.noConfusion)
  · cases moved
    exact Moves.quiet trivial rfl id (fun _ _ _ => Stage.noConfusion)
  · split at moved
    all_goals
      cases moved
      exact Moves.quiet trivial rfl id (fun _ _ _ => Stage.noConfusion)
  · cases moved
    exact Moves.quiet trivial rfl id (fun _ _ _ => Stage.noConfusion)
  · cases moved
    exact Moves.quiet trivial rfl id (fun _ _ _ => Stage.noConfusion)
  · cases moved
    exact Moves.quiet trivial rfl id (fun _ _ _ => Stage.noConfusion)
  · cases moved
    exact Moves.quiet trivial rfl id (fun _ _ _ => Stage.noConfusion)
  · cases moved
    exact Moves.release _ _ rfl
  · cases moved

end Moves

-- What a step of the system can do

/-- A call stands between its exchange and the peak. -/
def System.Raising (system : System) (call new : Nat) : Prop :=
  ∃ purpose bytes, system.calls[call]? = some (.raising purpose bytes new)

/-- A call has not reserved anything, and may have been refused. -/
def System.Unreserved (system : System) (call : Nat) : Prop :=
  ∃ stage, system.calls[call]? = some stage ∧ stage.Unreserved

inductive Steps : System → Event → System → Prop where
  | begin {account : Account} {calls : List Stage} (purpose : Purpose) (bytes : Nat)
      : Steps ⟨account, calls⟩ ⟨calls.length, .none, account, account⟩
          ⟨account, calls ++ [.reserving purpose bytes]⟩
  | move {account next : Account} {calls : List Stage} {call : Nat} {stage stage' : Stage}
      {operation : Operation} (found : calls[call]? = some stage)
      (moves : Moves account stage operation next stage')
      : Steps ⟨account, calls⟩ ⟨call, operation, account, next⟩ ⟨next, calls.set call stage'⟩
  | split {account : Account} {calls : List Stage} {call reserved bytes : Nat}
      (found : calls[call]? = some (.reservation reserved)) (within : bytes ≤ reserved)
      : Steps ⟨account, calls⟩ ⟨call, .none, account, account⟩
          ⟨account, calls.set call (.reservation (reserved - bytes)) ++ [.reservation bytes]⟩

theorem steps_of_step {system next : System} {action : Action} {event : Event}
    (stepped : step system action = some (event, next))
    : Steps system event next := by
  obtain ⟨account, calls⟩ := system
  cases action with
  | begin purpose bytes =>
      cases stepped
      exact Steps.begin purpose bytes
  | move call choice =>
      rw [step] at stepped
      split at stepped
      · cases stepped
      · next stage found =>
          rw [Option.map_eq_some_iff] at stepped
          obtain ⟨⟨operation, account', stage'⟩, moved, same⟩ := stepped
          cases same
          exact Steps.move found (Stage.moves moved)
  | split call bytes =>
      rw [step.eq_def] at stepped
      dsimp only at stepped
      split at stepped
      · next reserved found =>
          split at stepped
          · cases stepped
          · next within =>
              cases stepped
              exact Steps.split found (Nat.le_of_not_lt within)
      · cases stepped

theorem held_set {calls : List Stage} {call : Nat} {stage : Stage}
    (found : calls[call]? = some stage) (stage' : Stage)
    : held (calls.set call stage') + stage.held = held calls + stage'.held := by
  induction calls generalizing call with
  | nil => cases found
  | cons first rest ih =>
      cases call with
      | zero =>
          cases found
          simp only [held, List.set_cons_zero, List.map_cons, List.sum_cons]
          omega
      | succ call =>
          have tail := ih found
          simp only [held, List.set_cons_succ, List.map_cons, List.sum_cons] at tail ⊢
          omega

theorem held_append (first second : List Stage)
    : held (first ++ second) = held first + held second := by
  rw [held, List.map_append, List.sum_append]
  rfl

-----------------------------------------------------------------------------------------
-- The charge
-----------------------------------------------------------------------------------------

/-- The account is charged for itself and for all live reservations, within its limit. -/
structure System.Charged (size limit : Nat) (system : System) : Prop where
  limited : system.account.limit = limit
  exactly : system.account.used = size + held system.calls
  within : system.account.used ≤ limit

theorem wrappingSub_of_le {left right : Nat} (word : left ≤ u64Max) (below : right ≤ left)
    : wrappingSub left right = left - right := by
  have sum : left + 2 ^ 64 - right = left - right + 2 ^ 64 := by omega
  have small : left - right < 2 ^ 64 := by
    rw [u64Max] at word
    omega
  rw [wrappingSub, sum, Nat.add_mod_right, Nat.mod_eq_of_lt small]

theorem Event.exact_of_still {event : Event} (still : event.operation.Still)
    (same : event.after.used = event.before.used)
    : event.Exact := by
  rw [Event.Exact]
  split
  · next exchanged =>
      rw [exchanged] at still
      exact absurd still id
  · next released =>
      rw [released] at still
      exact absurd still id
  · exact same

/-- What is released was charged, so that nothing wraps. -/
theorem Steps.charged {system next : System} {event : Event} {size limit : Nat}
    (word : limit ≤ u64Max) (steps : Steps system event next)
    (charged : system.Charged size limit)
    : next.Charged size limit ∧ event.Exact := by
  obtain ⟨limited, exactly, within⟩ := charged
  cases steps with
  | begin purpose bytes =>
      refine ⟨⟨limited, ?_, within⟩, rfl⟩
      rw [held_append]
      exact exactly
  | @split _ calls call reserved bytes found below =>
      refine ⟨⟨limited, ?_, within⟩, rfl⟩
      have sum := held_set found (.reservation (reserved - bytes))
      have left : Stage.held (.reservation (reserved - bytes)) = reserved - bytes := rfl
      have whole : Stage.held (.reservation reserved) = reserved := rfl
      have part : held [.reservation bytes] = bytes := rfl
      rw [held_append, part]
      dsimp only at exactly ⊢
      omega
  | @move account _ _ _ _ stage' _ found moves =>
      have sum := held_set found
      cases moves with
      | quiet still same =>
          refine ⟨⟨limited, ?_, within⟩, Event.exact_of_still still rfl⟩
          have total := sum stage'
          rw [same] at total
          dsimp only at exactly ⊢
          omega
      | exchange purpose bytes fits =>
          refine ⟨⟨limited, ?_, limited ▸ fits⟩, rfl⟩
          have total := sum (.raising purpose bytes (account.used + bytes))
          have nothing : (Stage.comparing purpose bytes account.used).held = 0 := rfl
          rw [Stage.held] at total
          dsimp only at exactly ⊢
          omega
      | raise purpose bytes new =>
          refine ⟨⟨limited, ?_, within⟩, rfl⟩
          have total := sum (purpose.reserved bytes)
          have kept : (purpose.reserved bytes).held = bytes := by
            cases purpose with
            | reservation => rfl
            | box initialized => rfl
          rw [kept, Stage.held] at total
          dsimp only at exactly ⊢
          omega
      | release bytes problem wrapped =>
          have total := sum (.ended problem)
          have charged : (Stage.releasing bytes problem).held = bytes := rfl
          have nothing : (Stage.ended problem).held = 0 := rfl
          dsimp only at exactly within
          have enough : bytes ≤ account.used := by omega
          rw [wrappingSub_of_le (Nat.le_trans within word) enough] at wrapped
          refine ⟨⟨limited, ?_, ?_⟩, ?_⟩
          · dsimp only
            omega
          · dsimp only
            omega
          · rw [Event.Exact]
            dsimp only
            omega

-- What stays true of earlier steps

/-- Calls stay known, the peak does not fall, a call that raises has raised when it goes on, and no
call that has reserved becomes one that has not.
-/
structure Advances (system next : System) : Prop where
  known : system.calls.length ≤ next.calls.length
  peak : system.account.peak ≤ next.account.peak
  raising
    : ∀ call new, system.Raising call new → new ≤ next.account.peak ∨ next.Raising call new
  unreserved
    : ∀ call, call < system.calls.length → next.Unreserved call → system.Unreserved call

/-- One call goes on; the others are as they were. -/
theorem set_advances {account next : Account} {calls : List Stage} {call : Nat}
    {stage stage' : Stage} (found : calls[call]? = some stage) (higher : account.peak ≤ next.peak)
    (reserved : stage'.Unreserved → stage.Unreserved)
    (raised : ∀ purpose bytes new, stage = .raising purpose bytes new → new ≤ next.peak)
    : Advances ⟨account, calls⟩ ⟨next, calls.set call stage'⟩ := by
  have below : call < calls.length := (List.getElem?_eq_some_iff.mp found).1
  have placed : (calls.set call stage')[call]? = some stage' := List.getElem?_set_self below
  refine ⟨Nat.le_of_eq List.length_set.symm, higher, ?_, ?_⟩
  · rintro other new ⟨purpose, bytes, raising⟩
    by_cases same : call = other
    · subst same
      exact Or.inl (raised purpose bytes new (Option.some.inj (found.symm.trans raising)))
    · exact Or.inr ⟨purpose, bytes, (List.getElem?_set_ne same).trans raising⟩
  · rintro other - ⟨later, there, unreserved⟩
    by_cases same : call = other
    · subst same
      obtain rfl := Option.some.inj (placed.symm.trans there)
      exact ⟨stage, found, reserved unreserved⟩
    · exact ⟨later, (List.getElem?_set_ne same).symm.trans there, unreserved⟩

/-- New calls leave the others as they were. -/
theorem append_advances (account : Account) (calls more : List Stage)
    : Advances ⟨account, calls⟩ ⟨account, calls ++ more⟩ := by
  refine ⟨?_, Nat.le_refl _, ?_, ?_⟩
  · rw [List.length_append]
    exact Nat.le_add_right _ _
  · rintro call new ⟨purpose, bytes, raising⟩
    exact Or.inr ⟨purpose, bytes, (List.getElem?_append_left
      (List.getElem?_eq_some_iff.mp raising).1).trans raising⟩
  · rintro call below ⟨stage, there, unreserved⟩
    exact ⟨stage, (List.getElem?_append_left below).symm.trans there, unreserved⟩

theorem Advances.trans {first second third : System} (early : Advances first second)
    (late : Advances second third)
    : Advances first third := by
  refine ⟨Nat.le_trans early.known late.known, Nat.le_trans early.peak late.peak, ?_, ?_⟩
  · intro call new raising
    rcases early.raising call new raising with raised | still
    · exact Or.inl (Nat.le_trans raised late.peak)
    · exact late.raising call new still
  · intro call below unreserved
    exact early.unreserved call below
      (late.unreserved call (Nat.lt_of_lt_of_le below early.known) unreserved)

theorem reserved_not_unreserved (purpose : Purpose) (bytes : Nat)
    : ¬ (purpose.reserved bytes).Unreserved := by
  cases purpose with
  | reservation => exact id
  | box initialized => exact id

theorem Steps.advances {system next : System} {event : Event} (steps : Steps system event next)
    : Advances system next := by
  cases steps with
  | begin purpose bytes => exact append_advances _ _ _
  | move found moves =>
      cases moves with
      | quiet still same reserved settled =>
          apply set_advances found (Nat.le_refl _) reserved
          intro purpose bytes new raising
          exact absurd raising (settled purpose bytes new)
      | exchange purpose bytes fits =>
          exact set_advances found (Nat.le_refl _) False.elim (fun _ _ _ => Stage.noConfusion)
      | raise purpose bytes new =>
          apply set_advances found (Nat.le_max_left _ _)
          · exact fun unreserved => absurd unreserved (reserved_not_unreserved purpose bytes)
          · intro purpose' bytes' new' raising
            cases raising
            exact Nat.le_max_right _ _
      | release bytes problem wrapped =>
          exact set_advances found (Nat.le_refl _) False.elim (fun _ _ _ => Stage.noConfusion)
  | split found below =>
      refine Advances.trans ?_ (append_advances _ _ _)
      exact set_advances found (Nat.le_refl _) False.elim (fun _ _ _ => Stage.noConfusion)

-----------------------------------------------------------------------------------------
-- Runs
-----------------------------------------------------------------------------------------

/-- A value is at most the peak, or a call is about to raise the peak to as much. -/
def System.Covers (system : System) (value : Nat) : Prop :=
  value ≤ system.account.peak ∨ ∃ call new, system.Raising call new ∧ value ≤ new

theorem Advances.covers {system next : System} {value : Nat} (advances : Advances system next)
    (covers : system.Covers value)
    : next.Covers value := by
  rcases covers with below | ⟨call, new, raising, below⟩
  · exact Or.inl (Nat.le_trans below advances.peak)
  · rcases advances.raising call new raising with raised | still
    · exact Or.inl (Nat.le_trans below raised)
    · exact Or.inr ⟨call, new, still, below⟩

/-- What is true of a step of a run once the run has come to a state. -/
structure Settled (system : System) (event : Event) : Prop where
  known : event.call < system.calls.length
  exactly : event.Exact
  refused : system.Unreserved event.call → event.after = event.before
  charged
    : ∀ bytes, event.operation = .exchange bytes →
        event.after.used ≤ system.account.peak ∨ system.Raising event.call event.after.used
  covered : system.Covers event.after.used

theorem Settled.later {system next : System} {event : Event} (settled : Settled system event)
    (advances : Advances system next)
    : Settled next event := by
  refine ⟨Nat.lt_of_lt_of_le settled.known advances.known, settled.exactly, ?_, ?_, ?_⟩
  · intro unreserved
    exact settled.refused (advances.unreserved _ settled.known unreserved)
  · intro bytes exchanged
    rcases settled.charged bytes exchanged with below | raising
    · exact Or.inl (Nat.le_trans below advances.peak)
    · exact (advances.raising _ _ raising).imp_left id
  · exact advances.covers settled.covered

theorem System.Covers.mono {system : System} {value lower : Nat} (covers : system.Covers value)
    (below : lower ≤ value)
    : system.Covers lower := by
  rcases covers with reached | ⟨call, new, raising, reaches⟩
  · exact Or.inl (Nat.le_trans below reached)
  · exact Or.inr ⟨call, new, raising, Nat.le_trans below reaches⟩

theorem Steps.accounts {system next : System} {event : Event} (steps : Steps system event next)
    : event.before = system.account ∧ event.after = next.account := by
  cases steps with
  | begin => exact ⟨rfl, rfl⟩
  | move => exact ⟨rfl, rfl⟩
  | split => exact ⟨rfl, rfl⟩

/-- A sum is reached by a call that is about to raise the peak to it; all else is no more than it
was.
-/
theorem Steps.covers {system next : System} {event : Event} (steps : Steps system event next)
    (exactly : event.Exact) (covered : system.Covers system.account.used)
    : next.Covers next.account.used := by
  have advances := steps.advances
  cases steps with
  | begin => exact advances.covers covered
  | split => exact advances.covers covered
  | move found moves =>
      have below := (List.getElem?_eq_some_iff.mp found).1
      cases moves with
      | quiet => exact advances.covers covered
      | exchange purpose bytes fits =>
          refine Or.inr ⟨_, _, ⟨purpose, bytes, List.getElem?_set_self below⟩, Nat.le_refl _⟩
      | raise => exact advances.covers covered
      | release bytes problem wrapped =>
          apply (advances.covers covered).mono
          rw [Event.Exact] at exactly
          dsimp only at exactly ⊢
          omega

/-- The step that has just been made. -/
theorem Steps.settled {system next : System} {event : Event} (steps : Steps system event next)
    (exactly : event.Exact) (covered : system.Covers system.account.used)
    : Settled next event := by
  have covers := steps.covers exactly covered
  rw [← steps.accounts.2] at covers
  cases steps with
  | begin purpose bytes =>
      refine ⟨?_, exactly, fun _ => rfl, fun _ => Operation.noConfusion, covers⟩
      rw [List.length_append]
      exact Nat.lt_succ_self _
  | split found within =>
      have below := (List.getElem?_eq_some_iff.mp found).1
      refine ⟨?_, exactly, fun _ => rfl, fun _ => Operation.noConfusion, covers⟩
      rw [List.length_append, List.length_set]
      exact Nat.lt_succ_of_lt below
  | @move account next calls call stage stage' operation found moves =>
      have below := (List.getElem?_eq_some_iff.mp found).1
      have placed : (calls.set call stage')[call]? = some stage' := List.getElem?_set_self below
      refine ⟨?_, exactly, ?_, ?_, covers⟩
      · rw [List.length_set]
        exact below
      · rintro ⟨later, there, unreserved⟩
        obtain rfl := Option.some.inj (placed.symm.trans there)
        cases moves with
        | quiet => rfl
        | exchange => exact absurd unreserved id
        | raise purpose bytes new =>
            exact absurd unreserved (reserved_not_unreserved purpose bytes)
        | release => exact absurd unreserved id
      · intro bytes exchanged
        cases moves with
        | quiet still =>
            dsimp only at exchanged
            rw [exchanged] at still
            exact absurd still id
        | exchange purpose bytes fits => exact Or.inr ⟨purpose, bytes, placed⟩
        | raise => cases exchanged
        | release => cases exchanged

/-- What is true in every state that a run reaches, of the state and of all steps before it. -/
structure Accounted (size limit : Nat) (trace : List Event) (system : System) : Prop where
  charged : system.Charged size limit
  covered : system.Covers system.account.used
  settled : ∀ event ∈ trace, Settled system event

theorem run_accounted {size limit : Nat} {allocated : Bool} {account : Account}
    {trace : List Event} {last : System} (word : limit ≤ u64Max)
    (made : new size limit allocated = .ok account)
    (run : Run step ⟨account, []⟩ trace last)
    : Accounted size limit trace last := by
  apply run.history_induction
  · rw [new] at made
    split at made
    · cases made
    · next enough =>
        split at made
        · cases made
          exact ⟨⟨rfl, rfl, Nat.le_of_not_lt enough⟩, Or.inl (Nat.le_refl _),
            fun _ => (List.not_mem_nil · |>.elim)⟩
        · cases made
  · intro trace mid action event last _ accounted stepped
    have steps := steps_of_step stepped
    obtain ⟨charged, exactly⟩ := steps.charged word accounted.charged
    refine ⟨charged, steps.covers exactly accounted.covered, ?_⟩
    intro earlier inside
    rcases List.mem_append.mp inside with before | now
    · exact (accounted.settled earlier before).later steps.advances
    · obtain rfl := List.mem_singleton.mp now
      exact steps.settled exactly accounted.covered

/-- Whatever order the steps of all calls take: the account is charged for itself and for all live
reservations, within the limit. No step wraps. A call that is refused has changed nothing. The peak
is as high as what every reservation that is complete has made of the charge, and as high as every
charge there ever was that is not below one which a call has still to raise the peak to.
-/
theorem cleanupMemory_accounts {size limit : Nat} {allocated : Bool} {account : Account}
    {trace : List Event} {last : System} (word : limit ≤ u64Max)
    (made : new size limit allocated = .ok account)
    (run : Run step ⟨account, []⟩ trace last)
    : last.account.used = size + held last.calls
      ∧ last.account.used ≤ limit
      ∧ (∀ event ∈ trace, event.Exact)
      ∧ (∀ event ∈ trace, ∀ problem,
          last.calls[event.call]? = some (.refused problem) → event.after = event.before)
      ∧ (∀ event ∈ trace, ∀ bytes,
          event.operation = .exchange bytes →
            (∀ new, ¬ last.Raising event.call new) →
              event.after.used ≤ last.account.peak)
      ∧ (∀ event ∈ trace,
          event.after.used ≤ last.account.peak
          ∨ ∃ call new, last.Raising call new ∧ event.after.used ≤ new) := by
  obtain ⟨charged, -, settled⟩ := run_accounted word made run
  refine ⟨charged.exactly, charged.within, ?_, ?_, ?_, ?_⟩
  · exact fun event inside => (settled event inside).exactly
  · intro event inside problem refused
    exact (settled event inside).refused ⟨_, refused, trivial⟩
  · intro event inside bytes exchanged complete
    rcases (settled event inside).charged bytes exchanged with below | raising
    · exact below
    · exact absurd raising (complete _)
  · exact fun event inside => (settled event inside).covered

/-- A box is reserved between the load and the exchange of a reservation, which no longer fits. -/
def overtakenReservation : List Action :=
  [
    .begin .reservation 20,
    .move 0 .proceed,
    .begin (.box true) 30,
    .move 1 .proceed,
    .move 1 .proceed,
    .move 0 .proceed,
    .move 0 .proceed,
    .move 1 .proceed
  ]

theorem cleanupMemory_accounts_overtaken
    : ∃ (trace : List Event) (last : System),
        Run step ⟨⟨100, 64, 64⟩, []⟩ trace last
        ∧ last.calls = [.refused .ceilingExceeded, .boxing 30 30 true]
        ∧ last.account.used = 64 + held last.calls
        ∧ last.account.used ≤ 100 := by
  have run : Run step ⟨⟨100, 64, 64⟩, []⟩ [_, _, _, _, _, _, _, _] _ :=
    .of_execute overtakenReservation rfl
  have accounted := cleanupMemory_accounts (by decide) (show new 64 100 true = _ from rfl) run
  exact ⟨_, _, run, rfl, accounted.1, accounted.2.1⟩

end CodebaseGraph.Storage.Maintenance.CleanupMemory
