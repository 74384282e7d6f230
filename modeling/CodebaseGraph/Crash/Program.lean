import Mathlib.Data.List.Basic
import Mathlib.Logic.Function.Basic
import Mathlib.Tactic.Common

/-! Programs that change a persistent state in single steps and may be cut between any two.
A list of fates decides, one step at a time, whether the step succeeds, fails without or
after its effect, or finds the process dead; the trail keeps every state passed through.
-/

namespace CodebaseGraph.Crash

variable {State Fault Error Other : Type} {α β : Type}

/-- What happens at one step. A step that fails late has taken effect. -/
inductive Fate (Fault : Type) where
  | proceed
  | fail (fault : Fault)
  | failLate (fault : Fault)
  | crash

/-- How a program ends. -/
inductive Exit (Error α : Type) where
  | value (result : α)
  | stopped (problem : Error)
  | crashed

/-- Whether the program returned. -/
def Exit.isValue {Error α : Type} : Exit Error α → Bool
  | .value _ => true
  | .stopped _ | .crashed => false

theorem Exit.eq_value {Error : Type} {exit : Exit Error Unit} (returned : exit.isValue = true)
    : exit = .value () := by
  cases exit with
  | value result => rfl
  | stopped problem => cases returned
  | crashed => cases returned

structure Outcome (State Fault Error α : Type) where
  exit : Exit Error α
  state : State
  trail : List State
  rest : List (Fate Fault)

/-- A program reads the state it starts in and one fate for each of its steps; when no fate
is left, every step succeeds.
-/
def Program (State Fault Error α : Type) :=
  State → List (Fate Fault) → Outcome State Fault Error α

namespace Program

def ret (result : α) : Program State Fault Error α :=
  fun state fates => ⟨.value result, state, [], fates⟩

def andThen (first : Program State Fault Error α)
    (second : α → Program State Fault Error β)
    : Program State Fault Error β :=
  fun state fates =>
    let begun := first state fates
    match begun.exit with
    | .value result =>
        let ended := second result begun.state begun.rest
        { ended with trail := begun.trail ++ ended.trail }
    | .stopped problem => { begun with exit := .stopped problem }
    | .crashed => { begun with exit := .crashed }

instance : Monad (Program State Fault Error) where
  pure := ret
  bind := andThen

/-- Stop with an error. -/
def raise (problem : Error) : Program State Fault Error α :=
  fun state fates => ⟨.stopped problem, state, [], fates⟩

/-- Continue after an error with another program. -/
def recoverWith (attempt : Program State Fault Error α)
    (handler : Error → Program State Fault Other α)
    : Program State Fault Other α :=
  fun state fates =>
    let begun := attempt state fates
    match begun.exit with
    | .value result => { begun with exit := .value result }
    | .stopped problem =>
        let ended := handler problem begun.state begun.rest
        { ended with trail := begun.trail ++ ended.trail }
    | .crashed => { begun with exit := .crashed }

/-- One atomic change of the persistent state. -/
def effect (wrap : Fault → Error) (write : State → State)
    : Program State Fault Error Unit :=
  fun state fates =>
    match fates with
    | [] => ⟨.value (), write state, [write state], []⟩
    | .proceed :: rest => ⟨.value (), write state, [write state], rest⟩
    | .fail fault :: rest => ⟨.stopped (wrap fault), state, [], rest⟩
    | .failLate fault :: rest => ⟨.stopped (wrap fault), write state, [write state], rest⟩
    | .crash :: rest => ⟨.crashed, state, [], rest⟩

/-- One read of the persistent state, which may itself answer with an error. -/
def observe (wrap : Fault → Error) (read : State → Except Error α)
    : Program State Fault Error α :=
  fun state fates =>
    let answered (rest : List (Fate Fault)) : Outcome State Fault Error α :=
      match read state with
      | .ok result => ⟨.value result, state, [], rest⟩
      | .error problem => ⟨.stopped problem, state, [], rest⟩
    match fates with
    | [] => answered []
    | .proceed :: rest => answered rest
    | .fail fault :: rest | .failLate fault :: rest => ⟨.stopped (wrap fault), state, [], rest⟩
    | .crash :: rest => ⟨.crashed, state, [], rest⟩

/-- A pure computation that may answer with an error. -/
def ofExcept (answer : Except Error α) : Program State Fault Error α :=
  match answer with
  | .ok result => ret result
  | .error problem => raise problem

def mapError (convert : Error → Other) (program : Program State Fault Error α)
    : Program State Fault Other α :=
  program.recoverWith (fun problem => raise (convert problem))

/-- Run a program whose failure has no consequence. -/
def ignore (program : Program State Fault Error α) : Program State Fault Other Unit :=
  (program.andThen (fun _ => ret ())).recoverWith (fun _ => ret ())

end Program

/-- A chain of states, each reached from the one before by an allowed change. -/
inductive Path (allowed : State → State → Prop) : State → List State → State → Prop where
  | nil (state : State) : Path allowed state [] state
  | cons {state next last : State} {trail : List State} (step : allowed state next)
    (rest : Path allowed next trail last)
    : Path allowed state (next :: trail) last

theorem Path.append {allowed : State → State → Prop} {state middle last : State}
    {first second : List State} (left : Path allowed state first middle)
    (right : Path allowed middle second last)
    : Path allowed state (first ++ second) last := by
  induction left with
  | nil _ => exact right
  | cons step _ ih => exact .cons step (ih right)

theorem Path.mono {allowed wider : State → State → Prop} {state last : State}
    {trail : List State} (path : Path allowed state trail last)
    (widen : ∀ {before after}, allowed before after → wider before after)
    : Path wider state trail last := by
  induction path with
  | nil state => exact .nil state
  | cons step _ ih => exact .cons (widen step) ih

/-- Two descriptions of the same path hold together. -/
theorem Path.both {allowed other : State → State → Prop} {state last : State}
    {trail : List State} (path : Path allowed state trail last)
    (path' : Path other state trail last)
    : Path (fun before after => allowed before after ∧ other before after) state trail last := by
  induction path with
  | nil state => exact .nil state
  | cons step _ ih =>
      cases path' with
      | cons step' rest' => exact .cons ⟨step, step'⟩ (ih rest')

/-- The states of a path are linked one by one. -/
theorem Path.isChain {allowed : State → State → Prop} {state last : State}
    {trail : List State} (path : Path allowed state trail last)
    : List.IsChain allowed (state :: trail) := by
  induction path with
  | nil _ => exact .singleton _
  | cons step _ ih => exact .cons_cons step ih

/-- A path ends in one of its states. -/
theorem Path.last_mem {allowed : State → State → Prop} {state last : State}
    {trail : List State} (path : Path allowed state trail last)
    : last ∈ state :: trail := by
  induction path with
  | nil _ => exact List.mem_cons_self ..
  | cons _ _ ih => exact List.mem_cons_of_mem _ ih

theorem Path.getLast? {allowed : State → State → Prop} {state last : State}
    {trail : List State} (path : Path allowed state trail last)
    : (state :: trail).getLast? = some last := by
  induction path with
  | nil _ => rfl
  | cons _ _ ih => rw [List.getLast?_cons_cons, ih]

/-- A path along which a ghost value can follow each step is the shadow of a path of states
with ghost values.
-/
theorem Path.lift {Ghost : Type} {allowed : State → State → Prop}
    {linked : State × Ghost → State × Ghost → Prop} {holds : State → Ghost → Prop}
    (follow
      : ∀ {before after ghost},
          allowed before after → holds before ghost
          → ∃ next, linked (before, ghost) (after, next) ∧ holds after next)
    {state last : State} {trail : List State} {ghost : Ghost}
    (path : Path allowed state trail last) (initial : holds state ghost)
    : ∃ shadowed final,
        Path linked (state, ghost) shadowed (last, final)
        ∧ shadowed.map Prod.fst = trail
        ∧ ∀ pair ∈ shadowed, holds pair.1 pair.2 := by
  induction path generalizing ghost with
  | nil state => exact ⟨[], ghost, .nil _, rfl, by simp⟩
  | @cons state next last trail step _ ih =>
      obtain ⟨later, link, reached⟩ := follow step initial
      obtain ⟨shadowed, final, rest, same, along⟩ := ih reached
      refine ⟨(next, later) :: shadowed, final, .cons link rest, by simp [same], ?_⟩
      intro pair member
      rcases List.mem_cons.mp member with rfl | later
      · exact reached
      · exact along pair later

/-- What a kept property of states gives along a path. -/
theorem Path.invariant {allowed : State → State → Prop} {holds : State → Prop}
    {state last : State} {trail : List State} (path : Path allowed state trail last)
    (kept : ∀ {before after}, allowed before after → holds before → holds after)
    (initial : holds state)
    : (∀ visited ∈ trail, holds visited) ∧ holds last := by
  induction path with
  | nil _ => exact ⟨by simp, initial⟩
  | @cons state next last trail step _ ih =>
      have reached := kept step initial
      obtain ⟨along, final⟩ := ih reached
      refine ⟨?_, final⟩
      intro visited member
      rcases List.mem_cons.mp member with rfl | later
      · exact reached
      · exact along visited later

/-- If every step leads to a state with a property that held at the start, every step also
starts from such a state.
-/
theorem Path.linked {holds : State → Prop} {state last : State} {trail : List State}
    (path : Path (fun _ after => holds after) state trail last) (initial : holds state)
    : Path (fun before after => holds before ∧ holds after) state trail last := by
  induction path with
  | nil state => exact .nil state
  | cons step _ ih => exact .cons ⟨initial, step⟩ (ih step)

/-- The postcondition of a finished program; a dead process promises nothing. -/
def Exit.Satisfies (exit : Exit Error α) (post : α → State → Prop)
    (failed : Error → State → Prop) (state : State)
    : Prop :=
  match exit with
  | .value result => post result state
  | .stopped problem => failed problem state
  | .crashed => True

/-- From a state that satisfies `pre`, and whatever the fates, every change the program makes
is allowed, and how it ends satisfies the postconditions.
-/
def Program.Ensures (pre : State → Prop) (allowed : State → State → Prop)
    (program : Program State Fault Error α) (post : α → State → Prop)
    (failed : Error → State → Prop)
    : Prop :=
  ∀ state fates,
    pre state
    → Path allowed state (program state fates).trail (program state fates).state
      ∧ (program state fates).exit.Satisfies post failed (program state fates).state

namespace Program

section Ensures

variable {pre : State → Prop} {allowed : State → State → Prop}
  {post : α → State → Prop} {failed : Error → State → Prop}

theorem Ensures.ret {result : α} (holds : ∀ state, pre state → post result state)
    : Ensures pre allowed (ret result : Program State Fault Error α) post failed :=
  fun state _ start => ⟨.nil state, holds state start⟩

theorem Ensures.raise {problem : Error} (holds : ∀ state, pre state → failed problem state)
    : Ensures pre allowed (raise problem : Program State Fault Error α) post failed :=
  fun state _ start => ⟨.nil state, holds state start⟩

theorem Ensures.bind {first : Program State Fault Error α}
    {second : α → Program State Fault Error β} {post : β → State → Prop}
    (middle : α → State → Prop) (left : Ensures pre allowed first middle failed)
    (right : ∀ result, Ensures (middle result) allowed (second result) post failed)
    : Ensures pre allowed (first >>= second) post failed := by
  intro state fates start
  obtain ⟨begun, ended⟩ := left state fates start
  have unfolded : first >>= second = first.andThen second := rfl
  simp only [unfolded, andThen]
  cases reached : (first state fates).exit with
  | value result =>
      rw [reached] at ended
      obtain ⟨continued, final⟩ := right result _ (first state fates).rest ended
      exact ⟨begun.append continued, final⟩
  | stopped problem =>
      rw [reached] at ended
      exact ⟨begun, ended⟩
  | crashed => exact ⟨begun, trivial⟩

theorem Ensures.recoverWith {attempt : Program State Fault Error α}
    {handler : Error → Program State Fault Other α} {failed : Other → State → Prop}
    (fallen : Error → State → Prop) (left : Ensures pre allowed attempt post fallen)
    (right : ∀ problem, Ensures (fallen problem) allowed (handler problem) post failed)
    : Ensures pre allowed (attempt.recoverWith handler) post failed := by
  intro state fates start
  obtain ⟨begun, ended⟩ := left state fates start
  simp only [Program.recoverWith]
  cases reached : (attempt state fates).exit with
  | value result =>
      rw [reached] at ended
      exact ⟨begun, ended⟩
  | stopped problem =>
      rw [reached] at ended
      obtain ⟨continued, final⟩ := right problem _ (attempt state fates).rest ended
      exact ⟨begun.append continued, final⟩
  | crashed => exact ⟨begun, trivial⟩

/-- A step is allowed where it changes the state and ends in a state the postconditions
accept, whether it is reported as done, as failed before or as failed after its effect.
-/
theorem Ensures.effect {wrap : Fault → Error} {write : State → State}
    {post : Unit → State → Prop}
    (change : ∀ state, pre state → allowed state (write state))
    (done : ∀ state, pre state → post () (write state))
    (kept : ∀ state fault, pre state → failed (wrap fault) state)
    (late : ∀ state fault, pre state → failed (wrap fault) (write state))
    : Ensures pre allowed (effect wrap write) post failed := by
  intro state fates start
  match fates with
  | [] | .proceed :: _ =>
      exact ⟨.cons (change state start) (.nil _), done state start⟩
  | .fail fault :: _ => exact ⟨.nil state, kept state fault start⟩
  | .failLate fault :: _ =>
      exact ⟨.cons (change state start) (.nil _), late state fault start⟩
  | .crash :: _ => exact ⟨.nil state, trivial⟩

theorem Ensures.observe {wrap : Fault → Error} {read : State → Except Error α}
    (answered : ∀ state result, pre state → read state = .ok result → post result state)
    (refused : ∀ state problem, pre state → read state = .error problem → failed problem state)
    (kept : ∀ state fault, pre state → failed (wrap fault) state)
    : Ensures pre allowed (observe wrap read) post failed := by
  intro state fates start
  match fates with
  | [] | .proceed :: _ =>
      cases given : read state with
      | ok result => simpa [Program.observe, given] using
          ⟨Path.nil state, answered state result start given⟩
      | error problem => simpa [Program.observe, given] using
          ⟨Path.nil state, refused state problem start given⟩
  | .fail fault :: _ | .failLate fault :: _ => exact ⟨.nil state, kept state fault start⟩
  | .crash :: _ => exact ⟨.nil state, trivial⟩

/-- A read whose answer is not needed keeps what held before it. -/
theorem Ensures.peek {wrap : Fault → Error} {read : State → Except Error α}
    : Ensures pre allowed (Program.observe wrap read) (fun _ state => pre state)
        (fun _ state => pre state) :=
  .observe (fun _ _ start _ => start) (fun _ _ start _ => start) (fun _ _ start => start)

theorem Ensures.weaken {program : Program State Fault Error α} {pre' : State → Prop}
    {allowed' : State → State → Prop} {post' : α → State → Prop}
    {failed' : Error → State → Prop} (ensured : Ensures pre allowed program post failed)
    (start : ∀ state, pre' state → pre state)
    (changes : ∀ {before after}, allowed before after → allowed' before after)
    (done : ∀ result state, post result state → post' result state)
    (fallen : ∀ problem state, failed problem state → failed' problem state)
    : Ensures pre' allowed' program post' failed' := by
  intro state fates holds
  obtain ⟨path, ended⟩ := ensured state fates (start state holds)
  refine ⟨path.mono changes, ?_⟩
  cases reached : (program state fates).exit with
  | value result =>
      rw [reached] at ended
      exact done result _ ended
  | stopped problem =>
      rw [reached] at ended
      exact fallen problem _ ended
  | crashed => trivial

/-- Start from a stronger precondition. -/
theorem Ensures.given {program : Program State Fault Error α} {pre' : State → Prop}
    (ensured : Ensures pre allowed program post failed)
    (start : ∀ state, pre' state → pre state)
    : Ensures pre' allowed program post failed :=
  ensured.weaken start (fun step => step) (fun _ _ held => held) (fun _ _ held => held)

/-- End with a weaker postcondition. -/
theorem Ensures.concluding {program : Program State Fault Error α}
    {post' : α → State → Prop} (ensured : Ensures pre allowed program post failed)
    (done : ∀ result state, post result state → post' result state)
    : Ensures pre allowed program post' failed :=
  ensured.weaken (fun _ start => start) (fun step => step) done (fun _ _ held => held)

/-- It is enough to start from each state on its own, which the postcondition may then name. -/
theorem Ensures.each {program : Program State Fault Error α}
    (ensured : ∀ start, pre start → Ensures (· = start) allowed program post failed)
    : Ensures pre allowed program post failed :=
  fun state fates start => ensured state start state fates rfl

/-- Forget what a failure leaves behind. -/
theorem Ensures.anyFailure {program : Program State Fault Error α}
    (ensured : Ensures pre allowed program post failed)
    : Ensures pre allowed program post (fun _ _ => True) :=
  ensured.weaken (fun _ start => start) (fun step => step) (fun _ _ held => held)
    (fun _ _ _ => trivial)

theorem Ensures.mapError {program : Program State Fault Error α} {convert : Error → Other}
    {failed : Other → State → Prop}
    (ensured : Ensures pre allowed program post (fun problem => failed (convert problem)))
    : Ensures pre allowed (program.mapError convert) post failed :=
  .recoverWith _ ensured (fun _ => .raise (fun _ holds => holds))

/-- A program whose failure has no consequence keeps what both of its ends keep. -/
theorem Ensures.ignore {program : Program State Fault Error α} {kept : State → Prop}
    {failed : Other → State → Prop}
    (ensured : Ensures pre allowed program (fun _ => kept) (fun _ => kept))
    : Ensures pre allowed program.ignore (fun _ => kept) failed :=
  .recoverWith (fun _ => kept)
    (.bind (fun _ => kept) ensured (fun _ => .ret (fun _ holds => holds)))
    (fun _ => .ret (fun _ holds => holds))

/-- What a stopped program leaves behind. -/
theorem Ensures.of_stopped {program : Program State Fault Error α}
    (ensured : Ensures pre allowed program post failed) {state : State}
    {fates : List (Fate Fault)} {problem : Error} (start : pre state)
    (stopped : (program state fates).exit = .stopped problem)
    : failed problem (program state fates).state := by
  have ended := (ensured state fates start).2
  rwa [stopped] at ended

/-- An answer computed without the state. -/
theorem Ensures.ofExcept {answer : Except Error α}
    (answered : ∀ state result, pre state → answer = .ok result → post result state)
    (refused : ∀ state problem, pre state → answer = .error problem → failed problem state)
    : Ensures pre allowed (ofExcept answer : Program State Fault Error α) post failed := by
  cases answer with
  | ok result => exact .ret (fun state start => answered state result start rfl)
  | error problem => exact .raise (fun state start => refused state problem start rfl)

/-- What the precondition says of the program's own data may be assumed. -/
theorem Ensures.assuming {program : Program State Fault Error α} (fact : Prop)
    (known : ∀ state, pre state → fact)
    (ensured : fact → Ensures pre allowed program post failed)
    : Ensures pre allowed program post failed :=
  fun state fates start => ensured (known state start) state fates start

theorem Ensures.linked {program : Program State Fault Error α} {holds : State → Prop}
    (ensured : Ensures pre (fun _ after => holds after) program post failed)
    (initial : ∀ state, pre state → holds state)
    : Ensures pre (fun before after => holds before ∧ holds after) program post failed :=
  fun state fates start =>
    ⟨(ensured state fates start).1.linked (initial state start),
      (ensured state fates start).2⟩

/-- A loop whose body carries an invariant of the items still to come. -/
theorem Ensures.forM {ι : Type} {body : ι → Program State Fault Error PUnit} {items : List ι}
    (invariant : List ι → State → Prop)
    (step
      : ∀ item rest,
          item :: rest <:+ items
          → Ensures (invariant (item :: rest)) allowed (body item)
              (fun _ => invariant rest) failed)
    : Ensures (invariant items) allowed (items.forM body) (fun _ => invariant [])
        failed := by
  induction items with
  | nil => exact .ret (fun _ holds => holds)
  | cons item rest ih =>
      refine .bind (fun _ => invariant rest) (step item rest List.suffix_rfl) (fun _ => ?_)
      refine ih (fun other after tail => step other after ?_)
      exact tail.trans (List.suffix_cons item rest)

end Ensures

/-- Whatever the state and the fates, the program makes allowed changes only. -/
def Keeps (allowed : State → State → Prop) (program : Program State Fault Error α) : Prop :=
  Ensures (fun _ => True) allowed program (fun _ _ => True) (fun _ _ => True)

section Keeps

variable {allowed : State → State → Prop}

/-- If every allowed change leads to a state with a property, no end of the program loses it. -/
theorem Ensures.final {program : Program State Fault Error α} {pre holds : State → Prop}
    {post : α → State → Prop} {failed : Error → State → Prop}
    (ensured : Ensures pre (fun _ after => holds after) program post failed) {state : State}
    (fates : List (Fate Fault)) (start : pre state) (initial : holds state)
    : holds (program state fates).state :=
  ((ensured state fates start).1.invariant (fun reached _ => reached) initial).2

theorem Ensures.keeps {program : Program State Fault Error α} {post : α → State → Prop}
    {failed : Error → State → Prop}
    (ensured : Ensures (fun _ => True) allowed program post failed)
    : Keeps allowed program :=
  ensured.weaken (fun _ _ => trivial) (fun step => step) (fun _ _ _ => trivial)
    (fun _ _ _ => trivial)

theorem Keeps.path {program : Program State Fault Error α} (kept : Keeps allowed program)
    (state : State) (fates : List (Fate Fault))
    : Path allowed state (program state fates).trail (program state fates).state :=
  (kept state fates trivial).1

theorem Keeps.ensures {program : Program State Fault Error α} {pre : State → Prop}
    (kept : Keeps allowed program)
    : Ensures pre allowed program (fun _ _ => True) (fun _ _ => True) :=
  kept.weaken (fun _ _ => trivial) (fun step => step) (fun _ _ _ => trivial)
    (fun _ _ _ => trivial)

theorem Keeps.ret {result : α}
    : Keeps allowed (ret result : Program State Fault Error α) :=
  Ensures.ret (fun _ _ => trivial)

theorem Keeps.raise {problem : Error}
    : Keeps allowed (raise problem : Program State Fault Error α) :=
  Ensures.raise (fun _ _ => trivial)

theorem Keeps.observe {wrap : Fault → Error} {read : State → Except Error α}
    : Keeps allowed (observe wrap read) :=
  Ensures.observe (fun _ _ _ _ => trivial) (fun _ _ _ _ => trivial) (fun _ _ _ => trivial)

theorem Keeps.effect {wrap : Fault → Error} {write : State → State}
    (change : ∀ state, allowed state (write state))
    : Keeps allowed (effect wrap write) :=
  Ensures.effect (fun state _ => change state) (fun _ _ => trivial) (fun _ _ _ => trivial)
    (fun _ _ _ => trivial)

theorem Keeps.bind {first : Program State Fault Error α}
    {second : α → Program State Fault Error β} (left : Keeps allowed first)
    (right : ∀ result, Keeps allowed (second result))
    : Keeps allowed (first >>= second) :=
  Ensures.bind (fun _ _ => True) left right

theorem Keeps.recoverWith {attempt : Program State Fault Error α}
    {handler : Error → Program State Fault Other α} (left : Keeps allowed attempt)
    (right : ∀ problem, Keeps allowed (handler problem))
    : Keeps allowed (attempt.recoverWith handler) :=
  Ensures.recoverWith (fun _ _ => True) left right

theorem Keeps.mapError {program : Program State Fault Error α} {convert : Error → Other}
    (kept : Keeps allowed program)
    : Keeps allowed (program.mapError convert) :=
  kept.recoverWith (fun _ => .raise)

theorem Keeps.ignore {program : Program State Fault Error α} (kept : Keeps allowed program)
    : Keeps allowed (program.ignore : Program State Fault Other Unit) :=
  .recoverWith (.bind kept (fun _ => .ret)) (fun _ => .ret)

theorem Keeps.mono {program : Program State Fault Error α}
    {wider : State → State → Prop} (kept : Keeps allowed program)
    (widen : ∀ {before after}, allowed before after → wider before after)
    : Keeps wider program :=
  kept.weaken (fun _ _ => trivial) widen (fun _ _ _ => trivial) (fun _ _ _ => trivial)

/-- What every allowed change keeps, the program keeps however it ends. -/
theorem Keeps.preserves {program : Program State Fault Error α} {holds : State → Prop}
    (kept : Keeps allowed program)
    (preserved : ∀ {before after}, allowed before after → holds before → holds after)
    : Ensures holds allowed program (fun _ state => holds state)
        (fun _ state => holds state) := by
  intro state fates start
  obtain ⟨path, _⟩ := kept state fates trivial
  have final := (path.invariant preserved start).2
  refine ⟨path, ?_⟩
  cases (program state fates).exit with
  | value result => exact final
  | stopped problem => exact final
  | crashed => trivial

/-- A program that changes nothing keeps whatever holds. -/
theorem Keeps.frame {program : Program State Fault Error α} {pre : State → Prop}
    (still : Keeps (fun _ _ => False) program)
    : Ensures pre allowed program (fun _ state => pre state) (fun _ state => pre state) :=
  (still.preserves (fun never => never.elim)).weaken (fun _ start => start)
    (fun never => never.elim) (fun _ _ held => held) (fun _ _ held => held)

theorem Keeps.unmoved {program : Program State Fault Error α}
    (still : Keeps (fun _ _ => False) program) (state : State) (fates : List (Fate Fault))
    : (program state fates).state = state :=
  ((still.path state fates).invariant (fun never _ => never.elim) (rfl : state = state)).2.symm

end Keeps

/-- Without a fault, the program returns, with a result and in a state that satisfy the
postcondition.
-/
def Succeeds (program : Program State Fault Error α) (state : State) (post : α → State → Prop)
    : Prop :=
  ∃ result,
    (program state []).exit = .value result
    ∧ (program state []).rest = []
    ∧ post result (program state []).state

section Succeeds

variable {state : State} {post : α → State → Prop}

theorem Succeeds.ret {result : α} (holds : post result state)
    : Succeeds (ret result : Program State Fault Error α) state post :=
  ⟨result, rfl, rfl, holds⟩

theorem Succeeds.bind {first : Program State Fault Error α}
    {second : α → Program State Fault Error β} {post : β → State → Prop}
    (succeeded
      : Succeeds first state (fun result middle => Succeeds (second result) middle post))
    : Succeeds (first >>= second) state post := by
  obtain ⟨between, exit, rest, continued⟩ := succeeded
  have unfolded : first >>= second = first.andThen second := rfl
  simp only [Succeeds, unfolded, andThen, exit, rest]
  exact continued

theorem Succeeds.effect {wrap : Fault → Error} {write : State → State}
    {post : Unit → State → Prop} (holds : post () (write state))
    : Succeeds (effect wrap write) state post :=
  ⟨(), rfl, rfl, holds⟩

theorem Succeeds.observe {wrap : Fault → Error} {read : State → Except Error α} {result : α}
    (answer : read state = .ok result) (holds : post result state)
    : Succeeds (observe wrap read) state post := by
  simp [Succeeds, Program.observe, answer, holds]

theorem Succeeds.ofExcept {answer : Except Error α} {result : α}
    (answered : answer = .ok result) (holds : post result state)
    : Succeeds (ofExcept answer : Program State Fault Error α) state post := by
  subst answered
  exact .ret holds

theorem Succeeds.recoverWith {attempt : Program State Fault Error α}
    {handler : Error → Program State Fault Other α} (succeeded : Succeeds attempt state post)
    : Succeeds (attempt.recoverWith handler) state post := by
  obtain ⟨result, exit, rest, holds⟩ := succeeded
  simp [Succeeds, Program.recoverWith, exit, rest, holds]

theorem Succeeds.mapError {program : Program State Fault Error α} {convert : Error → Other}
    (succeeded : Succeeds program state post)
    : Succeeds (program.mapError convert) state post :=
  succeeded.recoverWith

theorem Succeeds.mono {program : Program State Fault Error α} {post' : α → State → Prop}
    (succeeded : Succeeds program state post)
    (weaker : ∀ result last, post result last → post' result last)
    : Succeeds program state post' := by
  obtain ⟨result, exit, rest, holds⟩ := succeeded
  exact ⟨result, exit, rest, weaker _ _ holds⟩

/-- A program that returns meets the postcondition it ensures. -/
theorem Succeeds.ensures {program : Program State Fault Error α} {pre : State → Prop}
    {allowed : State → State → Prop} {post' : α → State → Prop}
    {failed : Error → State → Prop} (succeeded : Succeeds program state post)
    (ensured : Ensures pre allowed program post' failed) (start : pre state)
    : Succeeds program state (fun result last => post result last ∧ post' result last) := by
  obtain ⟨result, exit, rest, holds⟩ := succeeded
  have ended := (ensured state [] start).2
  rw [exit] at ended
  exact ⟨result, exit, rest, holds, ended⟩

end Succeeds

end Program

end CodebaseGraph.Crash

/-! Writes that a crash may cut. A region that is written over in place holds, after a cut, the
first part of what was written and the last part of what was there; a digest at its end tells
such a mixture from what was written on purpose.
-/

namespace CodebaseGraph.Crash

variable {α : Type*}

/-- What a region of bytes holds after `count` of the new ones were written over the old. -/
def overwritten (old new : List α) (count : Nat) : List α :=
  new.take count ++ old.drop count

@[simp]
theorem overwritten_zero (old new : List α) : overwritten old new 0 = old := by
  simp [overwritten]

theorem overwritten_of_length_le {old new : List α} {count : Nat}
    (lengths : old.length = new.length) (all : new.length ≤ count)
    : overwritten old new count = new := by
  rw [overwritten, List.take_of_length_le all, List.drop_eq_nil_of_le (lengths ▸ all),
    List.append_nil]

theorem overwritten_length {old new : List α} (lengths : old.length = new.length) (count : Nat)
    : (overwritten old new count).length = new.length := by
  simp only [overwritten, List.length_append, List.length_take, List.length_drop]
  omega

/-- Writing the rest of an interrupted write is the same write. -/
theorem overwritten_overwritten {old new : List α} (lengths : old.length = new.length)
    {first second : Nat} (further : first ≤ second)
    : overwritten (overwritten old new first) new second = overwritten old new second := by
  rcases Nat.le_total first new.length with short | long
  · have exactly : (new.take first).length = first := by
      rw [List.length_take]
      omega
    have inside : (new.take first).length ≤ second := by omega
    rw [overwritten, overwritten, List.drop_append, List.drop_eq_nil_of_le inside,
      List.nil_append, List.drop_drop, exactly, Nat.add_sub_cancel' further, overwritten]
  · rw [overwritten_of_length_le lengths long, overwritten_of_length_le rfl (by omega),
      overwritten_of_length_le lengths (by omega)]

end CodebaseGraph.Crash
