import CodebaseGraph.Refresh.SourceSelection
import Mathlib.Data.List.Forall2
import Mathlib.Logic.Relation

/-! What the wildcards of a pattern mean, and where `wildcard_match_bytes` differs from it. -/

namespace CodebaseGraph.Refresh

-- The language of a pattern

/-- A star stands for any bytes, a question mark for any byte, another byte for itself. -/
inductive Denotes : List UInt8 → List UInt8 → Prop where
  | done : Denotes [] []
  | any {rest text : List UInt8} (taken : List UInt8) (after : Denotes rest text)
      : Denotes (star :: rest) (taken ++ text)
  | one {rest text : List UInt8} (byte : UInt8) (after : Denotes rest text)
      : Denotes (question :: rest) (byte :: text)
  | same {rest text : List UInt8} {byte : UInt8} (plain : byte ≠ star ∧ byte ≠ question)
      (after : Denotes rest text)
      : Denotes (byte :: rest) (byte :: text)

theorem star_ne_question : star ≠ question := by decide

theorem denotes_star_iff {rest text : List UInt8}
    : Denotes (star :: rest) text ↔ ∃ suffix, suffix <:+ text ∧ Denotes rest suffix := by
  constructor
  · intro denoted
    cases denoted with
    | any taken after => exact ⟨_, List.suffix_append _ _, after⟩
    | same plain => exact absurd rfl plain.1
  · rintro ⟨suffix, ⟨taken, rfl⟩, after⟩
    exact .any taken after

theorem Denotes.longer {rest text longer : List UInt8} (denoted : Denotes (star :: rest) text)
    (suffix : text <:+ longer)
    : Denotes (star :: rest) longer := by
  obtain ⟨last, inside, after⟩ := denotes_star_iff.mp denoted
  exact denotes_star_iff.mpr ⟨last, inside.trans suffix, after⟩

/-- A star takes nothing here, or the first byte. -/
theorem denotes_star_tail {rest text : List UInt8}
    : Denotes (star :: rest) text ↔ Denotes rest text ∨ Denotes (star :: rest) text.tail := by
  constructor
  · intro denoted
    obtain ⟨suffix, inside, after⟩ := denotes_star_iff.mp denoted
    cases text with
    | nil => exact Or.inl (List.suffix_nil.mp inside ▸ after)
    | cons byte text =>
        rcases List.suffix_cons_iff.mp inside with rfl | inside
        · exact Or.inl after
        · exact Or.inr (denotes_star_iff.mpr ⟨suffix, inside, after⟩)
  · rintro (after | denoted)
    · exact .any [] after
    · exact denoted.longer (List.tail_suffix text)

theorem denotes_cons_iff {expected : UInt8} {rest text : List UInt8} (literal : expected ≠ star)
    : Denotes (expected :: rest) text
      ↔ ∃ byte after,
          text = byte :: after ∧ (expected = question ∨ expected = byte) ∧ Denotes rest after := by
  constructor
  · intro denoted
    cases denoted with
    | any taken after => exact absurd rfl literal
    | one byte after => exact ⟨byte, _, rfl, Or.inl rfl, after⟩
    | same plain after => exact ⟨expected, _, rfl, Or.inr rfl, after⟩
  · rintro ⟨byte, after, rfl, same, denoted⟩
    by_cases mark : expected = question
    · subst mark
      exact .one byte denoted
    · obtain rfl := same.resolve_left mark
      exact .same ⟨literal, mark⟩ denoted

theorem denotes_nil_iff {pattern : List UInt8}
    : Denotes pattern [] ↔ pattern.all (· = star) = true := by
  induction pattern with
  | nil => exact ⟨fun _ => rfl, fun _ => .done⟩
  | cons expected rest ih =>
      rw [List.all_cons, Bool.and_eq_true, decide_eq_true_eq, ← ih]
      by_cases literal : expected = star
      · subst literal
        rw [denotes_star_tail, List.tail_nil]
        constructor
        · rintro (after | denoted)
          · exact ⟨rfl, after⟩
          · obtain ⟨suffix, inside, after⟩ := denotes_star_iff.mp denoted
            exact ⟨rfl, List.suffix_nil.mp inside ▸ after⟩
        · exact fun both => Or.inl both.2
      · rw [denotes_cons_iff literal]
        simp [literal]

/-- Without a star, a pattern takes as many bytes as it has. -/
theorem Denotes.split {segment rest text : List UInt8} (plain : star ∉ segment)
    (denoted : Denotes (segment ++ rest) text)
    : ∃ passed after,
        text = passed ++ after ∧ passed.length = segment.length ∧ Denotes rest after := by
  induction segment generalizing text with
  | nil => exact ⟨[], text, rfl, rfl, denoted⟩
  | cons expected segment ih =>
      obtain ⟨first, others⟩ := List.ne_and_not_mem_of_not_mem_cons plain
      rw [List.cons_append, denotes_cons_iff (Ne.symm first)] at denoted
      obtain ⟨byte, after, rfl, -, denoted⟩ := denoted
      obtain ⟨passed, last, rfl, length, denoted⟩ := ih others denoted
      exact ⟨byte :: passed, last, rfl, by simp [length], denoted⟩

-----------------------------------------------------------------------------------------
-- Turns of the loop
-----------------------------------------------------------------------------------------

/-- What is left of the text and of the pattern, and where the last star was tried. -/
structure LoopState where
  text : List UInt8
  pattern : List UInt8
  last : StarState
  covers : last.Covers text

namespace LoopState

def start (text pattern : List UInt8) : LoopState :=
  { text, pattern, last := none, covers := StarState.covers_none text }

def matched (state : LoopState) : Bool :=
  wildcardLoop state.text state.pattern state.last state.covers

/-- The star that was tried last takes one byte more. -/
def again (retry later : List UInt8) : LoopState :=
  { text := later, pattern := retry, last := some (retry, later)
    covers := StarState.covers_last retry later }

/-- A star of the pattern is compared with a star of the text. -/
def Meets (state : LoopState) : Prop :=
  state.text.head? = some star ∧ state.pattern.head? = some star

end LoopState

inductive LoopStep : LoopState → LoopState → Prop where
  | same {byte expected : UInt8} {after rest : List UInt8} {last : StarState}
      {covers : last.Covers (byte :: after)} (same : expected = question ∨ expected = byte)
      : LoopStep ⟨byte :: after, expected :: rest, last, covers⟩ ⟨after, rest, last, covers.tail⟩
  | begun {byte : UInt8} {after rest : List UInt8} {last : StarState}
      {covers : last.Covers (byte :: after)} (other : byte ≠ star)
      : LoopStep ⟨byte :: after, star :: rest, last, covers⟩
          ⟨byte :: after, rest, some (rest, byte :: after), StarState.covers_last _ _⟩
  | retry {byte expected first : UInt8} {after rest retry later : List UInt8}
      {covers : StarState.Covers (some (retry, first :: later)) (byte :: after)}
      (different : ¬(expected = question ∨ expected = byte)) (literal : expected ≠ star)
      : LoopStep ⟨byte :: after, expected :: rest, some (retry, first :: later), covers⟩
          (.again retry later)
  | ended {byte first : UInt8} {after retry later : List UInt8}
      {covers : StarState.Covers (some (retry, first :: later)) (byte :: after)}
      : LoopStep ⟨byte :: after, [], some (retry, first :: later), covers⟩ (.again retry later)

/-- A turn leaves the answer as it is. -/
theorem LoopStep.matched {state next : LoopState} (step : LoopStep state next)
    : state.matched = next.matched := by
  unfold LoopState.matched
  rw [wildcardLoop.eq_def]
  cases step with
  | same same => simp only [same, if_true]
  | begun other =>
      have different : ¬(star = question ∨ star = _) :=
        not_or.mpr ⟨star_ne_question, other.symm⟩
      simp only [different, if_true, if_false]
  | retry different literal => simp only [different, literal, if_false, LoopState.again]
  | ended => rfl

/-- Where the pattern after the last star has been followed byte by byte. -/
def Follows (last : StarState) (text pattern : List UInt8) : Prop :=
  ∀ retry tried, last = some (retry, tried) →
    ∃ segment passed,
      retry = segment ++ pattern
      ∧ tried = passed ++ text
      ∧ passed.length = segment.length
      ∧ star ∉ segment

theorem follows_last (retry text : List UInt8) : Follows (some (retry, text)) text retry := by
  rintro _ _ ⟨⟩
  exact ⟨[], [], rfl, rfl, rfl, List.not_mem_nil⟩

theorem Follows.next {last : StarState} {byte expected : UInt8} {after rest : List UInt8}
    (follows : Follows last (byte :: after) (expected :: rest)) (literal : expected ≠ star)
    : Follows last after rest := by
  intro retry tried found
  obtain ⟨segment, passed, rfl, rfl, length, plain⟩ := follows retry tried found
  refine ⟨segment ++ [expected], passed ++ [byte], by simp, by simp, by simp [length], ?_⟩
  simp [plain, Ne.symm literal]

/-- A later try of the last star takes the rest of the pattern to a later part of the text. -/
theorem Follows.later {last : StarState} {text pattern retry tried : List UInt8}
    (follows : Follows last text pattern) (found : last = some (retry, tried))
    (denoted : Denotes (star :: retry) tried.tail)
    : ∃ after, after <:+ text ∧ Denotes pattern after := by
  obtain ⟨segment, passed, rfl, rfl, length, plain⟩ := follows retry tried found
  obtain ⟨suffix, inside, denoted⟩ := denotes_star_iff.mp denoted
  obtain ⟨taken, after, rfl, taken', denoted⟩ := denoted.split plain
  refine ⟨after, ?_, denoted⟩
  have whole : taken ++ after <:+ passed ++ text := inside.trans (List.tail_suffix _)
  have short : after.length ≤ text.length := by
    have bound := whole.length_le
    simp only [List.length_append] at bound
    omega
  exact List.suffix_of_suffix_length_le ((List.suffix_append _ _).trans whole)
    (List.suffix_append _ _) short

/-- A later try of the last star, which was tried at a byte. -/
theorem laterTry_iff {retry after : List UInt8} {byte : UInt8}
    : (∃ again tried,
        some (retry, byte :: after) = some (again, tried) ∧ Denotes (star :: again) tried.tail)
      ↔ Denotes (star :: retry) after := by
  constructor
  · rintro ⟨_, _, ⟨⟩, denoted⟩
    exact denoted
  · exact fun denoted => ⟨_, _, rfl, denoted⟩

/-- Where no star can be tried again, none was tried. -/
theorem eq_none_of_stuck {last : StarState} {byte : UInt8} {after : List UInt8}
    {covers : last.Covers (byte :: after)}
    (stuck : ∀ (retry : List UInt8) (first : UInt8) (later : List UInt8)
      (covers' : StarState.Covers (some (retry, first :: later)) (byte :: after)),
      last = some (retry, first :: later) → covers ≍ covers' → False)
    : last = none := by
  match last, covers, stuck with
  | none, _, _ => rfl
  | some (retry, []), covers, _ => exact absurd (covers _ rfl) (Nat.not_succ_le_zero _)
  | some (retry, first :: later), covers, stuck =>
      exact absurd HEq.rfl (stuck retry first later covers rfl)

/-- The star tried again decides what is left from its next try on. -/
theorem again_iff {retry later : List UInt8} {answer : Prop}
    (tried : answer
      ↔ Denotes retry later
        ∨ ∃ again tried,
            some (retry, later) = some (again, tried) ∧ Denotes (star :: again) tried.tail)
    : answer ↔ Denotes (star :: retry) later := by
  have turn : Denotes (star :: retry) later ↔ _ := denotes_star_tail
  rw [tried, turn]
  apply or_congr_right
  constructor
  · rintro ⟨_, _, ⟨⟩, denoted⟩
    exact denoted
  · exact fun denoted => ⟨_, _, rfl, denoted⟩

/-- Where no star meets a star, the loop decides the language: it matches what is left, or a later
try of the last star does.
-/
theorem wildcardLoop_denotes (text pattern : List UInt8) (last : StarState)
    (covers : last.Covers text) (follows : Follows last text pattern)
    (apart : ∀ state, Relation.ReflTransGen LoopStep ⟨text, pattern, last, covers⟩ state →
      ¬ state.Meets)
    : LoopState.matched ⟨text, pattern, last, covers⟩ = true
      ↔ Denotes pattern text
        ∨ ∃ retry tried, last = some (retry, tried) ∧ Denotes (star :: retry) tried.tail := by
  induction text, pattern, last, covers using wildcardLoop.induct with
  | case1 last pattern covers _ =>
      rw [LoopState.matched, wildcardLoop, denotes_nil_iff]
      constructor
      · exact Or.inl
      · rintro (all | ⟨retry, tried, found, denoted⟩)
        · exact all
        · obtain ⟨after, inside, denoted⟩ := Follows.later follows found denoted
          rw [List.suffix_nil.mp inside] at denoted
          exact denotes_nil_iff.mp denoted
  | case2 last byte after expected rest covers same _ ih =>
      have literal : expected ≠ star := by
        rintro rfl
        obtain rfl := same.resolve_left star_ne_question
        exact apart _ .refl ⟨rfl, rfl⟩
      have denotes : Denotes rest after ↔ Denotes (expected :: rest) (byte :: after) := by
        rw [denotes_cons_iff literal]
        constructor
        · exact fun denoted => ⟨byte, after, rfl, same, denoted⟩
        · rintro ⟨_, _, ⟨⟩, -, denoted⟩
          exact denoted
      rw [(LoopStep.same same).matched, ← denotes]
      exact ih (Follows.next follows literal) (fun state run => apart state (run.head (.same same)))
  | case3 last byte after rest covers _ other ih =>
      have apart' : byte ≠ star := fun met => other (Or.inr met.symm)
      have turn : Denotes (star :: rest) (byte :: after)
          ↔ Denotes rest (byte :: after) ∨ Denotes (star :: rest) after := denotes_star_tail
      rw [(LoopStep.begun apart').matched,
        ih (follows_last _ _) (fun state run => apart state (run.head (.begun apart'))),
        laterTry_iff, ← turn]
      constructor
      · exact Or.inl
      · rintro (denoted | ⟨retry, tried, found, denoted⟩)
        · exact denoted
        · obtain ⟨after', inside, denoted⟩ := Follows.later follows found denoted
          exact denoted.longer inside
  | case4 byte after expected rest different literal retry first tried covers _ ih =>
      have refused : ¬Denotes (expected :: rest) (byte :: after) := by
        rw [denotes_cons_iff literal]
        rintro ⟨_, _, ⟨⟩, same, -⟩
        exact different same
      rw [(LoopStep.retry different literal).matched, laterTry_iff, or_iff_right refused]
      exact again_iff (ih (follows_last _ _)
        (fun state run => apart state (run.head (.retry different literal))))
  | case5 last byte after expected rest different literal covers stuck _ =>
      have refused : ¬Denotes (expected :: rest) (byte :: after) := by
        rw [denotes_cons_iff literal]
        rintro ⟨_, _, ⟨⟩, same, -⟩
        exact different same
      obtain rfl := eq_none_of_stuck stuck
      rw [LoopState.matched, wildcardLoop.eq_def]
      simp [different, literal, refused]
  | case6 byte after retry first tried covers _ ih =>
      have refused : ¬Denotes [] (byte :: after) := by
        intro denoted
        cases denoted
      rw [LoopStep.ended.matched, laterTry_iff, or_iff_right refused]
      exact again_iff (ih (follows_last _ _) (fun state run => apart state (run.head .ended)))
  | case7 last byte after covers stuck _ =>
      have refused : ¬Denotes [] (byte :: after) := by
        intro denoted
        cases denoted
      obtain rfl := eq_none_of_stuck stuck
      rw [LoopState.matched, wildcardLoop.eq_def]
      simp [refused]

-----------------------------------------------------------------------------------------
-- The whole loop
-----------------------------------------------------------------------------------------

/-- `wildcard_match_bytes`. -/
def wildcardMatchBytes (text pattern : List UInt8) : Bool := (LoopState.start text pattern).matched

/-- The loop never compares a star of the text with a star of the pattern. -/
def Apart (text pattern : List UInt8) : Prop :=
  ∀ state, Relation.ReflTransGen LoopStep (.start text pattern) state → ¬state.Meets

theorem wildcardMatchBytes_iff {text pattern : List UInt8} (apart : Apart text pattern)
    : wildcardMatchBytes text pattern = true ↔ Denotes pattern text := by
  have decides :=
    wildcardLoop_denotes text pattern none (StarState.covers_none text) nofun apart
  rw [wildcardMatchBytes, LoopState.start, decides]
  simp

/-- The text that is left, and the text of the last star, come from the whole text. -/
def LoopState.From (whole : List UInt8) (state : LoopState) : Prop :=
  (∀ byte ∈ state.text, byte ∈ whole)
  ∧ ∀ last ∈ state.last, ∀ byte ∈ last.2, byte ∈ whole

theorem LoopStep.from {whole : List UInt8} {state next : LoopState} (step : LoopStep state next)
    (inside : state.From whole)
    : next.From whole := by
  obtain ⟨text, tried⟩ := inside
  cases step with
  | same same => exact ⟨fun byte member => text byte (List.mem_cons_of_mem _ member), tried⟩
  | begun other =>
      refine ⟨text, ?_⟩
      rintro last ⟨⟩
      exact text
  | retry different literal =>
      have later := fun byte member => tried _ rfl byte (List.mem_cons_of_mem _ member)
      refine ⟨later, ?_⟩
      rintro last ⟨⟩
      exact later
  | ended =>
      have later := fun byte member => tried _ rfl byte (List.mem_cons_of_mem _ member)
      refine ⟨later, ?_⟩
      rintro last ⟨⟩
      exact later

theorem apart_of_text {text : List UInt8} (plain : star ∉ text) (pattern : List UInt8)
    : Apart text pattern := by
  intro state run
  have inside : state.From text := by
    induction run with
    | refl => exact ⟨fun _ member => member, nofun⟩
    | tail _ step ih => exact step.from ih
  exact fun meets => plain (inside.1 star (List.mem_of_mem_head? meets.1))

/-- A pattern without a star is gone through once. -/
def LoopState.Plain (state : LoopState) : Prop := star ∉ state.pattern ∧ state.last = none

theorem LoopStep.plain {state next : LoopState} (step : LoopStep state next)
    (plain : state.Plain)
    : next.Plain := by
  obtain ⟨pattern, last⟩ := plain
  cases step with
  | same same => exact ⟨List.not_mem_of_not_mem_cons pattern, last⟩
  | begun other => exact absurd List.mem_cons_self pattern
  | retry different literal => cases last
  | ended => cases last

theorem apart_of_pattern {pattern : List UInt8} (plain : star ∉ pattern) (text : List UInt8)
    : Apart text pattern := by
  intro state run
  have inside : state.Plain := by
    induction run with
    | refl => exact ⟨plain, rfl⟩
    | tail _ step ih => exact step.plain ih
  exact fun meets => inside.1 (List.mem_of_mem_head? meets.2)

/-- A pattern without a star has the length of its texts. -/
theorem length_of_plain {text pattern : List UInt8} (plain : star ∉ pattern)
    (matched : wildcardMatchBytes text pattern = true)
    : text.length = pattern.length := by
  have denoted := (wildcardMatchBytes_iff (apart_of_pattern plain text)).mp matched
  rw [← List.append_nil pattern] at denoted
  obtain ⟨passed, after, rfl, length, rest⟩ := denoted.split plain
  cases rest
  simpa using length

/-- Bytes that are accepted one by one are passed over. -/
theorem wildcardMatchBytes_append {passed accepting : List UInt8} (text pattern : List UInt8)
    (accepted : List.Forall₂ (fun byte expected => expected = question ∨ expected = byte) passed
      accepting)
    : wildcardMatchBytes (passed ++ text) (accepting ++ pattern)
      = wildcardMatchBytes text pattern := by
  induction accepted with
  | nil => rfl
  | cons same _ ih => exact (LoopStep.same same).matched.trans ih

/-- A pattern is among its own texts. -/
theorem Denotes.self {rest text : List UInt8} (segment : List UInt8) (denoted : Denotes rest text)
    : Denotes (segment ++ rest) (segment ++ text) := by
  induction segment with
  | nil => exact denoted
  | cons byte segment ih =>
      by_cases wild : byte = star
      · subst wild
        exact .any [star] ih
      · by_cases mark : byte = question
        · subst mark
          exact .one question ih
        · exact .same ⟨wild, mark⟩ ih

theorem Denotes.questions {rest text : List UInt8} (taken : List UInt8)
    (denoted : Denotes rest text)
    : Denotes (List.replicate taken.length question ++ rest) (taken ++ text) := by
  induction taken with
  | nil => exact denoted
  | cons byte taken ih => exact .one byte ih

/-- Every text with a star is refused by a pattern that denotes it. -/
theorem exists_refusing_pattern {text : List UInt8} (starred : star ∈ text)
    : ∃ pattern, Denotes pattern text ∧ wildcardMatchBytes text pattern = false := by
  obtain ⟨before, after, rfl⟩ := List.append_of_mem starred
  refine ⟨List.replicate before.length question
    ++ star :: (List.replicate (after.length + 1) question ++ []), ?_, ?_⟩
  · refine Denotes.questions before (.any [] ?_)
    have rest := Denotes.questions (star :: after) .done
    rwa [List.append_nil (star :: after)] at rest
  · have accepted
        : List.Forall₂ (fun byte expected => expected = question ∨ expected = byte)
            (before ++ [star]) (List.replicate before.length question ++ [star]) := by
      induction before with
      | nil => exact .cons (Or.inr rfl) .nil
      | cons byte before ih => exact .cons (Or.inl rfl) (ih (by simp))
    have passed :=
      wildcardMatchBytes_append after (List.replicate (after.length + 1) question ++ []) accepted
    simp only [List.append_assoc, List.cons_append, List.nil_append] at passed
    rw [passed, Bool.eq_false_iff]
    intro matched
    have length := length_of_plain (by simp [star_ne_question]) matched
    simp at length

/-- Every pattern with a star refuses a text that it denotes. -/
theorem exists_refused_text {pattern : List UInt8} (starred : star ∈ pattern)
    : ∃ text, Denotes pattern text ∧ wildcardMatchBytes text pattern = false := by
  obtain ⟨after, before, reversed, plain⟩ :=
    List.eq_append_cons_of_mem (List.mem_reverse.mpr starred)
  have split : pattern = before.reverse ++ star :: after.reverse := by
    rw [← List.reverse_reverse pattern, reversed]
    simp
  subst split
  refine ⟨before.reverse ++ star :: question :: after.reverse, ?_, ?_⟩
  · have rest : Denotes after.reverse after.reverse := by
      have whole := Denotes.self after.reverse .done
      rwa [List.append_nil] at whole
    exact Denotes.self before.reverse (.any [star, question] rest)
  · have accepted
        : List.Forall₂ (fun byte expected => expected = question ∨ expected = byte)
            (before.reverse ++ [star]) (before.reverse ++ [star]) := by
      rw [List.forall₂_same]
      exact fun _ _ => Or.inr rfl
    have passed :=
      wildcardMatchBytes_append (question :: after.reverse) after.reverse accepted
    simp only [List.append_assoc, List.cons_append, List.nil_append] at passed
    rw [passed, Bool.eq_false_iff]
    intro matched
    have length := length_of_plain (by simpa using plain) matched
    simp at length

/-- Every turn leaves less to do: text to try the last star on, text, or pattern. -/
theorem loopStep_wellFounded : WellFounded (fun next state => LoopStep state next) := by
  let size (state : LoopState) : Nat × Nat × Nat :=
    (state.last.budget state.text, state.text.length, state.pattern.length)
  have smaller {state next : LoopState} (step : LoopStep state next)
      : Prod.Lex (· < ·) (Prod.Lex (· < ·) (· < ·)) (size next) (size state) := by
    cases step with
    | @same byte expected after rest last covers same =>
        rcases Nat.lt_or_eq_of_le (last.budget_cons byte after) with less | equal
        · exact Prod.Lex.left _ _ less
        · simp only [size, equal]
          exact Prod.Lex.right _ (Prod.Lex.left _ _ (Nat.lt_succ_self _))
    | @begun byte after rest last covers other =>
        rcases Nat.lt_or_eq_of_le covers.length_le_budget with less | equal
        · exact Prod.Lex.left _ _ less
        · simp only [size, ← equal]
          exact Prod.Lex.right _ (Prod.Lex.right _ (Nat.lt_succ_self _))
    | retry different literal => exact Prod.Lex.left _ _ (Nat.lt_succ_self _)
    | ended => exact Prod.Lex.left _ _ (Nat.lt_succ_self _)
  have lengths := WellFounded.prod_lex (wellFounded_lt (α := Nat)) (wellFounded_lt (α := Nat))
  exact Subrelation.wf smaller
    (InvImage.wf size (WellFounded.prod_lex (wellFounded_lt (α := Nat)) lengths))

/-- The loop always ends, and it decides the language of the pattern unless a star of the text
meets a star of the pattern. A text is judged rightly by all patterns exactly if it has no star,
and a pattern judges all texts rightly exactly if it has none.
-/
theorem wildcardMatchBytes_exact (text pattern : List UInt8)
    : WellFounded (fun next state => LoopStep state next)
      ∧ (Apart text pattern → (wildcardMatchBytes text pattern = true ↔ Denotes pattern text))
      ∧ ((∀ pattern, wildcardMatchBytes text pattern = true ↔ Denotes pattern text)
          ↔ star ∉ text)
      ∧ ((∀ text, wildcardMatchBytes text pattern = true ↔ Denotes pattern text)
          ↔ star ∉ pattern) := by
  refine ⟨loopStep_wellFounded, wildcardMatchBytes_iff, ?_, ?_⟩
  · constructor
    · intro right starred
      obtain ⟨pattern, denoted, refused⟩ := exists_refusing_pattern starred
      rw [(right pattern).mpr denoted] at refused
      cases refused
    · exact fun plain pattern => wildcardMatchBytes_iff (apart_of_text plain pattern)
  · constructor
    · intro right starred
      obtain ⟨text, denoted, refused⟩ := exists_refused_text starred
      rw [(right text).mpr denoted] at refused
      cases refused
    · exact fun plain text => wildcardMatchBytes_iff (apart_of_pattern plain text)

/-- The pattern `*` refuses the text `*a`. -/
theorem wildcardMatchBytes_refuses_star
    : ¬∀ text pattern, wildcardMatchBytes text pattern = true ↔ Denotes pattern text := by
  intro right
  have denoted : Denotes [star] [star, 97] := .any [star, 97] .done
  have refused : wildcardMatchBytes [star, 97] [star] = wildcardMatchBytes [97] [] :=
    (LoopStep.same (Or.inr rfl)).matched
  have ended : wildcardMatchBytes [97] [] = false := by
    rw [wildcardMatchBytes, LoopState.start, LoopState.matched, wildcardLoop.eq_def]
  rw [(right _ _).mpr denoted, ended] at refused
  cases refused

end CodebaseGraph.Refresh
