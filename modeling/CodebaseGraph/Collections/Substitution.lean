import Mathlib.Data.List.Infix
import Mathlib.Data.List.Nodup

/-! Replacing placeholders in a text, one after the other. What a value brings along is replaced
by the later steps, so the result is the filled template only for values without later
placeholders.
-/

namespace CodebaseGraph.Collections

section Replacing

variable {α : Type} [DecidableEq α]

-----------------------------------------------------------------------------------------
-- Replacing a pattern
-----------------------------------------------------------------------------------------

/-- Replaces the occurrences of a pattern that is not empty, from left to right. -/
def replaceFrom (pattern replacement : List α) : Nat → List α → List α
  | 0, text => text
  | _ + 1, [] => []
  | fuel + 1, item :: rest =>
      if pattern.isPrefixOf (item :: rest) then
        replacement
          ++ replaceFrom pattern replacement fuel ((item :: rest).drop pattern.length)
      else item :: replaceFrom pattern replacement fuel rest

def replaceAll (pattern replacement text : List α) : List α :=
  replaceFrom pattern replacement text.length text

variable {pattern replacement : List α}

omit [DecidableEq α] in
theorem drop_length_lt (filled : pattern ≠ []) (item : α) (rest : List α)
    : ((item :: rest).drop pattern.length).length ≤ rest.length := by
  have positive := List.length_pos_iff.mpr filled
  rw [List.length_drop, List.length_cons]
  omega

/-- More fuel than the text is long changes nothing. -/
theorem replaceFrom_enough (filled : pattern ≠ []) {fuel : Nat} {text : List α}
    (enough : text.length ≤ fuel)
    : replaceFrom pattern replacement fuel text = replaceAll pattern replacement text := by
  have same (first second : Nat) (text : List α) (enough : text.length ≤ first)
      (also : text.length ≤ second)
      : replaceFrom pattern replacement first text
        = replaceFrom pattern replacement second text := by
    induction first generalizing second text with
    | zero =>
        rw [List.length_eq_zero_iff.mp (Nat.le_zero.mp enough)]
        cases second <;> rfl
    | succ first ih =>
        cases text with
        | nil => cases second <;> rfl
        | cons item rest =>
            cases second with
            | zero => exact absurd also (by simp)
            | succ second =>
                have shorter := drop_length_lt filled item rest
                rw [List.length_cons] at enough also
                rw [replaceFrom, replaceFrom, ih second _ (by omega) (by omega),
                  ih second rest (by omega) (by omega)]
  exact same fuel text.length text enough le_rfl

@[simp]
theorem replaceAll_nil : replaceAll pattern replacement [] = [] := rfl

theorem replaceAll_prefix (filled : pattern ≠ []) {text : List α} (starts : pattern <+: text)
    : replaceAll pattern replacement text
      = replacement ++ replaceAll pattern replacement (text.drop pattern.length) := by
  cases text with
  | nil => exact absurd (List.prefix_nil.mp starts) filled
  | cons item rest =>
      rw [replaceAll, List.length_cons, replaceFrom,
        if_pos (List.isPrefixOf_iff_prefix.mpr starts),
        replaceFrom_enough filled (drop_length_lt filled item rest)]

theorem replaceAll_cons {item : α} {rest : List α} (other : ¬pattern <+: item :: rest)
    : replaceAll pattern replacement (item :: rest)
      = item :: replaceAll pattern replacement rest := by
  rw [replaceAll, List.length_cons, replaceFrom,
    if_neg (fun starts => other (List.isPrefixOf_iff_prefix.mp starts)), replaceAll]

theorem replaceAll_self (filled : pattern ≠ [])
    : replaceAll pattern replacement pattern = replacement := by
  rw [ replaceAll_prefix filled (List.prefix_refl _), List.drop_length, replaceAll_nil,
    List.append_nil]

theorem replaceAll_absent {text : List α} (absent : ¬pattern <:+: text)
    : replaceAll pattern replacement text = text := by
  induction text with
  | nil => rfl
  | cons item rest ih =>
      rw [replaceAll_cons (fun starts => absent starts.isInfix),
        ih (fun inside => absent (inside.trans (List.suffix_cons _ _).isInfix))]

/-- An item that is not in the pattern divides the text. -/
theorem replaceAll_divided (filled : pattern ≠ []) {divider : α} (outside : divider ∉ pattern)
    (before after : List α)
    : replaceAll pattern replacement (before ++ divider :: after)
      = replaceAll pattern replacement before
        ++ divider :: replaceAll pattern replacement after := by
  have within {before : List α} (starts : pattern <+: before ++ divider :: after)
      : pattern <+: before := by
    by_cases short : pattern.length ≤ before.length
    · exact List.prefix_of_prefix_length_le starts (List.prefix_append _ _) short
    · have covered : before ++ [divider] <+: pattern := by
        refine List.prefix_of_prefix_length_le ⟨after, by simp⟩ starts ?_
        rw [List.length_append, List.length_singleton]
        omega
      exact absurd (covered.subset (by simp)) outside
  induction steps : before.length using Nat.strongRecOn generalizing before with
  | ind size ih =>
      subst steps
      cases before with
      | nil =>
          have other : ¬pattern <+: divider :: after := fun starts =>
            filled (List.prefix_nil.mp (within starts))
          rw [List.nil_append, replaceAll_cons other]
          rfl
      | cons item rest =>
          by_cases starts : pattern <+: (item :: rest) ++ divider :: after
          · have own := within starts
            have shorter := drop_length_lt filled item rest
            rw [ replaceAll_prefix filled starts, replaceAll_prefix filled own,
              List.drop_append_of_le_length own.length_le,
              ih _ (by rw [List.length_cons]; omega) _ rfl, List.append_assoc]
          · have other : ¬pattern <+: item :: rest := fun own =>
              starts (own.trans (List.prefix_append _ _))
            rw [List.cons_append] at starts ⊢
            rw [replaceAll_cons starts, replaceAll_cons other, ih _ (by simp) rest rfl,
              List.cons_append]

/-- A text that a pattern can neither be in nor reach into. -/
structure Barrier (pattern text : List α) : Prop where
  first : ∃ item ∈ text.head?, item ∉ pattern
  last : ∃ item ∈ text.getLast?, item ∉ pattern
  absent : ¬pattern <:+: text

instance (pattern text : List α) : Decidable (Barrier pattern text) :=
  decidable_of_iff
    ((∃ item ∈ text.head?, item ∉ pattern) ∧ (∃ item ∈ text.getLast?, item ∉ pattern)
      ∧ ¬pattern <:+: text)
    ⟨fun ⟨first, last, absent⟩ => ⟨first, last, absent⟩,
      fun ⟨first, last, absent⟩ => ⟨first, last, absent⟩⟩

theorem replaceAll_barrier (filled : pattern ≠ []) {text : List α} (barrier : Barrier pattern text)
    (before after : List α)
    : replaceAll pattern replacement (before ++ text ++ after)
      = replaceAll pattern replacement before ++ text
        ++ replaceAll pattern replacement after := by
  obtain ⟨⟨first, starts, firstOutside⟩, ⟨last, ends, lastOutside⟩, absent⟩ := barrier
  obtain ⟨rest, rfl⟩ : ∃ rest, text = first :: rest := List.head?_eq_some_iff.mp starts
  rw [List.append_assoc, List.cons_append, replaceAll_divided filled firstOutside]
  rcases List.eq_nil_or_concat rest with rfl | ⟨middle, final, rfl⟩
  · simp
  · rw [List.concat_eq_append] at *
    obtain rfl : final = last := by simpa [List.getLast?_cons] using ends
    have silent : ¬pattern <:+: middle := fun inside =>
      absent (inside.trans ⟨[first], [final], by simp⟩)
    rw [List.append_assoc, List.singleton_append, replaceAll_divided filled lastOutside,
      replaceAll_absent silent]
    simp

-- Templates

/-- A text with places for values, each with the text behind it. -/
structure Template (α ι : Type) where
  head : List α
  tail : List (ι × List α)

variable {ι : Type}

def Template.fill (template : Template α ι) (value : ι → List α) : List α :=
  template.head ++ template.tail.flatMap (fun place => value place.1 ++ place.2)

/-- The texts of the template divide its places for a pattern. -/
structure Template.Divided (template : Template α ι) (pattern : List α) : Prop where
  head : Barrier pattern template.head
  tail : ∀ place ∈ template.tail, Barrier pattern place.2

instance (template : Template α ι) (pattern : List α) : Decidable (template.Divided pattern) :=
  decidable_of_iff
    (Barrier pattern template.head ∧ ∀ place ∈ template.tail, Barrier pattern place.2)
    ⟨fun ⟨head, tail⟩ => ⟨head, tail⟩, fun ⟨head, tail⟩ => ⟨head, tail⟩⟩

omit [DecidableEq α] in
/-- The lengths of filled templates compare as those of the values. -/
theorem Template.length_fill_lt (template : Template α ι) (less more first second : ι → List α)
    (covers
      : ∀ name, (more name).length + (first name).length
        ≤ (second name).length + (less name).length)
    {name : ι} (named : name ∈ template.tail.map Prod.fst)
    (strict
      : (more name).length + (first name).length < (second name).length + (less name).length)
    : (template.fill more).length + (template.fill first).length
      < (template.fill second).length + (template.fill less).length := by
  obtain ⟨head, tail⟩ := template
  have weak (tail : List (ι × List α))
      : (tail.flatMap (fun place => more place.1 ++ place.2)).length
          + (tail.flatMap (fun place => first place.1 ++ place.2)).length
        ≤ (tail.flatMap (fun place => second place.1 ++ place.2)).length
          + (tail.flatMap (fun place => less place.1 ++ place.2)).length := by
    induction tail with
    | nil => exact le_rfl
    | cons place rest ih =>
        have here := covers place.1
        simp only [List.flatMap_cons, List.length_append] at ih ⊢
        omega
  simp only [Template.fill, List.length_append]
  induction tail with
  | nil => cases named
  | cons place rest ih =>
      have here := covers place.1
      have tail := weak rest
      simp only [List.flatMap_cons, List.length_append]
      rcases List.mem_cons.mp named with rfl | later
      · omega
      · have further := ih later
        omega

theorem replaceAll_fill (filled : pattern ≠ []) {template : Template α ι}
    (divided : template.Divided pattern) (value : ι → List α)
    : replaceAll pattern replacement (template.fill value)
      = template.fill (fun name => replaceAll pattern replacement (value name)) := by
  obtain ⟨head, tail⟩ := template
  have places
      : replaceAll pattern replacement (tail.flatMap (fun place => value place.1 ++ place.2))
        = tail.flatMap
            (fun place => replaceAll pattern replacement (value place.1) ++ place.2) := by
    have barriers : ∀ place ∈ tail, Barrier pattern place.2 := divided.tail
    clear divided
    induction tail with
    | nil => rfl
    | cons place rest ih =>
        obtain ⟨name, text⟩ := place
        have barrier : Barrier pattern text := barriers (name, text) (by simp)
        simp only [List.flatMap_cons]
        rw [replaceAll_barrier filled barrier,
          ih (fun place inside => barriers place (List.mem_cons_of_mem _ inside))]
  have front
      : replaceAll pattern replacement
          ([] ++ head ++ tail.flatMap (fun place => value place.1 ++ place.2))
        = replaceAll pattern replacement [] ++ head
          ++ replaceAll pattern replacement
            (tail.flatMap (fun place => value place.1 ++ place.2)) :=
    replaceAll_barrier filled divided.head [] _
  rw [List.nil_append, replaceAll_nil, List.nil_append, places] at front
  exact front

-- One placeholder after the other

variable (placeholder value : ι → List α)

/-- Replaces the placeholders of some names by their values, one after the other. -/
def replaceInTurn (names : List ι) (text : List α) : List α :=
  names.foldl (fun text name => replaceAll (placeholder name) (value name) text) text

variable {placeholder value}

theorem replaceInTurn_absent {names : List ι} {text : List α}
    (absent : ∀ name ∈ names, ¬placeholder name <:+: text)
    : replaceInTurn placeholder value names text = text := by
  induction names with
  | nil => rfl
  | cons name rest ih =>
      rw [replaceInTurn, List.foldl_cons, replaceAll_absent (absent name (by simp))]
      exact ih (fun other inside => absent other (List.mem_cons_of_mem _ inside))

theorem replaceInTurn_append (first second : List ι) (text : List α)
    : replaceInTurn placeholder value (first ++ second) text
      = replaceInTurn placeholder value second
          (replaceInTurn placeholder value first text) :=
  List.foldl_append

/-- The names behind one. -/
def namesBehind [DecidableEq ι] (names : List ι) (name : ι) : List ι :=
  (names.dropWhile (· ≠ name)).tail

theorem split_at_name [DecidableEq ι] {names : List ι} {name : ι} (listed : name ∈ names)
    : ∃ before, names = before ++ name :: namesBehind names name ∧ name ∉ before := by
  induction names with
  | nil => cases listed
  | cons first rest ih =>
      by_cases same : first = name
      · exact ⟨[], by simp [namesBehind, same], by simp⟩
      · obtain ⟨before, whole, fresh⟩ := ih ((List.mem_cons.mp listed).resolve_left (Ne.symm same))
        have behind : namesBehind (first :: rest) name = namesBehind rest name := by
          simp [namesBehind, same]
        refine ⟨first :: before, ?_, by simp [Ne.symm same, fresh]⟩
        rw [behind, List.cons_append, ← whole]

theorem namesBehind_sublist [DecidableEq ι] (names : List ι) (name : ι)
    : (namesBehind names name).Sublist names :=
  (List.tail_sublist _).trans (List.dropWhile_suffix _).sublist

/-- The placeholders of a template, none of them part of another, in the order of replacement. -/
structure Placeholders (template : Template α ι) (placeholder : ι → List α) (names : List ι)
    : Prop where
  filled : ∀ name, placeholder name ≠ []
  apart : ∀ first second, placeholder first <:+: placeholder second → first = second
  divided : ∀ name, template.Divided (placeholder name)
  listed : ∀ name, name ∈ names
  distinct : names.Nodup

variable [DecidableEq ι] {template : Template α ι} {names : List ι}

/-- Each value is changed by the steps after its own. -/
theorem Placeholders.replaceInTurn_fill (holds : Placeholders template placeholder names)
    (value : ι → List α)
    : replaceInTurn placeholder value names (template.fill placeholder)
      = template.fill
          (fun name => replaceInTurn placeholder value (namesBehind names name) (value name)) := by
  have run (steps : List ι) (start : ι → List α)
      : replaceInTurn placeholder value steps (template.fill start)
        = template.fill (fun name => replaceInTurn placeholder value steps (start name)) := by
    induction steps generalizing start with
    | nil => rfl
    | cons step rest ih =>
        rw [replaceInTurn, List.foldl_cons,
          replaceAll_fill (holds.filled step) (holds.divided step)]
        exact ih _
  rw [run]
  refine congrArg template.fill (funext (fun name => ?_))
  obtain ⟨before, whole, fresh⟩ := split_at_name (holds.listed name)
  have silent : ∀ other ∈ before, ¬placeholder other <:+: placeholder name := by
    intro other inside part
    exact fresh (holds.apart other name part ▸ inside)
  conv_lhs => rw [whole]
  rw [replaceInTurn_append, replaceInTurn_absent silent, replaceInTurn, List.foldl_cons,
    replaceAll_self (holds.filled name)]
  rfl

/-- Values without later placeholders fill the template. -/
theorem Placeholders.fill_of_absent (holds : Placeholders template placeholder names)
    (absent : ∀ name, ∀ later ∈ namesBehind names name, ¬placeholder later <:+: value name)
    : replaceInTurn placeholder value names (template.fill placeholder) = template.fill value := by
  rw [holds.replaceInTurn_fill]
  exact congrArg template.fill (funext (fun name => replaceInTurn_absent (absent name)))

-----------------------------------------------------------------------------------------
-- Values that are brought along
-----------------------------------------------------------------------------------------

/-- The second text is the first with some of its marks doubled. -/
inductive Stretched (mark : α) : Nat → List α → List α → Prop where
  | same (text : List α) : Stretched mark 0 text text
  | more {count : Nat} {first second : List α} (before : List α)
      (rest : Stretched mark count first second)
      : Stretched mark (count + 1) (before ++ mark :: first) (before ++ mark :: mark :: second)

namespace Stretched

variable {mark : α} {count : Nat} {first second : List α}

omit [DecidableEq α] in
theorem length_eq (stretched : Stretched mark count first second)
    : second.length = first.length + count := by
  induction stretched with
  | same => rfl
  | more before rest ih =>
      simp only [List.length_append, List.length_cons]
      omega

omit [DecidableEq α] in
theorem prepend (stretched : Stretched mark count first second) (front : List α)
    : Stretched mark count (front ++ first) (front ++ second) := by
  cases stretched with
  | same => exact .same _
  | more before rest =>
      rw [← List.append_assoc, ← List.append_assoc]
      exact .more _ rest

/-- A step keeps the marks apart. -/
theorem replaceAll (stretched : Stretched mark count first second) (filled : pattern ≠ [])
    (outside : mark ∉ pattern)
    : Stretched mark count (replaceAll pattern replacement first)
        (replaceAll pattern replacement second) := by
  induction stretched with
  | same text => exact .same _
  | more before rest ih =>
      have doubled (text : List α)
          : Collections.replaceAll pattern replacement (mark :: text)
            = mark :: Collections.replaceAll pattern replacement text :=
        replaceAll_divided filled outside [] text
      rw [replaceAll_divided filled outside, replaceAll_divided filled outside, doubled]
      exact .more _ ih

/-- The step that puts the value in stretches the text once for each of its places. -/
theorem of_value (mark : α) (filled : pattern ≠ []) (before after text : List α)
    : ∃ count,
        Stretched mark count
            (Collections.replaceAll pattern (before ++ mark :: after) text)
            (Collections.replaceAll pattern (before ++ mark :: mark :: after) text)
        ∧ (pattern <:+: text → 0 < count) := by
  induction steps : text.length using Nat.strongRecOn generalizing text with
  | ind size ih =>
      subst steps
      cases text with
      | nil => exact ⟨0, .same _, fun inside => absurd (List.infix_nil.mp inside) filled⟩
      | cons item rest =>
          by_cases starts : pattern <+: item :: rest
          · have shorter := drop_length_lt filled item rest
            obtain ⟨count, stretched, -⟩ :=
              ih _ (by rw [List.length_cons]; omega) ((item :: rest).drop pattern.length) rfl
            refine ⟨count + 1, ?_, fun _ => Nat.succ_pos _⟩
            rw [ replaceAll_prefix filled starts, replaceAll_prefix filled starts]
            simpa using Stretched.more before (stretched.prepend after)
          · obtain ⟨count, stretched, some⟩ := ih _ (by simp) rest rfl
            refine ⟨count, ?_, fun inside => some ?_⟩
            · rw [replaceAll_cons starts, replaceAll_cons starts]
              exact stretched.prepend [item]
            · exact (List.infix_cons_iff.mp inside).resolve_left starts

end Stretched

omit [DecidableEq ι] in
/-- Steps with the same values keep a text stretched, by induction on the steps. -/
theorem Stretched.replaceInTurn {mark : α} {count : Nat} {first second : List α}
    (stretched : Stretched mark count first second) {value' : ι → List α} {steps : List ι}
    (same : ∀ step ∈ steps, value' step = value step)
    (filled : ∀ name, placeholder name ≠ []) (outside : ∀ name, mark ∉ placeholder name)
    : Stretched mark count (replaceInTurn placeholder value steps first)
        (replaceInTurn placeholder value' steps second) := by
  induction steps generalizing first second with
  | nil => exact stretched
  | cons step rest ih =>
      rw [Collections.replaceInTurn, Collections.replaceInTurn, List.foldl_cons, List.foldl_cons,
        same step (by simp)]
      exact ih (stretched.replaceAll (filled step) (outside step))
        (fun other inside => same other (List.mem_cons_of_mem _ inside))

/-- The steps stretch a text with one value, and do so if they come to its placeholder first. -/
theorem replaceInTurn_stretched {mark : α} {name : ι} {before after : List α}
    {value' : ι → List α} (filled : ∀ name, placeholder name ≠ [])
    (outside : ∀ name, mark ∉ placeholder name)
    (same : ∀ other, other ≠ name → value' other = value other)
    (own : value name = before ++ mark :: after)
    (own' : value' name = before ++ mark :: mark :: after)
    {steps : List ι} (distinct : steps.Nodup) (text : List α)
    : ∃ count,
        Stretched mark count (replaceInTurn placeholder value steps text)
            (replaceInTurn placeholder value' steps text)
        ∧ (steps.find? (fun step => placeholder step <:+: text) = some name → 0 < count) := by
  induction steps generalizing text with
  | nil => exact ⟨0, .same _, fun found => nomatch found⟩
  | cons step rest ih =>
      obtain ⟨fresh, distinct⟩ := List.nodup_cons.mp distinct
      by_cases here : step = name
      · subst here
        obtain ⟨count, stretched, some⟩ := Stretched.of_value mark (filled step) before after text
        refine ⟨count, ?_, fun found => some (by simpa using List.find?_some found)⟩
        rw [replaceInTurn, replaceInTurn, List.foldl_cons, List.foldl_cons, own, own']
        refine stretched.replaceInTurn (fun other inside => same other ?_) filled outside
        exact fun equal => fresh (equal ▸ inside)
      · obtain ⟨count, stretched, some⟩ :=
          ih distinct (replaceAll (placeholder step) (value step) text)
        refine ⟨count, ?_, fun found => some ?_⟩
        · rw [replaceInTurn, replaceInTurn, List.foldl_cons, List.foldl_cons, same step here]
          exact stretched
        · rw [List.find?_cons] at found
          split at found
          · exact absurd (Option.some.inj found) here
          · next absent => rwa [replaceAll_absent (by simpa using absent)]

/-- If two values of one name, the second longer by a mark, both fill the template, then no other
value comes to the placeholder of that name first: it would be stretched as well.
-/
theorem Placeholders.not_brought (holds : Placeholders template placeholder names)
    {mark : α} (outside : ∀ name, mark ∉ placeholder name) {name : ι} {before after : List α}
    {value' : ι → List α}
    (same : ∀ other, other ≠ name → value' other = value other)
    (own : value name = before ++ mark :: after)
    (own' : value' name = before ++ mark :: mark :: after)
    (plain : ∀ other, ¬placeholder other <:+: value name ∧ ¬placeholder other <:+: value' name)
    (fills
      : replaceInTurn placeholder value names (template.fill placeholder) = template.fill value)
    (fills'
      : replaceInTurn placeholder value' names (template.fill placeholder) = template.fill value')
    {other : ι} (different : other ≠ name) (placed : other ∈ template.tail.map Prod.fst)
    : (namesBehind names other).find? (fun step => placeholder step <:+: value other)
      ≠ some name := by
  intro found
  rw [holds.replaceInTurn_fill] at fills fills'
  have stretched (first : ι) (elsewhere : first ≠ name) :=
    replaceInTurn_stretched holds.filled outside same own own'
      (holds.distinct.sublist (namesBehind_sublist names first)) (value first)
  have longer : (value' name).length = (value name).length + 1 := by
    rw [own, own']
    simp only [List.length_append, List.length_cons]
    omega
  have strict := template.length_fill_lt value value'
    (fun name => replaceInTurn placeholder value (namesBehind names name) (value name))
    (fun name => replaceInTurn placeholder value' (namesBehind names name) (value' name))
    ?_ placed ?_
  · rw [fills, fills'] at strict
    omega
  · intro first
    by_cases elsewhere : first = name
    · subst elsewhere
      rw [replaceInTurn_absent (fun other _ => (plain other).1),
        replaceInTurn_absent (fun other _ => (plain other).2)]
    · obtain ⟨count, stretch, -⟩ := stretched first elsewhere
      have lengths := stretch.length_eq
      rw [same first elsewhere]
      omega
  · obtain ⟨count, stretch, some⟩ := stretched other different
    have lengths := stretch.length_eq
    have positive := some found
    rw [same other different]
    omega

end Replacing

end CodebaseGraph.Collections
