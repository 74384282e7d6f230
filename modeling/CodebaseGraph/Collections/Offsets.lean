import Mathlib.Algebra.BigOperators.Group.List.Basic
import Mathlib.Data.List.Basic
import Mathlib.Data.List.Infix
import Mathlib.Order.Bounds.Basic
import Mathlib.Algebra.Ring.Nat

/-! Ranges of places that are cut where the next one begins. -/

namespace CodebaseGraph.Collections

/-- The ranges that begin at the starts, each ending before the next and the last at the end. -/
def cuts (last : Nat) : List Nat → List (Nat × Nat)
  | [] => []
  | start :: rest =>
      (start, match rest.head? with | some next => next - 1 | none => last) :: cuts last rest

theorem cuts_map_fst (last : Nat) (starts : List Nat)
    : (cuts last starts).map Prod.fst = starts := by
  induction starts with
  | nil => rfl
  | cons start rest ih => rw [cuts, List.map_cons, ih]

/-- The ends can be read off the whole list of starts by their places. -/
theorem map_zipIdx_eq_cuts {β : Type*} (start : β → Nat) (last : Nat) (before rest : List β)
    : (rest.zipIdx before.length).map
        (fun entry =>
          (
            start entry.1,
            match (before ++ rest)[entry.2 + 1]? with
            | some next => start next - 1
            | none => last
          ))
      = cuts last (rest.map start) := by
  induction rest generalizing before with
  | nil => rfl
  | cons item rest ih =>
      have later := ih (before ++ [item])
      rw [List.length_append, List.length_singleton, List.append_assoc, List.singleton_append]
        at later
      rw [List.zipIdx_cons, List.map_cons, later, List.map_cons, cuts]
      have next : (before ++ item :: rest)[before.length + 1]? = rest.head? := by
        rw [List.getElem?_append_right (by omega), List.head?_eq_getElem?]
        simp
      simp only [next, List.head?_map]
      cases rest.head? <;> rfl

variable {last : Nat} {starts : List Nat}

theorem cuts_bounded (sorted : starts.Pairwise (· < ·)) (bounded : ∀ start ∈ starts, start ≤ last)
    : ∀ cut ∈ cuts last starts, cut.1 ∈ starts ∧ cut.1 ≤ cut.2 ∧ cut.2 ≤ last := by
  induction starts with
  | nil => nofun
  | cons start rest ih =>
      obtain ⟨before, sorted⟩ := List.pairwise_cons.mp sorted
      rintro cut (_ | ⟨_, inside⟩)
      · refine ⟨List.mem_cons_self, ?_⟩
        cases next : rest.head? with
        | none => exact ⟨bounded start List.mem_cons_self, Nat.le_refl _⟩
        | some next' =>
            have listed : next' ∈ rest := List.mem_of_mem_head? next
            have later := before next' listed
            have upto := bounded next' (List.mem_cons_of_mem _ listed)
            exact ⟨Nat.le_sub_one_of_lt later, Nat.le_trans (Nat.sub_le next' 1) upto⟩
      · obtain ⟨listed, rest⟩ :=
          ih sorted (fun other member => bounded other (List.mem_cons_of_mem _ member)) cut inside
        exact ⟨List.mem_cons_of_mem _ listed, rest⟩

/-- Each range ends before the later ones begin. -/
theorem cuts_pairwise (sorted : starts.Pairwise (· < ·))
    : (cuts last starts).Pairwise (fun first second => first.2 < second.1) := by
  induction starts with
  | nil => exact List.Pairwise.nil
  | cons start rest ih =>
      obtain ⟨before, sorted⟩ := List.pairwise_cons.mp sorted
      refine List.pairwise_cons.mpr ⟨?_, ih sorted⟩
      intro cut inside
      have listed : cut.1 ∈ rest := by
        rw [← cuts_map_fst last rest]
        exact List.mem_map_of_mem inside
      cases rest with
      | nil => cases listed
      | cons next others =>
          have first : next ≤ cut.1 := by
            rcases List.mem_cons.mp listed with same | later
            · exact Nat.le_of_eq same.symm
            · exact Nat.le_of_lt ((List.pairwise_cons.mp sorted).1 _ later)
          have positive := before next List.mem_cons_self
          exact Nat.lt_of_lt_of_le (Nat.sub_one_lt_of_lt positive) first

/-- From the first start on, every place lies in a range. -/
theorem cuts_cover {start place : Nat} (first : starts.head? = some start) (reached : start ≤ place)
    (inside : place ≤ last)
    : ∃ cut ∈ cuts last starts, cut.1 ≤ place ∧ place ≤ cut.2 := by
  induction starts generalizing start with
  | nil => cases first
  | cons other rest ih =>
      obtain rfl := Option.some.inj first
      cases next : rest.head? with
      | none => exact ⟨_, List.mem_cons_self, reached, by simpa only [next] using inside⟩
      | some next' =>
          by_cases beyond : next' ≤ place
          · obtain ⟨cut, listed, covered⟩ := ih next beyond
            exact ⟨cut, List.mem_cons_of_mem _ listed, covered⟩
          · exact ⟨_, List.mem_cons_self, reached, by simp only [next]; omega⟩

end CodebaseGraph.Collections

/-! Lists whose items take up room, such as the characters of a text in bytes.
An offset counts room from the front; only some of the offsets lie between two items.
-/

namespace CodebaseGraph.Collections

variable {α : Type} (size : α → Nat)

-- Offsets

/-- The room that a list takes up. -/
def extent (list : List α) : Nat := (list.map size).sum

/-- The number of items before an offset that lies between items. -/
def indexAt : List α → Nat → Option Nat
  | _, 0 => some 0
  | [], _ + 1 => none
  | item :: rest, offset + 1 =>
      if size item ≤ offset + 1 then (indexAt rest (offset + 1 - size item)).map (· + 1) else none

def isBoundary (list : List α) (offset : Nat) : Bool := (indexAt size list offset).isSome

/-- The items between two offsets, when both lie between items and are in order. -/
def sliceAt (list : List α) (start stop : Nat) : Option (List α) :=
  match indexAt size list start, indexAt size list stop with
  | some first, some last => if start ≤ stop then some ((list.take last).drop first) else none
  | _, _ => none

/-- The last boundary that is not behind the offset. -/
def floorBoundary (list : List α) : Nat → Nat
  | 0 => 0
  | offset + 1 =>
      if isBoundary size list (offset + 1) then offset + 1 else floorBoundary list offset

/-- The first boundary that is not before the offset, sought over `room` further offsets. -/
def ceilBoundary (list : List α) : Nat → Nat → Nat
  | 0, offset => offset
  | room + 1, offset =>
      if isBoundary size list offset then offset else ceilBoundary list room (offset + 1)

/-- The shortest front of the list that takes up the room, or the whole list. -/
def roomyFront : Nat → List α → List α
  | 0, _ => []
  | _ + 1, [] => []
  | room + 1, item :: rest => item :: roomyFront (room + 1 - size item) rest

/-- The shortest end of the list that takes up the room, or the whole list. -/
def roomyBack (room : Nat) (list : List α) : List α :=
  (roomyFront size room list.reverse).reverse

-- Extents

variable {size} {list before after : List α}

@[simp] theorem extent_nil : extent size ([] : List α) = 0 := rfl

@[simp] theorem extent_cons (item : α) (rest : List α)
    : extent size (item :: rest) = size item + extent size rest := rfl

@[simp] theorem extent_append (first second : List α)
    : extent size (first ++ second) = extent size first + extent size second := by
  simp [extent]

@[simp] theorem extent_reverse (list : List α) : extent size list.reverse = extent size list := by
  simp [extent, List.sum_reverse]

theorem extent_le_of_isPrefix (inside : before <+: list) : extent size before ≤ extent size list := by
  obtain ⟨after, rfl⟩ := inside
  rw [extent_append]
  exact Nat.le_add_right _ _

section Positive

variable (positive : ∀ item, 0 < size item)

include positive

theorem extent_lt_of_isPrefix (inside : before <+: list) (shorter : before.length < list.length)
    : extent size before < extent size list := by
  obtain ⟨after, rfl⟩ := inside
  cases after with
  | nil => simp at shorter
  | cons item rest =>
      have := positive item
      rw [extent_append, extent_cons]
      omega

/-- Offsets between items are the extents of what stands before them. -/
theorem indexAt_extent (before after : List α)
    : indexAt size (before ++ after) (extent size before) = some before.length := by
  induction before with
  | nil => cases after <;> simp [indexAt]
  | cons item rest ih =>
      have some_room : ∃ offset, size item + extent size rest = offset + 1 :=
        ⟨size item + extent size rest - 1, by have := positive item; omega⟩
      obtain ⟨offset, whole⟩ := some_room
      have left : offset + 1 - size item = extent size rest := by omega
      rw [List.cons_append, extent_cons, whole, indexAt, if_pos (by omega), left, ih]
      rfl

theorem isBoundary_iff {offset : Nat}
    : isBoundary size list offset = true ↔ ∃ front, front <+: list ∧ extent size front = offset := by
  constructor
  · intro found
    induction list generalizing offset with
    | nil =>
        cases offset with
        | zero => exact ⟨[], List.nil_prefix, rfl⟩
        | succ offset => cases found
    | cons item rest ih =>
        cases offset with
        | zero => exact ⟨[], List.nil_prefix, rfl⟩
        | succ offset =>
            rw [isBoundary, indexAt] at found
            split at found
            case isTrue enough =>
                rw [Option.isSome_map] at found
                obtain ⟨front, inside, same⟩ := ih found
                refine ⟨item :: front, List.cons_prefix_cons.mpr ⟨rfl, inside⟩, ?_⟩
                rw [extent_cons, same]
                omega
            case isFalse => cases found
  · rintro ⟨front, ⟨after, rfl⟩, rfl⟩
    rw [isBoundary, indexAt_extent positive]
    rfl

/-- A slice between the extents of two fronts. -/
theorem sliceAt_extent (before middle after : List α)
    : sliceAt size (before ++ middle ++ after) (extent size before)
          (extent size before + extent size middle)
      = some middle := by
  have first := indexAt_extent positive before (middle ++ after)
  have last := indexAt_extent positive (before ++ middle) after
  rw [← List.append_assoc] at first
  rw [extent_append] at last
  rw [sliceAt, first, last]
  simp [-List.append_assoc]

-- The nearest boundaries

theorem floorBoundary_isGreatest (list : List α) (offset : Nat)
    : IsGreatest {place | isBoundary size list place = true ∧ place ≤ offset}
        (floorBoundary size list offset) := by
  induction offset with
  | zero =>
      refine ⟨⟨?_, le_refl _⟩, fun place inside => inside.2⟩
      exact (isBoundary_iff positive).mpr ⟨[], List.nil_prefix, rfl⟩
  | succ offset ih =>
      rw [floorBoundary]
      split
      case isTrue reached => exact ⟨⟨reached, le_refl _⟩, fun place inside => inside.2⟩
      case isFalse missed =>
          refine ⟨⟨ih.1.1, ih.1.2.trans (Nat.le_succ _)⟩, fun place inside => ih.2 ?_⟩
          refine ⟨inside.1, ?_⟩
          have other : place ≠ offset + 1 := fun same => missed (same ▸ inside.1)
          have := inside.2
          omega

theorem ceilBoundary_isLeast (list : List α) {room offset : Nat}
    (reaches : offset + room = extent size list)
    : IsLeast {place | isBoundary size list place = true ∧ offset ≤ place}
        (ceilBoundary size list room offset) := by
  induction room generalizing offset with
  | zero =>
      refine ⟨⟨?_, le_refl _⟩, fun place inside => inside.2⟩
      exact (isBoundary_iff positive).mpr ⟨list, List.prefix_refl _, reaches.symm⟩
  | succ room ih =>
      rw [ceilBoundary]
      split
      case isTrue reached => exact ⟨⟨reached, le_refl _⟩, fun place inside => inside.2⟩
      case isFalse missed =>
          have least := ih (show offset + 1 + room = extent size list by omega)
          refine ⟨⟨least.1.1, (Nat.le_succ _).trans least.1.2⟩, fun place inside => least.2 ?_⟩
          refine ⟨inside.1, ?_⟩
          have other : place ≠ offset := fun same => missed (same ▸ inside.1)
          have := inside.2
          omega

-----------------------------------------------------------------------------------------
-- Room around an offset
-----------------------------------------------------------------------------------------

omit positive in
theorem roomyFront_isPrefix (size : α → Nat) (room : Nat) (list : List α)
    : roomyFront size room list <+: list := by
  induction list generalizing room with
  | nil => cases room <;> exact List.nil_prefix
  | cons item rest ih =>
      cases room with
      | zero => exact List.nil_prefix
      | succ room => exact List.cons_prefix_cons.mpr ⟨rfl, ih _⟩

omit positive in
/-- The front takes up the room unless it is the whole list. -/
theorem roomyFront_enough (size : α → Nat) (room : Nat) (list : List α)
    : room ≤ extent size (roomyFront size room list) ∨ roomyFront size room list = list := by
  induction list generalizing room with
  | nil => cases room <;> exact .inr rfl
  | cons item rest ih =>
      cases room with
      | zero => exact .inl (Nat.zero_le _)
      | succ room =>
          rw [roomyFront, extent_cons]
          rcases ih (room + 1 - size item) with enough | whole
          · exact .inl (by omega)
          · exact .inr (by rw [whole])

omit positive in
/-- No shorter front takes up the room. -/
theorem roomyFront_short {room : Nat} {front : List α} (inside : front <+: roomyFront size room list)
    (shorter : front.length < (roomyFront size room list).length)
    : extent size front < room := by
  induction list generalizing room front with
  | nil => cases room <;> simp [roomyFront] at shorter
  | cons item rest ih =>
      cases room with
      | zero => simp [roomyFront] at shorter
      | succ room =>
          cases front with
          | nil => exact Nat.succ_pos _
          | cons first front =>
              rw [roomyFront] at inside shorter
              obtain ⟨rfl, within⟩ := List.cons_prefix_cons.mp inside
              have short := ih within (by simpa using shorter)
              rw [extent_cons]
              omega

/-- The first boundary with the room behind a place is the end of the roomy front. -/
theorem ceilBoundary_roomyFront (before after : List α) (room : Nat)
    : ceilBoundary size (before ++ after)
          (extent size (before ++ after)
            - min (extent size (before ++ after)) (extent size before + room))
          (min (extent size (before ++ after)) (extent size before + room))
      = extent size before + extent size (roomyFront size room after) := by
  have least := ceilBoundary_isLeast positive (before ++ after)
    (Nat.add_sub_cancel' (min_le_left (extent size (before ++ after)) (extent size before + room)))
  refine least.unique ⟨⟨?_, ?_⟩, ?_⟩
  · refine (isBoundary_iff positive).mpr ⟨before ++ roomyFront size room after, ?_, extent_append _ _⟩
    exact (List.prefix_append_right_inj before).mpr (roomyFront_isPrefix size room after)
  · rcases roomyFront_enough size room after with enough | whole
    · exact (min_le_right _ _).trans (Nat.add_le_add_left enough _)
    · rw [whole, ← extent_append]
      exact min_le_left _ _
  · rintro place ⟨boundary, behind⟩
    obtain ⟨front, inside, rfl⟩ := (isBoundary_iff positive).mp boundary
    have roomy : before ++ roomyFront size room after <+: before ++ after :=
      (List.prefix_append_right_inj before).mpr (roomyFront_isPrefix size room after)
    rw [← extent_append]
    by_cases enough : (before ++ roomyFront size room after).length ≤ front.length
    · exact extent_le_of_isPrefix (List.prefix_of_prefix_length_le roomy inside enough)
    · exfalso
      have within := List.prefix_of_prefix_length_le inside roomy (by omega)
      have total := extent_lt_of_isPrefix positive within (by omega)
      have whole : _ ≤ extent size (before ++ after) := extent_le_of_isPrefix roomy
      have far : extent size before + room ≤ extent size front := by omega
      have covered : before.length ≤ front.length := by
        by_contra under
        have inner := List.prefix_of_prefix_length_le inside (List.prefix_append before after)
          (by omega)
        have := extent_lt_of_isPrefix positive inner (by omega)
        omega
      obtain ⟨rest, rfl⟩ :=
        List.prefix_of_prefix_length_le (List.prefix_append before after) inside covered
      have short := roomyFront_short ((List.prefix_append_right_inj before).mp within)
        (by simp only [List.length_append] at enough; omega)
      rw [extent_append] at far
      omega

omit positive in
theorem roomyBack_suffix (size : α → Nat) (room : Nat) (list : List α)
    : roomyBack size room list <:+ list := by
  have inside := roomyFront_isPrefix size room list.reverse
  simpa [roomyBack] using List.reverse_suffix.mpr inside

/-- The last boundary with the room before a place is the start of the roomy back. -/
theorem floorBoundary_roomyBack (before after : List α) (room : Nat)
    : floorBoundary size (before ++ after) (extent size before - room)
      = extent size before - extent size (roomyBack size room before) := by
  have greatest := floorBoundary_isGreatest positive (before ++ after) (extent size before - room)
  refine greatest.unique ?_
  obtain ⟨front, whole⟩ := roomyBack_suffix size room before
  have total : extent size before = extent size front + extent size (roomyBack size room before) := by
    rw [← extent_append, whole]
  have left : extent size before - extent size (roomyBack size room before) = extent size front := by
    omega
  have inner : front <+: before ++ after := by
    rw [← whole, List.append_assoc]
    exact List.prefix_append _ _
  rw [left]
  refine ⟨⟨(isBoundary_iff positive).mpr ⟨front, inner, rfl⟩, ?_⟩, ?_⟩
  · rcases roomyFront_enough size room before.reverse with enough | all
    · have : room ≤ extent size (roomyBack size room before) := by
        rwa [roomyBack, extent_reverse]
      omega
    · have : extent size (roomyBack size room before) = extent size before := by
        rw [roomyBack, all, List.reverse_reverse]
      omega
  · rintro place ⟨boundary, before_room⟩
    obtain ⟨other, inside, rfl⟩ := (isBoundary_iff positive).mp boundary
    by_cases within : other.length ≤ before.length
    · obtain ⟨rest, split⟩ :=
        List.prefix_of_prefix_length_le inside (List.prefix_append before after) within
      have parts : extent size before = extent size other + extent size rest := by
        rw [← split, extent_append]
      by_cases shorter : other.length ≤ front.length
      · exact extent_le_of_isPrefix (List.prefix_of_prefix_length_le inside inner shorter)
      · have lengths := congrArg List.length whole
        have lengths' := congrArg List.length split
        rw [List.length_append, roomyBack, List.length_reverse] at lengths
        rw [List.length_append] at lengths'
        have ending : rest.reverse <+: before.reverse :=
          List.reverse_prefix.mpr ⟨other, split⟩
        have short : extent size rest.reverse < room :=
          roomyFront_short
            (List.prefix_of_prefix_length_le ending (roomyFront_isPrefix size room before.reverse)
              (by rw [List.length_reverse]; omega))
            (by rw [List.length_reverse]; omega)
        rw [extent_reverse] at short
        omega
    · have covered : extent size before ≤ extent size other :=
        extent_le_of_isPrefix
          (List.prefix_of_prefix_length_le (List.prefix_append before after) inside (by omega))
      cases room with
      | zero =>
          have none : extent size (roomyBack size 0 before) = 0 := by simp [roomyBack, roomyFront]
          omega
      | succ room => omega

end Positive

end CodebaseGraph.Collections
