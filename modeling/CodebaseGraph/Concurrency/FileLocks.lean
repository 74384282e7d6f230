import CodebaseGraph.Collections.Lists

/-! Shared and exclusive locks among parties. What a party holds is read off where it stands;
a lock is granted when what the others hold is compatible, and is gone when its holder is.
-/

namespace CodebaseGraph.Concurrency

open CodebaseGraph.Collections

inductive LockMode where
  | shared
  | exclusive
deriving DecidableEq, Repr

/-- Two holders of one lock at a time. -/
def LockMode.compatible : LockMode → LockMode → Bool
  | .shared, .shared => true
  | _, _ => false

theorem LockMode.compatible_comm (first second : LockMode)
    : first.compatible second = second.compatible first := by
  cases first <;> cases second <;> rfl

variable {Party Lock : Type} (holds : Party → Lock → Option LockMode)

/-- Whether what the other parties hold lets the party at an index take a lock. -/
def admits (parties : List Party) (index : Nat) (lock : Lock) (mode : LockMode) : Bool :=
  (parties.eraseIdx index).all
    (fun party => (holds party lock).all (fun held => held.compatible mode))

/-- No two parties hold one lock in modes that exclude each other. -/
structure LocksHeld (parties : List Party) : Prop where
  compatible
    : ∀ {index other : Nat} {party party' : Party} {lock : Lock} {mode mode' : LockMode},
        parties[index]? = some party
        → parties[other]? = some party'
        → index ≠ other
        → holds party lock = some mode
        → holds party' lock = some mode'
        → mode.compatible mode' = true

variable {holds}

theorem admits_compatible {parties : List Party} {index other : Nat} {party : Party} {lock : Lock}
    {mode held : LockMode} (admitted : admits holds parties index lock mode = true)
    (there : parties[other]? = some party) (different : other ≠ index)
    (holding : holds party lock = some held)
    : held.compatible mode = true := by
  have inside : party ∈ parties.eraseIdx index :=
    List.mem_eraseIdx_iff_getElem?.mpr ⟨other, different, there⟩
  have all := List.all_eq_true.mp admitted party inside
  simpa [holding] using all

theorem locksHeld_nil : LocksHeld holds ([] : List Party) where
  compatible there := by simp at there

/-- A party that comes without locks excludes nobody. -/
theorem LocksHeld.append {parties : List Party} (held : LocksHeld holds parties) {party : Party}
    (free : ∀ lock, holds party lock = none)
    : LocksHeld holds (parties ++ [party]) where
  compatible there there' different holding holding' := by
    -- whoever holds a lock was there before
    have old {other : Nat} {found : Party} {lock : Lock} {mode : LockMode}
        (there : (parties ++ [party])[other]? = some found) (holding : holds found lock = some mode)
        : parties[other]? = some found := by
      rcases getElem?_concat_cases there with before | ⟨_, rfl⟩
      · exact before
      · rw [free lock] at holding
        cases holding
    exact held.compatible (old there holding) (old there' holding') different holding holding'

/-- A party that keeps, releases or is granted locks. -/
theorem LocksHeld.set {parties : List Party} (held : LocksHeld holds parties) {index : Nat}
    {party changed : Party} (found : parties[index]? = some party)
    (granted
      : ∀ lock mode,
          holds changed lock = some mode
          → holds party lock = some mode ∨ admits holds parties index lock mode = true)
    : LocksHeld holds (parties.set index changed) where
  compatible there there' different holding holding' := by
    -- what the changed party holds is compatible with what any other one holds
    have fits {other : Nat} {second : Party} {lock : Lock} {mode mode' : LockMode}
        (there : parties[other]? = some second) (away : other ≠ index)
        (holding : holds changed lock = some mode) (holding' : holds second lock = some mode')
        : mode.compatible mode' = true := by
      rcases granted lock mode holding with kept | admitted
      · exact held.compatible found there (Ne.symm away) kept holding'
      · rw [LockMode.compatible_comm]
        exact admits_compatible admitted there away holding'
    rcases getElem?_set_cases there with ⟨rfl, rfl⟩ | ⟨away, old⟩
    · rcases getElem?_set_cases there' with ⟨rfl, rfl⟩ | ⟨away', old'⟩
      · exact absurd rfl different
      · exact fits old' away' holding holding'
    · rcases getElem?_set_cases there' with ⟨rfl, rfl⟩ | ⟨away', old'⟩
      · rw [LockMode.compatible_comm]
        exact fits old away holding' holding
      · exact held.compatible old old' different holding holding'

/-- Who holds a lock exclusively holds it alone. -/
theorem LocksHeld.alone {parties : List Party} (held : LocksHeld holds parties)
    {index other : Nat} {party party' : Party} {lock : Lock} {mode : LockMode}
    (there : parties[index]? = some party) (there' : parties[other]? = some party')
    (holding : holds party lock = some .exclusive) (holding' : holds party' lock = some mode)
    : index = other := by
  by_contra different
  have both := held.compatible there there' different holding holding'
  cases mode <;> cases both

end CodebaseGraph.Concurrency
