import Mathlib.Data.List.Nodup
import Mathlib.Data.UInt

/-! A digest that is known on a table of texts. Other texts are spelled out after a mark that
no digest of the table starts with, so different texts have different digests.
-/

namespace CodebaseGraph.Hashing

/-- The text itself behind the mark. -/
def spelledOut (bytes : List UInt8) : String :=
  String.ofList ('!' :: bytes.map (fun byte => Char.ofNat byte.toNat))

def tableDigest (table : List (List UInt8 × String)) (bytes : List UInt8) : String :=
  match table.find? (fun entry => entry.1 = bytes) with
  | some entry => entry.2
  | none => spelledOut bytes

theorem spelledOut_injective : Function.Injective spelledOut := by
  intro first second same
  have letter : Function.Injective (fun byte : UInt8 => Char.ofNat byte.toNat) := by
    intro left right equal
    have codes := congrArg Char.toNat equal
    have small (byte : UInt8) : (Char.ofNat byte.toNat).toNat = byte.toNat := by
      have bound := byte.toNat_lt
      rw [Char.ofNat, dif_pos (Or.inl (by omega))]
      rfl
    rw [small, small] at codes
    exact UInt8.toNat_inj.mp codes
  exact List.map_injective_iff.mpr letter (List.cons.inj (String.ofList_injective same)).2

theorem tableDigest_injective (table : List (List UInt8 × String))
    (distinct : (table.map Prod.snd).Nodup)
    (unmarked : ∀ entry ∈ table, entry.2.toList.head? ≠ some '!')
    : Function.Injective (tableDigest table) := by
  have marked (bytes : List UInt8) (entry : List UInt8 × String) (inside : entry ∈ table)
      : entry.2 ≠ spelledOut bytes := by
    intro same
    exact unmarked entry inside (by simp [same, spelledOut])
  have listed {bytes : List UInt8} {entry : List UInt8 × String}
      (found : table.find? (fun entry => entry.1 = bytes) = some entry)
      : entry ∈ table ∧ entry.1 = bytes :=
    ⟨List.mem_of_find?_eq_some found, by simpa using List.find?_some found⟩
  intro first second same
  unfold tableDigest at same
  cases left : table.find? (fun entry => entry.1 = first) with
  | some entry =>
      obtain ⟨inside, rfl⟩ := listed left
      cases right : table.find? (fun entry => entry.1 = second) with
      | some other =>
          obtain ⟨inside', rfl⟩ := listed right
          simp only [left, right] at same
          exact congrArg Prod.fst (List.inj_on_of_nodup_map distinct inside inside' same)
      | none =>
          simp only [left, right] at same
          exact absurd same (marked _ _ inside)
  | none =>
      cases right : table.find? (fun entry => entry.1 = second) with
      | some other =>
          obtain ⟨inside', rfl⟩ := listed right
          simp only [left, right] at same
          exact absurd same.symm (marked _ _ inside')
      | none =>
          simp only [left, right] at same
          exact spelledOut_injective same

end CodebaseGraph.Hashing
