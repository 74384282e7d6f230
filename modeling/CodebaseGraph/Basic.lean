import Mathlib.Data.Nat.Notation
import Mathlib.Algebra.Ring.Nat

/-! Unsigned 64-bit arithmetic on natural numbers: the saturating and the checked operations. -/

namespace CodebaseGraph

def u64Max : Nat := 2 ^ 64 - 1

def saturatingAdd (left right : Nat) : Nat := min (left + right) u64Max

def saturatingMul (left right : Nat) : Nat := min (left * right) u64Max

def checkedAdd (left right : Nat) : Option Nat :=
  if left + right ≤ u64Max then some (left + right) else none

theorem checkedAdd_eq_some {left right sum : Nat}
    : checkedAdd left right = some sum ↔ left + right ≤ u64Max ∧ left + right = sum := by
  rw [checkedAdd, Option.ite_none_right_eq_some, Option.some.injEq]

/-! The error type of the native core (`src/error.rs`).
Wrapped library errors are kept as the text they display.
-/

inductive NativeError where
  | io (message : String)
  | json (message : String)
  | database (message : String)
  | invalidInput (message : String)
  | sourceChanged (path : String)
  | unsupported (message : String)
deriving DecidableEq, Repr

/-- The displayed text; a changed source displays as a small JSON object. -/
def NativeError.display : NativeError → String
  | .io message | .json message | .database message | .invalidInput message
  | .unsupported message => message
  | .sourceChanged path =>
      "\x7b\"error\":\"source_changed\",\"path\":" ++ path.quote ++ "\x7d"

end CodebaseGraph
