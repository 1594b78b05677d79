import Mathlib.Algebra.Ring.Nat

/-!
# Machine words

The widths of `usize` and its checked and wrapping operations. Values are
natural numbers; the operations say what happens at the end of the range.
-/

namespace Foundation.Machine

/-- The widths of `usize` on 32-bit and 64-bit targets. -/
inductive PointerWidth
  | bits32
  | bits64
  deriving DecidableEq, Repr

namespace PointerWidth

def usizeMax : PointerWidth → Nat
  | bits32 => 2 ^ 32 - 1
  | bits64 => 2 ^ 64 - 1

def checkedMul (width : PointerWidth) (left right : Nat) : Option Nat :=
  if left * right ≤ width.usizeMax then some (left * right) else none

def checkedAdd (width : PointerWidth) (left right : Nat) : Option Nat :=
  if left + right ≤ width.usizeMax then some (left + right) else none

/-- Addition that stays at the end of the range. -/
def saturatingAdd (width : PointerWidth) (left right : Nat) : Nat :=
  min (left + right) width.usizeMax

/-- Multiplication that stays at the end of the range. -/
def saturatingMul (width : PointerWidth) (left right : Nat) : Nat :=
  min (left * right) width.usizeMax

/-- Addition that wraps around at the end of the range. -/
def wrappingAdd (width : PointerWidth) (left right : Nat) : Nat :=
  (left + right) % (width.usizeMax + 1)

theorem saturatingAdd_of_le (width : PointerWidth) {left right : Nat}
    (hsum : left + right ≤ width.usizeMax) : width.saturatingAdd left right = left + right :=
  Nat.min_eq_left hsum

theorem saturatingMul_of_le (width : PointerWidth) {left right : Nat}
    (hproduct : left * right ≤ width.usizeMax) : width.saturatingMul left right = left * right :=
  Nat.min_eq_left hproduct

/-- Thirty-two bits always fit. -/
theorem le_usizeMax (width : PointerWidth) {value : Nat} (hvalue : value < 2 ^ 32) :
    value ≤ width.usizeMax := by
  cases width <;> simp only [usizeMax] <;> omega

end PointerWidth

end Foundation.Machine
