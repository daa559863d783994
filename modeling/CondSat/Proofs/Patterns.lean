import CondSat.Solver.Value
import Mathlib.Algebra.Ring.Nat

/-! # Patterns of floating-point values

Only the low bits of a pattern count, and every NaN becomes the same value.  So
the value of a pattern does not change when the pattern goes through a word. -/
set_option autoImplicit false
namespace CondSat

namespace Ieee.Format

variable {f : Format}

/-- The two formats values are stored in. -/
def Stored (f : Format) : Prop := f = .single ∨ f = .double

theorem isNaN_quietNaN (stored : f.Stored) : f.isNaN f.quietNaN = true := by
  rcases stored with rfl | rfl <;> decide

theorem quietNaN_lt (stored : f.Stored) : f.quietNaN < 2 ^ f.width := by
  rcases stored with rfl | rfl <;> decide

theorem magnitude_mod (f : Format) (pattern : Nat) :
    f.magnitude (pattern % 2 ^ f.width) = f.magnitude pattern :=
  Nat.mod_mod_of_dvd pattern (Nat.pow_dvd_pow 2 (Nat.sub_le f.width 1))

theorem isNaN_mod (f : Format) (pattern : Nat) :
    f.isNaN (pattern % 2 ^ f.width) = f.isNaN pattern := by
  rw [isNaN, isNaN, magnitude_mod]

theorem canonical_of_isNaN {pattern : Nat} (nan : f.isNaN pattern = true) :
    f.canonical pattern = f.quietNaN := by
  rw [canonical, nan, if_pos rfl]

theorem canonical_of_not_isNaN {pattern : Nat} (number : f.isNaN pattern = false) :
    f.canonical pattern = pattern := by
  rw [canonical, number]
  rfl

end Ieee.Format

namespace Solver.Value

open Ieee (Format)

theorem ofPattern_canonical {format : Format} (stored : format.Stored) (pattern : Nat) :
    ofPattern format (BitVec.ofNat format.width (format.canonical pattern)).toNat =
      ofPattern format pattern := by
  rw [BitVec.toNat_ofNat, ofPattern, ofPattern]
  cases nan : format.isNaN pattern with
  | true =>
      rw [Format.canonical_of_isNaN nan, Nat.mod_eq_of_lt (Format.quietNaN_lt stored),
        Format.canonical_of_isNaN (Format.isNaN_quietNaN stored)]
  | false =>
      have low : format.isNaN (pattern % 2 ^ format.width) = false := by
        rw [Format.isNaN_mod, nan]
      rw [Format.canonical_of_not_isNaN nan, Format.canonical_of_not_isNaN low]
      congr 1
      apply BitVec.eq_of_toNat_eq
      simp

end Solver.Value

end CondSat
