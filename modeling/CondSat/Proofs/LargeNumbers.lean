import CondSat.Proofs.Midpoints
import CondSat.Proofs.StaticSort

/-! # Numbers that are too large

A whole number may stand where a floating-point number is wanted.  It is rounded to 64
bits, and from `doubleLimit` on, halfway between the largest finite number and the next
power of two, there is nothing finite to round it to.  Such a constant is not encoded. -/
set_option autoImplicit false
namespace CondSat

/-! ## Whole numbers of 64 bits -/

namespace Ieee

namespace Format

theorem isInfinite_withSign (negative : Bool) {m : Nat} (bounded : m ≤ double.infinity) :
    double.isInfinite (double.withSign negative m) = true ↔ m = double.infinity := by
  rw [isInfinite, magnitude_withSign (bounded.trans_lt (Stored.infinity_lt (.inr rfl))),
    beq_iff_eq]

/-- The least whole number that is rounded to an infinity of 64 bits. -/
def doubleLimit : Nat := (2 ^ 54 - 1) * 2 ^ 970

theorem doubleLimit_pos : 0 < doubleLimit := by
  unfold doubleLimit
  positivity

theorem cast_doubleLimit : (doubleLimit : ℚ) = (2 ^ 54 - 1) * 2 ^ (970 : Int) := by
  rw [doubleLimit, Nat.cast_mul, Nat.cast_pow, Nat.cast_ofNat, zpow_ofNat]
  congr 1
  norm_num

theorem cast_natAbs_rat (value : Int) : (value.natAbs : ℚ) = |(value : ℚ)| := by
  rw [Nat.cast_natAbs, Int.cast_abs]

theorem ofInt_eq (f : Format) (value : Int) :
    f.ofInt .nearestEven value = f.withSign (value < 0) (f.nearest |(value : ℚ)|) := by
  rw [ofInt, ofRatio_eq f _ _ one_pos, Nat.cast_one, div_one, cast_natAbs_rat]

theorem double_nearest_eq_infinity_iff (value : Int) :
    double.nearest |(value : ℚ)| = double.infinity ↔ doubleLimit ≤ value.natAbs := by
  rw [nearest_eq_infinity_iff (.inr rfl) (abs_nonneg _), double_midpoint_largest,
    ← cast_doubleLimit, ← cast_natAbs_rat, Nat.cast_le]

theorem isInfinite_ofInt (value : Int) :
    double.isInfinite (double.ofInt .nearestEven value) = true ↔ doubleLimit ≤ value.natAbs := by
  rw [ofInt_eq, isInfinite_withSign _ (nearest_le_infinity double _),
    double_nearest_eq_infinity_iff]

end Format

theorem Number.toDouble_whole (value : Int) :
    (Number.whole value).toDouble =
      if Format.doubleLimit ≤ value.natAbs then .error .tooLarge
      else .ok (Format.double.ofInt .nearestEven value) := by
  simp only [toDouble, Format.isInfinite_ofInt]

end Ieee

/-! ## Constants that are not encoded -/

namespace Source

/-- A whole number beyond all finite ones of 64 bits that stands for a floating-point
number. -/
def Constant.TooLarge (constant : Constant) : Prop :=
  (constant.kind = .float ∨ constant.kind = .double) ∧
  ∃ number : Int, constant.value = .int number ∧ Ieee.Format.doubleLimit ≤ number.natAbs

/-- Some node of the tree has such a constant. -/
def Expr.HoldsTooLarge (root : Expr) : Prop :=
  ∃ node ∈ root.preorder, ∃ constant, node.constant? = some constant ∧ constant.TooLarge

end Source

namespace Analysis

open Source

theorem floatConstant_error_iff (format : Ieee.Format) (value : Json) :
    floatConstant format value = .error (.number .tooLarge) ↔
      ∃ number : Int, value = .int number ∧ Ieee.Format.doubleLimit ≤ number.natAbs := by
  cases value with
  | int number =>
      simp only [floatConstant, number?, Ieee.Number.toPattern, Ieee.Number.toDouble_whole]
      by_cases large : Ieee.Format.doubleLimit ≤ number.natAbs
      · rw [if_pos large]
        exact iff_of_true rfl ⟨number, rfl, large⟩
      · rw [if_neg large]
        refine iff_of_false nofun ?_
        rintro ⟨other, ⟨⟩, beyond⟩
        exact large beyond
  | float pattern => exact iff_of_false nofun (by rintro ⟨other, ⟨⟩, -⟩)
  | null | bool | str | torn | arr | obj => exact iff_of_false nofun (by rintro ⟨other, ⟨⟩, -⟩)

theorem encodeConstant_error_iff (constant : Constant) :
    encodeConstant constant.value constant.kind = .error (.number .tooLarge) ↔
      constant.TooLarge := by
  obtain ⟨value, kind⟩ := constant
  have floats : ∀ format : Ieee.Format,
      ((floatConstant format value).map (·, ([] : List Event)) = .error (.number .tooLarge) ↔
        floatConstant format value = .error (.number .tooLarge)) := by
    intro format
    refine ⟨map_error, fun failed => by rw [failed]; rfl⟩
  cases kind with
  | float => simp [encodeConstant, floats, floatConstant_error_iff, Constant.TooLarge]
  | double => simp [encodeConstant, floats, floatConstant_error_iff, Constant.TooLarge]
  | bool =>
      refine iff_of_false ?_ (by simp [Constant.TooLarge])
      intro failed
      cases value <;> cases failed
  | sbyte | byte | short | ushort | char | int | uint | long | ulong | decimal | string | null
  | enum | other =>
      refine iff_of_false ?_ (by simp [Constant.TooLarge])
      intro failed
      cases failed

theorem not_encodes_iff (constant : Constant) : ¬Encodes constant ↔ constant.TooLarge := by
  rw [← encodeConstant_error_iff, Encodes]
  cases encoded : encodeConstant constant.value constant.kind with
  | ok answer => simp
  | error failure =>
      obtain ⟨⟨⟩, rfl⟩ := encodeConstant_error encoded
      simp

theorem not_constantsEncode_iff (root : Expr) : ¬ConstantsEncode root ↔ root.HoldsTooLarge := by
  simp only [ConstantsEncode, Expr.HoldsTooLarge, ← not_encodes_iff, not_forall, exists_prop]

theorem encodes_of_constantTerm {constant : Constant} {start final : Progress}
    {term : Option TypedTerm} (told : constantTerm (some constant) start = .ok term final) :
    Encodes constant := by
  rw [constantTerm] at told
  cases encoded : encodeConstant constant.value constant.kind with
  | ok answer => exact ⟨answer, encoded⟩
  | error failure =>
      rw [encoded] at told
      cases told

end Analysis

end CondSat
