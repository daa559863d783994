import CondSat.Proofs.LargeNumbers

/-! # Whole numbers as floating-point constants

A whole number is rounded to 64 bits, and where 32 bits are wanted it is rounded again.  The
first rounding can put a number on a midpoint between two 32-bit neighbours that it is not on
itself.  Whether it is rounded down or up there depends on the neighbours and no longer on the
side that the number is on, and this is the only way in which rounding twice goes wrong. -/
set_option autoImplicit false
namespace CondSat

namespace Ieee.Format

variable {q : ℚ} {m : Nat}

/-! ## Rounding by way of 64 bits -/

theorem double_nearest_midpoint (finite : m < single.infinity) :
    double.value (double.nearest (single.midpoint m)) = single.midpoint m := by
  have small : single.significand m < 2 ^ 24 := (single.significand_bounds m).2.1
  obtain ⟨least, most⟩ := single_exponent_bounds finite
  have same : single.midpoint m =
      ((2 * single.significand m + 1 : Nat) : ℚ) * 2 ^ (single.exponent m - 1) := by
    rw [midpoint_eq, zpow_sub_one₀ two_ne_zero]
    push_cast
    ring
  rw [same]
  exact (double_nearest_scaled (by omega) (by omega) (by omega)).2

/-- A number that was moved onto a midpoint between two 32-bit neighbours, from the side
that such a midpoint is not rounded to. -/
def MovedToTie (q moved : ℚ) : Prop :=
  ∃ m < single.infinity, moved = single.midpoint m ∧ if m % 2 = 0 then moved < q else q < moved

theorem not_movedToTie_self (q : ℚ) : ¬ MovedToTie q q := by
  rintro ⟨m, -, -, side⟩
  split at side <;> exact lt_irrefl q side

/-- No midpoint between 32-bit neighbours is crossed on the way to 64 bits. -/
theorem midpoint_le_moved (finite : m < single.infinity) (above : single.midpoint m ≤ q) :
    single.midpoint m ≤ double.value (double.nearest q) := by
  have order := nearest_mono (f := double) (by decide) (single.midpoint_pos m).le above
  rw [← double_nearest_midpoint finite]
  exact value_le order

theorem moved_le_midpoint (known : 0 ≤ q) (finite : m < single.infinity)
    (below : q ≤ single.midpoint m) : double.value (double.nearest q) ≤ single.midpoint m := by
  have order := nearest_mono (f := double) (by decide) known below
  rw [← double_nearest_midpoint finite]
  exact value_le order

section Twice

variable (known : 0 ≤ q)
include known

theorem nearest_twice_of_movedToTie (moved : MovedToTie q (double.value (double.nearest q))) :
    single.nearest (double.value (double.nearest q)) ≠ single.nearest q := by
  obtain ⟨m, finite, tie, side⟩ := moved
  have first := nearest_le_iff (.inl rfl) known finite
  have second := nearest_le_iff (.inl rfl) (double.value_nonneg (double.nearest q)) finite
  intro same
  rw [same, first] at second
  split at side
  · next even =>
      rcases second.mpr (Or.inr ⟨tie, even⟩) with below | ⟨here, -⟩ <;> linarith
  · next odd =>
      rcases second.mp (Or.inl (tie ▸ side)) with below | ⟨-, even⟩
      · linarith
      · exact odd even

/-- Rounding twice differs from rounding once only at a midpoint, the one above the lower of
the two results. -/
theorem movedToTie_of_nearest_twice
    (different : single.nearest (double.value (double.nearest q)) ≠ single.nearest q) :
    MovedToTie q (double.value (double.nearest q)) := by
  have wide := double.value_nonneg (double.nearest q)
  rcases Nat.lt_or_gt_of_ne different with less | more
  · have finite := less.trans_le (nearest_le_infinity single q)
    obtain ⟨above, odd⟩ := nearest_upper (.inl rfl) known less
    obtain ⟨below, even⟩ := nearest_lower (.inl rfl) wide finite
    have tie := le_antisymm below (midpoint_le_moved finite above)
    have isEven := even tie
    refine ⟨_, finite, tie, ?_⟩
    rw [if_pos isEven, tie]
    refine lt_of_le_of_ne above fun same => ?_
    have := odd same.symm
    omega
  · have finite := more.trans_le (nearest_le_infinity single _)
    obtain ⟨above, odd⟩ := nearest_upper (.inl rfl) wide more
    obtain ⟨below, even⟩ := nearest_lower (.inl rfl) known finite
    have tie := le_antisymm (moved_le_midpoint known finite below) above
    have isOdd := odd tie
    refine ⟨_, finite, tie, ?_⟩
    rw [if_neg (by omega), tie]
    refine lt_of_le_of_ne below fun same => ?_
    have := even same
    omega

/-- Rounding by way of 64 bits gives the nearest 32-bit magnitude but for the numbers that the
first rounding moves onto a midpoint. -/
theorem isNearest_twice_iff :
    single.IsNearest q (single.nearest (double.value (double.nearest q))) ↔
      ¬ MovedToTie q (double.value (double.nearest q)) := by
  rw [isNearest_iff (.inl rfl) known]
  exact ⟨fun same moved => nearest_twice_of_movedToTie known moved same,
    not_imp_comm.mp (movedToTie_of_nearest_twice known)⟩

end Twice

end Ieee.Format

namespace Ieee

open Format

variable {n : Int}

theorem double_nearest_whole (short : n.natAbs < 2 ^ 53) :
    double.value (double.nearest |(n : ℚ)|) = |(n : ℚ)| := by
  have exact := (double_nearest_scaled short (show -1022 ≤ 0 by decide) (by decide)).2
  rwa [zpow_zero, mul_one, cast_natAbs_rat] at exact

section Bounded

variable (bounded : n.natAbs < doubleLimit)
include bounded

theorem double_nearest_lt : double.nearest |(n : ℚ)| < double.infinity := by
  refine lt_of_le_of_ne (nearest_le_infinity double _) ?_
  rw [ne_eq, double_nearest_eq_infinity_iff]
  omega

theorem Number.toDouble_of_lt :
    (Number.whole n).toDouble = .ok (double.withSign (n < 0) (double.nearest |(n : ℚ)|)) := by
  rw [toDouble_whole, if_neg (by omega), ofInt_eq]

theorem Number.toPattern_double :
    (Number.whole n).toPattern .double =
      .ok (double.withSign (n < 0) (double.nearest |(n : ℚ)|)) := by
  rw [toPattern, toDouble_of_lt bounded, Except.map, if_pos rfl]

theorem Number.toPattern_single :
    (Number.whole n).toPattern .single =
      .ok (single.withSign (n < 0) (single.nearest (double.value (double.nearest |(n : ℚ)|)))) := by
  have wide := double_nearest_lt bounded
  have small := wide.trans (Stored.infinity_lt (.inr rfl))
  have finite : double.magnitude (double.withSign (n < 0) (double.nearest |(n : ℚ)|)) <
      double.infinity := by rwa [magnitude_withSign small]
  rw [toPattern, toDouble_of_lt bounded, Except.map, if_neg (by decide), convert_finite finite,
    isNegative_withSign small, magnitude_withSign small]

end Bounded

end Ieee

namespace Analysis

open Ieee.Format

theorem floatConstant_of_toPattern {f : Ieee.Format} {value : Json} {number : Ieee.Number}
    {pattern : Nat} (isNumber : number? value = some number)
    (rounded : number.toPattern f = .ok pattern) :
    floatConstant f value = .ok (some (floatNumeral f pattern)) := by
  rw [floatConstant, isNumber]
  dsimp only
  rw [rounded]

/-- A whole number below the least that is too large is encoded in 64 bits as the nearest number,
and in 32 bits as the number nearest to that one; this is the nearest 32-bit number exactly if
the whole number was not moved to a tie. -/
theorem whole_constant_nearest_iff (n : Int) (bounded : n.natAbs < doubleLimit) :
    ∃ wide narrow,
      encodeConstant (.int n) .double =
        .ok (some (floatNumeral .double (double.withSign (n < 0) wide)), []) ∧
      double.IsNearest |(n : ℚ)| wide ∧ wide < double.infinity ∧
      encodeConstant (.int n) .float =
        .ok (some (floatNumeral .single (single.withSign (n < 0) narrow)), []) ∧
      single.IsNearest (double.value wide) narrow ∧
      (single.IsNearest |(n : ℚ)| narrow ↔ ¬MovedToTie |(n : ℚ)| (double.value wide)) := by
  refine ⟨double.nearest |(n : ℚ)|, _, ?_, nearest_isNearest (.inr rfl) (abs_nonneg _),
    Ieee.double_nearest_lt bounded, ?_, nearest_isNearest (.inl rfl) (double.value_nonneg _),
    isNearest_twice_iff (abs_nonneg _)⟩
  · rw [encodeConstant, floatConstant_of_toPattern rfl (Ieee.Number.toPattern_double bounded),
      Except.map]
  · rw [encodeConstant, floatConstant_of_toPattern rfl (Ieee.Number.toPattern_single bounded),
      Except.map]

/-- A number halfway between two 32-bit numbers that is not moved at all. -/
theorem whole_constant_nearest_iff_midpoint :
    (16777217 : Int).natAbs < doubleLimit ∧ ∃ narrow,
      encodeConstant (.int 16777217) .float =
        .ok (some (floatNumeral .single (single.withSign false narrow)), []) ∧
      single.IsNearest 16777217 narrow := by
  have bounded : (16777217 : Int).natAbs < doubleLimit := by decide +kernel
  obtain ⟨wide, narrow, -, isWide, -, encoded, -, nearest⟩ :=
    whole_constant_nearest_iff 16777217 bounded
  have exact := Ieee.double_nearest_whole (show (16777217 : Int).natAbs < 2 ^ 53 by decide)
  rw [← isWide.eq_nearest (.inr rfl) (abs_nonneg _)] at exact
  rw [exact, iff_true_right (not_movedToTie_self _)] at nearest
  refine ⟨bounded, narrow, encoded, ?_⟩
  norm_num at nearest
  exact nearest

/-- `2 ^ 53 + 2 ^ 29 + 1` becomes `2 ^ 53 + 2 ^ 29` in 64 bits, halfway between two 32-bit
numbers, and from there the lower one. -/
theorem whole_constant_rounded_twice :
    encodeConstant (.int 9007199791611905) .float =
        .ok (some (floatNumeral .single 0x5a000000), []) ∧
      single.IsNearest 9007199791611905 0x5a000001 ∧
      ¬single.IsNearest 9007199791611905 0x5a000000 := by
  have nearest : single.nearest 9007199791611905 = 0x5a000001 := by
    have rounded : single.ofInt .nearestEven 9007199791611905 = 0x5a000001 := by decide +kernel
    rw [ofInt_eq] at rounded
    norm_num [withSign] at rounded
    exact rounded
  have encoded : (Ieee.Number.whole 9007199791611905).toPattern .single = .ok 0x5a000000 := by
    decide +kernel
  refine ⟨?_, ?_, ?_⟩
  · rw [encodeConstant, floatConstant_of_toPattern rfl encoded, Except.map]
  · rw [isNearest_iff (.inl rfl) (by norm_num), nearest]
  · rw [isNearest_iff (.inl rfl) (by norm_num), nearest]
    decide

end Analysis

end CondSat
