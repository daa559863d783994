import CondSat.Proofs.Patterns
import CondSat.Ieee.Rounding
import Mathlib.Algebra.Order.Floor.Semifield
import Mathlib.Data.Int.Log
import Mathlib.Data.Rat.Floor
import Mathlib.Tactic.FieldSimp
import Mathlib.Tactic.Linarith
import Mathlib.Tactic.NormNum
import Mathlib.Tactic.Positivity
import Mathlib.Tactic.Ring

/-! # Rounding to the nearest number of a format

Rounding a quotient of naturals depends on the rational number it stands for and
on nothing else: `roundMagnitude_eq`.  A rational number that is nearer to the
value of a magnitude than to those of its two neighbours is rounded to this
magnitude: `nearest_eq`.  Below the magnitude the neighbour is half as far where a
binade starts. -/
set_option autoImplicit false
namespace CondSat.Ieee

/-! ## Quotients as rational numbers -/

theorem scaleDown_pos {base : Nat} (positive : 0 < base) (exponent : Int) (numerator : Nat)
    {divisor : Nat} (proper : 0 < divisor) : 0 < (scaleDown base exponent numerator divisor).2 := by
  unfold scaleDown
  split
  · exact Nat.mul_pos proper (Nat.pow_pos positive)
  · exact proper

theorem scaleDown_value {base : Nat} (positive : 0 < base) (exponent : Int)
    (numerator divisor : Nat) :
    ((scaleDown base exponent numerator divisor).1 : ℚ) /
        (scaleDown base exponent numerator divisor).2 =
      (numerator : ℚ) / divisor / (base : ℚ) ^ exponent := by
  have nonzero : (base : ℚ) ≠ 0 := by exact_mod_cast positive.ne'
  unfold scaleDown
  split
  · next nonneg =>
      obtain ⟨places, rfl⟩ := Int.eq_ofNat_of_zero_le nonneg
      simp only [Int.toNat_natCast, Nat.cast_mul, Nat.pow_eq, Nat.cast_pow, zpow_natCast]
      rw [div_div]
  · next negative =>
      obtain ⟨places, rfl⟩ : ∃ places : Nat, exponent = -(places : Int) :=
        ⟨(-exponent).toNat, by omega⟩
      simp only [neg_neg, Int.toNat_natCast, Nat.cast_mul, Nat.pow_eq, Nat.cast_pow, zpow_neg,
        zpow_natCast]
      field_simp

theorem div_eq_whole_add_rest (numerator : Nat) {divisor : Nat} (proper : 0 < divisor) :
    (numerator : ℚ) / divisor =
      (numerator / divisor : Nat) + (numerator % divisor : Nat) / (divisor : ℚ) := by
  have positive : (0 : ℚ) < divisor := by exact_mod_cast proper
  have split : (numerator : ℚ) =
      divisor * (numerator / divisor : Nat) + (numerator % divisor : Nat) := by
    exact_mod_cast (Nat.div_add_mod numerator divisor).symm
  rw [div_eq_iff positive.ne', add_mul, div_mul_cancel₀ _ positive.ne']
  linarith

def roundEven (q : ℚ) : Nat :=
  let whole := ⌊q⌋₊
  if 1 / 2 < q - whole ∨ (q - whole = 1 / 2 ∧ whole % 2 = 1) then whole + 1 else whole

theorem quotient_eq (negative : Bool) (numerator : Nat) {divisor : Nat} (proper : 0 < divisor) :
    RoundingMode.nearestEven.quotient negative numerator divisor =
      roundEven ((numerator : ℚ) / divisor) := by
  have positive : (0 : ℚ) < divisor := by exact_mod_cast proper
  have floored : ⌊(numerator : ℚ) / divisor⌋₊ = numerator / divisor :=
    Nat.floor_div_eq_div numerator divisor
  have rest : (numerator : ℚ) / divisor - (numerator / divisor : Nat) =
      (numerator % divisor : Nat) / divisor := by
    rw [div_eq_whole_add_rest numerator proper, add_sub_cancel_left]
  have more : (1 : ℚ) / 2 < (numerator % divisor : Nat) / divisor ↔
      divisor < 2 * (numerator % divisor) := by
    rw [div_lt_div_iff₀ two_pos positive]
    constructor
    · intro less
      have less : (divisor : ℚ) < (2 * (numerator % divisor) : Nat) := by push_cast; linarith
      exact_mod_cast less
    · intro less
      have less : (divisor : ℚ) < (2 * (numerator % divisor) : Nat) := by exact_mod_cast less
      push_cast at less
      linarith
  have tie : ((numerator % divisor : Nat) : ℚ) / divisor = 1 / 2 ↔
      2 * (numerator % divisor) = divisor := by
    rw [div_eq_div_iff positive.ne' two_ne_zero]
    constructor
    · intro same
      have same : ((2 * (numerator % divisor) : Nat) : ℚ) = divisor := by push_cast; linarith
      exact_mod_cast same
    · intro same
      have same : ((2 * (numerator % divisor) : Nat) : ℚ) = divisor := by exact_mod_cast same
      push_cast at same
      linarith
  unfold roundEven RoundingMode.quotient RoundingMode.roundsUp
  simp only [floored, rest, more, tie, Bool.or_eq_true, decide_eq_true_eq, Bool.and_eq_true,
    beq_iff_eq]

theorem roundEven_eq {q : ℚ} {n : Nat} (above : (n : ℚ) - 1 / 2 < q) (below : q < n + 1 / 2) :
    roundEven q = n := by
  unfold roundEven
  by_cases low : (n : ℚ) ≤ q
  · have floored : ⌊q⌋₊ = n := by
      rw [Nat.floor_eq_iff (le_trans (Nat.cast_nonneg n) low)]
      exact ⟨low, by linarith⟩
    rw [floored, if_neg]
    rintro (more | ⟨tie, -⟩) <;> linarith
  · cases n with
    | zero =>
        have negative : q < 0 := by simpa using low
        rw [Nat.floor_of_nonpos negative.le, if_neg]
        rintro (more | ⟨tie, -⟩) <;> norm_num at * <;> linarith
    | succ k =>
        push_cast at above below low
        have floored : ⌊q⌋₊ = k := by
          have nonneg : (0 : ℚ) ≤ k := Nat.cast_nonneg k
          rw [Nat.floor_eq_iff (by linarith)]
          exact ⟨by linarith, by linarith⟩
        rw [floored, if_pos]
        left
        linarith

/-! ## Logarithms -/

theorem log_eq {base : Nat} (large : 1 < base) {q : ℚ} {k : Int} (low : (base : ℚ) ^ k ≤ q)
    (high : q < (base : ℚ) ^ (k + 1)) : Int.log base q = k := by
  have positive : (0 : ℚ) < q := lt_of_lt_of_le (zpow_pos (by positivity) k) low
  have atLeast : k ≤ Int.log base q := (Int.zpow_le_iff_le_log large positive).mp low
  have atMost : Int.log base q < k + 1 := (Int.lt_zpow_iff_log_lt large positive).mp high
  omega

theorem scaleDown_le_iff {base : Nat} (positive : 0 < base) (exponent : Int) (numerator : Nat)
    {divisor : Nat} (proper : 0 < divisor) :
    (scaleDown base exponent numerator divisor).2 ≤ (scaleDown base exponent numerator divisor).1 ↔
      (base : ℚ) ^ exponent ≤ (numerator : ℚ) / divisor := by
  have power : (0 : ℚ) < (base : ℚ) ^ exponent := zpow_pos (by exact_mod_cast positive) exponent
  have bottom : (0 : ℚ) < (scaleDown base exponent numerator divisor).2 := by
    exact_mod_cast scaleDown_pos positive exponent numerator proper
  rw [← one_le_div power, ← scaleDown_value positive, one_le_div bottom, Nat.cast_le]

theorem log2_bounds {n : Nat} (positive : 0 < n) :
    (2 : ℚ) ^ (n.log2 : Int) ≤ n ∧ (n : ℚ) < 2 ^ (n.log2 + 1 : Int) := by
  constructor
  · rw [zpow_natCast]
    exact_mod_cast Nat.log2_self_le positive.ne'
  · have high : n < 2 ^ (n.log2 + 1) := Nat.lt_log2_self
    exact_mod_cast high

theorem floorLog2_eq {numerator divisor : Nat} (positive : 0 < numerator) (proper : 0 < divisor) :
    floorLog2 numerator divisor = Int.log 2 ((numerator : ℚ) / divisor) := by
  have bottom : (0 : ℚ) < divisor := by exact_mod_cast proper
  obtain ⟨numeratorLow, numeratorHigh⟩ := log2_bounds positive
  obtain ⟨divisorLow, divisorHigh⟩ := log2_bounds proper
  have high : (numerator : ℚ) / divisor < 2 ^ ((numerator.log2 : Int) - divisor.log2 + 1) := by
    rw [div_lt_iff₀ bottom]
    calc (numerator : ℚ) < 2 ^ (numerator.log2 + 1 : Int) := numeratorHigh
      _ = 2 ^ ((numerator.log2 : Int) - divisor.log2 + 1) * 2 ^ (divisor.log2 : Int) := by
          rw [← zpow_add₀ two_ne_zero]
          congr 1
          omega
      _ ≤ 2 ^ ((numerator.log2 : Int) - divisor.log2 + 1) * divisor :=
          mul_le_mul_of_nonneg_left divisorLow (zpow_nonneg zero_le_two _)
  have low : (2 : ℚ) ^ ((numerator.log2 : Int) - divisor.log2 - 1) ≤ (numerator : ℚ) / divisor := by
    rw [le_div_iff₀ bottom]
    calc (2 : ℚ) ^ ((numerator.log2 : Int) - divisor.log2 - 1) * divisor
        ≤ 2 ^ ((numerator.log2 : Int) - divisor.log2 - 1) * 2 ^ (divisor.log2 + 1 : Int) :=
          mul_le_mul_of_nonneg_left divisorHigh.le (zpow_nonneg zero_le_two _)
      _ = 2 ^ (numerator.log2 : Int) := by
          rw [← zpow_add₀ two_ne_zero]
          congr 1
          omega
      _ ≤ numerator := numeratorLow
  have compared := scaleDown_le_iff two_pos ((numerator.log2 : Int) - divisor.log2) numerator proper
  unfold floorLog2
  dsimp only
  split
  · next large => exact (log_eq one_lt_two (by exact_mod_cast compared.mp large) high).symm
  · next small =>
      have less := not_le.mp fun large => small (compared.mpr large)
      refine (log_eq one_lt_two low ?_).symm
      rw [sub_add_cancel]
      exact_mod_cast less

/-! ## Rounding to a format -/

namespace Format

variable (f : Format)

/-- The exponent of the last place of the binade that a number lies in. -/
def unit (q : ℚ) : Int := max f.leastExponent (Int.log 2 q - (f.precision - 1))

/-- The binade of a number together with its rounded significand. -/
def rounded (q : ℚ) : Nat :=
  (f.unit q - f.leastExponent).toNat * f.hiddenBit + roundEven (q / 2 ^ f.unit q)

/-- The magnitude nearest to a rational number. -/
def nearest (q : ℚ) : Nat :=
  if q = 0 then 0 else if f.rounded q < f.infinity then f.rounded q else f.infinity

theorem roundMagnitude_eq (negative : Bool) (numerator : Nat) {divisor : Nat}
    (proper : 0 < divisor) :
    f.roundMagnitude .nearestEven negative numerator divisor =
      f.nearest ((numerator : ℚ) / divisor) := by
  unfold roundMagnitude nearest
  by_cases zero : numerator = 0
  · simp [zero]
  · have nonzero : (numerator : ℚ) / divisor ≠ 0 := by
      have bottom : (divisor : ℚ) ≠ 0 := by exact_mod_cast proper.ne'
      have top : (numerator : ℚ) ≠ 0 := by exact_mod_cast zero
      exact div_ne_zero top bottom
    rw [if_neg zero, if_neg nonzero, floorLog2_eq (Nat.pos_of_ne_zero zero) proper]
    dsimp only
    rw [quotient_eq negative _ (scaleDown_pos two_pos _ _ proper), scaleDown_value two_pos]
    rfl

def value (magnitude : Nat) : ℚ := f.significand magnitude * 2 ^ f.exponent magnitude

theorem hiddenBit_pos : 0 < f.hiddenBit := Nat.pow_pos two_pos

/-- The significand of a magnitude fits the format, and only the least binade
has small ones. -/
theorem significand_bounds (m : Nat) :
    m = f.binade m * f.hiddenBit + f.significand m ∧ f.significand m < 2 * f.hiddenBit ∧
    (0 < f.binade m → f.hiddenBit ≤ f.significand m) := by
  have split := Nat.div_add_mod m f.hiddenBit
  have small := Nat.mod_lt m f.hiddenBit_pos
  unfold significand binade
  cases whole : m / f.hiddenBit with
  | zero =>
      rw [whole, Nat.mul_zero, Nat.zero_add] at split
      simp only [Nat.zero_sub, Nat.zero_mul, Nat.sub_zero, Nat.zero_add, true_and]
      exact ⟨by omega, nofun⟩
  | succ b =>
      rw [whole, Nat.mul_add, Nat.mul_one, Nat.mul_comm] at split
      simp only [Nat.add_sub_cancel]
      omega

section Nearest

variable {f} {m : Nat} {q : ℚ}

theorem hiddenBit_eq_zpow (precise : 1 ≤ f.precision) :
    (f.hiddenBit : ℚ) = 2 ^ (f.precision - 1 : Int) := by
  have places : (f.precision - 1 : Int) = (f.precision - 1 : Nat) := by omega
  rw [hiddenBit, Word.count, places, zpow_natCast]
  exact Nat.cast_pow 2 _

theorem unit_le_exponent (precise : 1 ≤ f.precision) (positive : 0 < q)
    (below : q < (f.significand m + 1 / 2 : ℚ) * 2 ^ f.exponent m) : f.unit q ≤ f.exponent m := by
  have power : (0 : ℚ) < 2 ^ f.exponent m := zpow_pos two_pos _
  have bounded : q < 2 ^ (f.exponent m + f.precision) := by
    have fits : (f.significand m : ℚ) + 1 ≤ 2 * f.hiddenBit := by
      exact_mod_cast (f.significand_bounds m).2.1
    calc q < (f.significand m + 1 / 2 : ℚ) * 2 ^ f.exponent m := below
      _ ≤ (2 * f.hiddenBit : ℚ) * 2 ^ f.exponent m :=
          mul_le_mul_of_nonneg_right (by linarith) power.le
      _ = 2 ^ (f.exponent m + f.precision) := by
          rw [hiddenBit_eq_zpow precise, ← zpow_one_add₀ two_ne_zero, ← zpow_add₀ two_ne_zero]
          congr 1
          ring
  have logLess := (Int.lt_zpow_iff_log_lt one_lt_two positive).mp (by exact_mod_cast bounded)
  unfold unit exponent at *
  omega

theorem rounded_of_unit_eq (same : f.unit q = f.exponent m)
    (above : (f.significand m - 1 / 2 : ℚ) * 2 ^ f.exponent m < q)
    (below : q < (f.significand m + 1 / 2 : ℚ) * 2 ^ f.exponent m) : f.rounded q = m := by
  have power : (0 : ℚ) < 2 ^ f.exponent m := zpow_pos two_pos _
  have significand : roundEven (q / 2 ^ f.exponent m) = f.significand m := by
    apply roundEven_eq
    · rwa [lt_div_iff₀ power]
    · rwa [div_lt_iff₀ power]
  have binades : (f.exponent m - f.leastExponent).toNat = f.binade m := by
    rw [exponent]
    omega
  rw [rounded, same, significand, binades]
  exact (f.significand_bounds m).1.symm

/-- A number below the binade of a magnitude it is rounded to.  The magnitude starts
its binade, and the unit of the last place is half as large. -/
theorem rounded_of_unit_lt (precise : 1 ≤ f.precision) (positive : 0 < q)
    (lower : f.unit q < f.exponent m)
    (above : (f.significand m - 1 / 2 : ℚ) * 2 ^ f.exponent m < q)
    (start : f.significand m = f.hiddenBit → 0 < f.binade m →
      (f.significand m - 1 / 4 : ℚ) * 2 ^ f.exponent m < q) : f.rounded q = m := by
  obtain ⟨split, -, large⟩ := f.significand_bounds m
  have power : (0 : ℚ) < 2 ^ f.exponent m := zpow_pos two_pos _
  have hidden := hiddenBit_eq_zpow precise
  have binade : 0 < f.binade m := by
    unfold unit exponent at lower
    omega
  have less : q < f.hiddenBit * 2 ^ f.exponent m := by
    rw [hidden, ← zpow_add₀ two_ne_zero]
    have logLess : Int.log 2 q < f.precision - 1 + f.exponent m := by
      unfold unit at lower
      omega
    exact_mod_cast (Int.lt_zpow_iff_log_lt one_lt_two positive).mpr logLess
  have atStart : f.significand m = f.hiddenBit := by
    have near := lt_of_mul_lt_mul_right (lt_trans above less) power.le
    have near : (f.significand m : ℚ) < (f.hiddenBit + 1 : Nat) := by push_cast; linarith
    have near : f.significand m < f.hiddenBit + 1 := by exact_mod_cast near
    have := large binade
    omega
  -- In the binade below, the number is rounded to twice the hidden bit.
  have start := start atStart binade
  have halved : (2 : ℚ) ^ f.exponent m = 2 * 2 ^ (f.exponent m - 1) := by
    rw [← zpow_one_add₀ two_ne_zero, add_sub_cancel]
  have half : (0 : ℚ) < 2 ^ (f.exponent m - 1) := zpow_pos two_pos _
  rw [atStart, halved] at start
  rw [halved] at less
  have unitIs : f.unit q = f.exponent m - 1 := by
    have hiddenLeast : (1 : ℚ) ≤ f.hiddenBit := by exact_mod_cast f.hiddenBit_pos
    have logAtLeast : f.precision - 1 + (f.exponent m - 1) ≤ Int.log 2 q := by
      refine (Int.zpow_le_iff_le_log one_lt_two positive).mp ?_
      rw [Nat.cast_ofNat, zpow_add₀ two_ne_zero, ← hidden]
      nlinarith
    unfold unit exponent at *
    omega
  have significand : roundEven (q / 2 ^ (f.exponent m - 1)) = 2 * f.hiddenBit := by
    apply roundEven_eq
    · rw [lt_div_iff₀ half]
      push_cast
      linarith
    · rw [div_lt_iff₀ half]
      push_cast
      linarith
  have binades : (f.exponent m - 1 - f.leastExponent).toNat = f.binade m - 1 := by
    rw [exponent]
    omega
  rw [rounded, unitIs, significand, binades]
  obtain ⟨b, isBinade⟩ := Nat.exists_eq_succ_of_ne_zero binade.ne'
  rw [isBinade, Nat.succ_sub_one]
  rw [isBinade, atStart, Nat.succ_mul] at split
  omega

theorem rounded_eq (precise : 1 ≤ f.precision) (positive : 0 < q)
    (above : (f.significand m - 1 / 2 : ℚ) * 2 ^ f.exponent m < q)
    (below : q < (f.significand m + 1 / 2 : ℚ) * 2 ^ f.exponent m)
    (start : f.significand m = f.hiddenBit → 0 < f.binade m →
      (f.significand m - 1 / 4 : ℚ) * 2 ^ f.exponent m < q) :
    f.rounded q = m := by
  rcases (unit_le_exponent precise positive below).lt_or_eq with lower | same
  · exact rounded_of_unit_lt precise positive lower above start
  · exact rounded_of_unit_eq same above below

/-- A number nearer to the value of a magnitude than to the values of its
neighbours is rounded to this magnitude. -/
theorem nearest_eq (precise : 1 ≤ f.precision) (finite : m < f.infinity) (positive : 0 < q)
    (above : (f.significand m - 1 / 2 : ℚ) * 2 ^ f.exponent m < q)
    (below : q < (f.significand m + 1 / 2 : ℚ) * 2 ^ f.exponent m)
    (start : f.significand m = f.hiddenBit → 0 < f.binade m →
      (f.significand m - 1 / 4 : ℚ) * 2 ^ f.exponent m < q) :
    f.nearest q = m := by
  rw [nearest, if_neg positive.ne', rounded_eq precise positive above below start, if_pos finite]

end Nearest

/-! ## Exact values -/

theorem significand_pos {m : Nat} (positive : 0 < m) : 0 < f.significand m := by
  obtain ⟨split, -, large⟩ := f.significand_bounds m
  by_contra none
  have subnormal : f.binade m = 0 := by
    have := f.hiddenBit_pos
    omega
  rw [subnormal] at split
  omega

theorem value_pos {m : Nat} (positive : 0 < m) : 0 < f.value m := by
  have significant : (0 : ℚ) < f.significand m := by exact_mod_cast f.significand_pos positive
  exact mul_pos significant (zpow_pos two_pos _)

theorem value_nonneg (m : Nat) : 0 ≤ f.value m :=
  mul_nonneg (Nat.cast_nonneg _) (zpow_pos two_pos _).le

theorem value_zero : f.value 0 = 0 := by
  simp [value, significand]

theorem rounded_value {m : Nat} (precise : 1 ≤ f.precision) (positive : 0 < m) :
    f.rounded (f.value m) = m := by
  have power : (0 : ℚ) < 2 ^ f.exponent m := zpow_pos two_pos _
  refine rounded_eq precise (f.value_pos positive) ?_ ?_ fun _ _ => ?_ <;> rw [value] <;> nlinarith

/-- The value of a magnitude is rounded to the magnitude. -/
theorem nearest_value {m : Nat} (precise : 1 ≤ f.precision) (finite : m < f.infinity) :
    f.nearest (f.value m) = m := by
  rcases Nat.eq_zero_or_pos m with rfl | positive
  · rw [value_zero, nearest, if_pos rfl]
  · rw [nearest, if_neg (f.value_pos positive).ne', f.rounded_value precise positive,
      if_pos finite]

theorem ofRatio_eq (negative : Bool) (numerator : Nat) {divisor : Nat} (proper : 0 < divisor) :
    f.ofRatio .nearestEven negative numerator divisor =
      f.withSign negative (f.nearest ((numerator : ℚ) / divisor)) := by
  rw [ofRatio, roundMagnitude_eq f negative numerator proper]

theorem ofScaled_eq (negative : Bool) (amount : Nat) (exponent : Int) :
    f.ofScaled .nearestEven negative amount exponent =
      f.withSign negative (f.nearest (amount * 2 ^ exponent)) := by
  unfold ofScaled
  dsimp only
  rw [ofRatio_eq f negative _ (scaleDown_pos two_pos _ _ one_pos), scaleDown_value two_pos,
    Nat.cast_one, div_one, Nat.cast_ofNat, zpow_neg, div_inv_eq_mul]

theorem ratio_pos (m : Nat) : 0 < (f.ratio m).2 := scaleDown_pos two_pos _ _ one_pos

theorem ratio_value (m : Nat) : ((f.ratio m).1 : ℚ) / (f.ratio m).2 = f.value m := by
  rw [ratio, scaleDown_value two_pos, Nat.cast_one, div_one, Nat.cast_ofNat, zpow_neg,
    div_inv_eq_mul, value]

end Format

end CondSat.Ieee
