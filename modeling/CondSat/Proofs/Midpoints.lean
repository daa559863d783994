import CondSat.Proofs.NearestDecimals

/-! # Halfway between neighbours

A number is rounded down or up by the midpoint between the two magnitudes around it, and
at the midpoint by which of them has the even significand.  So the magnitude that a number
is rounded to is the nearest one, of two equally near the even one, and it is the infinity
from halfway between the largest finite number and the next power of two on.  No other
magnitude is like this. -/
set_option autoImplicit false
namespace CondSat.Ieee

/-! ## Distances -/

theorem nearer_iff {a b q : ℚ} (less : a < b) : |q - a| ≤ |q - b| ↔ q ≤ (a + b) / 2 := by
  rw [← sq_le_sq]
  constructor <;> intro h <;> nlinarith

theorem nearer_iff' {a b q : ℚ} (less : a < b) : |q - b| ≤ |q - a| ↔ (a + b) / 2 ≤ q := by
  rw [← sq_le_sq]
  constructor <;> intro h <;> nlinarith

namespace Format

variable {f : Format} {q : ℚ} {m n : Nat}

theorem value_succ (m : Nat) : f.value (m + 1) = (f.significand m + 1) * 2 ^ f.exponent m := by
  obtain ⟨split, small, large⟩ := f.significand_bounds m
  have next := value_add (f := f) (b := f.binade m) (s := f.significand m + 1) (by omega)
    (fun normal => (large normal).trans (Nat.le_succ _))
  rw [← add_assoc, ← split] at next
  rw [next, exponent]
  push_cast
  rfl

def midpoint (f : Format) (m : Nat) : ℚ := (f.value m + f.value (m + 1)) / 2

theorem midpoint_eq (m : Nat) : f.midpoint m = (f.significand m + 1 / 2) * 2 ^ f.exponent m := by
  rw [midpoint, value_succ, value]
  ring

theorem value_lt_midpoint (m : Nat) : f.value m < f.midpoint m := by
  have less := value_lt (f := f) (Nat.lt_succ_self m)
  unfold midpoint
  linarith

theorem midpoint_lt_value (m : Nat) : f.midpoint m < f.value (m + 1) := by
  have less := value_lt (f := f) (Nat.lt_succ_self m)
  unfold midpoint
  linarith

theorem midpoint_pos (m : Nat) : 0 < f.midpoint m :=
  (f.value_nonneg m).trans_lt (f.value_lt_midpoint m)

theorem unit_between (precise : 1 ≤ f.precision) (positive : 0 < q) (low : f.value m ≤ q)
    (high : q < f.value (m + 1)) : f.unit q = f.exponent m := by
  obtain ⟨-, small, large⟩ := f.significand_bounds m
  have power : (0 : ℚ) < 2 ^ f.exponent m := zpow_pos two_pos _
  have hidden := hiddenBit_eq_zpow precise
  have atMost : Int.log 2 q < f.precision + f.exponent m := by
    have fits : (f.significand m + 1 : ℚ) ≤ 2 * f.hiddenBit := by exact_mod_cast small
    have below : q < 2 ^ (f.precision + f.exponent m) := by
      calc q < (f.significand m + 1) * 2 ^ f.exponent m := by rwa [← value_succ]
        _ ≤ 2 * f.hiddenBit * 2 ^ f.exponent m := mul_le_mul_of_nonneg_right fits power.le
        _ = 2 ^ (f.precision + f.exponent m) := by
            rw [hidden, ← zpow_one_add₀ two_ne_zero, ← zpow_add₀ two_ne_zero]
            congr 1
            omega
    exact (Int.lt_zpow_iff_log_lt one_lt_two positive).mp (by exact_mod_cast below)
  rcases Nat.eq_zero_or_pos (f.binade m) with least | normal
  · unfold unit exponent at *
    omega
  · have fills : (f.hiddenBit : ℚ) ≤ f.significand m := by exact_mod_cast large normal
    have atLeast : f.precision - 1 + f.exponent m ≤ Int.log 2 q := by
      refine (Int.zpow_le_iff_le_log one_lt_two positive).mp ?_
      rw [Nat.cast_ofNat, zpow_add₀ two_ne_zero, ← hidden]
      exact (mul_le_mul_of_nonneg_right fills power.le).trans low
    unfold unit exponent at *
    omega

/-! ## Rounding and midpoints -/

theorem Stored.precise (stored : f.Stored) : 1 ≤ f.precision := by
  rcases stored with rfl | rfl <;> decide

theorem Stored.infinity_pos (stored : f.Stored) : 0 < f.infinity := by
  rcases stored with rfl | rfl <;> decide

theorem Stored.largest_odd (stored : f.Stored) : f.largest % 2 = 1 := by
  rcases stored with rfl | rfl <;> decide

theorem Stored.binades_even (stored : f.Stored) (b : Nat) : b * f.hiddenBit % 2 = 0 := by
  have even : f.hiddenBit % 2 = 0 := by rcases stored with rfl | rfl <;> decide
  rw [Nat.mul_mod, even]
  simp

theorem significand_parity (stored : f.Stored) (m : Nat) :
    f.significand m % 2 = m % 2 := by
  obtain ⟨split, -, -⟩ := f.significand_bounds m
  have even := stored.binades_even (f.binade m)
  omega

/-- Whether a number is rounded down between two neighbours. -/
theorem rounded_between (stored : f.Stored) (positive : 0 < q) (low : f.value m ≤ q)
    (high : q < f.value (m + 1)) :
    f.rounded q ≤ m ↔ q < f.midpoint m ∨ (q = f.midpoint m ∧ m % 2 = 0) := by
  obtain ⟨split, -, -⟩ := f.significand_bounds m
  have power : (0 : ℚ) < 2 ^ f.exponent m := zpow_pos two_pos _
  have binades : (f.exponent m - f.leastExponent).toNat = f.binade m := by
    rw [exponent]
    omega
  have here : f.rounded q = f.binade m * f.hiddenBit + roundEven (q / 2 ^ f.exponent m) := by
    rw [rounded, unit_between stored.precise positive low high, binades]
  have down : f.rounded q ≤ m ↔ roundEven (q / 2 ^ f.exponent m) ≤ f.significand m := by omega
  rw [down, midpoint_eq, ← div_lt_iff₀ power, ← div_eq_iff power.ne',
    ← significand_parity stored m]
  rw [value, ← le_div_iff₀ power] at low
  rw [value_succ, ← div_lt_iff₀ power] at high
  generalize q / 2 ^ f.exponent m = scaled at *
  generalize f.significand m = s at *
  have floored : ⌊scaled⌋₊ = s :=
    (Nat.floor_eq_iff ((Nat.cast_nonneg s).trans low)).mpr ⟨low, high⟩
  unfold roundEven
  dsimp only
  rw [floored]
  split
  · next up =>
      refine iff_of_false (by omega) ?_
      rintro (below | ⟨tie, even⟩)
      · rcases up with up | ⟨up, -⟩ <;> linarith
      · rcases up with up | ⟨-, odd⟩
        · linarith
        · omega
  · next down =>
      rw [not_or, not_and] at down
      refine iff_of_true le_rfl ?_
      rcases lt_trichotomy scaled (s + 1 / 2) with below | tie | above
      · exact Or.inl below
      · exact Or.inr ⟨tie, by have := down.2 (by linarith); omega⟩
      · exact absurd (by linarith) down.1

/-- A number is rounded to a magnitude at most if it is below the midpoint above it, or
there and the magnitude is even. -/
theorem rounded_le_iff (stored : f.Stored) (positive : 0 < q) :
    f.rounded q ≤ m ↔ q < f.midpoint m ∨ (q = f.midpoint m ∧ m % 2 = 0) := by
  have low := f.value_lt_midpoint m
  have high := f.midpoint_lt_value m
  rcases lt_or_ge q (f.value m) with below | above
  · have some : 0 < m := by
      by_contra none
      rw [Nat.eq_zero_of_not_pos none, value_zero] at below
      exact absurd positive below.not_gt
    have order := rounded_mono (f := f) stored.precise positive below.le
    rw [f.rounded_value stored.precise some] at order
    exact iff_of_true order (Or.inl (below.trans low))
  · rcases lt_or_ge q (f.value (m + 1)) with inside | beyond
    · exact rounded_between stored positive above inside
    · have order := rounded_mono (f := f) stored.precise (f.value_pos (Nat.succ_pos m)) beyond
      rw [f.rounded_value stored.precise (Nat.succ_pos m)] at order
      refine iff_of_false (by omega) ?_
      rintro (less | ⟨same, -⟩) <;> linarith

theorem nearest_le_iff (stored : f.Stored) (known : 0 ≤ q) (finite : m < f.infinity) :
    f.nearest q ≤ m ↔ q < f.midpoint m ∨ (q = f.midpoint m ∧ m % 2 = 0) := by
  rcases known.eq_or_lt with rfl | positive
  · rw [nearest, if_pos rfl]
    exact iff_of_true (Nat.zero_le m) (Or.inl (f.midpoint_pos m))
  · rw [← rounded_le_iff stored positive, nearest, if_neg positive.ne']
    split <;> omega

theorem rounded_lt_infinity_iff (stored : f.Stored) (positive : 0 < q) :
    f.rounded q < f.infinity ↔ q < f.midpoint f.largest := by
  have odd := stored.largest_odd
  have last : f.largest + 1 = f.infinity := Nat.succ_pred_eq_of_pos stored.infinity_pos
  have below := rounded_le_iff (m := f.largest) stored positive
  rw [or_iff_left (by omega)] at below
  rw [← below]
  omega

theorem nearest_eq_infinity_iff (stored : f.Stored) (known : 0 ≤ q) :
    f.nearest q = f.infinity ↔ f.midpoint f.largest ≤ q := by
  have some := stored.infinity_pos
  rcases known.eq_or_lt with rfl | positive
  · rw [nearest, if_pos rfl]
    exact iff_of_false some.ne (not_le.mpr (f.midpoint_pos _))
  · rw [← not_lt, ← rounded_lt_infinity_iff stored positive, nearest, if_neg positive.ne']
    split <;> omega

/-! ## The nearest magnitude -/

/-- What it means that a magnitude is the nearest one to a number. -/
structure IsNearest (f : Format) (q : ℚ) (m : Nat) : Prop where
  /-- From halfway above the largest finite number on, it is the infinity. -/
  overflow : m = f.infinity ↔ f.midpoint f.largest ≤ q
  bounded : m ≤ f.infinity
  nearest : m < f.infinity → ∀ n < f.infinity, |q - f.value m| ≤ |q - f.value n|
  even : m < f.infinity → ∀ n < f.infinity, n ≠ m → |q - f.value n| = |q - f.value m| →
    f.significand m % 2 = 0

section Nearest

variable (stored : f.Stored) (known : 0 ≤ q)
include stored known

theorem nearest_lower (finite : f.nearest q < f.infinity) :
    q ≤ f.midpoint (f.nearest q) ∧ (q = f.midpoint (f.nearest q) → f.nearest q % 2 = 0) := by
  rcases (nearest_le_iff stored known finite).mp le_rfl with below | ⟨tie, even⟩
  · exact ⟨below.le, fun tie => absurd tie below.ne⟩
  · exact ⟨tie.le, fun _ => even⟩

theorem nearest_upper (less : m < f.nearest q) :
    f.midpoint m ≤ q ∧ (q = f.midpoint m → m % 2 = 1) := by
  have finite := less.trans_le (nearest_le_infinity f q)
  have above := mt (nearest_le_iff stored known finite).mpr (Nat.not_le.mpr less)
  rw [not_or, not_and] at above
  exact ⟨not_lt.mp above.1, fun tie => by have := above.2 tie; omega⟩

/-- A lower magnitude is no nearer, and as near only if the number is at the midpoint below. -/
theorem nearest_of_lower (less : n < f.nearest q) :
    |q - f.value (f.nearest q)| ≤ |q - f.value n| ∧
      (|q - f.value n| = |q - f.value (f.nearest q)| → f.nearest q % 2 = 0) := by
  obtain ⟨m, isNext⟩ := Nat.exists_eq_add_one.mpr (Nat.zero_lt_of_lt less)
  obtain ⟨above, odd⟩ := nearest_upper stored known (show m < f.nearest q by omega)
  rw [isNext] at less ⊢
  have order := value_le (f := f) (Nat.lt_succ_iff.mp less)
  rw [nearer_iff' (value_lt less)]
  unfold midpoint at above odd
  refine ⟨by linarith, fun same => ?_⟩
  have tie := (nearer_iff (value_lt less)).mp same.le
  have := odd (by linarith)
  omega

theorem nearest_of_higher (finite : f.nearest q < f.infinity) (more : f.nearest q < n) :
    |q - f.value (f.nearest q)| ≤ |q - f.value n| ∧
      (|q - f.value n| = |q - f.value (f.nearest q)| → f.nearest q % 2 = 0) := by
  obtain ⟨below, even⟩ := nearest_lower stored known finite
  have order := value_le (f := f) (Nat.succ_le_of_lt more)
  rw [nearer_iff (value_lt more)]
  unfold midpoint at below even
  refine ⟨by linarith, fun same => ?_⟩
  have tie := (nearer_iff' (value_lt more)).mp same.le
  exact even (by linarith)

/-- What a number is rounded to is nearest to it. -/
theorem nearest_isNearest : f.IsNearest q (f.nearest q) := by
  refine ⟨nearest_eq_infinity_iff stored known, nearest_le_infinity f q, ?_, ?_⟩
  · intro finite n _
    rcases Nat.lt_trichotomy n (f.nearest q) with less | rfl | more
    · exact (nearest_of_lower stored known less).1
    · exact le_rfl
    · exact (nearest_of_higher stored known finite more).1
  · intro finite n _ different same
    rw [significand_parity stored]
    rcases Nat.lt_or_gt_of_ne different with less | more
    · exact (nearest_of_lower stored known less).2 same
    · exact (nearest_of_higher stored known finite more).2 same

section Unique

variable (isNearest : f.IsNearest q m)
include isNearest

theorem IsNearest.nearest_le (finite : m < f.infinity) : f.nearest q ≤ m := by
  have last : f.largest + 1 = f.infinity := Nat.succ_pred_eq_of_pos stored.infinity_pos
  rw [nearest_le_iff stored known finite]
  rcases Nat.lt_or_ge (m + 1) f.infinity with inside | top
  · have order := value_lt (f := f) m.lt_succ_self
    have near := (nearer_iff order).mp (isNearest.nearest finite _ inside)
    rcases near.lt_or_eq with below | tie
    · exact Or.inl below
    · have same := le_antisymm ((nearer_iff' order).mpr tie.ge) ((nearer_iff order).mpr tie.le)
      have even := isNearest.even finite _ inside m.succ_ne_self same
      rw [significand_parity stored] at even
      exact Or.inr ⟨tie, even⟩
  · have isLargest : m = f.largest := by omega
    left
    rw [isLargest]
    exact not_le.mp fun beyond => finite.ne (isNearest.overflow.mpr beyond)

theorem IsNearest.le_nearest (finite : m < f.infinity) : m ≤ f.nearest q := by
  cases m with
  | zero => exact Nat.zero_le _
  | succ k =>
      have order := value_lt (f := f) k.lt_succ_self
      have inside : k < f.infinity := by omega
      have near := (nearer_iff' order).mp (isNearest.nearest finite _ inside)
      refine Nat.succ_le_of_lt (Nat.not_le.mp ?_)
      rw [nearest_le_iff stored known inside]
      rintro (below | ⟨tie, lowerEven⟩)
      · exact absurd near (not_le.mpr below)
      · have same := le_antisymm ((nearer_iff order).mpr tie.le) ((nearer_iff' order).mpr tie.ge)
        have even := isNearest.even finite _ inside k.succ_ne_self.symm same
        rw [significand_parity stored] at even
        omega

/-- No other magnitude is nearest. -/
theorem IsNearest.eq_nearest : m = f.nearest q := by
  rcases isNearest.bounded.lt_or_eq with finite | infinite
  · exact le_antisymm (isNearest.le_nearest stored known finite)
      (isNearest.nearest_le stored known finite)
  · rw [infinite]
    exact ((nearest_eq_infinity_iff stored known).mpr (isNearest.overflow.mp infinite)).symm

end Unique

theorem isNearest_iff : f.IsNearest q m ↔ m = f.nearest q := by
  constructor
  · exact IsNearest.eq_nearest stored known
  · rintro rfl
    exact nearest_isNearest stored known

end Nearest

/-! ## Where numbers become infinite -/

theorem single_midpoint_largest : single.midpoint single.largest = 2 ^ 128 - 2 ^ 103 := by
  have significand : single.significand single.largest = 2 ^ 24 - 1 := by decide
  have exponent : single.exponent single.largest = 104 := by decide
  rw [midpoint_eq, significand, exponent]
  norm_num

theorem double_midpoint_largest :
    double.midpoint double.largest = (2 ^ 54 - 1) * 2 ^ (970 : Int) := by
  have significand : double.significand double.largest = 2 ^ 53 - 1 := by decide
  have exponent : double.exponent double.largest = 1 + 970 := by decide
  rw [midpoint_eq, significand, exponent, zpow_one_add₀ two_ne_zero, ← mul_assoc]
  norm_num

end Format

end CondSat.Ieee
