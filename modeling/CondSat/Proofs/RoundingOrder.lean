import CondSat.Proofs.FloatText

/-! # Rounding and order

Rounding to whole numbers keeps the order and is symmetric about whole numbers; the second
holds with ties going to the even neighbour, because twice a whole number is even.  Rounding
once more, to coarser units, is symmetric for the same reason.  So rounding to a format keeps
the order too, and what is rounded to a number that is no power of two lies in the binade of
this number. -/
set_option autoImplicit false
namespace CondSat.Ieee

/-! ## Rounding to whole numbers -/

section RoundEven

variable {q r : ℚ} {n : Nat}

theorem roundEven_near (known : 0 ≤ q) : |q - roundEven q| ≤ 1 / 2 := by
  have low := Nat.floor_le known
  have high := Nat.lt_floor_add_one q
  unfold roundEven
  dsimp only
  rw [abs_le]
  split
  · next far =>
      push_cast
      rcases far with far | ⟨tie, -⟩ <;> constructor <;> linarith
  · next near =>
      have near : q - ⌊q⌋₊ ≤ 1 / 2 := not_lt.mp fun far => near (Or.inl far)
      constructor <;> linarith

theorem roundEven_even (known : 0 ≤ q) (tie : |q - roundEven q| = 1 / 2) :
    roundEven q % 2 = 0 := by
  have low := Nat.floor_le known
  unfold roundEven at tie ⊢
  dsimp only at tie ⊢
  split at tie
  · next far =>
      rw [if_pos far]
      push_cast at tie
      rcases far with far | ⟨-, odd⟩
      · have less := Nat.lt_floor_add_one q
        rw [abs_of_neg (by linarith)] at tie
        linarith
      · omega
  · next near =>
      rw [if_neg near]
      rw [abs_of_nonneg (by linarith)] at tie
      by_contra odd
      exact near (Or.inr ⟨tie, by omega⟩)

theorem roundEven_of_tie (known : 0 ≤ q) (tie : |q - n| = 1 / 2) (even : n % 2 = 0) :
    roundEven q = n := by
  have near := abs_le.mp (roundEven_near known)
  have sides := (abs_eq (by norm_num)).mp tie
  by_contra different
  -- the number it is rounded to is then the other neighbour, which is odd
  have half : |q - roundEven q| = 1 / 2 := by
    rcases Nat.lt_or_gt_of_ne different with less | more
    · have less : (roundEven q : ℚ) + 1 ≤ n := by exact_mod_cast less
      rw [abs_of_nonneg] <;> rcases sides with above | below <;> linarith
    · have more : (n : ℚ) + 1 ≤ roundEven q := by exact_mod_cast more
      rw [abs_of_nonpos] <;> rcases sides with above | below <;> linarith
  have otherEven := roundEven_even known half
  have low : (roundEven q : ℚ) ≤ (n + 1 : Nat) := by
    push_cast
    rcases sides with above | below <;> linarith
  have high : (n : ℚ) ≤ (roundEven q + 1 : Nat) := by
    push_cast
    rcases sides with above | below <;> linarith
  have low : roundEven q ≤ n + 1 := by exact_mod_cast low
  have high : n ≤ roundEven q + 1 := by exact_mod_cast high
  omega

theorem roundEven_mono (known : 0 ≤ q) (less : q ≤ r) : roundEven q ≤ roundEven r := by
  by_contra more
  have more : (roundEven r : ℚ) + 1 ≤ roundEven q := by exact_mod_cast not_le.mp more
  have nearQ := abs_le.mp (roundEven_near known)
  have nearR := abs_le.mp (roundEven_near (known.trans less))
  have same : q = r := by linarith
  subst same
  linarith

theorem roundEven_natCast (n : Nat) : roundEven n = n :=
  roundEven_eq (by linarith) (by linarith)

theorem roundEven_reflect (known : 0 ≤ q) (inside : q ≤ 2 * n) :
    roundEven q ≤ 2 * n ∧ roundEven (2 * n - q) = 2 * n - roundEven q := by
  have bounded : roundEven q ≤ 2 * n := by
    have rounded := roundEven_mono known inside
    have whole := roundEven_natCast (2 * n)
    push_cast at whole
    rwa [whole] at rounded
  refine ⟨bounded, ?_⟩
  have near := roundEven_near known
  have apart : (2 * n - q) - ((2 * n - roundEven q : Nat) : ℚ) = -(q - roundEven q) := by
    push_cast [Nat.cast_sub bounded]
    ring
  rcases near.lt_or_eq with less | tie
  · rw [abs_lt] at less
    apply roundEven_eq <;> linarith
  · apply roundEven_of_tie (by linarith)
    · rw [apart, abs_neg, tie]
    · have even := roundEven_even known tie
      omega

theorem roundEven_nearest (known : 0 ≤ q) (n : Nat) : |q - roundEven q| ≤ |q - n| := by
  have near := roundEven_near known
  rcases le_or_gt (1 / 2) |q - n| with far | close
  · exact near.trans far
  · rw [abs_lt] at close
    rw [roundEven_eq (n := n) (by linarith) (by linarith)]

theorem between_of_roundEven (low high : Nat) (known : 0 ≤ q) (above : low < roundEven q)
    (below : roundEven q < high) : low < q ∧ q < high := by
  have near := abs_le.mp (roundEven_near known)
  have above : (low : ℚ) + 1 ≤ roundEven q := by exact_mod_cast above
  have below : (roundEven q : ℚ) + 1 ≤ high := by exact_mod_cast below
  constructor <;> linarith

/-- A number rounded to whole numbers and then to multiples of a power of two, counted in these
multiples. -/
def roundTwice (places : Nat) (q : ℚ) : Nat := roundEven (roundEven q / 2 ^ places)

variable {places : Nat}

theorem between_of_roundTwice (low high : Nat) (known : 0 ≤ q) (above : low < roundTwice places q)
    (below : roundTwice places q < high) :
    (low * 2 ^ places : Nat) < q ∧ q < (high * 2 ^ places : Nat) := by
  have power : (0 : ℚ) < 2 ^ places := by positivity
  obtain ⟨above, below⟩ := between_of_roundEven low high
    (div_nonneg (Nat.cast_nonneg _) power.le) above below
  rw [lt_div_iff₀ power] at above
  rw [div_lt_iff₀ power] at below
  exact between_of_roundEven _ _ known (by exact_mod_cast above) (by exact_mod_cast below)

/-- Rounding twice is symmetric about the multiple a number is rounded to, as each rounding is. -/
theorem roundTwice_reflect (known : 0 ≤ q) (rounds : roundTwice places q = n) (some : 0 < n) :
    q < 2 * (n * 2 ^ places : Nat) ∧ roundTwice places (2 * (n * 2 ^ places : Nat) - q) = n := by
  have power : (0 : ℚ) < 2 ^ places := by positivity
  have inside : q < 2 * (n * 2 ^ places : Nat) := by
    have below := (between_of_roundTwice 0 (2 * n) known (rounds ▸ some) (by omega)).2
    rwa [Nat.mul_assoc, Nat.cast_mul, Nat.cast_ofNat] at below
  obtain ⟨bounded, first⟩ := roundEven_reflect known inside.le
  have whole : ((2 * (n * 2 ^ places) - roundEven q : Nat) : ℚ) / 2 ^ places =
      2 * n - roundEven q / 2 ^ places := by
    rw [Nat.cast_sub bounded, sub_div]
    congr 1
    push_cast
    rw [← mul_assoc, mul_div_cancel_right₀ _ power.ne']
  have less : (roundEven q : ℚ) / 2 ^ places ≤ 2 * n := by
    rw [div_le_iff₀ power, mul_assoc]
    exact_mod_cast bounded
  have second := (roundEven_reflect (div_nonneg (Nat.cast_nonneg _) power.le) less).2
  refine ⟨inside, ?_⟩
  rw [roundTwice, first, whole, second, ← roundTwice, rounds]
  omega

end RoundEven

namespace Format

variable {f : Format} {q r : ℚ} {m n : Nat}

/-! ## The order of magnitudes -/

theorem value_lt (less : m < n) : f.value m < f.value n := by
  obtain ⟨split, small, -⟩ := f.significand_bounds m
  obtain ⟨split', -, large⟩ := f.significand_bounds n
  have power : (0 : ℚ) < 2 ^ f.exponent m := zpow_pos two_pos _
  have binades : f.binade m ≤ f.binade n := Nat.sub_le_sub_right (Nat.div_le_div_right less.le) 1
  rcases binades.lt_or_eq with lower | same
  · obtain ⟨gap, apart⟩ := Nat.exists_eq_add_of_lt lower
    have exponents : (2 : ℚ) ^ f.exponent n = 2 ^ f.exponent m * (2 * 2 ^ gap) := by
      rw [← pow_succ', ← zpow_natCast, ← zpow_add₀ two_ne_zero, exponent, exponent, apart]
      congr 1
      push_cast
      ring
    have grown : (1 : ℚ) ≤ 2 ^ gap := one_le_pow₀ one_le_two
    have small : (f.significand m : ℚ) < 2 * f.hiddenBit := by exact_mod_cast small
    have large : (f.hiddenBit : ℚ) ≤ f.significand n := by
      exact_mod_cast large (Nat.zero_lt_of_lt lower)
    have hidden : (0 : ℚ) < f.hiddenBit := by exact_mod_cast f.hiddenBit_pos
    calc f.value m < 2 * f.hiddenBit * 2 ^ f.exponent m := mul_lt_mul_of_pos_right small power
      _ ≤ f.significand n * (2 * 2 ^ gap) * 2 ^ f.exponent m := by
          apply mul_le_mul_of_nonneg_right _ power.le
          nlinarith
      _ = f.value n := by
          rw [value, exponents]
          ring
  · rw [same] at split
    have significands : (f.significand m : ℚ) < f.significand n := by
      exact_mod_cast (show f.significand m < f.significand n by omega)
    rw [value, value, exponent, exponent, same]
    exact mul_lt_mul_of_pos_right significands (zpow_pos two_pos _)

theorem value_le (less : m ≤ n) : f.value m ≤ f.value n := by
  rcases less.lt_or_eq with less | rfl
  · exact (value_lt less).le
  · exact le_rfl

theorem lt_of_value_lt (less : f.value m < f.value n) : m < n :=
  not_le.mp fun more => absurd (value_le more) (not_le.mpr less)

/-! ## The order of rounded numbers -/

theorem unit_mono (positive : 0 < q) (less : q ≤ r) : f.unit q ≤ f.unit r :=
  max_le_max_left _ (sub_le_sub_right (Int.log_mono_right positive less) _)

theorem unit_of_log {k : Int} (low : 2 ^ k ≤ q) (high : q < 2 ^ (k + 1)) :
    f.unit q = max f.leastExponent (k - (f.precision - 1)) := by
  rw [unit, log_eq one_lt_two (by exact_mod_cast low) (by exact_mod_cast high)]

theorem unit_eq_exponent (precise : 1 ≤ f.precision) {j : Nat} (low : 2 ^ j ≤ f.significand m)
    (high : f.significand m < 2 ^ (j + 1)) (above : 2 ^ (f.exponent m + j) ≤ q)
    (below : q < 2 ^ (f.exponent m + j + 1)) : f.unit q = f.exponent m := by
  obtain ⟨-, small, large⟩ := f.significand_bounds m
  have hidden : f.hiddenBit = 2 ^ (f.precision - 1) := rfl
  have fits : j < f.precision := by
    by_contra more
    have more := Nat.pow_le_pow_right two_pos (not_lt.mp more)
    have doubled : 2 * f.hiddenBit = 2 ^ f.precision := by
      rw [hidden, ← Nat.pow_succ', Nat.succ_eq_add_one, Nat.sub_add_cancel precise]
    omega
  rw [unit_of_log above below]
  rcases Nat.eq_zero_or_pos (f.binade m) with subnormal | normal
  · rw [exponent, subnormal]
    omega
  · have fills : f.precision - 1 ≤ j := by
      have less := (large normal).trans_lt high
      rw [hidden] at less
      exact Nat.lt_succ_iff.mp ((Nat.pow_lt_pow_iff_right one_lt_two).mp less)
    rw [exponent]
    omega

theorem lt_hiddenBit_unit (precise : 1 ≤ f.precision) (positive : 0 < q) :
    q / 2 ^ f.unit q < 2 * f.hiddenBit := by
  rw [div_lt_iff₀ (zpow_pos two_pos _), hiddenBit_eq_zpow precise, ← zpow_one_add₀ two_ne_zero,
    ← zpow_add₀ two_ne_zero]
  have fits : Int.log 2 q < 1 + (f.precision - 1 : Int) + f.unit q := by
    unfold unit
    omega
  exact_mod_cast (Int.lt_zpow_iff_log_lt one_lt_two positive).mpr fits

theorem hiddenBit_le_unit (precise : 1 ≤ f.precision) (positive : 0 < q)
    (normal : f.leastExponent < f.unit q) : (f.hiddenBit : ℚ) ≤ q / 2 ^ f.unit q := by
  rw [le_div_iff₀ (zpow_pos two_pos _), hiddenBit_eq_zpow precise, ← zpow_add₀ two_ne_zero]
  have fills : (f.precision - 1 : Int) + f.unit q ≤ Int.log 2 q := by
    unfold unit at *
    omega
  exact_mod_cast (Int.zpow_le_iff_le_log one_lt_two positive).mpr fills

theorem roundEven_unit_le (precise : 1 ≤ f.precision) (positive : 0 < q) :
    roundEven (q / 2 ^ f.unit q) ≤ 2 * f.hiddenBit := by
  have scaled : 0 ≤ q / 2 ^ f.unit q := div_nonneg positive.le (zpow_pos two_pos _).le
  have rounded := roundEven_mono scaled (lt_hiddenBit_unit precise positive).le
  have whole := roundEven_natCast (2 * f.hiddenBit)
  push_cast at whole
  rwa [whole] at rounded

theorem le_roundEven_unit (precise : 1 ≤ f.precision) (positive : 0 < q)
    (normal : f.leastExponent < f.unit q) : f.hiddenBit ≤ roundEven (q / 2 ^ f.unit q) := by
  have rounded := roundEven_mono (Nat.cast_nonneg _) (hiddenBit_le_unit precise positive normal)
  rwa [roundEven_natCast] at rounded

/-- A magnitude put together from a binade and a significand, which may be one that is carried
into the next binade. -/
theorem value_add {b s : Nat} (bounded : s ≤ 2 * f.hiddenBit)
    (normal : 0 < b → f.hiddenBit ≤ s) :
    f.value (b * f.hiddenBit + s) = s * 2 ^ (f.leastExponent + b) := by
  have hidden := f.hiddenBit_pos
  rcases bounded.lt_or_eq with inside | carried
  · by_cases small : s < f.hiddenBit
    · have subnormal : b = 0 := by
        by_contra above
        exact absurd (normal (Nat.pos_of_ne_zero above)) (by omega)
      have binade : f.binade s = 0 := by rw [binade, Nat.div_eq_of_lt small]
      subst subnormal
      rw [Nat.zero_mul, Nat.zero_add, value, exponent, significand, binade]
      simp
    · obtain ⟨binade, significand⟩ := binade_add (f := f) (b := b) (not_lt.mp small) inside
      rw [value, exponent, binade, significand]
  · -- a carry out of the significand starts the next binade
    obtain ⟨binade, significand⟩ :=
      binade_add (f := f) (b := b + 1) (s := f.hiddenBit) le_rfl (by omega)
    have same : b * f.hiddenBit + s = (b + 1) * f.hiddenBit + f.hiddenBit := by
      rw [carried, Nat.add_mul]
      omega
    rw [same, value, exponent, binade, significand, carried, Nat.cast_add, ← add_assoc,
      Nat.cast_one, zpow_add_one₀ two_ne_zero]
    push_cast
    ring

/-- What a number is rounded to, in units of its last place. -/
theorem value_rounded (precise : 1 ≤ f.precision) (positive : 0 < q) :
    f.value (f.rounded q) = roundEven (q / 2 ^ f.unit q) * 2 ^ f.unit q := by
  have least : f.leastExponent ≤ f.unit q := le_max_left _ _
  have places : f.leastExponent + (f.unit q - f.leastExponent).toNat = f.unit q := by omega
  rw [rounded, value_add (roundEven_unit_le precise positive), places]
  intro above
  exact le_roundEven_unit precise positive (by omega)

theorem rounded_mono (precise : 1 ≤ f.precision) (positive : 0 < q) (less : q ≤ r) :
    f.rounded q ≤ f.rounded r := by
  have positive' := positive.trans_le less
  have least : f.leastExponent ≤ f.unit q := le_max_left _ _
  rcases (unit_mono (f := f) positive less).lt_or_eq with lower | same
  · have low := roundEven_unit_le precise positive
    have high := le_roundEven_unit precise positive' (by omega)
    obtain ⟨gap, apart⟩ : ∃ gap : Nat, (f.unit r - f.leastExponent).toNat =
        (f.unit q - f.leastExponent).toNat + 1 + gap :=
      ⟨(f.unit r - f.unit q - 1).toNat, by omega⟩
    rw [rounded, rounded, apart, Nat.add_mul, Nat.add_mul]
    omega
  · have power : (0 : ℚ) < 2 ^ f.unit r := zpow_pos two_pos _
    rw [rounded, rounded, same]
    refine Nat.add_le_add_left (roundEven_mono ?_ ?_) _
    · exact div_nonneg positive.le power.le
    · exact div_le_div_of_nonneg_right less power.le

theorem nearest_mono (precise : 1 ≤ f.precision) (known : 0 ≤ q) (less : q ≤ r) :
    f.nearest q ≤ f.nearest r := by
  rcases known.eq_or_lt with rfl | positive
  · rw [nearest, if_pos rfl]
    exact Nat.zero_le _
  · have order := rounded_mono precise positive less
    rw [nearest, nearest, if_neg positive.ne', if_neg (positive.trans_le less).ne']
    split <;> split <;> omega

/-- A power of two that is not too small is the value of the magnitude it is rounded to. -/
theorem value_rounded_zpow (precise : 1 ≤ f.precision) {k : Int} (least : f.leastExponent ≤ k) :
    f.value (f.rounded (2 ^ k)) = 2 ^ k := by
  have power : (0 : ℚ) < 2 ^ k := zpow_pos two_pos _
  have logged : Int.log 2 ((2 : ℚ) ^ k) = k := by
    exact_mod_cast Int.log_zpow (R := ℚ) one_lt_two k
  have fits : f.unit (2 ^ k) ≤ k := by
    unfold unit
    omega
  obtain ⟨places, apart⟩ : ∃ places : Nat, k - f.unit (2 ^ k) = places :=
    Int.eq_ofNat_of_zero_le (by omega)
  have whole : (2 : ℚ) ^ k / 2 ^ f.unit (2 ^ k) = (2 ^ places : Nat) := by
    rw [← zpow_sub₀ two_ne_zero, apart, zpow_natCast, Nat.cast_pow, Nat.cast_ofNat]
  rw [value_rounded precise power, whole, roundEven_natCast, ← whole,
    div_mul_cancel₀ _ (zpow_pos two_pos _).ne']

theorem rounded_of_nearest (positive : 0 < q) (finite : m < f.infinity)
    (rounds : f.nearest q = m) : f.rounded q = m := by
  rw [nearest, if_neg positive.ne'] at rounds
  split at rounds
  · exact rounds
  · omega

theorem between_of_nearest (precise : 1 ≤ f.precision) {k : Int} (least : f.leastExponent ≤ k)
    (finite : m < f.infinity) (low : 2 ^ k < f.value m) (high : f.value m < 2 ^ (k + 1))
    (positive : 0 < q) (rounds : f.nearest q = m) : 2 ^ k < q ∧ q < 2 ^ (k + 1) := by
  have rounds := rounded_of_nearest positive finite rounds
  constructor
  · by_contra below
    have order := rounded_mono precise positive (not_lt.mp below)
    rw [← value_rounded_zpow precise least] at low
    exact absurd order (not_le.mpr (rounds ▸ lt_of_value_lt low))
  · by_contra above
    have order := rounded_mono precise (zpow_pos two_pos (k + 1)) (not_lt.mp above)
    rw [← value_rounded_zpow precise (show f.leastExponent ≤ k + 1 by omega)] at high
    exact absurd order (not_le.mpr (rounds ▸ lt_of_value_lt high))

section Binade

variable {j : Nat} (precise : 1 ≤ f.precision) (low : 2 ^ j < f.significand m)
  (high : f.significand m < 2 ^ (j + 1))
include precise low high

omit precise in
theorem value_between :
    2 ^ (f.exponent m + j) < f.value m ∧ f.value m < 2 ^ (f.exponent m + j + 1) := by
  have power : (0 : ℚ) < 2 ^ f.exponent m := zpow_pos two_pos _
  have places : f.exponent m + j + 1 = f.exponent m + (j + 1 : Nat) := by
    push_cast
    ring
  have low : (2 : ℚ) ^ j < f.significand m := by exact_mod_cast low
  have high : (f.significand m : ℚ) < 2 ^ (j + 1) := by exact_mod_cast high
  rw [value, places, zpow_add₀ two_ne_zero, zpow_add₀ two_ne_zero, zpow_natCast, zpow_natCast,
    mul_comm (f.significand m : ℚ)]
  exact ⟨mul_lt_mul_of_pos_left low power, mul_lt_mul_of_pos_left high power⟩

/-- In the binade of a number that is no power of two, the numbers that are rounded to it are
those whose significands are. -/
theorem nearest_eq_iff (finite : m < f.infinity) (positive : 0 < q) :
    f.nearest q = m ↔ roundEven (q / 2 ^ f.exponent m) = f.significand m := by
  have power : (0 : ℚ) < 2 ^ f.exponent m := zpow_pos two_pos _
  have scaled : 0 ≤ q / 2 ^ f.exponent m := div_nonneg positive.le power.le
  have least : f.leastExponent ≤ f.exponent m := by
    unfold exponent
    omega
  have binades : (f.exponent m - f.leastExponent).toNat = f.binade m := by
    rw [exponent]
    omega
  have split := (f.significand_bounds m).1
  have roundedIs : 2 ^ (f.exponent m + j) < q → q < 2 ^ (f.exponent m + j + 1) →
      f.rounded q = f.binade m * f.hiddenBit + roundEven (q / 2 ^ f.exponent m) := by
    intro above below
    rw [rounded, unit_eq_exponent precise low.le high above.le below, binades]
  constructor
  · intro rounds
    obtain ⟨lower, upper⟩ := value_between low high
    obtain ⟨above, below⟩ :=
      between_of_nearest precise (by omega) finite lower upper positive rounds
    have rounds := rounded_of_nearest positive finite rounds
    rw [roundedIs above below] at rounds
    omega
  · intro rounds
    obtain ⟨above, below⟩ := between_of_roundEven _ _ scaled (rounds ▸ low) (rounds ▸ high)
    rw [lt_div_iff₀ power, Nat.cast_pow, Nat.cast_ofNat, ← zpow_natCast,
      ← zpow_add₀ two_ne_zero, add_comm] at above
    rw [div_lt_iff₀ power, Nat.cast_pow, Nat.cast_ofNat, ← zpow_natCast,
      ← zpow_add₀ two_ne_zero, add_comm, Nat.cast_succ, ← add_assoc] at below
    rw [nearest, if_neg positive.ne', roundedIs above below, rounds, ← split, if_pos finite]

end Binade

end Format

end CondSat.Ieee
