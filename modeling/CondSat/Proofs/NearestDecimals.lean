import CondSat.Proofs.RoundingOrder

/-! # Decimals with few digits

The two neighbours of a number with a given count of digits leave no room between them: a
decimal with at most as many digits lies on one side of both.  So the nearer neighbour is at
least as near as any such decimal.  Where the decimals that are read as a number form an
interval around it, and some decimal with few digits is read as the number, so is one of the
neighbours; hence the decimal that is written has as few digits as any. -/
set_option autoImplicit false
namespace CondSat.Ieee

/-! ## Significant digits -/

namespace Decimal

/-- The number of digits, leading and trailing zeros not counted. -/
def significantDigits (d : Decimal) : Nat :=
  if d.digits = 0 then 0 else decimalLength d.trimmed.digits

theorem dropZeros_ends {fuel : Nat} {d : Decimal} (positive : 0 < d.digits)
    (enough : d.digits < 10 ^ fuel) : (dropZeros fuel d).digits % 10 ≠ 0 := by
  induction fuel generalizing d with
  | zero => omega
  | succ fuel ih =>
      unfold dropZeros
      split
      · next trailing =>
          simp only [Bool.and_eq_true, decide_eq_true_eq] at trailing
          rw [Nat.pow_succ] at enough
          apply ih <;> dsimp only <;> omega
      · next ends =>
          simp only [Bool.and_eq_true, decide_eq_true_eq, bne_iff_ne, not_and, not_not] at ends
          exact fun trailing => positive.ne' (ends trailing)

theorem digits_of_value_eq {d e : Decimal} (places : Nat) (same : d.value = e.value)
    (apart : d.exponent = e.exponent + places) : e.digits = d.digits * 10 ^ places := by
  have power : (10 : ℚ) ^ e.exponent ≠ 0 := (zpow_pos (by norm_num) _).ne'
  rw [value, value, apart, zpow_add₀ (by norm_num), zpow_natCast, mul_comm (10 ^ e.exponent : ℚ),
    ← mul_assoc] at same
  have digits := mul_right_cancel₀ power same
  exact_mod_cast digits.symm

/-- The significant digits are the fewest in which the number can be written. -/
theorem significantDigits_le_iff {d : Decimal} {count : Nat} :
    d.significantDigits ≤ count ↔ ∃ e : Decimal, e.digits < 10 ^ count ∧ e.value = d.value := by
  rcases Nat.eq_zero_or_pos d.digits with none | positive
  · rw [significantDigits, if_pos none]
    exact iff_of_true (Nat.zero_le _) ⟨d, none ▸ Nat.pow_pos (by decide), rfl⟩
  rw [significantDigits, if_neg positive.ne']
  obtain ⟨same, keeps⟩ := dropZeros_spec (decimalLength d.digits) d
  have ends : d.trimmed.digits % 10 ≠ 0 :=
    dropZeros_ends positive (decimalLength_bounds positive).2
  have trimmedPositive : 0 < d.trimmed.digits := keeps positive
  constructor
  · intro few
    have bounded := (decimalLength_bounds trimmedPositive).2
    exact ⟨d.trimmed, bounded.trans_le (Nat.pow_le_pow_right (by decide) few), same⟩
  · rintro ⟨e, short, value⟩
    have value : d.trimmed.value = e.value := same.trans value.symm
    rcases le_or_gt e.exponent d.trimmed.exponent with fine | coarse
    · obtain ⟨places, apart⟩ := Int.le.dest fine
      have digits := digits_of_value_eq places value apart.symm
      have less : d.trimmed.digits ≤ e.digits :=
        digits ▸ Nat.le_mul_of_pos_right _ (Nat.pow_pos (by decide))
      have counted : 0 < count := by
        by_contra none
        rw [Nat.eq_zero_of_not_pos none] at short
        omega
      exact (Nat.length_toDigits_le_iff (by decide) counted).mpr (less.trans_lt short)
    · -- the trimmed digits would end with a zero
      obtain ⟨places, apart⟩ := Int.le.dest (Int.add_one_le_iff.mpr coarse)
      have digits := digits_of_value_eq (places + 1) value.symm (by push_cast; omega)
      rw [digits, Nat.pow_succ, ← Nat.mul_assoc, Nat.mul_mod_left] at ends
      exact absurd rfl ends

theorem significantDigits_le {d : Decimal} {count : Nat} (counted : 0 < count)
    (short : d.digits ≤ 10 ^ count) : d.significantDigits ≤ count := by
  rw [significantDigits_le_iff]
  rcases short.lt_or_eq with less | power
  · exact ⟨d, less, rfl⟩
  · refine ⟨⟨1, d.exponent + count⟩, Nat.one_lt_pow counted.ne' (by decide), ?_⟩
    rw [value, value, power, zpow_add₀ (by norm_num), zpow_natCast]
    push_cast
    ring

theorem significantDigits_congr {d e : Decimal} (same : d.value = e.value) :
    d.significantDigits = e.significantDigits := by
  have least : ∀ count, d.significantDigits ≤ count ↔ e.significantDigits ≤ count := by
    intro count
    rw [significantDigits_le_iff, significantDigits_le_iff, same]
  exact le_antisymm ((least _).mpr le_rfl) ((least _).mp le_rfl)

end Decimal

/-! ## Neighbours -/

theorem lt_zpow_floorLog10 {numerator divisor : Nat} (positive : 0 < numerator)
    (proper : 0 < divisor) :
    (numerator : ℚ) / divisor < 10 ^ (floorLog10 numerator divisor + 1) := by
  have bottom : (0 : ℚ) < divisor := by exact_mod_cast proper
  unfold floorLog10
  split
  · next large =>
      have whole : 0 < numerator / divisor := Nat.div_pos large proper
      have high := (decimalLength_bounds whole).2
      rw [sub_add_cancel, zpow_natCast, div_lt_iff₀ bottom]
      have high := (Nat.div_lt_iff_lt_mul proper).mp high
      exact_mod_cast high
  · next small =>
      rcases Nat.eq_zero_or_pos ((divisor - 1) / numerator) with none | some
      · have none : divisor - 1 < numerator := (Nat.div_eq_zero_iff_lt positive).mp none
        omega
      · -- the divisor is at least the power of ten times the numerator and one more
        have low := (decimalLength_bounds some).1
        have nonempty : 0 < decimalLength ((divisor - 1) / numerator) := Nat.length_toDigits_pos
        have places : (-(decimalLength ((divisor - 1) / numerator) : Int) + 1) =
            -((decimalLength ((divisor - 1) / numerator) - 1 : Nat) : Int) := by omega
        have covered := Nat.mul_le_mul_right numerator low
        have covered := covered.trans (Nat.div_mul_le_self (divisor - 1) numerator)
        have covered : 10 ^ (decimalLength ((divisor - 1) / numerator) - 1) * numerator <
            divisor := by omega
        rw [places, zpow_neg, zpow_natCast, inv_eq_one_div,
          div_lt_div_iff₀ bottom (by positivity), one_mul, mul_comm]
        exact_mod_cast covered

namespace Format

section Neighbours

variable {count numerator divisor : Nat}

theorem lt_lastUnit (count : Nat) (positive : 0 < numerator) (proper : 0 < divisor) :
    (numerator : ℚ) / divisor / lastUnit count numerator divisor < (10 ^ count : Nat) := by
  have high := lt_zpow_floorLog10 positive proper
  rw [div_lt_iff₀ (lastUnit_pos count numerator divisor), lastUnit, Nat.cast_pow,
    Nat.cast_ofNat, ← zpow_natCast, ← zpow_add₀ (by norm_num)]
  have places : (count : Int) + (floorLog10 numerator divisor - (count - 1 : Int)) =
      floorLog10 numerator divisor + 1 := by ring
  rwa [places]

theorem le_lastUnit (positive : 0 < numerator) (proper : 0 < divisor) (counted : 0 < count) :
    ((10 ^ (count - 1) : Nat) : ℚ) ≤
      (numerator : ℚ) / divisor / lastUnit count numerator divisor := by
  rw [le_div_iff₀ (lastUnit_pos count numerator divisor), mul_comm, Nat.cast_pow, Nat.cast_ofNat]
  exact lastUnit_le positive proper counted

theorem neighbours_value (count numerator divisor : Nat) :
    (neighbours count numerator divisor).1.value =
        ⌊(numerator : ℚ) / divisor / lastUnit count numerator divisor⌋₊ *
          lastUnit count numerator divisor ∧
      (neighbours count numerator divisor).2.value =
        (⌊(numerator : ℚ) / divisor / lastUnit count numerator divisor⌋₊ + 1 : Nat) *
          lastUnit count numerator divisor := by
  rw [← neighbours_digits]
  exact ⟨rfl, rfl⟩

theorem neighbours_digits_le (count : Nat) (positive : 0 < numerator) (proper : 0 < divisor) :
    (neighbours count numerator divisor).1.digits ≤ 10 ^ count ∧
      (neighbours count numerator divisor).2.digits ≤ 10 ^ count := by
  have less : (neighbours count numerator divisor).1.digits < 10 ^ count := by
    rw [neighbours_digits]
    exact Nat.floor_lt' (Nat.pow_pos (by decide)).ne' |>.mpr (lt_lastUnit count positive proper)
  exact ⟨less.le, less⟩

/-- No decimal with at most as many digits lies between the neighbours. -/
theorem neighbours_cover (positive : 0 < numerator) (proper : 0 < divisor) (counted : 0 < count)
    {d : Decimal} (short : d.digits ≤ 10 ^ count) :
    d.value ≤ (neighbours count numerator divisor).1.value ∨
      (neighbours count numerator divisor).2.value ≤ d.value := by
  have unit := lastUnit_pos count numerator divisor
  have fills := le_lastUnit positive proper counted
  obtain ⟨below, above⟩ := neighbours_value count numerator divisor
  rw [below, above]
  rcases le_or_gt (floorLog10 numerator divisor - (count - 1 : Int)) d.exponent with coarse | fine
  · -- the decimal is a whole number of units
    obtain ⟨places, apart⟩ := Int.le.dest coarse
    have whole : d.value =
        (d.digits * 10 ^ places : Nat) * lastUnit count numerator divisor := by
      rw [Decimal.value, ← apart, zpow_add₀ (by norm_num), zpow_natCast, lastUnit]
      push_cast
      ring
    rw [whole]
    rcases Nat.lt_or_ge ⌊(numerator : ℚ) / divisor / lastUnit count numerator divisor⌋₊
      (d.digits * 10 ^ places) with more | less
    · right
      exact mul_le_mul_of_nonneg_right (by exact_mod_cast more) unit.le
    · left
      exact mul_le_mul_of_nonneg_right (by exact_mod_cast less) unit.le
  · -- the decimal is at most the least number of as many digits
    left
    have low : (10 : ℚ) ^ d.exponent ≤
        10 ^ (floorLog10 numerator divisor - (count - 1 : Int) - 1) :=
      zpow_le_zpow_right₀ (by norm_num) (by omega)
    have short : (d.digits : ℚ) ≤ 10 ^ count := by exact_mod_cast short
    have places : count = count - 1 + 1 := by omega
    calc d.value ≤ 10 ^ count * 10 ^ (floorLog10 numerator divisor - (count - 1 : Int) - 1) := by
          exact mul_le_mul short low (zpow_pos (by norm_num) _).le (by positivity)
      _ = (10 ^ (count - 1) : Nat) * lastUnit count numerator divisor := by
          rw [lastUnit, zpow_sub_one₀ (by norm_num)]
          nth_rewrite 1 [places]
          push_cast
          rw [pow_succ]
          field_simp
      _ ≤ _ := mul_le_mul_of_nonneg_right (by exact_mod_cast Nat.le_floor fills) unit.le

theorem neighbours_order (count numerator divisor : Nat) :
    (neighbours count numerator divisor).1.value ≤ (numerator : ℚ) / divisor ∧
      (numerator : ℚ) / divisor ≤ (neighbours count numerator divisor).2.value := by
  have unit := lastUnit_pos count numerator divisor
  obtain ⟨below, above⟩ := neighbours_value count numerator divisor
  rw [below, above, ← le_div_iff₀ unit, ← div_le_iff₀ unit]
  refine ⟨Nat.floor_le ?_, ?_⟩
  · exact div_nonneg (by positivity) unit.le
  · push_cast
    exact (Nat.lt_floor_add_one _).le

/-! ## The nearest decimal -/

theorem roundToDigits_value (count numerator : Nat) (proper : 0 < divisor) :
    (roundToDigits count numerator divisor).digits =
        roundEven ((numerator : ℚ) / divisor / lastUnit count numerator divisor) ∧
      (roundToDigits count numerator divisor).value =
        roundEven ((numerator : ℚ) / divisor / lastUnit count numerator divisor) *
          lastUnit count numerator divisor := by
  have digits : (roundToDigits count numerator divisor).digits =
      roundEven ((numerator : ℚ) / divisor / lastUnit count numerator divisor) := by
    have scaled := scaleDown_value (show 0 < 10 by decide)
      (floorLog10 numerator divisor - (count - 1 : Int)) numerator divisor
    rw [Nat.cast_ofNat] at scaled
    rw [lastUnit, ← scaled]
    exact quotient_eq false _ (scaleDown_pos (by decide) _ _ proper)
  exact ⟨digits, by rw [Decimal.value, digits]; rfl⟩

theorem roundToDigits_mem (count numerator : Nat) (proper : 0 < divisor) :
    roundToDigits count numerator divisor = (neighbours count numerator divisor).1 ∨
      roundToDigits count numerator divisor = (neighbours count numerator divisor).2 := by
  have digits := (roundToDigits_value count numerator proper).1
  have below := neighbours_digits count numerator divisor
  rw [roundEven, ← below] at digits
  split at digits
  · right
    exact congrArg (Decimal.mk · _) digits
  · left
    exact congrArg (Decimal.mk · _) digits

theorem roundToDigits_digits_le (positive : 0 < numerator) (proper : 0 < divisor) :
    (roundToDigits count numerator divisor).digits ≤ 10 ^ count := by
  have scaled : 0 ≤ (numerator : ℚ) / divisor / lastUnit count numerator divisor :=
    div_nonneg (by positivity) (lastUnit_pos count numerator divisor).le
  have rounded := roundEven_mono scaled (lt_lastUnit count positive proper).le
  rw [roundEven_natCast] at rounded
  rwa [(roundToDigits_value count numerator proper).1]

/-- The nearest decimal is as near as any with at most as many digits. -/
theorem roundToDigits_nearest (positive : 0 < numerator) (proper : 0 < divisor)
    (counted : 0 < count) {d : Decimal} (short : d.digits ≤ 10 ^ count) :
    |(numerator : ℚ) / divisor - (roundToDigits count numerator divisor).value| ≤
      |(numerator : ℚ) / divisor - d.value| := by
  have unit := lastUnit_pos count numerator divisor
  have scaled : 0 ≤ (numerator : ℚ) / divisor / lastUnit count numerator divisor :=
    div_nonneg (by positivity) unit.le
  have near : ∀ n : Nat, |(numerator : ℚ) / divisor - (roundToDigits count numerator divisor).value| ≤
      |(numerator : ℚ) / divisor - n * lastUnit count numerator divisor| := by
    intro n
    have units : ∀ n : Nat, (numerator : ℚ) / divisor - n * lastUnit count numerator divisor =
        ((numerator : ℚ) / divisor / lastUnit count numerator divisor - n) *
          lastUnit count numerator divisor := by
      intro n
      rw [sub_mul, div_mul_cancel₀ _ unit.ne']
    rw [(roundToDigits_value count numerator proper).2, units, units, abs_mul, abs_mul]
    exact mul_le_mul_of_nonneg_right (roundEven_nearest scaled n) (abs_nonneg _)
  obtain ⟨below, above⟩ := neighbours_value count numerator divisor
  obtain ⟨low, high⟩ := neighbours_order count numerator divisor
  have nearBelow := near ⌊(numerator : ℚ) / divisor / lastUnit count numerator divisor⌋₊
  have nearAbove := near (⌊(numerator : ℚ) / divisor / lastUnit count numerator divisor⌋₊ + 1)
  rw [← below, abs_of_nonneg (sub_nonneg.mpr low)] at nearBelow
  rw [← above, abs_of_nonpos (sub_nonpos.mpr high)] at nearAbove
  rcases neighbours_cover positive proper counted short with less | more
  · refine nearBelow.trans ?_
    rw [abs_of_nonneg] <;> linarith
  · refine nearAbove.trans ?_
    rw [abs_of_nonpos] <;> linarith

end Neighbours

/-! ## The shortest decimal -/

section Shortest

variable {f : Format} {count m : Nat}

/-- Where the decimals that are read as a number form an interval, and one with few digits
is read as the number, a neighbour with as many digits is. -/
theorem readableAt?_isSome (positive : 0 < m) (counted : 0 < count)
    (interval : ∀ d e : Decimal, f.ofDecimal false d = m →
      (d.value ≤ e.value ∧ e.value ≤ f.value m ∨ f.value m ≤ e.value ∧ e.value ≤ d.value) →
      f.ofDecimal false e = m)
    {d : Decimal} (short : d.digits ≤ 10 ^ count) (reads : f.ofDecimal false d = m) :
    (f.readableAt? count m).isSome = true := by
  have top := f.ratio_numerator_pos positive
  have bottom := f.ratio_pos m
  obtain ⟨low, high⟩ := neighbours_order count (f.ratio m).1 (f.ratio m).2
  rw [f.ratio_value] at low high
  have found : f.ofDecimal false (neighbours count (f.ratio m).1 (f.ratio m).2).1 = m ∨
      f.ofDecimal false (neighbours count (f.ratio m).1 (f.ratio m).2).2 = m := by
    rcases neighbours_cover top bottom counted short with less | more
    · exact Or.inl (interval d _ reads (Or.inl ⟨less, low⟩))
    · exact Or.inr (interval d _ reads (Or.inr ⟨high, more⟩))
  unfold readableAt?
  dsimp only
  split_ifs <;> simp_all

theorem readableAt?_digits_le (positive : 0 < m) {d : Decimal}
    (found : f.readableAt? count m = some d) : d.digits ≤ 10 ^ count := by
  obtain ⟨below, above⟩ := neighbours_digits_le count (f.ratio_numerator_pos positive)
    (f.ratio_pos m)
  unfold readableAt? at found
  dsimp only at found
  split_ifs at found <;> cases found <;> assumption

end Shortest

/-! ## Decimals of any size -/

theorem nearest_eq_zero {f : Format} {q : ℚ} (positive : 0 < q)
    (tiny : q < 2 ^ (f.leastExponent - 1)) : f.nearest q = 0 := by
  have power : (0 : ℚ) < 2 ^ f.leastExponent := zpow_pos two_pos _
  have logLess : Int.log 2 q < f.leastExponent - 1 :=
    (Int.lt_zpow_iff_log_lt one_lt_two positive).mp (by exact_mod_cast tiny)
  have least : f.unit q = f.leastExponent := by
    unfold unit
    omega
  have half : q / 2 ^ f.leastExponent < 1 / 2 := by
    rw [div_lt_iff₀ power]
    rw [zpow_sub_one₀ two_ne_zero] at tiny
    linarith
  have known : 0 ≤ q / 2 ^ f.leastExponent := div_nonneg positive.le power.le
  have rounded : f.rounded q = 0 := by
    rw [rounded, least, roundEven_eq (n := 0)]
    · simp
    · push_cast
      linarith
    · push_cast
      linarith
  rw [nearest, if_neg positive.ne', rounded]
  split <;> omega

theorem nearest_eq_infinity {f : Format} {q : ℚ} (precise : 1 ≤ f.precision)
    (bounded : 0 < f.infinity) (huge : f.value f.infinity ≤ q) : f.nearest q = f.infinity := by
  have positive := f.value_pos bounded
  have order := rounded_mono precise positive huge
  rw [f.rounded_value precise bounded] at order
  rw [nearest, if_neg (positive.trans_le huge).ne', if_neg (not_lt.mpr order)]

theorem double_value_infinity : double.value double.infinity = 2 ^ (1024 : Int) := by
  have significand : double.significand double.infinity = 2 ^ 52 := by decide
  have exponent : double.exponent double.infinity = 972 := by decide
  rw [value, significand, exponent, Nat.cast_pow, Nat.cast_ofNat, ← zpow_natCast,
    ← zpow_add₀ two_ne_zero]
  rfl

theorem double_ofDecimal (d : Decimal) : double.ofDecimal false d = double.nearest d.value := by
  rcases Nat.eq_zero_or_pos d.digits with none | positive
  · rw [ofDecimal, Decimal.value, none, Nat.cast_zero, zero_mul, nearest, if_pos rfl]
    rfl
  have value := Decimal.value_pos positive
  have logged := Decimal.log_value positive
  have reach : double.decimalReach = 2101 := rfl
  rw [Decimal.leadingExponent] at logged
  rcases lt_or_ge d.value (10 ^ (-double.decimalReach - 1 : Int)) with tiny | low
  · have logLess := (Int.lt_zpow_iff_log_lt (show 1 < 10 by decide) value).mp
      (show d.value < ((10 : Nat) : ℚ) ^ (-double.decimalReach - 1 : Int) by exact_mod_cast tiny)
    have read : double.ofDecimal false d = 0 := by
      unfold ofDecimal
      dsimp only
      rw [if_pos]
      · rfl
      · simp only [Bool.or_eq_true, decide_eq_true_eq]
        omega
    rw [read, nearest_eq_zero value]
    calc d.value < 10 ^ (-2102 : Int) := tiny
      _ = (10 ^ 2102)⁻¹ := by rw [zpow_neg, zpow_ofNat]
      _ ≤ (2 ^ 2102)⁻¹ :=
          inv_anti₀ (by positivity) (pow_le_pow_left₀ zero_le_two (by norm_num) 2102)
      _ = 2 ^ (-2102 : Int) := by rw [zpow_neg, zpow_ofNat]
      _ ≤ 2 ^ (double.leastExponent - 1) := zpow_le_zpow_right₀ one_le_two (by decide)
  · rcases lt_or_ge d.value (10 ^ double.decimalReach) with high | huge
    · exact double.ofDecimal_eq_nearest positive low high
    · have logLeast := (Int.zpow_le_iff_le_log (show 1 < 10 by decide) value).mp
        (show ((10 : Nat) : ℚ) ^ (double.decimalReach : Int) ≤ d.value by exact_mod_cast huge)
      have read : double.ofDecimal false d = double.infinity := by
        unfold ofDecimal
        dsimp only
        rw [if_neg, if_pos (by omega)]
        · rfl
        · simp only [Bool.or_eq_true, decide_eq_true_eq]
          omega
      rw [read, nearest_eq_infinity (by decide) (by decide)]
      calc double.value double.infinity = 2 ^ (1024 : Int) := double_value_infinity
        _ ≤ 2 ^ (2101 : Int) := zpow_le_zpow_right₀ one_le_two (by decide)
        _ = 2 ^ 2101 := zpow_ofNat _ _
        _ ≤ 10 ^ 2101 := pow_le_pow_left₀ zero_le_two (by norm_num) 2101
        _ ≤ d.value := huge

/-- The decimal of a 64-bit number has as few digits as any that is read as the number. -/
theorem double_shortest_digits_le {m count : Nat} (positive : 0 < m)
    (finite : m < double.infinity) (counted : 0 < count) (bounded : count ≤ digitBound)
    {d : Decimal} (short : d.digits ≤ 10 ^ count) (reads : double.ofDecimal false d = m) :
    (double.shortest m).digits ≤ 10 ^ count := by
  have interval : ∀ d e : Decimal, double.ofDecimal false d = m →
      (d.value ≤ e.value ∧ e.value ≤ double.value m ∨
        double.value m ≤ e.value ∧ e.value ≤ d.value) → double.ofDecimal false e = m := by
    intro d e reads between
    have exact := nearest_value double (by decide) finite
    rw [double_ofDecimal] at reads ⊢
    rcases between with ⟨low, high⟩ | ⟨low, high⟩
    · have lower := nearest_mono (f := double) (by decide) d.value_nonneg low
      have upper := nearest_mono (f := double) (by decide) e.value_nonneg high
      omega
    · have lower := nearest_mono (f := double) (by decide) (double.value_pos positive).le low
      have upper := nearest_mono (f := double) (by decide) e.value_nonneg high
      omega
  have readable := readableAt?_isSome positive counted interval short reads
  obtain ⟨first, shortest, -, least, read, found⟩ := double.shortestFrom_ends readable
    counted (show count < 1 + digitBound by omega)
  rw [Format.shortest, found]
  exact (readableAt?_digits_le positive read).trans (Nat.pow_le_pow_right (by decide) least)

end Format

end CondSat.Ieee
