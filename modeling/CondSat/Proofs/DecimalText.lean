import CondSat.Ieee.Number
import CondSat.Proofs.Numerals
import CondSat.Proofs.Rounding

/-! # Decimal text of floating-point numbers

What a decimal is read as depends on its value only.  Seventeen digits tell every
64-bit number from its neighbours, so the decimal that is written for a number is
read back as this number, and so is its text in every layout. -/
set_option autoImplicit false
namespace CondSat.Ieee

/-! ## Values of decimals -/

/-- The value of a decimal. -/
def Decimal.value (d : Decimal) : ℚ := d.digits * 10 ^ d.exponent

theorem decimalLength_bounds {n : Nat} (positive : 0 < n) :
    10 ^ (decimalLength n - 1) ≤ n ∧ n < 10 ^ decimalLength n := by
  have nonempty : 0 < decimalLength n := Nat.length_toDigits_pos
  have fits : ∀ count, 0 < count → (decimalLength n ≤ count ↔ n < 10 ^ count) := fun _ counted =>
    Nat.length_toDigits_le_iff (by decide) counted
  refine ⟨?_, (fits _ nonempty).mp (Nat.le_refl _)⟩
  by_cases one : decimalLength n = 1
  · rw [one]
    exact positive
  · have short := fits (decimalLength n - 1) (by omega)
    omega

theorem Decimal.value_pos {d : Decimal} (positive : 0 < d.digits) : 0 < d.value := by
  have positive : (0 : ℚ) < d.digits := by exact_mod_cast positive
  exact mul_pos positive (zpow_pos (by norm_num) _)

theorem Decimal.value_nonneg (d : Decimal) : 0 ≤ d.value :=
  mul_nonneg (Nat.cast_nonneg _) (zpow_pos (by norm_num) _).le

theorem Decimal.value_eq_zero {d : Decimal} : d.value = 0 ↔ d.digits = 0 := by
  constructor
  · intro none
    by_contra some
    exact (Decimal.value_pos (Nat.pos_of_ne_zero some)).ne' none
  · intro none
    rw [value, none, Nat.cast_zero, zero_mul]

theorem Decimal.log_value {d : Decimal} (positive : 0 < d.digits) :
    Int.log 10 d.value = d.leadingExponent := by
  obtain ⟨low, high⟩ := decimalLength_bounds positive
  have nonempty : 0 < decimalLength d.digits := Nat.length_toDigits_pos
  have power : (0 : ℚ) < 10 ^ d.exponent := zpow_pos (by norm_num) _
  have length : (decimalLength d.digits - 1 : Int) = (decimalLength d.digits - 1 : Nat) := by omega
  unfold leadingExponent value
  apply log_eq (by decide)
  · have low : (10 : ℚ) ^ (decimalLength d.digits - 1) ≤ d.digits := by exact_mod_cast low
    rw [length, Nat.cast_ofNat, zpow_add₀ (by norm_num), zpow_natCast, mul_comm]
    exact mul_le_mul_of_nonneg_right low power.le
  · have high : (d.digits : ℚ) < 10 ^ decimalLength d.digits := by exact_mod_cast high
    rw [add_assoc, sub_add_cancel, Nat.cast_ofNat, zpow_add₀ (by norm_num), zpow_natCast, mul_comm]
    exact mul_lt_mul_of_pos_left high power

theorem Decimal.ratio_value (d : Decimal) : (d.ratio.1 : ℚ) / d.ratio.2 = d.value := by
  rw [ratio, scaleDown_value (by decide), Nat.cast_one, div_one, zpow_neg, div_inv_eq_mul,
    Nat.cast_ofNat, value]

theorem zpow_floorLog10_le {numerator divisor : Nat} (positive : 0 < numerator)
    (proper : 0 < divisor) :
    (10 : ℚ) ^ floorLog10 numerator divisor ≤ (numerator : ℚ) / divisor := by
  have bottom : (0 : ℚ) < divisor := by exact_mod_cast proper
  unfold floorLog10
  split
  · next large =>
      have whole : 0 < numerator / divisor := Nat.div_pos large proper
      have low := (decimalLength_bounds whole).1
      have nonempty : 0 < decimalLength (numerator / divisor) := Nat.length_toDigits_pos
      have length : (decimalLength (numerator / divisor) - 1 : Int) =
          (decimalLength (numerator / divisor) - 1 : Nat) := by omega
      rw [length, zpow_natCast, le_div_iff₀ bottom]
      have low := Nat.mul_le_mul_right divisor low
      exact_mod_cast low.trans (Nat.div_mul_le_self numerator divisor)
  · next small =>
      rw [zpow_neg, zpow_natCast, inv_eq_one_div, div_le_div_iff₀ (by positivity) bottom, one_mul]
      have covered : (divisor - 1) / numerator < 10 ^ decimalLength ((divisor - 1) / numerator) :=
        (Nat.length_toDigits_le_iff (by decide) Nat.length_toDigits_pos).mp (Nat.le_refl _)
      have covered := (Nat.div_lt_iff_lt_mul positive).mp covered
      have covered : divisor ≤ numerator * 10 ^ decimalLength ((divisor - 1) / numerator) := by
        rw [Nat.mul_comm]
        omega
      exact_mod_cast covered

/-! ## Reading decimals -/

namespace Format

variable (f : Format)

theorem ofRatio_decimal (negative : Bool) (d : Decimal) :
    f.ofRatio .nearestEven negative d.ratio.1 d.ratio.2 =
      f.withSign negative (f.nearest d.value) := by
  have proper : 0 < d.ratio.2 := scaleDown_pos (by decide) _ _ one_pos
  rw [ofRatio_eq f negative _ proper, d.ratio_value]

theorem ofDecimal_congr {d e : Decimal} (same : d.value = e.value) (negative : Bool) :
    f.ofDecimal negative d = f.ofDecimal negative e := by
  have zeros : d.digits = 0 ↔ e.digits = 0 := by
    rw [← Decimal.value_eq_zero, ← Decimal.value_eq_zero, same]
  by_cases none : d.digits = 0
  · simp [ofDecimal, none, zeros.mp none]
  · have some : e.digits ≠ 0 := fun other => none (zeros.mpr other)
    have position : decimalLength d.digits + d.exponent = decimalLength e.digits + e.exponent := by
      have left := Decimal.log_value (Nat.pos_of_ne_zero none)
      have right := Decimal.log_value (Nat.pos_of_ne_zero some)
      rw [same, right] at left
      unfold Decimal.leadingExponent at left
      omega
    unfold ofDecimal
    rw [position, ofRatio_decimal, ofRatio_decimal, same]
    simp [none, some]

theorem ofDecimal_sign (negative : Bool) (d : Decimal) :
    f.ofDecimal negative d = f.withSign negative (f.ofDecimal false d) := by
  unfold ofDecimal
  rw [ofRatio_decimal, ofRatio_decimal]
  dsimp only
  split <;> [rfl; split <;> rfl]

/-- A decimal that is neither huge nor tiny is rounded to the nearest number. -/
theorem ofDecimal_eq_nearest {d : Decimal} (positive : 0 < d.digits)
    (low : (10 : ℚ) ^ (-f.decimalReach - 1 : Int) ≤ d.value)
    (high : d.value < 10 ^ f.decimalReach) :
    f.ofDecimal false d = f.nearest d.value := by
  have logged := Decimal.log_value positive
  have atLeast := (Int.zpow_le_iff_le_log (show 1 < 10 by decide) (Decimal.value_pos positive)).mp
    (by exact_mod_cast low)
  have atMost := (Int.lt_zpow_iff_log_lt (show 1 < 10 by decide) (Decimal.value_pos positive)).mp
    (show d.value < ((10 : Nat) : ℚ) ^ (f.decimalReach : Int) by exact_mod_cast high)
  rw [logged, Decimal.leadingExponent] at atLeast atMost
  unfold ofDecimal
  dsimp only
  rw [if_neg, if_neg (by omega), ofRatio_decimal]
  · rfl
  · simp only [Bool.or_eq_true, decide_eq_true_eq]
    omega

/-! ## Neighbours -/

section Neighbours

variable {count numerator divisor : Nat}

def lastUnit (count numerator divisor : Nat) : ℚ :=
  10 ^ (floorLog10 numerator divisor - (count - 1 : Int))

theorem lastUnit_pos (count numerator divisor : Nat) : 0 < lastUnit count numerator divisor :=
  zpow_pos (by norm_num) _

theorem lastUnit_le (positive : 0 < numerator) (proper : 0 < divisor) (counted : 0 < count) :
    lastUnit count numerator divisor * 10 ^ (count - 1) ≤ (numerator : ℚ) / divisor := by
  have places : (count - 1 : Int) = (count - 1 : Nat) := by omega
  have power : (0 : ℚ) < 10 ^ (count - 1) := by positivity
  rw [lastUnit, places, zpow_sub₀ (by norm_num), zpow_natCast, div_mul_cancel₀ _ power.ne']
  exact zpow_floorLog10_le positive proper

theorem neighbours_digits (count numerator divisor : Nat) :
    (neighbours count numerator divisor).1.digits =
      ⌊(numerator : ℚ) / divisor / lastUnit count numerator divisor⌋₊ := by
  have scaled := scaleDown_value (show 0 < 10 by decide)
    (floorLog10 numerator divisor - (count - 1 : Int)) numerator divisor
  rw [Nat.cast_ofNat] at scaled
  rw [lastUnit, ← scaled, Nat.floor_div_eq_div]
  rfl

theorem neighbours_pos (positive : 0 < numerator) (proper : 0 < divisor) (counted : 0 < count) :
    0 < (neighbours count numerator divisor).1.digits := by
  rw [neighbours_digits, Nat.floor_pos,
    one_le_div (lastUnit_pos count numerator divisor)]
  calc lastUnit count numerator divisor
      ≤ lastUnit count numerator divisor * 10 ^ (count - 1) :=
        le_mul_of_one_le_right (lastUnit_pos count numerator divisor).le
          (one_le_pow₀ (by norm_num))
    _ ≤ (numerator : ℚ) / divisor := lastUnit_le positive proper counted

/-- The neighbour that is tried first. -/
def nearer (count numerator divisor : Nat) : Decimal :=
  if lowerIsNearer count numerator divisor then (neighbours count numerator divisor).1
  else (neighbours count numerator divisor).2

theorem nearer_pos (positive : 0 < numerator) (proper : 0 < divisor) (counted : 0 < count) :
    0 < (nearer count numerator divisor).digits := by
  unfold nearer
  split
  · exact neighbours_pos positive proper counted
  · exact Nat.succ_pos _

theorem nearer_near (count numerator : Nat) (proper : 0 < divisor) :
    |(nearer count numerator divisor).value - (numerator : ℚ) / divisor| ≤
      lastUnit count numerator divisor / 2 := by
  have unit := lastUnit_pos count numerator divisor
  generalize scaledEq : scaleDown 10 (floorLog10 numerator divisor - (count - 1 : Int)) numerator
    divisor = scaled
  have divisible : 0 < scaled.2 := scaledEq ▸ scaleDown_pos (by decide) _ _ proper
  have bottom : (0 : ℚ) < scaled.2 := by exact_mod_cast divisible
  have whole : (numerator : ℚ) / divisor =
      (scaled.1 : ℚ) / scaled.2 * lastUnit count numerator divisor := by
    have value := scaleDown_value (show 0 < 10 by decide)
      (floorLog10 numerator divisor - (count - 1 : Int)) numerator divisor
    rw [scaledEq, Nat.cast_ofNat, ← lastUnit] at value
    rw [value, div_mul_cancel₀ _ unit.ne']
  have rest : 0 ≤ ((scaled.1 % scaled.2 : Nat) : ℚ) / scaled.2 := by positivity
  have least : ((scaled.1 % scaled.2 : Nat) : ℚ) / scaled.2 < 1 := by
    rw [div_lt_one bottom]
    exact_mod_cast Nat.mod_lt _ divisible
  have halves : if lowerIsNearer count numerator divisor
      then ((scaled.1 % scaled.2 : Nat) : ℚ) / scaled.2 ≤ 1 / 2
      else 1 / 2 ≤ ((scaled.1 % scaled.2 : Nat) : ℚ) / scaled.2 := by
    rw [div_le_div_iff₀ bottom two_pos, div_le_div_iff₀ two_pos bottom, one_mul, mul_comm]
    norm_cast
    simp only [lowerIsNearer, scaledEq, Bool.or_eq_true, Bool.and_eq_true, decide_eq_true_eq,
      beq_iff_eq]
    split_ifs <;> omega
  rw [whole, div_eq_whole_add_rest scaled.1 divisible, abs_le]
  unfold nearer
  split_ifs at halves ⊢ with lower
  · have value : (neighbours count numerator divisor).1.value =
        (scaled.1 / scaled.2 : Nat) * lastUnit count numerator divisor := by
      rw [Decimal.value, lastUnit, ← scaledEq]
      rfl
    rw [value]
    constructor <;> nlinarith
  · have value : (neighbours count numerator divisor).2.value =
        ((scaled.1 / scaled.2 : Nat) + 1) * lastUnit count numerator divisor := by
      rw [Decimal.value, lastUnit, ← scaledEq]
      exact congrArg (· * _) (Nat.cast_succ _)
    rw [value]
    constructor <;> nlinarith

end Neighbours

/-! ## The shortest decimal -/

theorem ratio_numerator_pos {m : Nat} (positive : 0 < m) : 0 < (f.ratio m).1 := by
  have value := f.value_pos positive
  rw [← f.ratio_value m] at value
  by_contra none
  have none : (f.ratio m).1 = 0 := by omega
  simp [none] at value

/-- A decimal is used only if it is read back. -/
theorem readableAt?_reads {count m : Nat} {d : Decimal} (positive : 0 < m) (counted : 0 < count)
    (readable : f.readableAt? count m = some d) : 0 < d.digits ∧ f.ofDecimal false d = m := by
  have below := neighbours_pos (f.ratio_numerator_pos positive) (f.ratio_pos m) counted
  have above : 0 < (neighbours count (f.ratio m).1 (f.ratio m).2).2.digits := Nat.succ_pos _
  unfold readableAt? at readable
  dsimp only at readable
  split_ifs at readable with lower first second first second
  all_goals
    cases readable
    exact ⟨by assumption, by assumption⟩

theorem shortestFrom_succ (m tries count : Nat) :
    f.shortestFrom m (tries + 1) count =
      match f.readableAt? count m with
      | some d => some d
      | none => f.shortestFrom m tries (count + 1) := by
  rfl

/-- The search ends with the first count of digits that can be read, at the latest with one
that is known to be. -/
theorem shortestFrom_ends {m last : Nat} (readable : (f.readableAt? last m).isSome = true)
    {tries count : Nat} (low : count ≤ last) (high : last < count + tries) :
    ∃ first d, count ≤ first ∧ first ≤ last ∧ f.readableAt? first m = some d ∧
      f.shortestFrom m tries count = some d := by
  induction tries generalizing count with
  | zero => omega
  | succ tries ih =>
      cases tried : f.readableAt? count m with
      | some d => exact ⟨count, d, le_rfl, low, tried, by rw [shortestFrom_succ, tried]⟩
      | none =>
          have later : count ≠ last := by
            rintro rfl
            rw [tried] at readable
            cases readable
          obtain ⟨first, d, above, below, read, found⟩ :=
            ih (show count + 1 ≤ last by omega) (by omega)
          exact ⟨first, d, by omega, below, read, by rw [shortestFrom_succ, tried, found]⟩

end Format

/-! ## Seventeen digits -/

namespace Format

theorem double_exponent_bounds {m : Nat} (finite : m < double.infinity) :
    -1074 ≤ double.exponent m ∧ double.exponent m ≤ 971 := by
  have least : double.leastExponent = -1074 := by decide
  have binades : m / double.hiddenBit < 2047 := Nat.div_lt_of_lt_mul (by rwa [Nat.mul_comm])
  unfold exponent binade
  omega

/-- Seventeen digits tell a 64-bit number from its neighbours: half a unit of the
seventeenth digit is less than half the distance to a neighbour, and less than half
of that at the start of a binade. -/
theorem double_nearer_reads {m : Nat} (positive : 0 < m) (finite : m < double.infinity) :
    double.ofDecimal false (nearer digitBound (double.ratio m).1 (double.ratio m).2) = m := by
  have top := double.ratio_numerator_pos positive
  have bottom := double.ratio_pos m
  have pos := nearer_pos top bottom (show 0 < digitBound by decide)
  have near := nearer_near digitBound (double.ratio m).1 bottom
  have unit := lastUnit_le top bottom (show 0 < digitBound by decide)
  have unitPos := lastUnit_pos digitBound (double.ratio m).1 (double.ratio m).2
  rw [double.ratio_value] at near unit
  generalize nearer digitBound (double.ratio m).1 (double.ratio m).2 = d at *
  generalize lastUnit digitBound (double.ratio m).1 (double.ratio m).2 = u at *
  rw [abs_le] at near
  obtain ⟨-, small, -⟩ := double.significand_bounds m
  obtain ⟨least, most⟩ := double_exponent_bounds finite
  have power : (0 : ℚ) < 2 ^ double.exponent m := zpow_pos two_pos _
  have valuePos := double.value_pos positive
  have valueEq : double.value m = double.significand m * 2 ^ double.exponent m := rfl
  have significand : (double.significand m : ℚ) * 2 ^ double.exponent m ≤
      2 ^ 53 * 2 ^ double.exponent m := by
    refine mul_le_mul_of_nonneg_right ?_ power.le
    exact_mod_cast small.le
  have places : (10 : ℚ) ^ (digitBound - 1) = 10 ^ 16 := rfl
  -- A significand is less than 2 ^ 53, so the unit is less than 2 ^ 53 / 10 ^ 16 < 1 of
  -- the last place; at the start of a binade it is less than one half.
  rw [places] at unit
  have significant :
      2 ^ double.exponent m ≤ (double.significand m : ℚ) * 2 ^ double.exponent m := by
    refine le_mul_of_one_le_left power.le ?_
    exact_mod_cast double.significand_pos positive
  rw [double.ofDecimal_eq_nearest pos]
  · refine nearest_eq (by decide) finite (Decimal.value_pos pos) ?_ ?_ ?_
    · linarith
    · linarith
    · intro start _
      have start : (double.significand m : ℚ) = 2 ^ 52 := by exact_mod_cast start
      rw [start] at valueEq ⊢
      linarith
  · calc (10 : ℚ) ^ (-double.decimalReach - 1 : Int) = 10 ^ (-2102 : Int) := rfl
      _ = (10 ^ 2102)⁻¹ := by rw [zpow_neg, zpow_ofNat]
      _ ≤ (2 ^ 2102)⁻¹ :=
          inv_anti₀ (by positivity) (pow_le_pow_left₀ zero_le_two (by norm_num) 2102)
      _ = 2 ^ (-2102 : Int) := by rw [zpow_neg, zpow_ofNat]
      _ ≤ 2 ^ (double.exponent m - 1) := zpow_le_zpow_right₀ one_le_two (by omega)
      _ = 2 ^ double.exponent m / 2 := zpow_sub_one₀ two_ne_zero _
      _ ≤ d.value := by linarith
  · have reach : double.decimalReach = 2101 := rfl
    calc d.value ≤ 2 ^ (54 : Int) * 2 ^ double.exponent m := by
          rw [zpow_ofNat]
          linarith
      _ = 2 ^ (54 + double.exponent m) := (zpow_add₀ two_ne_zero _ _).symm
      _ ≤ 2 ^ (double.decimalReach : Int) := zpow_le_zpow_right₀ one_le_two (by omega)
      _ = 2 ^ double.decimalReach := zpow_natCast _ _
      _ < 10 ^ double.decimalReach := pow_lt_pow_left₀ (by norm_num) zero_le_two (by omega)

/-- The shortest decimal of a 64-bit number is read back. -/
theorem double_shortest_reads {m : Nat} (positive : 0 < m) (finite : m < double.infinity) :
    0 < (double.shortest m).digits ∧ double.ofDecimal false (double.shortest m) = m := by
  have readable : (double.readableAt? digitBound m).isSome = true := by
    have reads := double_nearer_reads positive finite
    unfold nearer at reads
    unfold readableAt?
    dsimp only
    split_ifs at reads ⊢ <;> simp_all
  obtain ⟨first, d, counted, -, read, found⟩ := double.shortestFrom_ends readable
    (show 1 ≤ digitBound by decide) (show digitBound < 1 + digitBound by decide)
  rw [shortest, found]
  exact double.readableAt?_reads positive counted read

end Format

/-! ## Layouts -/

namespace Decimal

open Text (AllDigits EndsGroup IsNumberChar)

theorem dropZeros_spec (fuel : Nat) (d : Decimal) :
    (dropZeros fuel d).value = d.value ∧ (0 < d.digits → 0 < (dropZeros fuel d).digits) := by
  induction fuel generalizing d with
  | zero => exact ⟨rfl, id⟩
  | succ fuel ih =>
      unfold dropZeros
      split
      · next trailing =>
          simp only [Bool.and_eq_true, decide_eq_true_eq, bne_iff_ne] at trailing
          obtain ⟨same, keeps⟩ := ih ⟨d.digits / 10, d.exponent + 1⟩
          refine ⟨same.trans ?_, fun _ => keeps (by dsimp only; omega)⟩
          have digits : (d.digits : ℚ) = (d.digits / 10 : Nat) * 10 := by
            exact_mod_cast (Nat.div_mul_cancel (Nat.dvd_of_mod_eq_zero trailing.1)).symm
          rw [value, value, digits, zpow_add_one₀ (by norm_num)]
          ring
      · exact ⟨rfl, id⟩

/-- A text that starts with a digit and is read as a number of this value. -/
structure Reads (text : List Char) (v : ℚ) : Prop where
  starts : ∃ c rest, text = c :: rest ∧ c.isDigit = true
  chars : ∀ c ∈ text, IsNumberChar c
  read : ∃ digits exponent, Text.unsignedDecimal? text = some (digits, exponent) ∧
    (⟨digits, exponent⟩ : Decimal).value = v

structure IsTail (tail : List Char) (exponent : Int) : Prop where
  ends : EndsGroup tail
  noPoint : ∀ c ∈ tail.head?, c ≠ '.'
  chars : ∀ c ∈ tail, IsNumberChar c
  read : Text.exponentPart? tail = some exponent

theorem IsTail.nil : IsTail [] 0 := ⟨nofun, nofun, nofun, rfl⟩

theorem IsTail.exponent (x : Int) : IsTail ('e' :: (exponentText x).toList) x := by
  obtain ⟨digits, text, all, nonempty, value⟩ : ∃ digits,
      (exponentText x).toList = (if x < 0 then '-' else '+') :: digits ∧
      AllDigits digits ∧ digits ≠ [] ∧ Nat.ofDigitChars 10 digits 0 = x.natAbs := by
    have plain : (toString x.natAbs).toList = Nat.toDigits 10 x.natAbs := Nat.toList_repr
    unfold exponentText
    by_cases short : (toString x.natAbs).length < 2
    · refine ⟨'0' :: Nat.toDigits 10 x.natAbs, ?_, ?_, List.cons_ne_nil _ _, ?_⟩
      · dsimp only
        rw [if_pos short, String.toList_append, String.toList_append, plain]
        split <;> rfl
      · exact (AllDigits.replicate_zero 1).append (AllDigits.toDigits _)
      · rw [Nat.ofDigitChars_cons]
        exact Nat.ofDigitChars_ten_toDigits
    · refine ⟨Nat.toDigits 10 x.natAbs, ?_, AllDigits.toDigits _, Nat.toDigits_ne_nil,
        Nat.ofDigitChars_ten_toDigits⟩
      dsimp only
      rw [if_neg short, String.toList_append, plain]
      split <;> rfl
  rw [text]
  refine ⟨?_, ?_, ?_, ?_⟩
  · rintro c ⟨⟩
    decide
  · rintro c ⟨⟩
    decide
  · intro c member
    simp only [List.mem_cons] at member
    rcases member with rfl | rfl | digit
    · exact .inr (.inr (.inl rfl))
    · split
      · exact .inr (.inr (.inr (.inr rfl)))
      · exact .inr (.inr (.inr (.inl rfl)))
    · exact .inl (all c digit)
  · have sign : Text.leadingSign ((if x < 0 then '-' else '+') :: digits) =
        (decide (x < 0), digits) := by
      by_cases negative : x < 0
      · simp [negative, Text.leadingSign]
      · simp [negative, Text.leadingSign]
    unfold Text.exponentPart?
    simp only [beq_self_eq_true, Bool.true_or, if_true, sign,
      Text.digitGroup?_of_allDigits nonempty all, Option.map_some, Text.ofDigits_map, value]
    congr 1
    simp only [decide_eq_true_eq]
    split <;> omega

theorem Reads.point {whole fraction tail : List Char} {exponent : Int}
    (wholeDigits : AllDigits whole) (nonempty : whole ≠ []) (fractionDigits : AllDigits fraction)
    (isTail : IsTail tail exponent) :
    Reads (whole ++ '.' :: (fraction ++ tail))
      (Nat.ofDigitChars 10 (whole ++ fraction) 0 * 10 ^ (exponent - fraction.length)) where
  starts := by
    obtain ⟨c, rest, rfl⟩ := List.exists_cons_of_ne_nil nonempty
    exact ⟨c, _, rfl, wholeDigits c List.mem_cons_self⟩
  chars := by
    intro c member
    simp only [List.mem_append, List.mem_cons] at member
    rcases member with digit | rfl | digit | ending
    · exact .inl (wholeDigits c digit)
    · exact .inr (.inl rfl)
    · exact .inl (fractionDigits c digit)
    · exact isTail.chars c ending
  read := ⟨_, _, Text.unsignedDecimal?_point wholeDigits nonempty fractionDigits isTail.ends
    isTail.read, rfl⟩

theorem Reads.plain {whole tail : List Char} {exponent : Int} (wholeDigits : AllDigits whole)
    (nonempty : whole ≠ []) (isTail : IsTail tail exponent) :
    Reads (whole ++ tail) (Nat.ofDigitChars 10 whole 0 * 10 ^ exponent) where
  starts := by
    obtain ⟨c, rest, rfl⟩ := List.exists_cons_of_ne_nil nonempty
    exact ⟨c, _, rfl, wholeDigits c List.mem_cons_self⟩
  chars := by
    intro c member
    rcases List.mem_append.mp member with digit | ending
    · exact .inl (wholeDigits c digit)
    · exact isTail.chars c ending
  read := ⟨_, _, Text.unsignedDecimal?_plain wholeDigits nonempty isTail.ends isTail.noPoint
    isTail.read, rfl⟩

theorem toList_pushn_empty (c : Char) (count : Nat) :
    ("".pushn c count).toList = List.replicate count c := by
  rw [String.pushn_eq_repeat_push]
  induction count with
  | zero => rfl
  | succ count ih =>
      rw [Nat.repeat, String.toList_push, ih, List.replicate_succ']

section Layouts

variable (d : Decimal)

theorem ofDigitChars_digits : Nat.ofDigitChars 10 (Nat.toDigits 10 d.digits) 0 = d.digits :=
  Nat.ofDigitChars_ten_toDigits

theorem reads_whole (whole : 0 ≤ d.exponent) :
    Reads (Nat.toDigits 10 d.digits ++ List.replicate d.exponent.toNat '0' ++ ['.', '0'])
      d.value := by
  have reads := Reads.point
    ((AllDigits.toDigits d.digits).append (AllDigits.replicate_zero d.exponent.toNat))
    (List.append_ne_nil_of_left_ne_nil Nat.toDigits_ne_nil _) (AllDigits.replicate_zero 1)
    IsTail.nil
  have shift : (Nat.ofDigitChars 10 (Nat.toDigits 10 d.digits ++
      List.replicate d.exponent.toNat '0' ++ List.replicate 1 '0') 0 : ℚ) *
        10 ^ (0 - (List.replicate 1 '0').length : Int) = d.value := by
    obtain ⟨places, exponent⟩ := Int.eq_ofNat_of_zero_le whole
    rw [Nat.ofDigitChars_append, Nat.ofDigitChars_append, d.ofDigitChars_digits,
      Nat.ofDigitChars_replicate_zero, Nat.ofDigitChars_replicate_zero, value, exponent]
    simp only [Int.toNat_natCast, Nat.cast_mul, Nat.cast_pow, Nat.cast_ofNat, pow_one,
      List.length_replicate, Nat.cast_one, zero_sub, zpow_neg, zpow_one, zpow_natCast]
    ring
  rw [shift] at reads
  exact reads

theorem reads_split (whole : 0 ≤ d.leadingExponent) (fraction : d.exponent < 0) :
    Reads ((Nat.toDigits 10 d.digits).take (d.leadingExponent.toNat + 1) ++
      '.' :: (Nat.toDigits 10 d.digits).drop (d.leadingExponent.toNat + 1)) d.value := by
  have all := AllDigits.toDigits d.digits
  have reads := Reads.point
    (fun c member => all c (List.mem_of_mem_take (i := d.leadingExponent.toNat + 1) member))
    (by simp [Nat.toDigits_ne_nil])
    (fun c member => all c (List.mem_of_mem_drop (i := d.leadingExponent.toNat + 1) member))
    IsTail.nil
  have places : (((Nat.toDigits 10 d.digits).drop (d.leadingExponent.toNat + 1)).length : Int) =
      -d.exponent := by
    rw [List.length_drop]
    unfold leadingExponent decimalLength at *
    omega
  rw [List.take_append_drop, d.ofDigitChars_digits, places, zero_sub, neg_neg,
    List.append_nil] at reads
  exact reads

theorem reads_small (small : d.leadingExponent < 0) :
    Reads ('0' :: '.' :: (List.replicate (-d.leadingExponent - 1).toNat '0' ++
      Nat.toDigits 10 d.digits)) d.value := by
  have reads := Reads.point (AllDigits.replicate_zero 1) (by simp)
    ((AllDigits.replicate_zero (-d.leadingExponent - 1).toNat).append (AllDigits.toDigits d.digits))
    IsTail.nil
  have places : ((List.replicate (-d.leadingExponent - 1).toNat '0' ++
      Nat.toDigits 10 d.digits).length : Int) = -d.exponent := by
    rw [List.length_append, List.length_replicate]
    unfold leadingExponent decimalLength at *
    omega
  simp only [Nat.ofDigitChars_append, Nat.ofDigitChars_replicate_zero, Nat.mul_zero] at reads
  rw [d.ofDigitChars_digits, places, zero_sub, neg_neg, List.append_nil] at reads
  exact reads

/-- Scientific notation; a single digit takes no point. -/
theorem reads_scientific :
    Reads ((Nat.toDigits 10 d.digits).take 1 ++
      (if ((Nat.toDigits 10 d.digits).drop 1).isEmpty then []
        else '.' :: (Nat.toDigits 10 d.digits).drop 1) ++
      'e' :: (exponentText d.leadingExponent).toList) d.value := by
  have all := AllDigits.toDigits d.digits
  have first : AllDigits ((Nat.toDigits 10 d.digits).take 1) := fun c member =>
    all c (List.mem_of_mem_take member)
  have nonempty : (Nat.toDigits 10 d.digits).take 1 ≠ [] := by simp [Nat.toDigits_ne_nil]
  have length : 0 < (Nat.toDigits 10 d.digits).length := Nat.length_toDigits_pos
  have exponent : d.leadingExponent - ((Nat.toDigits 10 d.digits).drop 1).length = d.exponent := by
    rw [List.length_drop]
    unfold leadingExponent decimalLength
    omega
  split
  · next single =>
      have single : (Nat.toDigits 10 d.digits).drop 1 = [] := List.isEmpty_iff.mp single
      have whole : (Nat.toDigits 10 d.digits).take 1 = Nat.toDigits 10 d.digits := by
        have parts := List.take_append_drop 1 (Nat.toDigits 10 d.digits)
        rwa [single, List.append_nil] at parts
      have reads := Reads.plain first nonempty (IsTail.exponent d.leadingExponent)
      rw [single, List.length_nil, Nat.cast_zero, sub_zero] at exponent
      rw [whole, d.ofDigitChars_digits] at reads
      nth_rewrite 2 [exponent] at reads
      rw [whole, List.append_nil]
      exact reads
  · have reads := Reads.point first nonempty
      (fun c member => all c (List.mem_of_mem_drop (i := 1) member))
      (IsTail.exponent d.leadingExponent)
    rw [List.take_append_drop, d.ofDigitChars_digits, exponent] at reads
    rw [List.append_assoc]
    exact reads

end Layouts

/-- Every layout is read as the decimal's value: the digits stay, and point and
exponent together say where they stand. -/
theorem layout_reads (d : Decimal) : Reads d.layout.toList d.value := by
  rw [← (dropZeros_spec (decimalLength d.digits) d).1]
  unfold layout
  rw [trimmed]
  generalize dropZeros (decimalLength d.digits) d = d
  have digits : (toString d.digits).toList = Nat.toDigits 10 d.digits := Nat.toList_repr
  dsimp only
  rw [digits]
  by_cases positional : isPositional d.leadingExponent = true
  · rw [if_pos positional]
    by_cases whole : 0 ≤ d.exponent
    · rw [if_pos whole, String.toList_append, String.toList_append, digits, toList_pushn_empty]
      exact d.reads_whole whole
    · rw [if_neg whole]
      by_cases large : 0 ≤ d.leadingExponent
      · rw [if_pos large]
        simp only [String.toList_append, String.toList_ofList, List.append_assoc]
        exact d.reads_split large (not_le.mp whole)
      · rw [if_neg large, String.toList_append, String.toList_append, digits, toList_pushn_empty,
          List.append_assoc]
        exact d.reads_small (not_le.mp large)
  · rw [if_neg positional]
    have parts : ∀ empty : Bool, (if empty then "" else "." ++
        String.ofList ((Nat.toDigits 10 d.digits).drop 1)).toList =
          if empty then [] else '.' :: (Nat.toDigits 10 d.digits).drop 1 := by
      intro empty
      cases empty <;> simp
    rw [String.toList_append, String.toList_append, String.toList_append, String.toList_ofList,
      parts, List.append_assoc]
    exact d.reads_scientific

end Decimal

end CondSat.Ieee
