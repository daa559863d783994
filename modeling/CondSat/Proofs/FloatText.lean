import CondSat.Proofs.DecimalText

/-! # Text of 32-bit and 64-bit numbers

The text of a 64-bit number is read back as this number.  A 32-bit number is
written by way of 64 bits: widening it is exact, and whatever decimal is chosen for
it, the 64-bit number read from it is rounded to the 32-bit number again. -/
set_option autoImplicit false
namespace CondSat.Ieee

namespace Format

variable {f : Format}

/-! ## Signs -/

theorem withSign_magnitude {pattern : Nat} (fits : pattern < 2 * f.signBit) :
    f.withSign (f.isNegative pattern) (f.magnitude pattern) = pattern := by
  unfold withSign isNegative magnitude
  by_cases negative : f.signBit ≤ pattern
  · rw [if_pos (decide_eq_true negative), Nat.mod_eq_sub_mod negative, Nat.mod_eq_of_lt (by omega)]
    omega
  · rw [if_neg (by simp [negative]), Nat.mod_eq_of_lt (by omega)]

section WithSign

variable {negative : Bool} {m : Nat}

theorem withSign_false : f.withSign false m = m := rfl

theorem withSign_lt (small : m < f.signBit) : f.withSign negative m < 2 * f.signBit := by
  unfold withSign
  split <;> omega

theorem magnitude_withSign (small : m < f.signBit) : f.magnitude (f.withSign negative m) = m := by
  unfold magnitude withSign
  split
  · rw [Nat.add_mod_left, Nat.mod_eq_of_lt small]
  · exact Nat.mod_eq_of_lt small

theorem isNegative_withSign (small : m < f.signBit) :
    f.isNegative (f.withSign negative m) = negative := by
  unfold isNegative withSign
  cases negative <;> simp [small]

end WithSign

theorem Stored.infinity_lt (stored : f.Stored) : f.infinity < f.signBit := by
  rcases stored with rfl | rfl <;> decide

theorem Stored.two_mul_signBit (stored : f.Stored) : 2 * f.signBit = 2 ^ f.width := by
  rcases stored with rfl | rfl <;> decide

theorem nearest_le_infinity (f : Format) (q : ℚ) : f.nearest q ≤ f.infinity := by
  unfold nearest
  split
  · exact Nat.zero_le _
  · split <;> omega

structure IsNumber (f : Format) (pattern : Nat) : Prop where
  fits : pattern < 2 * f.signBit
  number : f.magnitude pattern ≤ f.infinity

theorem IsNumber.withSign (stored : f.Stored) (negative : Bool) {m : Nat}
    (number : m ≤ f.infinity) : f.IsNumber (f.withSign negative m) := by
  have small : m < f.signBit := number.trans_lt stored.infinity_lt
  exact ⟨withSign_lt small, by rwa [magnitude_withSign small]⟩

theorem IsNumber.ofDecimal (stored : f.Stored) (negative : Bool) (d : Decimal) :
    f.IsNumber (f.ofDecimal negative d) := by
  unfold Format.ofDecimal
  rw [ofRatio_decimal]
  dsimp only
  split
  · exact .withSign stored negative (Nat.zero_le _)
  · split
    · exact .withSign stored negative (Nat.le_refl _)
    · exact .withSign stored negative (nearest_le_infinity f _)

theorem IsNumber.eq_of_numEq {left right : Nat} (leftNumber : f.IsNumber left)
    (rightNumber : f.IsNumber right) (nonzero : f.isZero right = false)
    (same : f.numEq left right = true) : left = right := by
  simp only [numEq, Bool.and_eq_true, beq_iff_eq] at same
  have nonzero : f.magnitude right ≠ 0 := by simpa [isZero] using nonzero
  obtain ⟨-, places⟩ := same
  unfold place at places
  rw [← withSign_magnitude leftNumber.fits, ← withSign_magnitude rightNumber.fits]
  cases leftSign : f.isNegative left <;> cases rightSign : f.isNegative right <;>
    simp only [leftSign, rightSign, Bool.false_eq_true, if_true, if_false] at places
  · rw [show f.magnitude left = f.magnitude right by omega]
  · omega
  · omega
  · rw [show f.magnitude left = f.magnitude right by omega]

/-- A finite number of one format is the nearest number of another one. -/
theorem convert_finite {g : Format} {pattern : Nat} (finite : f.magnitude pattern < f.infinity) :
    f.convert g pattern =
      g.withSign (f.isNegative pattern) (g.nearest (f.value (f.magnitude pattern))) := by
  have number : f.isNaN pattern = false := decide_eq_false (by omega)
  have bounded : f.isInfinite pattern = false := by
    rw [isInfinite, beq_eq_false_iff_ne]
    omega
  unfold convert
  dsimp only
  rw [number, bounded, ofScaled_eq]
  rfl

theorem convert_infinite {g : Format} {pattern : Nat}
    (infinite : f.magnitude pattern = f.infinity) :
    f.convert g pattern = g.withSign (f.isNegative pattern) g.infinity := by
  have number : f.isNaN pattern = false := decide_eq_false (by omega)
  have bounded : f.isInfinite pattern = true := beq_iff_eq.mpr infinite
  unfold convert
  dsimp only
  rw [number, bounded]
  rfl

theorem IsNumber.convert {g : Format} (stored : g.Stored) {pattern : Nat}
    (isNumber : f.IsNumber pattern) : g.IsNumber (f.convert g pattern) := by
  rcases Nat.lt_or_eq_of_le isNumber.number with finite | infinite
  · rw [convert_finite finite]
    exact .withSign stored _ (nearest_le_infinity g _)
  · rw [convert_infinite infinite]
    exact .withSign stored _ (Nat.le_refl _)

/-! ## 64-bit numbers -/

/-- The text of a finite 64-bit number that is not zero is read as its sign and the decimal
that was chosen for it. -/
theorem double_text_decimal {pattern : Nat} (finite : double.magnitude pattern < double.infinity)
    (nonzero : double.magnitude pattern ≠ 0) :
    ∃ digits exponent, Text.real? (double.text pattern) =
        some (.decimal (double.isNegative pattern) digits exponent) ∧
      (⟨digits, exponent⟩ : Decimal).value = (double.shortest (double.magnitude pattern)).value := by
  have number : double.isNaN pattern = false := decide_eq_false (by omega)
  have bounded : double.isInfinite pattern = false := by
    rw [isInfinite, beq_eq_false_iff_ne]
    omega
  have reads := (double.shortest (double.magnitude pattern)).layout_reads
  obtain ⟨c, rest, text, digit⟩ := reads.starts
  obtain ⟨digits, exponent, read, value⟩ := reads.read
  have chars := reads.chars
  rw [text] at read chars
  have read := Text.real?_decimal (double.isNegative pattern) digit
    (fun x member => chars x (List.mem_cons_of_mem c member)) read
  rw [← text, String.ofList_toList] at read
  refine ⟨digits, exponent, ?_, value⟩
  unfold Format.text
  dsimp only
  rw [number, bounded, if_neg nonzero]
  exact read

/-- The text of a finite 64-bit number is read back. -/
theorem double_text_reads {pattern : Nat} (isNumber : double.IsNumber pattern)
    (finite : double.magnitude pattern < double.infinity) :
    (Text.real? (double.text pattern)).map double.ofText = some pattern := by
  by_cases zero : double.magnitude pattern = 0
  · have number : double.isNaN pattern = false := decide_eq_false (by omega)
    have bounded : double.isInfinite pattern = false := by
      rw [isInfinite, beq_eq_false_iff_ne]
      omega
    have read : Text.unsignedDecimal? ['0', '.', '0'] = some (0, -1) := by rfl
    have read := Text.real?_decimal (double.isNegative pattern) rfl
      (by simp [Text.IsNumberChar]) read
    unfold text
    dsimp only
    rw [number, bounded, if_neg Bool.false_ne_true, if_neg Bool.false_ne_true, if_pos zero,
      show "0.0" = String.ofList ['0', '.', '0'] from rfl, read, Option.map_some]
    refine congrArg some (Eq.trans ?_ (withSign_magnitude isNumber.fits))
    rw [zero]
    simp [ofText, ofDecimal]
  · obtain ⟨digits, exponent, read, value⟩ := double_text_decimal finite zero
    obtain ⟨-, exact⟩ := double_shortest_reads (Nat.pos_of_ne_zero zero) finite
    rw [read, Option.map_some, ofText, ofDecimal_congr double value, ofDecimal_sign, exact,
      withSign_magnitude isNumber.fits]

/-! ## 32-bit numbers -/

theorem binade_add {b s : Nat} (low : f.hiddenBit ≤ s) (high : s < 2 * f.hiddenBit) :
    f.binade (b * f.hiddenBit + s) = b ∧ f.significand (b * f.hiddenBit + s) = s := by
  have binade : f.binade (b * f.hiddenBit + s) = b := by
    have quotient : (b * f.hiddenBit + s) / f.hiddenBit = b + 1 := by
      have one : s / f.hiddenBit = 1 := Nat.div_eq_of_lt_le (by omega) (by omega)
      rw [Nat.mul_comm, Nat.mul_add_div f.hiddenBit_pos, one]
    rw [Format.binade, quotient, Nat.add_sub_cancel]
  refine ⟨binade, ?_⟩
  rw [significand, binade, Nat.add_sub_cancel_left]

theorem single_exponent_bounds {m : Nat} (finite : m < single.infinity) :
    -149 ≤ single.exponent m ∧ single.exponent m ≤ 104 := by
  have least : single.leastExponent = -149 := by decide
  have binades : m / single.hiddenBit < 255 := Nat.div_lt_of_lt_mul (by rwa [Nat.mul_comm])
  unfold exponent binade
  omega

/-- A number with a short significand is a 64-bit number: the significand is shifted up to
the hidden bit. -/
theorem exists_double_scaled {s : Nat} {exponent : Int} (significant : 0 < s) (short : s < 2 ^ 53)
    (least : -1022 ≤ exponent) (most : exponent ≤ 971) :
    ∃ wide, wide < double.infinity ∧ double.value wide = s * 2 ^ exponent := by
  have short : s.log2 < 53 := (Nat.log2_lt significant.ne').mpr short
  obtain ⟨places, isPlaces⟩ : ∃ places, s.log2 + places = 52 := ⟨52 - s.log2, by omega⟩
  obtain ⟨b, isBinade⟩ : ∃ b : Nat, double.leastExponent + b = exponent - places := by
    have least : double.leastExponent = -1074 := by decide
    exact ⟨(exponent - places + 1074).toNat, by omega⟩
  have low : double.hiddenBit ≤ s * 2 ^ places := by
    calc double.hiddenBit = 2 ^ s.log2 * 2 ^ places := by rw [← Nat.pow_add, isPlaces]; rfl
      _ ≤ s * 2 ^ places := Nat.mul_le_mul_right _ (Nat.log2_self_le significant.ne')
  have high : s * 2 ^ places < 2 * double.hiddenBit := by
    calc s * 2 ^ places < 2 ^ (s.log2 + 1) * 2 ^ places :=
          Nat.mul_lt_mul_of_pos_right Nat.lt_log2_self (Nat.pow_pos two_pos)
      _ = 2 * double.hiddenBit := by
          rw [← Nat.pow_add, show s.log2 + 1 + places = 53 by omega]
          rfl
  obtain ⟨binade, significand⟩ := binade_add (f := double) (b := b) low high
  refine ⟨b * double.hiddenBit + s * 2 ^ places, ?_, ?_⟩
  · have least : double.leastExponent = -1074 := by decide
    have top : double.infinity = 2047 * double.hiddenBit := rfl
    have inside : b * double.hiddenBit ≤ 2045 * double.hiddenBit :=
      Nat.mul_le_mul_right _ (by omega)
    omega
  · rw [value, Format.exponent, binade, significand, isBinade, zpow_sub₀ two_ne_zero,
      zpow_natCast]
    push_cast
    field_simp

theorem double_nearest_scaled {s : Nat} {exponent : Int} (short : s < 2 ^ 53)
    (least : -1022 ≤ exponent) (most : exponent ≤ 971) :
    double.nearest (s * 2 ^ exponent) < double.infinity ∧
      double.value (double.nearest (s * 2 ^ exponent)) = s * 2 ^ exponent := by
  rcases Nat.eq_zero_or_pos s with rfl | significant
  · rw [Nat.cast_zero, zero_mul, nearest, if_pos rfl]
    exact ⟨by decide, value_zero double⟩
  · obtain ⟨wide, wideFinite, exact⟩ := exists_double_scaled significant short least most
    rw [← exact, nearest_value double (by decide) wideFinite]
    exact ⟨wideFinite, rfl⟩

/-- Widening to 64 bits is exact. -/
theorem double_nearest_single {m : Nat} (finite : m < single.infinity) :
    double.nearest (single.value m) < double.infinity ∧
      double.value (double.nearest (single.value m)) = single.value m := by
  have small : single.significand m < 2 ^ 24 := (single.significand_bounds m).2.1
  obtain ⟨least, most⟩ := single_exponent_bounds finite
  exact double_nearest_scaled (by omega) (by omega) (by omega)

end Format

open Format

theorem widen_finite {pattern : Nat} (finite : single.magnitude pattern < single.infinity) :
    widen .single pattern = double.withSign (single.isNegative pattern)
      (double.nearest (single.value (single.magnitude pattern))) := by
  rw [widen, if_neg (by decide), convert_finite finite]

/-- A 32-bit number is widened exactly: narrowing gives it again. -/
theorem narrow_widen {pattern : Nat} (isNumber : single.IsNumber pattern) :
    double.convert .single (widen .single pattern) = pattern ∧
    (single.magnitude pattern < single.infinity →
      double.magnitude (widen .single pattern) < double.infinity) := by
  have top : double.infinity < double.signBit := Stored.infinity_lt (.inr rfl)
  rcases Nat.lt_or_eq_of_le isNumber.number with finite | infinite
  · obtain ⟨wideFinite, exact⟩ := double_nearest_single finite
    have small := wideFinite.trans top
    rw [widen_finite finite, magnitude_withSign small]
    refine ⟨?_, fun _ => wideFinite⟩
    rw [convert_finite (by rwa [magnitude_withSign small]), magnitude_withSign small, exact,
      nearest_value single (by decide) finite, isNegative_withSign small,
      withSign_magnitude isNumber.fits]
  · refine ⟨?_, fun finite => absurd infinite finite.ne⟩
    rw [widen, if_neg (by decide), convert_infinite infinite,
      convert_infinite (magnitude_withSign top), isNegative_withSign top, ← infinite,
      withSign_magnitude isNumber.fits]

theorem readableSingle?_succ (pattern tries count : Nat) :
    readableSingle? pattern (tries + 1) count =
      let exact := double.ratio (double.magnitude pattern)
      let read := double.ofDecimal (double.isNegative pattern) (roundToDigits count exact.1 exact.2)
      if double.numEq (roundToSingle read) pattern then some read
      else readableSingle? pattern tries (count + 1) := by
  rfl

theorem readableSingle?_reads {pattern tries count read : Nat}
    (found : readableSingle? pattern tries count = some read) :
    double.IsNumber read ∧ double.numEq (roundToSingle read) pattern = true := by
  induction tries generalizing count with
  | zero => cases found
  | succ tries ih =>
      rw [readableSingle?_succ] at found
      dsimp only at found
      split at found
      · next reads =>
          cases found
          exact ⟨.ofDecimal (.inr rfl) _ _, reads⟩
      · exact ih found

theorem singleText_reads {pattern : Nat} (isNumber : single.IsNumber pattern)
    (finite : single.magnitude pattern < single.infinity) :
    (Text.real? (singleText (widen .single pattern))).map
      (fun number => double.convert .single (double.ofText number)) = some pattern := by
  obtain ⟨narrowed, keepsFinite⟩ := narrow_widen isNumber
  have widened : widen .single pattern = single.convert .double pattern := if_neg (by decide)
  have wideNumber : double.IsNumber (widen .single pattern) := by
    rw [widened]
    exact isNumber.convert (.inr rfl)
  have plain : ∀ wide, double.IsNumber wide → double.magnitude wide < double.infinity →
      double.convert .single wide = pattern → (Text.real? (double.text wide)).map
        (fun number => double.convert .single (double.ofText number)) = some pattern := by
    intro wide isNumber finite narrowed
    have reads := congrArg (Option.map (double.convert .single)) (double_text_reads isNumber finite)
    rwa [Option.map_map, Option.map_some, narrowed] at reads
  unfold singleText
  dsimp only
  split
  · exact plain _ wideNumber (keepsFinite finite) narrowed
  · next proper =>
      cases found : readableSingle? (widen .single pattern) digitBound 1 with
      | none => exact plain _ wideNumber (keepsFinite finite) narrowed
      | some read =>
          -- The numbers are equal and not zero, and narrowing tells 32-bit numbers apart.
          obtain ⟨readNumber, same⟩ := readableSingle?_reads found
          have narrowNumber := readNumber.convert (g := single) (.inl rfl)
          have rounded : double.IsNumber (roundToSingle read) := by
            rw [roundToSingle, widen, if_neg (by decide)]
            exact narrowNumber.convert (.inr rfl)
          simp only [Bool.or_eq_true, not_or, Bool.not_eq_true] at proper
          have same := rounded.eq_of_numEq wideNumber proper.2 same
          have readNarrowed : double.convert .single read = pattern := by
            have back := (narrow_widen narrowNumber).1
            rw [← roundToSingle, same, narrowed] at back
            exact back.symm
          have readFinite : double.magnitude read < double.infinity := by
            refine lt_of_le_of_ne readNumber.number fun infinite => finite.ne ?_
            rw [← readNarrowed, convert_infinite infinite,
              magnitude_withSign (Stored.infinity_lt (.inl rfl))]
          exact plain read readNumber readFinite readNarrowed

/-- Rounding a text to 32 bits at once is not the same: what is written for one number
is nearer to the number below it, and only the 64-bit number in between is a tie. -/
example :
    single.ofDecimal false ⟨7038531, -32⟩ = 0x15ae43fd ∧
    double.convert .single (double.ofDecimal false ⟨7038531, -32⟩) = 0x15ae43fe := by
  decide +kernel

end CondSat.Ieee
