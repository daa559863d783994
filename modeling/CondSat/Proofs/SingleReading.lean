import CondSat.Proofs.NearestDecimals

/-! # Numbers read to 32 bits

A decimal is read to 32 bits by way of 64 bits and is rounded twice.  The numbers that are
read as one 32-bit number form an interval around it.  Unless the number is a power of two,
both roundings have one unit in the whole interval, so the interval is symmetric about the
number; at a power of two the part below is half as long. -/
set_option autoImplicit false
namespace CondSat.Ieee

namespace Format

variable {m : Nat} {q r : ℚ}

/-- A number that is read as a finite magnitude of 32 bits. -/
structure NarrowsTo (q : ℚ) (m : Nat) : Prop where
  finite : double.nearest q < double.infinity
  narrowed : single.nearest (double.value (double.nearest q)) = m

theorem NarrowsTo.between {x : ℚ} (known : 0 ≤ q) (low : NarrowsTo q m) (high : NarrowsTo r m)
    (above : q ≤ x) (below : x ≤ r) : NarrowsTo x m := by
  have first := nearest_mono (f := double) (by decide) known above
  have second := nearest_mono (f := double) (by decide) (known.trans above) below
  refine ⟨second.trans_lt high.finite, le_antisymm ?_ ?_⟩
  · rw [← high.narrowed]
    exact nearest_mono (by decide) (double.value_nonneg _) (value_le second)
  · rw [← low.narrowed]
    exact nearest_mono (by decide) (double.value_nonneg _) (value_le first)

theorem narrowsTo_value (finite : m < single.infinity) : NarrowsTo (single.value m) m := by
  obtain ⟨wideFinite, exact⟩ := double_nearest_single finite
  exact ⟨wideFinite, by rw [exact, nearest_value single (by decide) finite]⟩

theorem NarrowsTo.nearest_pos (positive : 0 < m) (reads : NarrowsTo q m) :
    0 < double.nearest q := by
  by_contra none
  have narrowed := reads.narrowed
  rw [Nat.eq_zero_of_not_pos none, value_zero, nearest, if_pos rfl] at narrowed
  exact positive.ne narrowed

/-! ## The two roundings in one binade -/

theorem double_value_nearest {k : Int} (low : 2 ^ k ≤ q) (high : q < 2 ^ (k + 1))
    (normal : -1022 ≤ k) (bounded : k ≤ 1022) :
    double.nearest q < double.infinity ∧
      double.value (double.nearest q) = roundEven (q / 2 ^ (k - 52)) * 2 ^ (k - 52) := by
  have positive : (0 : ℚ) < q := (zpow_pos two_pos _).trans_le low
  have unitIs : double.unit q = k - 52 := by
    have precision : (double.precision : Int) - 1 = 52 := rfl
    have least : double.leastExponent = -1074 := by decide
    rw [unit_of_log low high, precision]
    omega
  have exact := value_rounded (f := double) (by decide) positive
  have fits := roundEven_unit_le (f := double) (by decide) positive
  rw [unitIs] at exact fits
  have finite : double.rounded q < double.infinity := by
    apply lt_of_value_lt
    have fits : (roundEven (q / 2 ^ (k - 52)) : ℚ) ≤ 2 ^ (53 : Int) := by exact_mod_cast fits
    calc double.value (double.rounded q) ≤ 2 ^ (53 : Int) * 2 ^ (k - 52) := by
          rw [exact]
          exact mul_le_mul_of_nonneg_right fits (zpow_pos two_pos _).le
      _ = 2 ^ (53 + (k - 52)) := (zpow_add₀ two_ne_zero _ _).symm
      _ < 2 ^ (1024 : Int) := zpow_lt_zpow_right₀ one_lt_two (by omega)
      _ = double.value double.infinity := double_value_infinity.symm
  have same : double.nearest q = double.rounded q := by
    rw [nearest, if_neg positive.ne', if_pos finite]
  rw [same]
  exact ⟨finite, exact⟩

theorem lt_of_significand {j : Nat} (low : 2 ^ j < single.significand m) : j < 24 := by
  have small := (single.significand_bounds m).2.1
  have hidden : 2 * single.hiddenBit = 2 ^ 24 := rfl
  exact (Nat.pow_lt_pow_iff_right one_lt_two).mp (low.trans (small.trans_eq hidden))

section Binade

variable {j : Nat} (finite : m < single.infinity) (low : 2 ^ j < single.significand m)
  (high : single.significand m < 2 ^ (j + 1))
include finite low high

omit finite high in
theorem doubleUnits (i : Nat) :
    ((2 ^ i * 2 ^ (52 - j) : Nat) : ℚ) * 2 ^ (single.exponent m + j - 52) =
      2 ^ (single.exponent m + i) := by
  have short : j < 24 := lt_of_significand low
  push_cast
  rw [← zpow_natCast, ← zpow_natCast, ← zpow_add₀ two_ne_zero, ← zpow_add₀ two_ne_zero]
  congr 1
  omega

omit finite high in
theorem singleUnits (x : ℚ) : x * 2 ^ (single.exponent m + j - 52) / 2 ^ single.exponent m =
    x / 2 ^ (52 - j) := by
  have short : j < 24 := lt_of_significand low
  have places : single.exponent m = single.exponent m + j - 52 + (52 - j : Nat) := by omega
  nth_rewrite 2 [places]
  rw [zpow_add₀ two_ne_zero, zpow_natCast, mul_comm, mul_div_mul_left _ _ (zpow_ne_zero _ two_ne_zero)]

/-- What is read as the number: rounded to the last place of 64 bits and then to that of
32 bits, it has the significand of the number. -/
theorem narrowsTo_iff (positive : 0 < q) :
    NarrowsTo q m ↔ roundTwice (52 - j) (q / 2 ^ (single.exponent m + j - 52)) =
      single.significand m := by
  obtain ⟨least, most⟩ := single_exponent_bounds finite
  have short : j < 24 := lt_of_significand low
  have power : (0 : ℚ) < 2 ^ (single.exponent m + j - 52) := zpow_pos two_pos _
  have singleLeast : single.leastExponent = -149 := by decide
  have doubleLeast : double.leastExponent = -1074 := by decide
  constructor
  · intro reads
    have some : 0 < m := by
      by_contra none
      rw [Nat.eq_zero_of_not_pos none, significand, Nat.zero_sub] at low
      exact Nat.not_lt_zero _ low
    have wide := double.value_pos (reads.nearest_pos some)
    obtain ⟨lower, upper⟩ := value_between low high
    obtain ⟨above, below⟩ := between_of_nearest (by decide) (by omega) finite lower upper wide
      reads.narrowed
    obtain ⟨above, below⟩ := between_of_nearest (by decide) (by omega) reads.finite above below
      positive rfl
    obtain ⟨-, exact⟩ := double_value_nearest above.le below (by omega) (by omega)
    have narrowed := (nearest_eq_iff (by decide) low high finite wide).mp reads.narrowed
    rwa [exact, singleUnits low] at narrowed
  · intro rounds
    obtain ⟨above, below⟩ := between_of_roundTwice (2 ^ j) (2 ^ (j + 1))
      (div_nonneg positive.le power.le) (rounds ▸ low) (rounds ▸ high)
    rw [lt_div_iff₀ power, doubleUnits low] at above
    rw [div_lt_iff₀ power, doubleUnits low, Nat.cast_succ, ← add_assoc] at below
    obtain ⟨wideFinite, exact⟩ := double_value_nearest above.le below (by omega) (by omega)
    have wide : 0 < double.value (double.nearest q) := by
      rw [exact]
      refine mul_pos ?_ power
      by_contra none
      rw [roundTwice, le_antisymm (not_lt.mp none) (Nat.cast_nonneg _), zero_div, ← Nat.cast_zero,
        roundEven_natCast] at rounds
      exact Nat.not_lt_zero _ (rounds ▸ low)
    refine ⟨wideFinite, (nearest_eq_iff (by decide) low high finite wide).mpr ?_⟩
    rw [exact, singleUnits low]
    exact rounds

/-- The numbers that are read as a number that is no power of two lie symmetric about it. -/
theorem narrowsTo_reflect (positive : 0 < q) (reads : NarrowsTo q m) :
    q < 2 * single.value m ∧ NarrowsTo (2 * single.value m - q) m := by
  have power : (0 : ℚ) < 2 ^ (single.exponent m + j - 52) := zpow_pos two_pos _
  have rounds := (narrowsTo_iff finite low high positive).mp reads
  obtain ⟨inside, mirrored⟩ :=
    roundTwice_reflect (div_nonneg positive.le power.le) rounds (Nat.zero_lt_of_lt low)
  have center : (single.significand m * 2 ^ (52 - j) : Nat) =
      single.value m / 2 ^ (single.exponent m + j - 52) := by
    have units := doubleUnits low 0
    rw [Nat.pow_zero, Nat.one_mul, Nat.cast_zero, add_zero] at units
    rw [eq_div_iff power.ne', Nat.cast_mul, mul_assoc, units, value]
  rw [center, ← mul_div_assoc] at inside mirrored
  rw [← sub_div] at mirrored
  have less := (div_lt_div_iff_of_pos_right power).mp inside
  exact ⟨less, (narrowsTo_iff finite low high (sub_pos.mpr less)).mpr mirrored⟩

/-- Where a decimal is read as the number, the nearest decimal with as many digits is. -/
theorem narrowsTo_roundToDigits {count numerator divisor : Nat} {d : Decimal}
    (top : 0 < numerator) (bottom : 0 < divisor) (counted : 0 < count)
    (exact : (numerator : ℚ) / divisor = single.value m) (short : d.digits ≤ 10 ^ count)
    (positive : 0 < d.value) (reads : NarrowsTo d.value m) :
    NarrowsTo (roundToDigits count numerator divisor).value m := by
  have near := roundToDigits_nearest top bottom counted short
  obtain ⟨inside, mirrored⟩ := narrowsTo_reflect finite low high positive reads
  rw [exact] at near
  -- the nearest decimal lies between the given one and its mirror image
  rcases le_total d.value (single.value m) with below | above
  · rw [abs_of_nonneg (sub_nonneg.mpr below), abs_le] at near
    exact reads.between positive.le mirrored (by linarith) (by linarith)
  · rw [abs_of_nonpos (sub_nonpos.mpr above), abs_le] at near
    exact mirrored.between (sub_pos.mpr inside).le reads (by linarith) (by linarith)

end Binade

/-! ## Patterns -/

section Patterns

variable {pattern : Nat} (isNumber : single.IsNumber pattern)
  (finite : single.magnitude pattern < single.infinity)
include isNumber finite

theorem convert_ofDecimal_iff (negative : Bool) (d : Decimal) :
    double.convert .single (double.ofDecimal negative d) = pattern ↔
      negative = single.isNegative pattern ∧ NarrowsTo d.value (single.magnitude pattern) := by
  have wideTop : double.infinity < double.signBit := Stored.infinity_lt (.inr rfl)
  have top : single.infinity < single.signBit := Stored.infinity_lt (.inl rfl)
  have read : double.ofDecimal negative d = double.withSign negative (double.nearest d.value) := by
    rw [ofDecimal_sign, double_ofDecimal]
  have bounded := nearest_le_infinity double d.value
  have small := bounded.trans_lt wideTop
  rcases bounded.lt_or_eq with wideFinite | infinite
  · have narrow := (nearest_le_infinity single (double.value (double.nearest d.value))).trans_lt top
    rw [read, convert_finite (by rwa [magnitude_withSign small]), magnitude_withSign small,
      isNegative_withSign small]
    constructor
    · rintro rfl
      rw [isNegative_withSign narrow, magnitude_withSign narrow]
      exact ⟨rfl, wideFinite, rfl⟩
    · rintro ⟨rfl, reads⟩
      rw [reads.narrowed, withSign_magnitude isNumber.fits]
  · rw [read, convert_infinite (by rwa [magnitude_withSign small])]
    constructor
    · rintro rfl
      rw [magnitude_withSign top] at finite
      exact absurd finite (lt_irrefl _)
    · rintro ⟨-, reads⟩
      exact absurd infinite reads.finite.ne

theorem roundToSingle_ofDecimal_iff (negative : Bool) (d : Decimal) :
    roundToSingle (double.ofDecimal negative d) = widen .single pattern ↔
      negative = single.isNegative pattern ∧ NarrowsTo d.value (single.magnitude pattern) := by
  rw [← convert_ofDecimal_iff isNumber finite]
  constructor
  · intro same
    have number : double.IsNumber (double.ofDecimal negative d) := .ofDecimal (.inr rfl) _ _
    have back := (narrow_widen (number.convert (.inl rfl))).1
    rw [← roundToSingle, same, (narrow_widen isNumber).1] at back
    exact back.symm
  · intro same
    rw [roundToSingle, same]

end Patterns

/-! ## The nearest decimal of a 32-bit number -/

def nearestDecimal (count m : Nat) : Decimal :=
  roundToDigits count (double.ratio (widen .single m)).1 (double.ratio (widen .single m)).2

section Magnitude

variable {m count : Nat} {d : Decimal}

theorem isNumber_magnitude (finite : m < single.infinity) :
    single.IsNumber m ∧ single.magnitude m = m ∧ single.isNegative m = false := by
  have top : single.infinity < single.signBit := Stored.infinity_lt (.inl rfl)
  have small := finite.trans top
  have magnitude : single.magnitude (single.withSign false m) = m := magnitude_withSign small
  have sign : single.isNegative (single.withSign false m) = false := isNegative_withSign small
  have isNumber : single.IsNumber (single.withSign false m) := .withSign (.inl rfl) _ finite.le
  exact ⟨isNumber, magnitude, sign⟩

theorem widen_magnitude (finite : m < single.infinity) :
    widen .single m = double.nearest (single.value m) := by
  obtain ⟨-, magnitude, sign⟩ := isNumber_magnitude finite
  rw [widen_finite (by rwa [magnitude]), magnitude, sign, withSign_false]

theorem value_widen (finite : m < single.infinity) :
    double.value (widen .single m) = single.value m := by
  rw [widen_magnitude finite, (double_nearest_single finite).2]

theorem widen_pos (positive : 0 < m) (finite : m < single.infinity) : 0 < widen .single m := by
  apply lt_of_value_lt (f := double)
  rw [value_widen finite, value_zero]
  exact single.value_pos positive

theorem ratio_widen (positive : 0 < m) (finite : m < single.infinity) :
    0 < (double.ratio (widen .single m)).1 ∧ 0 < (double.ratio (widen .single m)).2 ∧
      ((double.ratio (widen .single m)).1 : ℚ) / (double.ratio (widen .single m)).2 =
        single.value m :=
  ⟨double.ratio_numerator_pos (widen_pos positive finite), double.ratio_pos _, by
    rw [double.ratio_value, value_widen finite]⟩

theorem narrowsTo_neighbours (positive : 0 < m) (finite : m < single.infinity)
    (counted : 0 < count) (short : d.digits ≤ 10 ^ count) (reads : NarrowsTo d.value m) :
    NarrowsTo (neighbours count (double.ratio (widen .single m)).1
        (double.ratio (widen .single m)).2).1.value m ∨
      NarrowsTo (neighbours count (double.ratio (widen .single m)).1
        (double.ratio (widen .single m)).2).2.value m := by
  obtain ⟨top, bottom, exact⟩ := ratio_widen positive finite
  obtain ⟨low, high⟩ := neighbours_order count (double.ratio (widen .single m)).1
    (double.ratio (widen .single m)).2
  rw [exact] at low high
  have itself := narrowsTo_value finite
  rcases neighbours_cover top bottom counted short with less | more
  · exact Or.inl (reads.between d.value_nonneg itself less low)
  · exact Or.inr (itself.between (single.value_pos positive).le reads high more)

theorem NarrowsTo.pos (positive : 0 < m) (reads : NarrowsTo d.value m) : 0 < d.value := by
  by_contra none
  have zero : d.value = 0 := le_antisymm (not_lt.mp none) d.value_nonneg
  have wide := reads.nearest_pos positive
  rw [zero, nearest, if_pos rfl] at wide
  exact wide.false

/-- Seventeen digits tell 64-bit numbers apart, and so the 32-bit numbers among them. -/
theorem exists_narrowsTo (positive : 0 < m) (finite : m < single.infinity) :
    ∃ d : Decimal, d.digits ≤ 10 ^ digitBound ∧ NarrowsTo d.value m := by
  obtain ⟨top, bottom, -⟩ := ratio_widen positive finite
  have wideFinite := (double_nearest_single finite).1
  rw [← widen_magnitude finite] at wideFinite
  have reads := double_nearer_reads (widen_pos positive finite) wideFinite
  rw [double_ofDecimal] at reads
  refine ⟨_, ?_, by rwa [reads], ?_⟩
  · obtain ⟨below, above⟩ := neighbours_digits_le digitBound top bottom
    unfold nearer
    split <;> assumption
  · rw [reads, value_widen finite, nearest_value single (by decide) finite]

/-! ## Powers of two -/

def isReadAs (m : Nat) (d : Decimal) : Bool :=
  double.convert .single (double.ofDecimal false d) == m

theorem isReadAs_iff (finite : m < single.infinity) :
    isReadAs m d = true ↔ NarrowsTo d.value m := by
  obtain ⟨isNumber, magnitude, sign⟩ := isNumber_magnitude finite
  have reads := convert_ofDecimal_iff isNumber (by rwa [magnitude]) false d
  rw [magnitude, sign] at reads
  rw [isReadAs, beq_iff_eq, reads]
  exact and_iff_right rfl

/-- Whether the nearest decimals are read as a magnitude, from so many digits downwards until
no decimal is: then neither the nearest one is nor the other neighbour. -/
def nearestSuffices (m : Nat) : Nat → Bool
  | 0 => true
  | count + 1 =>
    let exact := double.ratio (widen .single m)
    let (below, above) := neighbours (count + 1) exact.1 exact.2
    let nearest := nearestDecimal (count + 1) m
    if isReadAs m nearest then nearestSuffices m count
    else !isReadAs m (if nearest = below then above else below)

theorem narrowsTo_nearestDecimal_of_suffices {last : Nat} (positive : 0 < m)
    (finite : m < single.infinity) (sufficient : nearestSuffices m last = true)
    (counted : 0 < count) (bounded : count ≤ last) (short : d.digits ≤ 10 ^ count)
    (reads : NarrowsTo d.value m) : NarrowsTo (nearestDecimal count m).value m := by
  induction last with
  | zero => omega
  | succ last ih =>
      unfold nearestSuffices at sufficient
      dsimp only at sufficient
      split at sufficient
      · next read =>
          rcases bounded.lt_or_eq with less | rfl
          · exact ih sufficient (Nat.lt_succ_iff.mp less)
          · exact (isReadAs_iff finite).mp read
      · next unread =>
          -- no decimal with as many digits is read, and so none with fewer
          have short := short.trans (Nat.pow_le_pow_right (by decide) bounded)
          have proper := (ratio_widen positive finite).2.1
          have among := roundToDigits_mem (last + 1) (double.ratio (widen .single m)).1 proper
          have neighbour := narrowsTo_neighbours positive finite (Nat.succ_pos last) short reads
          rw [← isReadAs_iff finite, ← isReadAs_iff finite] at neighbour
          rw [nearestDecimal] at sufficient unread
          split at sufficient <;> simp_all

def powersOfTwo : List Nat :=
  (List.range 23).map (2 ^ ·) ++ (List.range 254).map fun binade => (binade + 1) * single.hiddenBit

theorem mem_powersOfTwo {j : Nat} (finite : m < single.infinity)
    (power : single.significand m = 2 ^ j) : m ∈ powersOfTwo := by
  obtain ⟨split, small, large⟩ := single.significand_bounds m
  have hidden : single.hiddenBit = 2 ^ 23 := rfl
  have top : single.infinity = 255 * single.hiddenBit := rfl
  have short : j < 24 := (Nat.pow_lt_pow_iff_right one_lt_two).mp (power ▸ small)
  unfold powersOfTwo
  rw [List.mem_append, List.mem_map, List.mem_map]
  by_cases normal : single.significand m = single.hiddenBit
  · right
    have whole : (single.binade m + 1) * single.hiddenBit = m := by
      rw [Nat.add_mul]
      omega
    have bounded : single.binade m + 1 < 255 := by
      rw [← whole, top] at finite
      exact Nat.lt_of_mul_lt_mul_right finite
    exact ⟨single.binade m, List.mem_range.mpr (by omega), whole⟩
  · left
    have subnormal : single.binade m = 0 := by
      by_contra some
      have fills := large (Nat.pos_of_ne_zero some)
      rw [power, hidden, Nat.pow_le_pow_iff_right one_lt_two] at fills
      rw [power, hidden] at normal
      exact normal (congrArg (2 ^ ·) (by omega))
    refine ⟨j, List.mem_range.mpr ?_, ?_⟩
    · rw [power, hidden] at normal
      have different : j ≠ 23 := fun same => normal (congrArg (2 ^ ·) same)
      omega
    · rw [subnormal, Nat.zero_mul, Nat.zero_add, power] at split
      exact split.symm

/-- The magnitudes of `2 ^ -96`, `2 ^ 87` and `2 ^ 90`: the nearest decimal with eight digits
is below the number and is not read as it, and the one above the number is. -/
def longPowers : List Nat := [0x0f800000, 0x6b000000, 0x6c800000]

theorem powersOfTwo_all : (powersOfTwo.all fun m =>
    (isReadAs m (nearestDecimal 8 m) || isReadAs m (nearestDecimal 9 m)) &&
      (longPowers.contains m || nearestSuffices m 8)) = true := by
  decide +kernel

/-- With fewer digits than some that can be read, the nearest decimal is read wherever any
decimal is; only three magnitudes are different. -/
theorem exists_narrowsTo_nearestDecimal (positive : 0 < m) (finite : m < single.infinity)
    (ordinary : m ∉ longPowers) :
    ∃ last, 0 < last ∧ last ≤ digitBound ∧ NarrowsTo (nearestDecimal last m).value m ∧
      ∀ count (d : Decimal), 0 < count → count < last → d.digits ≤ 10 ^ count →
        NarrowsTo d.value m → NarrowsTo (nearestDecimal count m).value m := by
  obtain ⟨top, bottom, exact⟩ := ratio_widen positive finite
  have significant := single.significand_pos positive
  have low := Nat.log2_self_le significant.ne'
  have high := Nat.lt_log2_self (n := single.significand m)
  rcases low.lt_or_eq with inside | power
  · have general : ∀ count (d : Decimal), 0 < count → d.digits ≤ 10 ^ count →
        NarrowsTo d.value m → NarrowsTo (nearestDecimal count m).value m :=
      fun count d counted short reads => narrowsTo_roundToDigits finite inside high top bottom
        counted exact short (reads.pos positive) reads
    obtain ⟨d, short, reads⟩ := exists_narrowsTo positive finite
    exact ⟨digitBound, by decide, le_rfl, general _ d (by decide) short reads,
      fun count d counted _ => general count d counted⟩
  · have settled := List.all_eq_true.mp powersOfTwo_all m (mem_powersOfTwo finite power.symm)
    simp only [Bool.and_eq_true, Bool.or_eq_true, List.contains_iff_mem, ordinary, false_or,
      isReadAs_iff finite] at settled
    obtain ⟨read, sufficient⟩ := settled
    have general : ∀ count (d : Decimal), 0 < count → count < 9 → d.digits ≤ 10 ^ count →
        NarrowsTo d.value m → NarrowsTo (nearestDecimal count m).value m :=
      fun count d counted less short => narrowsTo_nearestDecimal_of_suffices positive finite
        sufficient counted (Nat.lt_succ_iff.mp less) short
    rcases read with eight | nine
    · exact ⟨8, by decide, by decide, eight,
        fun count d counted less => general count d counted (less.trans (by decide))⟩
    · exact ⟨9, by decide, by decide, nine, general⟩

end Magnitude

end Format

end CondSat.Ieee
