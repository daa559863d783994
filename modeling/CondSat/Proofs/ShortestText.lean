import CondSat.Proofs.SingleReading

/-! # Shortest texts of 32-bit numbers

The text of a 32-bit number is found by trying the nearest decimal with one digit, with two
digits and so on.  The first one that is read as the number has as few digits as any decimal
that is, with three exceptions for each sign: for `2 ^ -96`, `2 ^ 87` and `2 ^ 90` the nearest
decimal with eight digits is not read as the number, although another one is, and the text has
nine digits. -/
set_option autoImplicit false
namespace CondSat.Ieee

open Format

/-- The number of digits at which the search ends. -/
structure FirstReadable (m first : Nat) : Prop where
  counted : 0 < first
  reads : NarrowsTo (nearestDecimal first m).value m
  earlier : ∀ count, 0 < count → count < first → ¬ NarrowsTo (nearestDecimal count m).value m

theorem exists_firstReadable {m last : Nat} (counted : 0 < last)
    (reads : NarrowsTo (nearestDecimal last m).value m) :
    ∃ first, first ≤ last ∧ FirstReadable m first := by
  classical
  have some : ∃ count, 0 < count ∧ NarrowsTo (nearestDecimal count m).value m :=
    ⟨last, counted, reads⟩
  obtain ⟨counted', reads'⟩ := Nat.find_spec some
  exact ⟨Nat.find some, Nat.find_min' some ⟨counted, reads⟩, counted', reads',
    fun count counted less read => Nat.find_min some less ⟨counted, read⟩⟩

section Text

variable {pattern : Nat} (isNumber : single.IsNumber pattern)
  (finite : single.magnitude pattern < single.infinity) (nonzero : single.magnitude pattern ≠ 0)

section Widened

include finite

theorem magnitude_widen :
    double.magnitude (widen .single pattern) = widen .single (single.magnitude pattern) := by
  have top : double.infinity < double.signBit := Stored.infinity_lt (.inr rfl)
  rw [widen_finite finite, magnitude_withSign ((double_nearest_single finite).1.trans top),
    widen_magnitude finite]

theorem isNegative_widen :
    double.isNegative (widen .single pattern) = single.isNegative pattern := by
  have top : double.infinity < double.signBit := Stored.infinity_lt (.inr rfl)
  rw [widen_finite finite, isNegative_withSign ((double_nearest_single finite).1.trans top)]

end Widened

theorem Format.IsNumber.numEq_self {f : Format} (number : f.IsNumber pattern) :
    f.numEq pattern pattern = true := by
  have proper : f.isNaN pattern = false := decide_eq_false (not_lt.mpr number.number)
  simp [numEq, proper]

include isNumber finite nonzero

theorem numEq_roundToSingle_iff (negative : Bool) (d : Decimal) :
    double.numEq (roundToSingle (double.ofDecimal negative d)) (widen .single pattern) = true ↔
      negative = single.isNegative pattern ∧ NarrowsTo d.value (single.magnitude pattern) := by
  rw [← roundToSingle_ofDecimal_iff isNumber finite]
  have numbers : ∀ p, single.IsNumber p → double.IsNumber (widen .single p) := by
    intro p number
    rw [widen, if_neg (by decide)]
    exact number.convert (.inr rfl)
  have read : double.IsNumber (double.ofDecimal negative d) := .ofDecimal (.inr rfl) _ _
  have positive := widen_pos (Nat.pos_of_ne_zero nonzero) finite
  constructor
  · refine (numbers _ (read.convert (.inl rfl))).eq_of_numEq (numbers _ isNumber) ?_
    rw [isZero, magnitude_widen finite, beq_eq_false_iff_ne]
    exact positive.ne'
  · intro same
    rw [same]
    exact (numbers _ isNumber).numEq_self

theorem readableSingle?_eq {first tries count : Nat}
    (isFirst : FirstReadable (single.magnitude pattern) first) (counted : 0 < count)
    (low : count ≤ first) (high : first < count + tries) :
    readableSingle? (widen .single pattern) tries count =
      some (double.ofDecimal (single.isNegative pattern)
        (nearestDecimal first (single.magnitude pattern))) := by
  induction tries generalizing count with
  | zero => omega
  | succ tries ih =>
      have tested := numEq_roundToSingle_iff isNumber finite nonzero (single.isNegative pattern)
        (nearestDecimal count (single.magnitude pattern))
      rw [and_iff_right rfl] at tested
      rw [readableSingle?_succ]
      dsimp only
      rw [magnitude_widen finite, isNegative_widen finite, ← nearestDecimal]
      rcases low.eq_or_lt with rfl | less
      · rw [if_pos (tested.mpr isFirst.reads)]
      · rw [if_neg fun passes => isFirst.earlier count counted less (tested.mp passes)]
        exact ih (Nat.succ_pos count) less (by omega)

theorem singleText_decimal {first : Nat}
    (isFirst : FirstReadable (single.magnitude pattern) first) (bounded : first ≤ digitBound) :
    ∃ digits exponent,
      Text.real? (singleText (widen .single pattern)) =
        some (.decimal (single.isNegative pattern) digits exponent) ∧
      (⟨digits, exponent⟩ : Decimal).value = (double.shortest (double.nearest
        (nearestDecimal first (single.magnitude pattern)).value)).value := by
  have positive := Nat.pos_of_ne_zero nonzero
  have top : double.infinity < double.signBit := Stored.infinity_lt (.inr rfl)
  have wideFinite := (double_nearest_single finite).1
  have found := readableSingle?_eq isNumber finite nonzero isFirst one_pos isFirst.counted
    (show first < 1 + digitBound by omega)
  rw [ofDecimal_sign, double_ofDecimal] at found
  have readFinite := isFirst.reads.finite
  have small := readFinite.trans top
  have some := (isFirst.reads.nearest_pos positive).ne'
  have text : singleText (widen .single pattern) =
      double.text (double.withSign (single.isNegative pattern)
        (double.nearest (nearestDecimal first (single.magnitude pattern)).value)) := by
    unfold singleText
    dsimp only
    rw [magnitude_widen finite, isZero, magnitude_widen finite, found, if_neg]
    · rfl
    · have wide := widen_pos positive finite
      rw [widen_magnitude finite] at wide ⊢
      simp only [Bool.or_eq_true, decide_eq_true_eq, beq_iff_eq]
      omega
  obtain ⟨digits, exponent, read, value⟩ := @double_text_decimal
    (double.withSign (single.isNegative pattern)
      (double.nearest (nearestDecimal first (single.magnitude pattern)).value))
    (by rwa [magnitude_withSign small]) (by rwa [magnitude_withSign small])
  rw [← text, isNegative_withSign small] at read
  rw [magnitude_withSign small] at value
  exact ⟨digits, exponent, read, value⟩

end Text

/-! ## The number of digits -/

def significantDigits? (text : String) : Option Nat :=
  match Text.real? text with
  | some (.decimal _ digits exponent) => some (⟨digits, exponent⟩ : Decimal).significantDigits
  | _ => none

example : significantDigits? "0.0120" = some 2 ∧ significantDigits? "1.5e+10" = some 2 := by
  decide +kernel

section Digits

variable {m first : Nat} (positive : 0 < m) (finite : m < single.infinity)
  (isFirst : FirstReadable m first)
include positive finite isFirst

theorem significantDigits_shortest_le (bounded : first ≤ digitBound) :
    (double.shortest (double.nearest (nearestDecimal first m).value)).significantDigits ≤
      first := by
  obtain ⟨top, bottom, -⟩ := ratio_widen positive finite
  have few := double_shortest_digits_le (isFirst.reads.nearest_pos positive) isFirst.reads.finite
    isFirst.counted bounded (roundToDigits_digits_le top bottom) (double_ofDecimal _)
  exact Decimal.significantDigits_le isFirst.counted few

theorem not_narrowsTo_of_fewer (ordinary : m ∉ longPowers) {d : Decimal}
    (fewer : d.significantDigits < first) : ¬ NarrowsTo d.value m := by
  intro reads
  obtain ⟨last, counted, -, lastReads, general⟩ :=
    exists_narrowsTo_nearestDecimal positive finite ordinary
  have least : first ≤ last := by
    by_contra less
    exact isFirst.earlier last counted (not_le.mp less) lastReads
  obtain ⟨e, short, same⟩ :=
    Decimal.significantDigits_le_iff.mp (Nat.le_sub_one_of_lt fewer)
  rw [← same] at reads
  rcases Nat.eq_zero_or_pos (first - 1) with none | some
  · rw [none, Nat.pow_zero, Nat.lt_one_iff, ← Decimal.value_eq_zero] at short
    exact (reads.pos positive).ne' short
  · have counted := isFirst.counted
    exact isFirst.earlier (first - 1) some (by omega)
      (general (first - 1) e some (by omega) short.le reads)

end Digits

/-- At the three powers of two the search ends with nine digits, although the upper neighbour
with eight digits is read. -/
theorem longPowers_all : ∀ m ∈ longPowers,
    (∀ count < 8, isReadAs m (nearestDecimal (count + 1) m) = false) ∧
      isReadAs m (nearestDecimal 9 m) = true ∧
      isReadAs m (neighbours 8 (double.ratio (widen .single m)).1
        (double.ratio (widen .single m)).2).2 = true ∧
      (double.shortest (double.ofDecimal false (nearestDecimal 9 m))).significantDigits = 9 := by
  decide +kernel

theorem longPowers_firstReadable {m first : Nat} (finite : m < single.infinity)
    (long : m ∈ longPowers) (isFirst : FirstReadable m first) : first = 9 := by
  obtain ⟨unread, read, -, -⟩ := longPowers_all m long
  rcases Nat.lt_trichotomy first 9 with less | same | more
  · obtain ⟨count, rfl⟩ := Nat.exists_eq_add_one.mpr isFirst.counted
    have reads := (isReadAs_iff finite).mpr isFirst.reads
    rw [unread count (by omega)] at reads
    cases reads
  · exact same
  · exact absurd ((isReadAs_iff finite).mp read) (isFirst.earlier 9 (by decide) more)

theorem exists_firstReadable_bounded {m : Nat} (positive : 0 < m) (finite : m < single.infinity) :
    ∃ first, first ≤ digitBound ∧ FirstReadable m first := by
  obtain ⟨last, counted, bounded, reads⟩ : ∃ last, 0 < last ∧ last ≤ digitBound ∧
      NarrowsTo (nearestDecimal last m).value m := by
    by_cases long : m ∈ longPowers
    · have read := (longPowers_all m long).2.1
      exact ⟨9, by decide, by decide, (isReadAs_iff finite).mp read⟩
    · obtain ⟨last, counted, bounded, reads, -⟩ :=
        exists_narrowsTo_nearestDecimal positive finite long
      exact ⟨last, counted, bounded, reads⟩
  obtain ⟨first, least, isFirst⟩ := exists_firstReadable counted reads
  exact ⟨first, least.trans bounded, isFirst⟩

/-- The text of a 32-bit number has as few digits as any decimal that is read as the number,
but for three powers of two. -/
theorem single_text_shortest_iff {pattern : Nat} (isNumber : single.IsNumber pattern)
    (finite : single.magnitude pattern < single.infinity)
    (nonzero : single.magnitude pattern ≠ 0) :
    ∃ text count, (Number.real (widen .single pattern)).shortestText 32 = .ok text ∧
      significantDigits? text = some count ∧
      ((∀ negative (d : Decimal), d.significantDigits < count →
          roundToSingle (double.ofDecimal negative d) ≠ widen .single pattern) ↔
        single.magnitude pattern ∉ longPowers) := by
  have positive := Nat.pos_of_ne_zero nonzero
  obtain ⟨first, bounded, isFirst⟩ := exists_firstReadable_bounded positive finite
  obtain ⟨digits, exponent, read, value⟩ :=
    singleText_decimal isNumber finite nonzero isFirst bounded
  have counted := Decimal.significantDigits_congr value
  refine ⟨singleText (widen .single pattern), _, rfl, by rw [significantDigits?, read], ?_⟩
  rw [counted]
  by_cases long : single.magnitude pattern ∈ longPowers
  · -- the upper neighbour with eight digits is read, and the text has nine
    obtain ⟨-, -, above, nine⟩ := longPowers_all _ long
    obtain ⟨top, bottom, -⟩ := ratio_widen positive finite
    have eight := Decimal.significantDigits_le (by decide) (neighbours_digits_le 8 top bottom).2
    rw [double_ofDecimal] at nine
    rw [longPowers_firstReadable finite long isFirst, nine]
    refine iff_of_false (fun unread => ?_) (not_not.mpr long)
    refine unread (single.isNegative pattern) _ (Nat.lt_succ_of_le eight) ?_
    rw [roundToSingle_ofDecimal_iff isNumber finite]
    exact ⟨rfl, (isReadAs_iff finite).mp above⟩
  · refine iff_of_true (fun negative d fewer read => ?_) long
    have few := significantDigits_shortest_le positive finite isFirst bounded
    rw [roundToSingle_ofDecimal_iff isNumber finite] at read
    exact not_narrowsTo_of_fewer positive finite isFirst long (fewer.trans_le few) read.2

theorem single_text_shortest_pi :
    single.IsNumber 0x40490fdb ∧ single.magnitude 0x40490fdb < single.infinity ∧
      single.magnitude 0x40490fdb ≠ 0 ∧
      (Number.real (widen .single 0x40490fdb)).shortestText 32 = .ok "3.1415927" ∧
      ∀ negative (d : Decimal), d.significantDigits < 8 →
        roundToSingle (double.ofDecimal negative d) ≠ widen .single 0x40490fdb := by
  have isNumber : single.IsNumber 0x40490fdb := ⟨by decide, by decide⟩
  have finite : single.magnitude 0x40490fdb < single.infinity := by decide
  have nonzero : single.magnitude 0x40490fdb ≠ 0 := by decide
  obtain ⟨text, count, written, counted, shortest⟩ :=
    single_text_shortest_iff isNumber finite nonzero
  have pi : singleText (widen .single 0x40490fdb) = "3.1415927" := by decide +kernel
  obtain rfl : text = "3.1415927" := Except.ok.inj (written.symm.trans (congrArg Except.ok pi))
  obtain rfl : count = 8 := Option.some.inj (counted.symm.trans (by decide +kernel))
  exact ⟨isNumber, finite, nonzero, written, shortest.mpr (by decide)⟩

/-- The text of `2 ^ -96` has nine digits, and a decimal with eight is read as this number. -/
theorem single_text_not_shortest :
    (Number.real (widen .single 0x0f800000)).shortestText 32 = .ok "1.26217745e-29" ∧
      significantDigits? "1.26217745e-29" = some 9 ∧
      (⟨12621775, -36⟩ : Decimal).significantDigits = 8 ∧
      roundToSingle (double.ofDecimal false ⟨12621775, -36⟩) = widen .single 0x0f800000 := by
  have text : singleText (widen .single 0x0f800000) = "1.26217745e-29" := by decide +kernel
  refine ⟨congrArg Except.ok text, ?_, ?_, ?_⟩ <;> decide +kernel

end CondSat.Ieee
