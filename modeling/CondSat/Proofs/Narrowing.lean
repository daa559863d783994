import CondSat.Proofs.Midpoints

/-! # Narrowing to 32 bits

Conversion between formats keeps the sign, the order and the kind of a number, and a finite
number becomes the nearest one of the other format.  So a 64-bit number becomes the nearest
32-bit one; widening that again changes nothing, which makes rounding to 32 bits monotone and
idempotent. -/
set_option autoImplicit false
namespace CondSat.Ieee

namespace Format

variable {f g : Format} {pattern left right m n : Nat}

/-! ## Numbers -/

/-- What a magnitude of one format becomes in another one. -/
def convertedMagnitude (f g : Format) (m : Nat) : Nat :=
  if m < f.infinity then g.nearest (f.value m) else g.infinity

theorem convertedMagnitude_le (m : Nat) : f.convertedMagnitude g m ≤ g.infinity := by
  unfold convertedMagnitude
  split
  · exact nearest_le_infinity g _
  · exact le_rfl

theorem convertedMagnitude_mono (precise : 1 ≤ g.precision) (less : m ≤ n) :
    f.convertedMagnitude g m ≤ f.convertedMagnitude g n := by
  have bounded := nearest_le_infinity g (f.value m)
  have order := nearest_mono (f := g) precise (f.value_nonneg m) (value_le (f := f) less)
  unfold convertedMagnitude
  split <;> split <;> omega

theorem convertedMagnitude_zero (some : 0 < f.infinity) : f.convertedMagnitude g 0 = 0 := by
  rw [convertedMagnitude, if_pos some, value_zero, nearest, if_pos rfl]

theorem IsNumber.convert_eq (isNumber : f.IsNumber pattern) :
    f.convert g pattern =
      g.withSign (f.isNegative pattern) (f.convertedMagnitude g (f.magnitude pattern)) := by
  unfold convertedMagnitude
  split
  · next finite => exact convert_finite finite
  · next infinite => exact convert_infinite (le_antisymm isNumber.number (not_lt.mp infinite))

theorem IsNumber.not_isNaN (isNumber : f.IsNumber pattern) : f.isNaN pattern = false :=
  decide_eq_false (not_lt.mpr isNumber.number)

theorem place_withSign (negative : Bool) (small : m < f.signBit) :
    f.place (f.withSign negative m) = if negative then -(m : Int) else m := by
  rw [place, isNegative_withSign small, magnitude_withSign small]

theorem IsNumber.numLe_convert (stored : f.Stored) (target : g.Stored)
    (leftNumber : f.IsNumber left) (rightNumber : f.IsNumber right)
    (less : f.numLe left right = true) :
    g.numLe (f.convert g left) (f.convert g right) = true := by
  have leftConverted := (leftNumber.convert (g := g) target).not_isNaN
  have rightConverted := (rightNumber.convert (g := g) target).not_isNaN
  have top := target.infinity_lt
  have zero := convertedMagnitude_zero (g := g) stored.infinity_pos
  have leftSmall := (convertedMagnitude_le (f := f) (f.magnitude left)).trans_lt top
  have rightSmall := (convertedMagnitude_le (f := f) (f.magnitude right)).trans_lt top
  have order := convertedMagnitude_mono (f := f) (g := g) (m := f.magnitude left)
    (n := f.magnitude right) target.precise
  have reverse := convertedMagnitude_mono (f := f) (g := g) (m := f.magnitude right)
    (n := f.magnitude left) target.precise
  simp only [numLe, Bool.and_eq_true, decide_eq_true_eq] at less ⊢
  refine ⟨by rw [leftConverted, rightConverted]; exact ⟨rfl, rfl⟩, ?_⟩
  have places := less.2
  rw [leftNumber.convert_eq, rightNumber.convert_eq, place_withSign _ leftSmall,
    place_withSign _ rightSmall]
  unfold place at places
  cases leftSign : f.isNegative left <;> cases rightSign : f.isNegative right <;>
    simp only [leftSign, rightSign, Bool.false_eq_true, if_true, if_false] at places ⊢
  · exact Int.ofNat_le.mpr (order (Int.ofNat_le.mp places))
  · -- both are zeros
    rw [show f.magnitude left = 0 by omega, show f.magnitude right = 0 by omega, zero]
    simp
  · omega
  · have := reverse (by omega)
    omega

theorem isNumber_of_word {word : BitVec 64} (number : double.isNaN word.toNat = false) :
    double.IsNumber word.toNat := by
  have fits := word.isLt
  have room : 2 * double.signBit = 2 ^ 64 := by decide
  exact ⟨room ▸ fits, not_lt.mp (of_decide_eq_false number)⟩

/-! ## What is not a number -/

theorem Stored.signBit_eq (stored : f.Stored) : f.signBit = f.infinity + 2 ^ (f.precision - 1) := by
  rcases stored with rfl | rfl <;> decide

theorem Stored.two_le_precision (stored : f.Stored) : 2 ≤ f.precision := by
  rcases stored with rfl | rfl <;> decide

theorem payload_fits {payload : Nat} (source : 1 ≤ f.precision) (target : 1 ≤ g.precision)
    (fits : payload < 2 ^ (f.precision - 1)) :
    (scaleDown 2 (f.precision - g.precision : Int) payload 1).1 /
      (scaleDown 2 (f.precision - g.precision : Int) payload 1).2 < 2 ^ (g.precision - 1) := by
  unfold scaleDown
  split
  · next fewer =>
      dsimp only
      rw [Nat.one_mul]
      apply Nat.div_lt_of_lt_mul
      change payload < 2 ^ _ * 2 ^ _
      rw [← Nat.pow_add]
      rwa [show (f.precision - g.precision : Int).toNat + (g.precision - 1) = f.precision - 1 by
        omega]
  · next more =>
      dsimp only
      rw [Nat.div_one]
      change payload * 2 ^ _ < _
      rw [show g.precision - 1 =
        f.precision - 1 + (-(f.precision - g.precision : Int)).toNat by omega, Nat.pow_add]
      exact Nat.mul_lt_mul_of_pos_right fits (Nat.two_pow_pos _)

/-- The leading bits of the payload stay, and the first one is set. -/
theorem convert_nan (stored : f.Stored) (target : g.Stored) (nan : f.isNaN pattern = true) :
    ∃ m, f.convert g pattern = g.withSign (f.isNegative pattern) m ∧
      g.infinity < m ∧ m < g.signBit := by
  have beyond : f.infinity < f.magnitude pattern := of_decide_eq_true nan
  have below : f.magnitude pattern < f.signBit :=
    Nat.mod_lt _ (Nat.zero_lt_of_lt stored.infinity_lt)
  have payload : f.magnitude pattern - f.infinity < 2 ^ (f.precision - 1) := by
    rw [stored.signBit_eq] at below
    omega
  have precise := target.two_le_precision
  have fits := Nat.or_lt_two_pow (payload_fits stored.precise target.precise payload)
    (Nat.pow_lt_pow_right Nat.one_lt_two (show g.precision - 2 < g.precision - 1 by omega))
  have room := Nat.add_lt_add_left fits g.infinity
  rw [← target.signBit_eq] at room
  refine ⟨_, ?_, ?_, room⟩
  · unfold convert
    dsimp only
    rw [nan, if_pos rfl]
    rfl
  · exact Nat.lt_add_of_pos_right (Nat.lt_of_lt_of_le (Nat.two_pow_pos _) Nat.right_le_or)

theorem isNaN_convert (nan : double.isNaN pattern = true) :
    single.isNaN (double.convert .single pattern) = true := by
  obtain ⟨m, converted, above, small⟩ := convert_nan (.inr rfl) (.inl rfl) nan
  rw [converted, isNaN, magnitude_withSign small]
  exact decide_eq_true above

theorem convert_lt (word : BitVec 64) : double.convert .single word.toNat < 2 ^ 32 := by
  cases nan : double.isNaN word.toNat with
  | true =>
      obtain ⟨m, converted, -, small⟩ := convert_nan (.inr rfl) (.inl rfl) nan
      rw [converted]
      exact withSign_lt small
  | false => exact ((isNumber_of_word nan).convert (.inl rfl)).fits

end Format

open Format

/-! ## Rounding to 32 bits -/

theorem widen_single (pattern : Nat) : widen .single pattern = single.convert .double pattern :=
  if_neg (by decide)

theorem toPattern_real (pattern : Nat) :
    (Number.real pattern).toPattern .single = .ok (double.convert .single pattern) := by
  rw [Number.toPattern, Number.toDouble, Except.map, if_neg (by decide)]

theorem roundToSingle_mono {left right : Nat} (leftNumber : double.IsNumber left)
    (rightNumber : double.IsNumber right) (less : double.numLe left right = true) :
    double.numLe (roundToSingle left) (roundToSingle right) = true := by
  have narrowed := leftNumber.numLe_convert (g := single) (.inr rfl) (.inl rfl) rightNumber less
  rw [roundToSingle, roundToSingle, widen_single, widen_single]
  exact (leftNumber.convert (.inl rfl)).numLe_convert (.inl rfl) (.inr rfl)
    (rightNumber.convert (.inl rfl)) narrowed

theorem roundToSingle_idem {pattern : Nat} (number : double.IsNumber pattern) :
    roundToSingle (roundToSingle pattern) = roundToSingle pattern := by
  have narrowed := (narrow_widen (number.convert (g := single) (.inl rfl))).1
  unfold roundToSingle
  rw [narrowed]

/-- A 64-bit number is rounded to the nearest 32-bit one: a finite number keeps its sign, also
where it becomes a zero, and becomes an infinity from `2 ^ 128 - 2 ^ 103` on; infinities stay
what they are, and so does what is not a number.  The rounded numbers keep their order and are
not changed by rounding again. -/
theorem narrowed_to_nearest (word : BitVec 64) :
    ∃ narrow, (Number.real word.toNat).toPattern .single = .ok narrow ∧ narrow < 2 ^ 32 ∧
      (double.magnitude word.toNat < double.infinity →
        single.isNegative narrow = double.isNegative word.toNat ∧
        single.IsNearest (double.value (double.magnitude word.toNat)) (single.magnitude narrow) ∧
        (single.magnitude narrow = single.infinity ↔
          2 ^ 128 - 2 ^ 103 ≤ double.value (double.magnitude word.toNat))) ∧
      (double.isInfinite word.toNat = true →
        narrow = single.withSign (double.isNegative word.toNat) single.infinity) ∧
      (double.isNaN word.toNat = true → single.isNaN narrow = true) ∧
      (double.isNaN word.toNat = false →
        roundToSingle (roundToSingle word.toNat) = roundToSingle word.toNat) ∧
      (∀ other : BitVec 64, double.numLe word.toNat other.toNat = true →
        double.numLe (roundToSingle word.toNat) (roundToSingle other.toNat) = true) := by
  refine ⟨double.convert .single word.toNat, toPattern_real _, convert_lt word, ?_, ?_,
    isNaN_convert, ?_, ?_⟩
  · intro finite
    have nearest := nearest_isNearest (f := single) (.inl rfl)
      (double.value_nonneg (double.magnitude word.toNat))
    have small := nearest.bounded.trans_lt (Stored.infinity_lt (.inl rfl))
    rw [convert_finite finite, isNegative_withSign small, magnitude_withSign small,
      ← single_midpoint_largest]
    exact ⟨rfl, nearest, nearest.overflow⟩
  · intro infinite
    exact convert_infinite (beq_iff_eq.mp infinite)
  · intro number
    exact roundToSingle_idem (isNumber_of_word number)
  · intro other less
    have numbers := less
    simp only [numLe, Bool.and_eq_true, Bool.not_eq_true'] at numbers
    exact roundToSingle_mono (isNumber_of_word numbers.1.1) (isNumber_of_word numbers.1.2) less

end CondSat.Ieee
