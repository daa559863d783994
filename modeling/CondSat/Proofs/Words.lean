import CondSat.Analysis.ConstantTerm
import CondSat.Proofs.Meaning
import Mathlib.Data.Int.Bitwise
import Mathlib.Data.Int.ModEq

/-! # Readings of a word

A word of `width` bits is a residue modulo `2 ^ width`, and its two readings are the
representatives of the residue in the two ranges.  Three ways lead to them and agree for
integers of any size: to cut the integer off to a word, to mask it with the word of all
ones, and to look at its highest bit.  A constant of an integral kind is the word of its
value, so that it reads as this value exactly where the kind has the value. -/
set_option autoImplicit false
namespace CondSat.Word

variable {width : Nat} {v result : Int}

/-! ## Ranges -/

theorem count_pos (width : Nat) : (0 : Int) < 2 ^ width := Int.pow_pos (by decide)

theorem cast_count (width : Nat) : ((count width : Nat) : Int) = 2 ^ width :=
  Int.natCast_pow 2 width

theorem two_mul_half (positive : 0 < width) : (2 : Int) ^ width = 2 * 2 ^ (width - 1) := by
  rw [← pow_succ', Nat.sub_add_cancel positive]

def InRange (isSigned : Bool) (width : Nat) (v : Int) : Prop :=
  if isSigned then -2 ^ (width - 1) ≤ v ∧ v < 2 ^ (width - 1) else 0 ≤ v ∧ v < 2 ^ width

@[simp] theorem inRange_signed :
    InRange true width v ↔ -2 ^ (width - 1) ≤ v ∧ v < 2 ^ (width - 1) := Iff.rfl

@[simp] theorem inRange_unsigned : InRange false width v ↔ 0 ≤ v ∧ v < 2 ^ width := Iff.rfl

/-! ## Representatives -/

theorem modEq_iff : result ≡ v [ZMOD 2 ^ width] ↔ (2 : Int) ^ width ∣ result - v :=
  Int.modEq_comm.trans Int.modEq_iff_dvd

theorem signed_iff (positive : 0 < width) :
    signed v width = result ↔ InRange true width result ∧ result ≡ v [ZMOD 2 ^ width] := by
  have half := two_mul_half positive
  have words : 0 < count width := Nat.two_pow_pos width
  rw [signed, Int.bmod_eq_iff words, cast_count, modEq_iff, inRange_signed, and_assoc]
  generalize (2 : Int) ^ (width - 1) = h at half ⊢
  generalize (2 : Int) ^ width = n at half ⊢
  have low : -(n / 2) = -h := by omega
  have high : (n + 1) / 2 = h := by omega
  rw [low, high]

theorem unsigned_iff :
    unsigned v width = result ↔ InRange false width result ∧ result ≡ v [ZMOD 2 ^ width] := by
  have large := count_pos width
  rw [unsigned, cast_count, Int.emod_eq_iff (by omega), modEq_iff, inRange_unsigned, and_assoc,
    Int.natAbs_of_nonneg large.le]

theorem signed_inRange (positive : 0 < width) : InRange true width (signed v width) :=
  ((signed_iff positive).mp rfl).1

theorem signed_modEq (positive : 0 < width) : signed v width ≡ v [ZMOD 2 ^ width] :=
  ((signed_iff positive).mp rfl).2

theorem unsigned_inRange (v : Int) (width : Nat) : InRange false width (unsigned v width) :=
  (unsigned_iff.mp rfl).1

theorem unsigned_modEq (v : Int) (width : Nat) : unsigned v width ≡ v [ZMOD 2 ^ width] :=
  (unsigned_iff.mp rfl).2

theorem signed_unsigned (positive : 0 < width) : signed (unsigned v width) width = signed v width :=
  (signed_iff positive).mpr
    ⟨signed_inRange positive, (signed_modEq positive).trans (unsigned_modEq v width).symm⟩

theorem unsigned_signed (positive : 0 < width) : unsigned (signed v width) width = unsigned v width :=
  unsigned_iff.mpr
    ⟨unsigned_inRange v width, (unsigned_modEq v width).trans (signed_modEq positive).symm⟩

theorem signed_eq_self (positive : 0 < width) : signed v width = v ↔ InRange true width v := by
  simp [signed_iff positive]

theorem unsigned_eq_self : unsigned v width = v ↔ InRange false width v := by
  simp [unsigned_iff]

/-! ## Masks -/

theorem ldiff_low (m width : Nat) : (2 ^ width - 1).ldiff m = 2 ^ width - (m % 2 ^ width + 1) := by
  have low : m % 2 ^ width < 2 ^ width := Nat.mod_lt _ (Nat.two_pow_pos width)
  apply Nat.eq_of_testBit_eq
  intro place
  rw [Nat.testBit_ldiff, Nat.testBit_two_pow_sub_one, Nat.testBit_two_pow_sub_succ low,
    Nat.testBit_mod_two_pow]
  by_cases inside : place < width <;> simp [inside]

theorem ldiff_place (m place : Nat) : (2 ^ place).ldiff m = (!m.testBit place).toNat * 2 ^ place := by
  apply Nat.eq_of_testBit_eq
  intro other
  rw [Nat.testBit_ldiff, Nat.testBit_two_pow]
  by_cases here : place = other
  · subst here
    cases m.testBit place <;> simp
  · cases m.testBit place <;> simp [here]

theorem land_low (v : Int) (width : Nat) : Int.land v (2 ^ width - 1) = unsigned v width := by
  have mask : (2 : Int) ^ width - 1 = ((2 ^ width - 1 : Nat) : Int) := by
    rw [Int.ofNat_sub (Nat.two_pow_pos width)]
    simp
  rw [mask, unsigned, cast_count]
  cases v with
  | ofNat m =>
      change ((m &&& (2 ^ width - 1) : Nat) : Int) = ((m : Nat) : Int) % 2 ^ width
      rw [Nat.and_two_pow_sub_one_eq_mod]
      simp
  | negSucc m =>
      -- of a negative number the complement of the bits of `m` is left
      have low : m % 2 ^ width < 2 ^ width := Nat.mod_lt _ (Nat.two_pow_pos width)
      change (((2 ^ width - 1).ldiff m : Nat) : Int) = _
      rw [ldiff_low, Int.ofNat_sub (by omega), Int.negSucc_emod _ (count_pos width)]
      push_cast
      omega

theorem negSucc_bit (m place : Nat) :
    Int.negSucc m / 2 ^ place % 2 = ((!m.testBit place).toNat : Int) := by
  have bit : ((m / 2 ^ place : Nat) : Int) % 2 = (m.testBit place).toNat := by
    exact_mod_cast (Nat.toNat_testBit m place).symm
  have quotient : (m : Int).ediv (2 ^ place) = ((m / 2 ^ place : Nat) : Int) := by
    push_cast
    rfl
  rw [Int.negSucc_ediv _ (count_pos place), quotient]
  generalize ((m / 2 ^ place : Nat) : Int) = half at bit ⊢
  generalize m.testBit place = isSet at bit ⊢
  cases isSet <;> simp at bit ⊢ <;> omega

theorem land_place (v : Int) (place : Nat) :
    Int.land v (2 ^ place) = v / 2 ^ place % 2 * 2 ^ place := by
  have mask : (2 : Int) ^ place = ((2 ^ place : Nat) : Int) := by simp
  cases v with
  | ofNat m =>
      rw [mask]
      change ((m &&& 2 ^ place : Nat) : Int) = ((m : Nat) : Int) / _ % 2 * _
      rw [Nat.and_two_pow, Nat.toNat_testBit]
      push_cast
      rfl
  | negSucc m =>
      rw [negSucc_bit, mask]
      exact_mod_cast congrArg Int.ofNat (ldiff_place m place)

theorem topBit_eq (positive : 0 < width) : topBit v width = v / 2 ^ (width - 1) % 2 := by
  have large := count_pos (width - 1)
  rw [topBit, cast_count, unsigned, cast_count, two_mul_half positive]
  generalize (2 : Int) ^ (width - 1) = h at large ⊢
  have halved : v / h / 2 = v / (2 * h) := by
    rw [Int.ediv_ediv_of_nonneg large.le, Int.mul_comm]
  calc v % (2 * h) / h = (v + h * -(2 * (v / (2 * h)))) / h := by
        rw [Int.emod_def, Int.mul_neg, ← Int.sub_eq_add_neg, Int.mul_assoc, Int.mul_left_comm]
    _ = v / h + -(2 * (v / (2 * h))) := Int.add_mul_ediv_left _ _ large.ne'
    _ = v / h % 2 := by omega

theorem topBit_eq_land (positive : 0 < width) :
    topBit v width = Int.land v (2 ^ (width - 1)) >>> (width - 1) := by
  have large := count_pos (width - 1)
  rw [land_place, Int.shiftRight_eq_div_pow, topBit_eq positive, Int.natCast_pow]
  exact (Int.mul_ediv_cancel _ large.ne').symm

theorem signed_eq_ite (positive : 0 < width) :
    signed v width = if unsigned v width < 2 ^ (width - 1) then unsigned v width
      else unsigned v width - 2 ^ width := by
  have half := two_mul_half positive
  obtain ⟨low, high⟩ := unsigned_inRange v width
  have congruent := unsigned_modEq v width
  rw [signed_iff positive, inRange_signed]
  split
  · exact ⟨by omega, congruent⟩
  · exact ⟨by omega, Int.sub_modulus_modEq_iff.mpr congruent⟩

theorem topBit_eq_ite (positive : 0 < width) :
    topBit v width = if signed v width < 0 then 1 else 0 := by
  have half := two_mul_half positive
  have large := count_pos (width - 1)
  obtain ⟨low, high⟩ := unsigned_inRange v width
  rw [topBit, cast_count, signed_eq_ite positive]
  by_cases small : unsigned v width < 2 ^ (width - 1)
  · rw [if_pos small, if_neg (by omega)]
    exact Int.ediv_eq_zero_of_lt low small
  · rw [if_neg small, if_pos (by omega), Int.ediv_eq_iff_of_pos large]
    omega

/-! ## Constants -/

theorem toInt_ofInt (v : Int) (width : Nat) : (BitVec.ofInt width v).toInt = signed v width :=
  BitVec.toInt_ofInt v

theorem toNat_ofInt (v : Int) (width : Nat) :
    ((BitVec.ofInt width v).toNat : Int) = unsigned v width := by
  rw [BitVec.toNat_ofInt]
  exact Int.toNat_of_nonneg (unsigned_inRange v width).1

theorem reading_ofInt_iff (positive : 0 < width) (isSigned : Bool) :
    Source.reading isSigned (BitVec.ofInt width v) = v ↔ InRange isSigned width v := by
  cases isSigned with
  | true => exact (toInt_ofInt v width ▸ signed_eq_self positive : _ ↔ _)
  | false => exact (toNat_ofInt v width ▸ unsigned_eq_self : _ ↔ _)

end CondSat.Word

namespace CondSat.Analysis

open Source (Kind reading)

theorem encodeConstant_whole {kind : Kind} {width : Nat} (sized : kind.integralWidth? = some width)
    (v : Int) : encodeConstant (.int v) kind =
      .ok (some ⟨.bits width (BitVec.ofInt width v), .bits width⟩, []) := by
  cases kind <;> cases sized <;> rfl

open Word

/-- The signed and the unsigned reading of an integer at a width are the only numbers of their
ranges that are congruent to it, and on its range each undoes the other.  The highest bit says
which sign the signed reading has.  Cutting off, masking and testing the bits of the integer
itself come to the same.  The constant of an integral kind is the word of the unsigned reading,
and read as the kind reads its words it is the integer exactly where the kind has it. -/
theorem word_readings_agree {width : Nat} (known : width ∈ widths) (v : Int) :
    (∀ r, signed v width = r ↔
      (-2 ^ (width - 1) ≤ r ∧ r < 2 ^ (width - 1)) ∧ r ≡ v [ZMOD 2 ^ width]) ∧
    (∀ r, unsigned v width = r ↔ (0 ≤ r ∧ r < 2 ^ width) ∧ r ≡ v [ZMOD 2 ^ width]) ∧
    (signed (unsigned v width) width = v ↔ -2 ^ (width - 1) ≤ v ∧ v < 2 ^ (width - 1)) ∧
    (unsigned (signed v width) width = v ↔ 0 ≤ v ∧ v < 2 ^ width) ∧
    (topBit v width = 1 ↔ signed v width < 0) ∧ (topBit v width = 0 ↔ 0 ≤ signed v width) ∧
    signed v width = (BitVec.ofInt width v).toInt ∧
    unsigned v width = Int.land v (2 ^ width - 1) ∧
    topBit v width = Int.land v (2 ^ (width - 1)) >>> (width - 1) ∧
    ∀ kind : Kind, kind.integralWidth? = some width → ∃ word : BitVec width,
      encodeConstant (.int v) kind = .ok (some ⟨.bits width word, .bits width⟩, []) ∧
      (word.toNat : Int) = unsigned v width ∧
      (reading kind.isSigned word = v ↔ InRange kind.isSigned width v) := by
  have positive : 0 < width := (by decide : ∀ width ∈ widths, 0 < width) width known
  refine ⟨fun r => signed_iff positive, fun r => unsigned_iff, ?_, ?_, ?_, ?_,
    (toInt_ofInt v width).symm, (land_low v width).symm, topBit_eq_land positive, ?_⟩
  · rw [signed_unsigned positive]
    exact signed_eq_self positive
  · rw [unsigned_signed positive]
    exact unsigned_eq_self
  · rw [topBit_eq_ite positive]
    split <;> simp [*]
  · rw [topBit_eq_ite positive]
    split <;> simp_all
  · intro kind sized
    exact ⟨BitVec.ofInt width v, encodeConstant_whole sized v, toNat_ofInt v width,
      reading_ofInt_iff positive kind.isSigned⟩

/-- A `short` constant that is beyond its type and keeps only the highest bit. -/
theorem word_readings_agree_beyond :
    16 ∈ widths ∧ signed 98304 16 = -32768 ∧ unsigned 98304 16 = 32768 ∧ topBit 98304 16 = 1 ∧
      ∃ word : BitVec 16,
        encodeConstant (.int 98304) .short = .ok (some ⟨.bits 16 word, .bits 16⟩, []) ∧
        (word.toNat : Int) = 32768 ∧ reading true word ≠ 98304 := by
  have width16 : 16 ∈ widths := by decide
  obtain ⟨isSigned, isUnsigned, -, -, top, -, -, -, -, constants⟩ :=
    word_readings_agree width16 98304
  have signedIs : signed 98304 16 = -32768 := (isSigned (-32768)).mpr (by decide)
  have unsignedIs : unsigned 98304 16 = 32768 := (isUnsigned 32768).mpr (by decide)
  obtain ⟨word, encoded, bits, exact⟩ := constants .short rfl
  refine ⟨width16, signedIs, unsignedIs, top.mpr (signedIs ▸ by decide), word, encoded,
    bits.trans unsignedIs, ?_⟩
  intro same
  have range := exact.mp same
  simp [Kind.isSigned] at range

end CondSat.Analysis
