import CondSat.Proofs.Meaning

/-! # Operators on words

The solver's bit-vector operations are the operations on integers, put back into
a word.  Addition, subtraction and multiplication do not depend on how words are
read; division, remainder, the right shift and the orders do, and each has one
operation for either reading. -/
set_option autoImplicit false
namespace CondSat.Analysis

open Source
open Solver (BitsOrder)

variable {width : Nat}

/-! ## Readings -/

@[simp] theorem reading_signed (word : BitVec width) : reading true word = word.toInt := rfl

@[simp] theorem reading_unsigned (word : BitVec width) : reading false word = word.toNat := rfl

theorem ofInt_reading (signed : Bool) (word : BitVec width) :
    BitVec.ofInt width (reading signed word) = word := by
  cases signed with
  | true => exact BitVec.ofInt_toInt
  | false => rw [reading_unsigned, BitVec.ofInt_natCast, BitVec.ofNat_toNat, BitVec.setWidth_eq]

theorem reading_inj (signed : Bool) {x y : BitVec width} :
    reading signed x = reading signed y ↔ x = y := by
  constructor
  · intro same
    rw [← ofInt_reading signed x, same, ofInt_reading]
  · rintro rfl
    rfl

theorem reading_eq_zero (signed : Bool) (word : BitVec width) :
    reading signed word = 0 ↔ word = BitVec.ofNat width 0 := by
  have zero : reading signed (BitVec.ofNat width 0) = 0 := by
    cases signed <;> simp
  rw [← zero, reading_inj]

theorem getLsbD_wordOf (bit : Nat → Bool) {place : Nat} (inside : place < width) :
    (wordOf width bit).getLsbD place = bit place :=
  BitVec.iunfoldr_getLsbD (fun _ => ()) ⟨place, inside⟩ fun _ => rfl

/-! ## Arithmetic -/

theorem allOnes_eq_ofInt : BitVec.allOnes width = BitVec.ofInt width (-1) := by
  rw [BitVec.ofInt_neg, ← BitVec.neg_one_eq_allOnes]
  rfl

/-- Apart from division by zero the two total signed divisions are the same. -/
theorem smtSDiv_eq_sdiv {x y : BitVec width} (apart : y ≠ BitVec.ofNat width 0) :
    x.smtSDiv y = x.sdiv y := by
  have negated : -y ≠ BitVec.ofNat width 0 := by simpa using apart
  rw [BitVec.smtSDiv_eq, BitVec.sdiv_eq]
  simp only [BitVec.smtUDiv_eq, if_neg apart, if_neg negated]
  rfl

theorem divide_signed (x y : BitVec width) :
    x.smtSDiv y = BitVec.ofInt width (Arithmetic.divide.compute x.toInt y.toInt) := by
  by_cases zero : y = BitVec.ofNat width 0
  · subst zero
    rw [BitVec.smtSDiv_zero, Arithmetic.compute, BitVec.toInt_zero, if_pos rfl]
    by_cases negative : x.toInt < 0
    · rw [if_pos negative, if_pos (by simpa [BitVec.slt] using negative)]
      rfl
    · rw [if_neg negative, if_neg (by simpa [BitVec.slt] using negative), allOnes_eq_ofInt]
  · have apart : y.toInt ≠ 0 := fun same => zero ((reading_eq_zero true y).mp same)
    rw [smtSDiv_eq_sdiv zero, Arithmetic.compute, if_neg apart]
    apply BitVec.eq_of_toInt_eq
    rw [BitVec.toInt_sdiv, BitVec.toInt_ofInt]

theorem divide_unsigned (x y : BitVec width) :
    x.smtUDiv y = BitVec.ofInt width (Arithmetic.divide.compute x.toNat y.toNat) := by
  by_cases zero : y = BitVec.ofNat width 0
  · subst zero
    have large : ¬ (x.toNat : Int) < 0 := by omega
    rw [BitVec.smtUDiv_zero, Arithmetic.compute, BitVec.toNat_zero, Int.natCast_zero, if_pos rfl,
      if_neg large, allOnes_eq_ofInt]
  · have apart : (y.toNat : Int) ≠ 0 := fun same => zero ((reading_eq_zero false y).mp same)
    rw [BitVec.smtUDiv_eq, if_neg zero, Arithmetic.compute, if_neg apart, ← Int.ofNat_tdiv,
      BitVec.ofInt_natCast, ← BitVec.toNat_udiv, BitVec.ofNat_toNat, BitVec.setWidth_eq]

theorem remainder_signed (x y : BitVec width) :
    x.srem y = BitVec.ofInt width (Arithmetic.remainder.compute x.toInt y.toInt) := by
  have total : Arithmetic.remainder.compute x.toInt y.toInt = x.toInt.tmod y.toInt := by
    rw [Arithmetic.compute]
    split
    · next zero => rw [zero, Int.tmod_zero]
    · rfl
  rw [total, ← BitVec.toInt_srem, BitVec.ofInt_toInt]

theorem remainder_unsigned (x y : BitVec width) :
    x.umod y = BitVec.ofInt width (Arithmetic.remainder.compute x.toNat y.toNat) := by
  have total : Arithmetic.remainder.compute x.toNat y.toNat = ((x.toNat % y.toNat : Nat) : Int) := by
    rw [Arithmetic.compute]
    split
    · next zero => rw [Int.natCast_eq_zero.mp zero, Nat.mod_zero]
    · rw [← Int.ofNat_tmod]
  rw [total, BitVec.ofInt_natCast]
  apply BitVec.eq_of_toNat_eq
  rw [BitVec.toNat_ofNat, BitVec.umod_eq, BitVec.toNat_umod]
  exact (Nat.mod_eq_of_lt (Nat.lt_of_le_of_lt (Nat.mod_le _ _) x.isLt)).symm

theorem arithmeticOp_apply (op : Arithmetic) (signed : Bool) (x y : BitVec width) :
    (arithmeticOp op signed).apply x y =
      BitVec.ofInt width (op.compute (reading signed x) (reading signed y)) := by
  cases op with
  | plus => rw [Arithmetic.compute, BitVec.ofInt_add, ofInt_reading, ofInt_reading]; rfl
  | minus =>
      rw [Arithmetic.compute, Int.sub_eq_add_neg, BitVec.ofInt_add, BitVec.ofInt_neg,
        ofInt_reading, ofInt_reading, ← BitVec.sub_eq_add_neg]
      rfl
  | times => rw [Arithmetic.compute, BitVec.ofInt_mul, ofInt_reading, ofInt_reading]; rfl
  | divide =>
      cases signed with
      | true => exact divide_signed x y
      | false => exact divide_unsigned x y
  | remainder =>
      cases signed with
      | true => exact remainder_signed x y
      | false => exact remainder_unsigned x y

theorem negate_apply (x : BitVec width) : -x = BitVec.ofInt width (-(reading true x)) := by
  rw [BitVec.ofInt_neg, ofInt_reading]

/-! ## Bits -/

theorem bitwiseOp_apply (op : Bitwise) (x y : BitVec width) :
    (bitwiseOp op).apply x y =
      wordOf width fun place => op.compute (x.getLsbD place) (y.getLsbD place) := by
  apply BitVec.eq_of_getLsbD_eq
  intro place inside
  rw [getLsbD_wordOf _ inside]
  cases op with
  | and => exact BitVec.getLsbD_and
  | or => exact BitVec.getLsbD_or
  | xor => exact BitVec.getLsbD_xor

theorem complement_apply (x : BitVec width) :
    ~~~x = wordOf width fun place => !x.getLsbD place := by
  apply BitVec.eq_of_getLsbD_eq
  intro place inside
  rw [getLsbD_wordOf _ inside, BitVec.getLsbD_not]
  simp [inside]

/-! ## Shifts -/

theorem shiftOp_apply (op : Shift) (signed : Bool) (x count : BitVec width) :
    (shiftOp op signed).apply x count =
      BitVec.ofInt width (op.compute (reading signed x) count.toNat) := by
  cases op with
  | left =>
      have power : BitVec.ofInt width (2 ^ count.toNat) = BitVec.twoPow width count.toNat := by
        apply BitVec.eq_of_toNat_eq
        have natural : (2 : Int) ^ count.toNat = ((2 ^ count.toNat : Nat) : Int) := by push_cast; rfl
        rw [BitVec.toNat_twoPow, natural, BitVec.ofInt_natCast, BitVec.toNat_ofNat]
      rw [Shift.compute, BitVec.ofInt_mul, ofInt_reading, power]
      exact BitVec.shiftLeft_eq_mul_twoPow x count.toNat
  | right =>
      cases signed with
      | true =>
          have floored : (x.sshiftRight' count).toInt = Shift.right.compute x.toInt count.toNat := by
            rw [BitVec.toInt_sshiftRight', Int.shiftRight_eq_div_pow, Shift.compute]
            push_cast
            rfl
          rw [reading_signed, ← floored, BitVec.ofInt_toInt]
          rfl
      | false =>
          have floored : ((x >>> count.toNat).toNat : Int) =
              Shift.right.compute x.toNat count.toNat := by
            rw [BitVec.toNat_ushiftRight, Nat.shiftRight_eq_div_pow, Shift.compute]
            push_cast
            rfl
          rw [reading_unsigned, ← floored, BitVec.ofInt_natCast, BitVec.ofNat_toNat,
            BitVec.setWidth_eq]
          rfl

/-- The low bits of a shift count are the count modulo the width. -/
theorem masked_toNat (count : BitVec countWidth) (type : IntegerType) :
    (count &&& BitVec.ofNat countWidth (type.width - 1)).toNat = count.toNat % type.width := by
  rw [BitVec.toNat_and, BitVec.toNat_ofNat]
  cases type with
  | int | uint => exact Nat.and_two_pow_sub_one_eq_mod count.toNat 5
  | long | ulong => exact Nat.and_two_pow_sub_one_eq_mod count.toNat 6

/-! ## Orders -/

theorem less_holds (signed : Bool) (x y : BitVec width) :
    (if signed then BitsOrder.slt else .ult).holds x y =
      decide (reading signed x < reading signed y) := by
  cases signed with
  | true => rfl
  | false => simp [BitsOrder.holds, BitVec.ult]

theorem lessEqual_holds (signed : Bool) (x y : BitVec width) :
    (if signed then BitsOrder.sle else .ule).holds x y =
      decide (reading signed x ≤ reading signed y) := by
  cases signed with
  | true => rfl
  | false => simp [BitsOrder.holds, BitVec.ule]

theorem reading_beq (signed : Bool) (x y : BitVec width) :
    (reading signed x == reading signed y) = (x == y) := by
  rw [Bool.eq_iff_iff, beq_iff_eq, beq_iff_eq, reading_inj]

end CondSat.Analysis
