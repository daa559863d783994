import CondSat.Proofs.FloatText
import CondSat.Proofs.Patterns
import Mathlib.Data.Nat.Bitwise

/-! # Texts of floating-point values

A floating-point value of a model is written from the fields of its pattern, which are put
together to the pattern again; a subnormal number gets the exponent zero, which it has.  So
the text is that of the number, and reading it gives the pattern back. -/
set_option autoImplicit false
namespace CondSat

open Ieee (Format)

namespace Ieee.Format

variable {f : Format}

/-! ## Patterns from their fields -/

theorem signBit_pos (f : Format) : 0 < f.signBit := Nat.pow_pos two_pos

theorem ofFields_eq {negative : Bool} {m : Nat} (small : m < f.signBit) :
    f.ofFields negative (m / f.hiddenBit) (m % f.hiddenBit) = f.withSign negative m := by
  have low : m % f.hiddenBit < 2 ^ (f.precision - 1) := Nat.mod_lt _ f.hiddenBit_pos
  have magnitude : (m / f.hiddenBit) <<< (f.precision - 1) ||| m % f.hiddenBit = m := by
    rw [← Nat.shiftLeft_add_eq_or_of_lt low, Nat.shiftLeft_eq]
    exact Nat.div_add_mod' m f.hiddenBit
  have high : m < 2 ^ (f.width - 1) := small
  rw [ofFields, Nat.or_assoc, magnitude, ← Nat.shiftLeft_add_eq_or_of_lt high, Nat.shiftLeft_eq,
    withSign]
  cases negative with
  | true => simp [signBit, Word.count]
  | false => simp

theorem ofFields_pattern {pattern : Nat} (fits : pattern < 2 * f.signBit) :
    f.ofFields (f.isNegative pattern)
        (if f.isSubnormal pattern then 0 else f.biasedExponent pattern) (f.fraction pattern) =
      pattern := by
  have exponent : (if f.isSubnormal pattern then 0 else f.biasedExponent pattern) =
      f.magnitude pattern / f.hiddenBit := by
    split
    · next subnormal =>
        have low : f.magnitude pattern < f.hiddenBit := by
          simp only [isSubnormal, Bool.and_eq_true, decide_eq_true_eq] at subnormal
          exact subnormal.2
        exact (Nat.div_eq_of_lt low).symm
    · rfl
  have small : f.magnitude pattern < f.signBit := Nat.mod_lt _ f.signBit_pos
  rw [exponent, fraction, ofFields_eq small, withSign_magnitude fits]

end Ieee.Format

namespace Solver.Value

/-! ## Reading values -/

/-- The pattern of a written number, rounded to 64 bits and then to the format; the
infinities have spellings of their own. -/
def readPattern? (format : Format) (text : String) : Option Nat :=
  match Text.real? text with
  | some number => ((Ieee.Number.real (Format.double.ofText number)).toPattern format).toOption
  | none =>
    if text = "+oo" then some format.infinity
    else if text = "-oo" then some (format.withSign true format.infinity)
    else none

theorem readPattern?_special {format : Format} (stored : format.Stored) :
    (readPattern? format "NaN").map (ofPattern format) =
        some (ofPattern format format.quietNaN) ∧
      readPattern? format "+oo" = some (format.withSign false format.infinity) ∧
      readPattern? format "-oo" = some (format.withSign true format.infinity) ∧
      readPattern? format "0.0" = some (format.withSign false 0) ∧
      readPattern? format "-0" = some (format.withSign true 0) := by
  rcases stored with rfl | rfl
  · decide
  · decide

theorem readPattern?_real {format : Format} {text : String} {number : Text.RealText}
    (read : Text.real? text = some number) :
    readPattern? format text =
      some (if format = .double then Format.double.ofText number
        else Format.double.convert format (Format.double.ofText number)) := by
  rw [readPattern?, read]
  rfl

theorem readPattern?_number {format : Format} (stored : format.Stored) {pattern : Nat}
    (fits : pattern < 2 ^ format.width) (number : format.isNaN pattern = false) :
    readPattern? format (floatText format pattern) = some pattern := by
  obtain ⟨-, positive, negative, zero, negativeZero⟩ := readPattern?_special stored
  rw [← stored.two_mul_signBit] at fits
  have parts := Format.withSign_magnitude fits
  unfold floatText
  dsimp only
  rw [number, if_neg Bool.false_ne_true, Format.ofFields_pattern fits]
  by_cases infinite : format.isInfinite pattern = true
  · rw [show format.magnitude pattern = format.infinity from beq_iff_eq.mp infinite] at parts
    rw [if_pos infinite]
    cases sign : format.isNegative pattern with
    | true => rw [if_pos rfl, negative, ← parts, sign]
    | false => rw [if_neg Bool.false_ne_true, positive, ← parts, sign]
  rw [if_neg infinite]
  by_cases isZero : format.isZero pattern = true
  · rw [show format.magnitude pattern = 0 from beq_iff_eq.mp isZero] at parts
    rw [if_pos isZero]
    cases sign : format.isNegative pattern with
    | true => rw [if_pos rfl, negativeZero, ← parts, sign]
    | false => rw [if_neg Bool.false_ne_true, zero, ← parts, sign]
  rw [if_neg isZero]
  have bounded : format.magnitude pattern ≤ format.infinity := by
    simpa [Format.isNaN] using number
  have isNumber : format.IsNumber pattern := ⟨fits, bounded⟩
  have finite : format.magnitude pattern < format.infinity :=
    lt_of_le_of_ne bounded (by simpa [Format.isInfinite] using infinite)
  rcases stored with rfl | rfl
  · rw [if_neg (by decide), if_pos rfl]
    obtain ⟨real, read, value⟩ := Option.map_eq_some_iff.mp (Ieee.singleText_reads isNumber finite)
    rw [readPattern?_real read, if_neg (by decide), value]
  · rw [if_pos rfl]
    obtain ⟨real, read, value⟩ :=
      Option.map_eq_some_iff.mp (Format.double_text_reads isNumber finite)
    rw [readPattern?_real read, if_pos rfl, value]

theorem readPattern?_floatText {format : Format} (stored : format.Stored) {pattern : Nat}
    (fits : pattern < 2 ^ format.width) :
    (readPattern? format (floatText format pattern)).map (ofPattern format) =
      some (ofPattern format pattern) := by
  cases nan : format.isNaN pattern with
  | false => rw [readPattern?_number stored fits nan, Option.map_some]
  | true =>
      rw [floatText, if_pos nan, (readPattern?_special stored).1, ofPattern, ofPattern,
        Format.canonical_of_isNaN nan, Format.canonical_of_isNaN (Format.isNaN_quietNaN stored)]

/-- The text of a 32-bit or 64-bit number, of whatever sign and size, is read back as exactly
its pattern: the infinities and the negative zero from their spellings, the others rounded to
64 bits and then to the width.  So different numbers of one format have different texts. -/
theorem float_text_reads_back (format : Format) (stored : format.Stored) (pattern : Nat)
    (fits : pattern < 2 ^ format.width) (number : format.isNaN pattern = false) :
    readPattern? format (floatText format pattern) = some pattern ∧
    ∀ other, other < 2 ^ format.width → format.isNaN other = false →
      floatText format other = floatText format pattern → other = pattern := by
  have reads := readPattern?_number stored fits number
  refine ⟨reads, ?_⟩
  intro other otherFits otherNumber same
  have otherReads := readPattern?_number stored otherFits otherNumber
  rw [same, reads] at otherReads
  exact (Option.some.inj otherReads).symm

/-- The negative number next to zero, and the one above it. -/
theorem float_text_reads_back_subnormal :
    floatText .single 0x80000001 = "-1e-45" ∧ floatText .single 0x80000002 = "-3e-45" ∧
    readPattern? .single "-1e-45" = some 0x80000001 := by
  have text : floatText .single 0x80000001 = "-1e-45" := by decide +kernel
  have reads := (float_text_reads_back .single (.inl rfl) 0x80000001 (by decide) (by decide)).1
  rw [text] at reads
  exact ⟨text, by decide +kernel, reads⟩

end Solver.Value

end CondSat
