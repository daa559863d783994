import CondSat.Proofs.DeclarationKeys
import CondSat.Proofs.Documents
import CondSat.Proofs.Narrowing
import CondSat.Proofs.WholeNumbers
import CondSat.Proofs.WordOperators
import CondSat.Source.Builder

/-! # Literals keep their value

A whole number becomes a literal of the first integral type that has it, and beside an
operand of another type an `int` literal may take the type of that operand.  Whatever type
it ends up with, the constant of the literal denotes the number it was written for: exactly,
or as the nearest 32-bit number where that is the type. -/
set_option autoImplicit false
namespace CondSat.Source

open Analysis (encodeConstant floatNumeral)
open Ieee.Format (single double)

variable {v : Int}

/-! ## Ranges -/

namespace IntegerType

/-- The numbers of which an integral type is the first one that has them. -/
def IsFirst (v : Int) : IntegerType → Prop
  | int => -2 ^ 31 ≤ v ∧ v < 2 ^ 31
  | uint => 2 ^ 31 ≤ v ∧ v < 2 ^ 32
  | long => (-2 ^ 63 ≤ v ∧ v < -2 ^ 31) ∨ (2 ^ 32 ≤ v ∧ v < 2 ^ 63)
  | ulong => 2 ^ 63 ≤ v ∧ v < 2 ^ 64

theorem contains_iff (type : IntegerType) :
    type.contains v = true ↔
      match type with
      | int => -2 ^ 31 ≤ v ∧ v < 2 ^ 31
      | uint => 0 ≤ v ∧ v < 2 ^ 32
      | long => -2 ^ 63 ≤ v ∧ v < 2 ^ 63
      | ulong => 0 ≤ v ∧ v < 2 ^ 64 := by
  cases type <;> simp only [contains, Bool.and_eq_true, decide_eq_true_eq] <;> exact Iff.rfl

theorem IsFirst.contains {type : IntegerType} (first : type.IsFirst v) :
    type.contains v = true := by
  rw [contains_iff]
  cases type <;> simp only [IsFirst] at first ⊢ <;> omega

theorem not_contains_iff (type : IntegerType) :
    type.contains v = false ↔
      match type with
      | int => v < -2 ^ 31 ∨ 2 ^ 31 ≤ v
      | uint => v < 0 ∨ 2 ^ 32 ≤ v
      | long => v < -2 ^ 63 ∨ 2 ^ 63 ≤ v
      | ulong => v < 0 ∨ 2 ^ 64 ≤ v := by
  rw [Bool.eq_false_iff, ne_eq, contains_iff]
  cases type <;> dsimp only <;> omega

theorem IsFirst.ofValue? {type : IntegerType} (first : type.IsFirst v) :
    ofValue? v = some type := by
  have here := first.contains
  have noInt := (not_contains_iff (v := v) int).mpr
  have noUint := (not_contains_iff (v := v) uint).mpr
  have noLong := (not_contains_iff (v := v) long).mpr
  unfold IntegerType.ofValue? all
  cases type <;> simp only [IsFirst] at first noInt noUint noLong
  · simp only [List.find?_cons, here]
  · simp only [List.find?_cons, here, noInt (by omega)]
  · simp only [List.find?_cons, here, noInt (by omega), noUint (by omega)]
  · simp only [List.find?_cons, here, noInt (by omega), noUint (by omega), noLong (by omega)]

theorem IsFirst.not_int {type : IntegerType} (first : type.IsFirst v) (other : type ≠ int) :
    ¬(-2 ^ 31 ≤ v ∧ v < 2 ^ 31) := by
  cases type with
  | int => exact absurd rfl other
  | uint | long | ulong =>
      simp only [IsFirst] at first
      omega

theorem exists_isFirst (low : -2 ^ 63 ≤ v) (high : v < 2 ^ 64) :
    ∃ type : IntegerType, type.IsFirst v := by
  by_cases inInt : -2 ^ 31 ≤ v ∧ v < 2 ^ 31
  · exact ⟨int, inInt⟩
  · by_cases inUint : 2 ^ 31 ≤ v ∧ v < 2 ^ 32
    · exact ⟨uint, inUint⟩
    · by_cases inLong : v < 2 ^ 63
      · refine ⟨long, ?_⟩
        simp only [IsFirst]
        omega
      · exact ⟨ulong, by omega, high⟩

theorem ofValue?_eq_none_iff : ofValue? v = none ↔ v < -2 ^ 63 ∨ 2 ^ 64 ≤ v := by
  simp only [ofValue?, all, List.find?_eq_none, List.mem_cons, List.not_mem_nil, or_false,
    forall_eq_or_imp, forall_eq, contains_iff]
  omega

theorem reading_ofInt {type : IntegerType} (fits : type.contains v = true) :
    reading type.isSigned (BitVec.ofInt type.width v) = v := by
  rw [contains_iff] at fits
  cases type with
  | int | long => exact BitVec.toInt_ofInt_eq_self (by decide) fits.1 fits.2
  | uint | ulong =>
      rw [isSigned, Analysis.reading_unsigned, BitVec.toNat_ofInt]
      simp only [width] at fits ⊢
      omega

end IntegerType

/-! ## What constants denote -/

inductive Constant.Denotes (v : Int) : Constant → Prop
  | integral (type : IntegerType) {value : Json} (word : BitVec type.width)
      (encoded : encodeConstant value type.kind =
        .ok (some ⟨.bits type.width word, .bits type.width⟩, []))
      (exact : reading type.isSigned word = v) : Denotes v ⟨value, type.kind⟩
  | double {value : Json} (word : BitVec 64)
      (encoded : encodeConstant value .double = .ok (some (floatNumeral .double word.toNat), []))
      (finite : double.magnitude word.toNat < double.infinity)
      (exact : double.signedValue word.toNat = v) : Denotes v ⟨value, .double⟩
  /-- In 32 bits it is the nearest number. -/
  | float {value : Json} (magnitude : Nat)
      (encoded : encodeConstant value .float =
        .ok (some (floatNumeral .single (single.withSign (v < 0) magnitude)), []))
      (nearest : single.IsNearest |(v : ℚ)| magnitude) : Denotes v ⟨value, .float⟩

theorem IntegerType.denotes {type : IntegerType} (fits : type.contains v = true) :
    Constant.Denotes v ⟨.int v, type.kind⟩ :=
  .integral type (BitVec.ofInt type.width v) (by cases type <;> rfl) (reading_ofInt fits)

theorem exists_realValue (short : v.natAbs < 2 ^ 53) :
    ∃ word : BitVec 64, realValue (.int v) = .ok (.float word) ∧
      double.magnitude word.toNat < double.infinity ∧
      double.isNegative word.toNat = decide (v < 0) ∧
      double.value (double.magnitude word.toNat) = |(v : ℚ)| := by
  have bounded : v.natAbs < Ieee.Format.doubleLimit := short.trans (by decide +kernel)
  have finite := Ieee.double_nearest_lt bounded
  have small := finite.trans (Ieee.Format.Stored.infinity_lt (.inr rfl))
  have fits : double.withSign (v < 0) (double.nearest |(v : ℚ)|) < 2 ^ 64 :=
    Ieee.Format.withSign_lt small
  refine ⟨BitVec.ofNat 64 (double.withSign (v < 0) (double.nearest |(v : ℚ)|)), ?_, ?_⟩
  · rw [realValue, realValue.realPattern, Ieee.Number.toDouble_of_lt bounded]
    rfl
  · rw [BitVec.toNat_ofNat, Nat.mod_eq_of_lt fits, Ieee.Format.magnitude_withSign small,
      Ieee.Format.isNegative_withSign small]
    exact ⟨finite, rfl, Ieee.double_nearest_whole short⟩

theorem exists_denotes_double (short : v.natAbs < 2 ^ 53) :
    ∃ value, realValue (.int v) = .ok value ∧ Constant.Denotes v ⟨value, .double⟩ := by
  obtain ⟨word, read, finite, negative, exact⟩ := exists_realValue short
  refine ⟨_, read, .double word ?_ finite ?_⟩
  · have rounded : (Ieee.Number.real word.toNat).toPattern .double = .ok word.toNat := by
      rw [Ieee.Number.toPattern, Ieee.Number.toDouble, Except.map, if_pos rfl]
    rw [encodeConstant, Analysis.floatConstant_of_toPattern rfl rounded, Except.map]
  · exact (Ieee.Format.signedValue_eq_int _).mpr ⟨exact, Or.inr negative⟩

theorem exists_denotes_float (short : v.natAbs < 2 ^ 53) :
    ∃ value, realValue (.int v) = .ok value ∧ Constant.Denotes v ⟨value, .float⟩ := by
  obtain ⟨word, read, finite, negative, exact⟩ := exists_realValue short
  refine ⟨_, read, .float (single.nearest |(v : ℚ)|) ?_ ?_⟩
  · rw [encodeConstant, Analysis.floatConstant_of_toPattern rfl (Ieee.toPattern_real _),
      Except.map, Ieee.Format.convert_finite finite, negative, exact]
  · exact Ieee.Format.nearest_isNearest (.inl rfl) (abs_nonneg _)

/-! ## Conversion -/

/-- What is kept of a whole number that is written beside an operand of some type: a literal
that denotes it, of that type if it is an `int` and the type has it. -/
structure KeepsLiteral (v : Int) (type : SourceType) (kept : Expr) : Prop where
  literal : ∃ constant target text, kept = .literal constant target text ∧
    constant.kind = target.kind ∧ constant.Denotes v
  adopts : -2 ^ 31 ≤ v → v < 2 ^ 31 → (type = .uint ∨ type = .ulong → 0 ≤ v) → kept.type = type

namespace Expr

theorem converted_integer_type (goal : IntegerType) :
    (ofLiteral (.int v) .int).converted goal.type = .ok (if goal.contains v then
      .literal ⟨.int v, goal.kind⟩ goal.type (literalText (.int v) .int)
      else ofLiteral (.int v) .int) := by
  have asked : goal ≠ .int → (ofLiteral (.int v) .int).converted? goal.type =
      .ok (if goal.contains v then
        some (.literal ⟨.int v, goal.kind⟩ goal.type (literalText (.int v) .int)) else none) := by
    cases goal with
    | int => exact fun other => absurd rfl other
    | uint | long | ulong => exact fun _ => rfl
  by_cases int : goal = .int
  · rw [int]
    exact (congrArg Except.ok (ite_self _)).symm
  · rw [converted, asked int]
    cases goal.contains v <;> rfl

theorem converted_float_type (goal : FloatType) :
    (ofLiteral (.int v) .int).converted goal.type =
      (realValue (.int v)).map fun value =>
        .literal ⟨value, goal.kind⟩ goal.type (literalText (.int v) .int) := by
  have asked : (ofLiteral (.int v) .int).converted? goal.type =
      (realValue (.int v)).map fun value =>
        some (.literal ⟨value, goal.kind⟩ goal.type (literalText (.int v) .int)) := by
    cases goal <;> rfl
  rw [converted, asked]
  cases realValue (.int v) <;> rfl

/-- Only `int` literals are converted, and not to `int`. -/
theorem converted_other (goal : IntegerType) (other : goal ≠ .int) (target : SourceType) :
    (ofLiteral (.int v) goal.type).converted target = .ok (ofLiteral (.int v) goal.type) := by
  cases goal with
  | int => exact absurd rfl other
  | uint | long | ulong => rfl

theorem converted_to_int (node : Expr) : node.converted .int = .ok node := by
  cases node with
  | literal constant type text =>
      by_cases int : type.kind = .int
      · rw [converted, converted?, if_neg (not_not_intro int)]
        rfl
      · rw [converted, converted?, if_pos int]
        rfl
  | _ => rfl

end Expr

def numberTypes : List SourceType := [.int, .uint, .long, .ulong, .float, .double]

theorem mem_numberTypes {type : SourceType} (number : type ∈ numberTypes) :
    (∃ goal : IntegerType, type = goal.type) ∨ ∃ goal : FloatType, type = goal.type := by
  simp only [numberTypes, List.mem_cons, List.not_mem_nil, or_false] at number
  rcases number with rfl | rfl | rfl | rfl | rfl | rfl
  · exact Or.inl ⟨.int, rfl⟩
  · exact Or.inl ⟨.uint, rfl⟩
  · exact Or.inl ⟨.long, rfl⟩
  · exact Or.inl ⟨.ulong, rfl⟩
  · exact Or.inr ⟨.float, rfl⟩
  · exact Or.inr ⟨.double, rfl⟩

section Kept

variable {type : SourceType} {goal : IntegerType} {kept : Expr}

/-- A literal that stays as it is keeps the number; it has to be shown that no conversion
was due. -/
theorem keepsLiteral_ofLiteral (fits : goal.contains v = true)
    (due : -2 ^ 31 ≤ v → v < 2 ^ 31 → (type = .uint ∨ type = .ulong → 0 ≤ v) → goal.type = type) :
    KeepsLiteral v type (.ofLiteral (.int v) goal.type) := by
  have sameKind : goal.type.valueKind = goal.kind := by cases goal <;> rfl
  refine ⟨⟨_, _, _, rfl, ?_, ?_⟩, due⟩
  · cases goal <;> rfl
  · rw [sameKind]
    exact goal.denotes fits

theorem keepsLiteral_integer_type (first : IntegerType.int.IsFirst v) (goal : IntegerType)
    (run : (Expr.ofLiteral (.int v) .int).converted goal.type = .ok kept) :
    KeepsLiteral v goal.type kept := by
  rw [Expr.converted_integer_type] at run
  split at run
  · next fits =>
      cases run
      exact ⟨⟨_, _, _, rfl, by cases goal <;> rfl, goal.denotes fits⟩, fun _ _ _ => rfl⟩
  · next beyond =>
      cases run
      refine keepsLiteral_ofLiteral first.contains fun low high nonnegative => ?_
      refine absurd ?_ beyond
      rw [IntegerType.contains_iff]
      cases goal with
      | int => exact ⟨low, high⟩
      | uint => exact ⟨nonnegative (Or.inl rfl), by omega⟩
      | long => exact ⟨by omega, by omega⟩
      | ulong => exact ⟨nonnegative (Or.inr rfl), by omega⟩

theorem keepsLiteral_float_type (first : IntegerType.int.IsFirst v) (goal : FloatType)
    (run : (Expr.ofLiteral (.int v) .int).converted goal.type = .ok kept) :
    KeepsLiteral v goal.type kept := by
  have short : v.natAbs < 2 ^ 53 := by
    simp only [IntegerType.IsFirst] at first
    omega
  have denotes : ∃ value, realValue (.int v) = .ok value ∧ Constant.Denotes v ⟨value, goal.kind⟩ := by
    cases goal with
    | float => exact exists_denotes_float short
    | double => exact exists_denotes_double short
  obtain ⟨value, read, denotes⟩ := denotes
  rw [Expr.converted_float_type, read] at run
  cases run
  exact ⟨⟨_, _, _, rfl, by cases goal <;> rfl, denotes⟩, fun _ _ _ => rfl⟩

/-- Conversion keeps what a literal denotes. -/
theorem keepsLiteral_of_converted (first : goal.IsFirst v) (number : type ∈ numberTypes)
    (run : (Expr.ofLiteral (.int v) goal.type).converted type = .ok kept) :
    KeepsLiteral v type kept := by
  by_cases int : goal = .int
  · subst int
    rcases mem_numberTypes number with ⟨goal, rfl⟩ | ⟨goal, rfl⟩
    · exact keepsLiteral_integer_type first goal run
    · exact keepsLiteral_float_type first goal run
  · rw [Expr.converted_other goal int] at run
    cases run
    refine keepsLiteral_ofLiteral first.contains fun low high _ => ?_
    exact absurd ⟨low, high⟩ (first.not_int int)

end Kept

/-! ## Operators -/

section Operators

variable {token : String} {left right node s : Expr}

theorem binaryOf_ok (shiftless : token ∉ shiftTokens)
    (built : Expr.binaryOf token left right = .ok node) :
    ∃ newRight newLeft tag, right.converted left.type = .ok newRight ∧
      left.converted newRight.type = .ok newLeft ∧ node = .applyBinary tag newLeft newRight := by
  obtain ⟨pair, converted, built⟩ := bind_ok built
  obtain ⟨tag, -, built⟩ := bind_ok built
  cases built
  rw [Expr.convertedPair, if_neg (by simpa using shiftless)] at converted
  obtain ⟨newRight, rightConverted, converted⟩ := bind_ok converted
  obtain ⟨newLeft, leftConverted, converted⟩ := bind_ok converted
  cases converted
  exact ⟨newRight, newLeft, tag, rightConverted, leftConverted, rfl⟩

variable {goal : IntegerType} (first : goal.IsFirst v) (number : s.type ∈ numberTypes)
  (shiftless : token ∉ shiftTokens)
include first number shiftless

theorem kept_on_right (built : Expr.binaryOf token s (.ofLiteral (.int v) goal.type) = .ok node) :
    ∃ tag other kept, node = .applyBinary tag other kept ∧ KeepsLiteral v s.type kept := by
  obtain ⟨kept, other, tag, converted, -, rfl⟩ := binaryOf_ok shiftless built
  exact ⟨tag, other, kept, rfl, keepsLiteral_of_converted first number converted⟩

theorem kept_on_left (built : Expr.binaryOf token (.ofLiteral (.int v) goal.type) s = .ok node) :
    ∃ tag kept other, node = .applyBinary tag kept other ∧ KeepsLiteral v s.type kept := by
  obtain ⟨other, kept, tag, otherConverted, converted, rfl⟩ := binaryOf_ok shiftless built
  refine ⟨tag, kept, other, rfl, ?_⟩
  by_cases int : goal = .int
  · -- nothing is converted to `int`, so the other operand has its type still
    subst int
    rw [show (Expr.ofLiteral (.int v) IntegerType.int.type).type = .int from rfl,
      Expr.converted_to_int] at otherConverted
    cases otherConverted
    exact keepsLiteral_of_converted first number converted
  · rw [Expr.converted_other goal int, ← Expr.converted_other goal int s.type] at converted
    exact keepsLiteral_of_converted first number converted

end Operators

/-! ## Values beside trees -/

section Combine

variable {token : String} {given : Json} {s node : Expr}

/-- A comparison is turned around into a comparison. -/
theorem not_shift_of_exchanged {turned : String} (exchanged : exchangedToken? token = some turned) :
    turned ∉ shiftTokens := by
  obtain ⟨before, after, split, -⟩ := List.lookup_eq_some_iff.mp exchanged
  have listed : ∀ pair ∈ [("==", "=="), ("!=", "!="), ("<", ">"), ("<=", ">="), (">", "<"),
      (">=", "<=")], pair.2 ∉ shiftTokens := by decide
  exact listed (token, turned) (split ▸ List.mem_append_right _ List.mem_cons_self)

theorem combine_value_right (built : combine token (.node s) (.value given) = .ok node) :
    ∃ literal, Expr.ofValue given = .ok literal ∧ Expr.binaryOf token s literal = .ok node := by
  rw [combine] at built
  obtain ⟨_, ⟨⟩, built⟩ := bind_ok built
  exact bind_ok built

theorem combine_value_left (built : combine token (.value given) (.node s) = .ok node) :
    ∃ literal, Expr.ofValue given = .ok literal ∧
      match exchangedToken? token with
      | some turned => Expr.binaryOf turned s literal = .ok node
      | none => Expr.binaryOf token literal s = .ok node := by
  cases exchanged : exchangedToken? token with
  | some turned | none =>
      simp only [combine, exchanged] at built
      obtain ⟨_, ⟨⟩, built⟩ := bind_ok built
      exact bind_ok built

end Combine

theorem ofValue_int (v : Int) :
    Expr.ofValue (.int v) = match IntegerType.ofValue? v with
      | some type => .ok (.ofLiteral (.int v) type.type)
      | none => .error (.literal (.outOfRange v)) := by
  rw [Expr.ofValue, literalType]
  cases IntegerType.ofValue? v <;> rfl

theorem exists_isFirst_of_ofValue {literal : Expr} (made : Expr.ofValue (.int v) = .ok literal) :
    ∃ goal : IntegerType, goal.IsFirst v ∧ literal = .ofLiteral (.int v) goal.type := by
  rw [ofValue_int] at made
  cases found : IntegerType.ofValue? v with
  | none =>
      rw [found] at made
      cases made
  | some type =>
      have bounded : ¬(v < -2 ^ 63 ∨ 2 ^ 64 ≤ v) := by
        rw [← IntegerType.ofValue?_eq_none_iff, found]
        nofun
      obtain ⟨goal, first⟩ := IntegerType.exists_isFirst (v := v) (by omega) (by omega)
      rw [first.ofValue?] at made
      cases made
      exact ⟨goal, first, rfl⟩

/-- A whole number has a literal unless it is beyond `long` and `ulong`; the type is the first
one that has the number, and the word of its constant reads as the number there.  Beside an
operand of a number type, in either order and also where a comparison is turned around, the
literal still denotes the number, and it has the type of the other operand if it is an `int`
that this type has. -/
theorem literals_keep_value (v : Int) :
    (Expr.ofValue (.int v) = .error (.literal (.outOfRange v)) ↔ v < -2 ^ 63 ∨ 2 ^ 64 ≤ v) ∧
    (-2 ^ 63 ≤ v → v < 2 ^ 64 → ∃ type : IntegerType, type.IsFirst v ∧
      Expr.ofValue (.int v) = .ok (.ofLiteral (.int v) type.type) ∧
      ∃ word : BitVec type.width,
        encodeConstant (.int v) type.kind =
          .ok (some ⟨.bits type.width word, .bits type.width⟩, []) ∧
        reading type.isSigned word = v) ∧
    ∀ s : Expr, s.type ∈ numberTypes → ∀ token ∉ shiftTokens, ∀ node,
      (∀ literal, Expr.ofValue (.int v) = .ok literal →
        (Expr.binaryOf token s literal = .ok node →
          ∃ tag other kept, node = .applyBinary tag other kept ∧ KeepsLiteral v s.type kept) ∧
        (Expr.binaryOf token literal s = .ok node →
          ∃ tag kept other, node = .applyBinary tag kept other ∧ KeepsLiteral v s.type kept)) ∧
      (combine token (.node s) (.value (.int v)) = .ok node →
        ∃ tag other kept, node = .applyBinary tag other kept ∧ KeepsLiteral v s.type kept) ∧
      (combine token (.value (.int v)) (.node s) = .ok node →
        ∃ tag left right, node = .applyBinary tag left right ∧
          KeepsLiteral v s.type (if (exchangedToken? token).isSome then right else left)) := by
  refine ⟨?_, ?_, ?_⟩
  · rw [← IntegerType.ofValue?_eq_none_iff, ofValue_int]
    cases IntegerType.ofValue? v <;> simp
  · intro low high
    obtain ⟨type, first⟩ := IntegerType.exists_isFirst low high
    refine ⟨type, first, by rw [ofValue_int, first.ofValue?], BitVec.ofInt type.width v, ?_,
      IntegerType.reading_ofInt first.contains⟩
    cases type <;> rfl
  · intro s number token shiftless node
    refine ⟨?_, ?_, ?_⟩
    · intro literal made
      obtain ⟨goal, first, rfl⟩ := exists_isFirst_of_ofValue made
      exact ⟨kept_on_right first number shiftless, kept_on_left first number shiftless⟩
    · intro built
      obtain ⟨literal, made, built⟩ := combine_value_right built
      obtain ⟨goal, first, rfl⟩ := exists_isFirst_of_ofValue made
      exact kept_on_right first number shiftless built
    · intro built
      obtain ⟨literal, made, built⟩ := combine_value_left built
      obtain ⟨goal, first, rfl⟩ := exists_isFirst_of_ofValue made
      cases exchanged : exchangedToken? token with
      | some turned =>
          rw [exchanged] at built
          exact kept_on_right first number (not_shift_of_exchanged exchanged) built
      | none =>
          rw [exchanged] at built
          exact kept_on_left first number shiftless built

end CondSat.Source
