import CondSat.Proofs.WordOperators

/-! # Terms of operators

An operator has a term exactly when the sorts of its operands fit it.
`BinaryCase` and `UnaryCase` list these terms, one constructor for each kind of
operator; what holds of the terms of operators is read off there.  Under every
assignment a term has the value the operator has on the values of its operands. -/
set_option autoImplicit false
namespace CondSat

open Ieee (Format RoundingMode)
open Solver (Assignment BitsOrder FloatOrder Term Value ValueSort)

/-! ## Values of a sort -/

namespace Solver.Value

theorem eq_bool {value : Value} (sorted : value.sort = .bool) : ∃ truth, value = .bool truth := by
  cases value with
  | bool truth => exact ⟨truth, rfl⟩
  | bits _ _ | float _ _ | mode _ => cases sorted

theorem eq_bits {value : Value} {width : Nat} (sorted : value.sort = .bits width) :
    ∃ word, value = .bits width word := by
  cases value with
  | bits _ word =>
      cases sorted
      exact ⟨word, rfl⟩
  | bool _ | float _ _ | mode _ => cases sorted

theorem eq_float {value : Value} {format : Format} (sorted : value.sort = .float format) :
    ∃ pattern, value = .float format pattern := by
  cases value with
  | float _ pattern =>
      cases sorted
      exact ⟨pattern, rfl⟩
  | bool _ | bits _ _ | mode _ => cases sorted

@[simp] theorem word?_bits (width : Nat) (word : BitVec width) :
    (Value.bits width word).word? width = some word := by
  simp [word?]

theorem word?_cases (value : Value) (width : Nat) :
    (∃ word, value = .bits width word) ∨
    (value.sort ≠ .bits width ∧ value.word? width = none) := by
  cases value with
  | bits actual word =>
      by_cases same : actual = width
      · subst same
        exact Or.inl ⟨word, rfl⟩
      · exact Or.inr ⟨by simpa [sort] using same, dif_neg same⟩
  | bool _ | float _ _ | mode _ => exact Or.inr ⟨nofun, rfl⟩

theorem toNat_beq {width : Nat} (x y : BitVec width) : (x.toNat == y.toNat) = (x == y) := by
  rw [Bool.eq_iff_iff, beq_iff_eq, beq_iff_eq, BitVec.toNat_inj]

@[simp] theorem sort_ofPattern (format : Format) (pattern : Nat) :
    (Value.ofPattern format pattern).sort = .float format := rfl

theorem beq_bits {width : Nat} (x y : BitVec width) :
    (Value.bits width x == Value.bits width y) = (x == y) := by
  rw [Bool.eq_iff_iff, beq_iff_eq, beq_iff_eq]
  simp

end Solver.Value

namespace Analysis

open Source

/-! ## Projections -/

namespace TypedTerm

theorem asBool_cases (t : TypedTerm) :
    (t.sort = .bool ∧ t.asBool = .ok t.term) ∨
    (t.sort ≠ .bool ∧ ∃ mismatch, t.asBool = .error mismatch) := by
  unfold asBool
  cases t.sort with
  | bool => exact Or.inl ⟨rfl, rfl⟩
  | bits _ | float _ | roundingMode | integer | real => exact Or.inr ⟨nofun, _, rfl⟩

theorem asBits_cases (t : TypedTerm) (width : Nat) :
    (t.sort = .bits width ∧ t.asBits (some width) = .ok t.term) ∨
    (t.sort ≠ .bits width ∧ ∃ mismatch, t.asBits (some width) = .error mismatch) := by
  unfold asBits
  cases t.sort with
  | bits actual =>
      by_cases same : actual = width
      · exact Or.inl ⟨by rw [same], if_pos same⟩
      · exact Or.inr ⟨by simpa using same, _, if_neg same⟩
  | bool | float _ | roundingMode | integer | real =>
      refine Or.inr ⟨nofun, ?_⟩
      cases width <;> exact ⟨_, rfl⟩

theorem asFloat_cases (t : TypedTerm) :
    (∃ format, t.sort = .float format ∧ t.asFloat none none = .ok t.term) ∨
    ((∀ format, t.sort ≠ .float format) ∧ ∃ mismatch, t.asFloat none none = .error mismatch) := by
  unfold asFloat
  cases t.sort with
  | float format => exact Or.inl ⟨format, rfl, rfl⟩
  | bool | bits _ | roundingMode | integer | real => exact Or.inr ⟨nofun, _, rfl⟩

end TypedTerm

variable {left right operand : TypedTerm}

theorem bitsPair_cases (left right : TypedTerm) (width : Nat) :
    (left.sort = .bits width ∧ right.sort = .bits width ∧
      bitsPair left right width = .ok (left.term, right.term)) ∨
    (¬(left.sort = .bits width ∧ right.sort = .bits width) ∧
      ∃ mismatch, bitsPair left right width = .error mismatch) := by
  unfold bitsPair
  rcases left.asBits_cases width with ⟨leftSort, first⟩ | ⟨apart, mismatch, first⟩
  · rcases right.asBits_cases width with ⟨rightSort, second⟩ | ⟨apart, mismatch, second⟩
    · exact Or.inl ⟨leftSort, rightSort, by rw [first, second]; rfl⟩
    · exact Or.inr ⟨fun both => apart both.2, mismatch, by rw [first, second]; rfl⟩
  · exact Or.inr ⟨fun both => apart both.1, mismatch, by rw [first]; rfl⟩

theorem enumPair_cases (left right : TypedTerm) :
    (∃ width, left.sort = .bits width ∧ right.sort = .bits width ∧
      enumPair left right = .ok (left.term, right.term)) ∨
    ((∀ width, left.sort = .bits width → right.sort ≠ .bits width) ∧
      ∃ mismatch, enumPair left right = .error mismatch) := by
  obtain ⟨a, leftSort⟩ := left
  cases leftSort with
  | bits width =>
      rcases right.asBits_cases width with ⟨rightSort, second⟩ | ⟨apart, mismatch, second⟩
      · refine Or.inl ⟨width, rfl, rightSort, ?_⟩
        change (do let b ← right.asBits (some width); return (a, b)) = _
        rw [second]
        rfl
      · refine Or.inr ⟨?_, mismatch, ?_⟩
        · intro other same
          cases same
          exact apart
        · change (do let b ← right.asBits (some width); return (a, b)) = _
          rw [second]
          rfl
  | bool | float _ | roundingMode | integer | real => exact Or.inr ⟨nofun, _, rfl⟩

theorem floatPair_cases (left right : TypedTerm) (width : Nat) :
    (∃ format, left.sort = .float format ∧ right.sort = .float format ∧ format.width = width ∧
      floatPair left right width = .ok (left.term, right.term)) ∨
    ((∀ format, left.sort = .float format →
        ¬(right.sort = .float format ∧ format.width = width)) ∧
      ∃ mismatch, floatPair left right width = .error mismatch) := by
  obtain ⟨a, leftSort⟩ := left
  cases leftSort with
  | float format =>
      have first : TypedTerm.asFloat ⟨a, .float format⟩ none (some width) =
          if format.width = width then .ok a
          else .error ⟨s!"FP of {width} bits", (ValueSort.float format).describe⟩ := rfl
      unfold floatPair
      rw [first]
      by_cases wide : format.width = width
      · rw [if_pos wide]
        obtain ⟨b, rightSort⟩ := right
        by_cases same : rightSort = .float format
        · subst same
          have second : TypedTerm.asFloat ⟨b, .float format⟩ (some ⟨a, .float format⟩) none = .ok b :=
            if_neg (by simp)
          exact Or.inl ⟨format, rfl, rfl, wide, by rw [second]; rfl⟩
        · refine Or.inr ⟨?_, ?_⟩
          · intro other sorted
            cases sorted
            exact fun both => same both.1
          · cases rightSort with
            | float other =>
                have apart : ValueSort.float format ≠ .float other := fun h => same h.symm
                have second : TypedTerm.asFloat ⟨b, .float other⟩ (some ⟨a, .float format⟩) none =
                    .error ⟨(ValueSort.float format).describe, (ValueSort.float other).describe⟩ :=
                  if_pos (by simpa using apart)
                exact ⟨_, by rw [second]; rfl⟩
            | bool | bits _ | roundingMode | integer | real => exact ⟨_, rfl⟩
      · rw [if_neg wide]
        refine Or.inr ⟨?_, _, rfl⟩
        intro other sorted
        cases sorted
        exact fun both => wide both.2
  | bool | bits _ | roundingMode | integer | real => exact Or.inr ⟨nofun, _, rfl⟩

/-! ## The terms of operators -/

def countTerm (count : Term) (width : Nat) : Term :=
  let masked := Term.bitsBinary .and count (.bits countWidth (BitVec.ofNat _ (width - 1)))
  if countWidth < width then .zeroExtend (width - countWidth) masked
  else if width < countWidth then .extract (width - 1) 0 masked
  else masked

theorem shiftCount_cases (count : TypedTerm) (width : Nat) :
    (count.sort = .bits countWidth ∧
      shiftCount count width = .ok (countTerm count.term width)) ∨
    (count.sort ≠ .bits countWidth ∧ ∃ mismatch, shiftCount count width = .error mismatch) := by
  unfold shiftCount
  rcases count.asBits_cases countWidth with ⟨sorted, projected⟩ | ⟨apart, mismatch, projected⟩
  · exact Or.inl ⟨sorted, by rw [projected]; rfl⟩
  · exact Or.inr ⟨apart, mismatch, by rw [projected]; rfl⟩

inductive BinaryCase (left right : TypedTerm) : Tag → TypedTerm → Prop
  | connective (op : Connective) (leftSort : left.sort = .bool) (rightSort : right.sort = .bool) :
      BinaryCase left right (.connective op) ⟨connectiveTerm op left.term right.term, .bool⟩
  | comparison (op : Comparison) (type : IntegerType) (leftSort : left.sort = .bits type.width)
      (rightSort : right.sort = .bits type.width) :
      BinaryCase left right (.comparison op type)
        ⟨comparisonTerm op type.isSigned left.term right.term, .bool⟩
  | enumEqual (width : Nat) (leftSort : left.sort = .bits width)
      (rightSort : right.sort = .bits width) :
      BinaryCase left right .enumEqual ⟨.equal left.term right.term, .bool⟩
  | enumUnequal (width : Nat) (leftSort : left.sort = .bits width)
      (rightSort : right.sort = .bits width) :
      BinaryCase left right .enumUnequal ⟨.distinct left.term right.term, .bool⟩
  | arithmetic (op : Arithmetic) (type : IntegerType) (leftSort : left.sort = .bits type.width)
      (rightSort : right.sort = .bits type.width) :
      BinaryCase left right (.arithmetic op type)
        ⟨.bitsBinary (arithmeticOp op type.isSigned) left.term right.term, .bits type.width⟩
  | bitwise (op : Bitwise) (type : IntegerType) (leftSort : left.sort = .bits type.width)
      (rightSort : right.sort = .bits type.width) :
      BinaryCase left right (.bitwise op type)
        ⟨.bitsBinary (bitwiseOp op) left.term right.term, .bits type.width⟩
  | shift (op : Shift) (type : IntegerType) (leftSort : left.sort = .bits type.width)
      (rightSort : right.sort = .bits countWidth) :
      BinaryCase left right (.shift op type)
        ⟨.bitsBinary (shiftOp op type.isSigned) left.term (countTerm right.term type.width),
          .bits type.width⟩
  | floatComparison (op : Comparison) (type : FloatType) (format : Format)
      (leftSort : left.sort = .float format) (rightSort : right.sort = .float format)
      (wide : format.width = type.width) :
      BinaryCase left right (.floatComparison op type)
        ⟨floatComparisonTerm op left.term right.term, .bool⟩
  | floatArithmetic (op : Arithmetic) (type : FloatType) (format : Format)
      (leftSort : left.sort = .float format) (rightSort : right.sort = .float format)
      (wide : format.width = type.width) :
      BinaryCase left right (.floatArithmetic op type)
        ⟨floatArithmeticTerm op left.term right.term, left.sort⟩

inductive UnaryCase (operand : TypedTerm) : Tag → TypedTerm → Prop
  | complement (type : IntegerType) (sorted : operand.sort = .bits type.width) :
      UnaryCase operand (.complement type) ⟨.bitsUnary .not operand.term, .bits type.width⟩
  | negation (sorted : operand.sort = .bool) :
      UnaryCase operand .negation ⟨.not operand.term, .bool⟩
  | minus (type : SignedType) (sorted : operand.sort = .bits type.toInteger.width) :
      UnaryCase operand (.minus type)
        ⟨.bitsUnary .neg operand.term, .bits type.toInteger.width⟩
  | plus (type : IntegerType) (sorted : operand.sort = .bits type.width) :
      UnaryCase operand (.plus type) ⟨operand.term, .bits type.width⟩
  | floatMinus (type : FloatType) (format : Format) (sorted : operand.sort = .float format) :
      UnaryCase operand (.floatMinus type) ⟨.floatNeg operand.term, operand.sort⟩
  | floatPlus (type : FloatType) (format : Format) (sorted : operand.sort = .float format) :
      UnaryCase operand (.floatPlus type) ⟨operand.term, operand.sort⟩

/-- A binary operator has one of the terms above when its operands fit, and
none otherwise. -/
theorem binaryTerm_cases (tag : Tag) (left right : TypedTerm) :
    (∃ term, binaryTerm tag left right = .ok (some term) ∧ BinaryCase left right tag term ∧
      binarySort? tag left.sort right.sort = some term.sort) ∨
    ((binaryTerm tag left right = .ok none ∨
        ∃ mismatch, binaryTerm tag left right = .error mismatch) ∧
      binarySort? tag left.sort right.sort = none) := by
  cases tag with
  | connective op =>
      rcases left.asBool_cases with ⟨leftSort, first⟩ | ⟨apart, mismatch, first⟩
      · rcases right.asBool_cases with ⟨rightSort, second⟩ | ⟨apart, mismatch, second⟩
        · refine Or.inl ⟨_, ?_, .connective op leftSort rightSort, if_pos ⟨leftSort, rightSort⟩⟩
          rw [binaryTerm, first, second]
          rfl
        · refine Or.inr ⟨Or.inr ⟨mismatch, ?_⟩, if_neg fun both => apart both.2⟩
          rw [binaryTerm, first, second]
          rfl
      · refine Or.inr ⟨Or.inr ⟨mismatch, ?_⟩, if_neg fun both => apart both.1⟩
        rw [binaryTerm, first]
        rfl
  | comparison op type =>
      rcases bitsPair_cases left right type.width with
        ⟨leftSort, rightSort, pair⟩ | ⟨apart, mismatch, pair⟩
      · refine Or.inl ⟨_, ?_, .comparison op type leftSort rightSort,
          if_pos ⟨leftSort, rightSort⟩⟩
        rw [binaryTerm, pair]
        rfl
      · exact Or.inr ⟨Or.inr ⟨mismatch, by rw [binaryTerm, pair]; rfl⟩, if_neg apart⟩
  | arithmetic op type =>
      rcases bitsPair_cases left right type.width with
        ⟨leftSort, rightSort, pair⟩ | ⟨apart, mismatch, pair⟩
      · refine Or.inl ⟨_, ?_, .arithmetic op type leftSort rightSort,
          if_pos ⟨leftSort, rightSort⟩⟩
        rw [binaryTerm, pair]
        rfl
      · exact Or.inr ⟨Or.inr ⟨mismatch, by rw [binaryTerm, pair]; rfl⟩, if_neg apart⟩
  | bitwise op type =>
      rcases bitsPair_cases left right type.width with
        ⟨leftSort, rightSort, pair⟩ | ⟨apart, mismatch, pair⟩
      · refine Or.inl ⟨_, ?_, .bitwise op type leftSort rightSort,
          if_pos ⟨leftSort, rightSort⟩⟩
        rw [binaryTerm, pair]
        rfl
      · exact Or.inr ⟨Or.inr ⟨mismatch, by rw [binaryTerm, pair]; rfl⟩, if_neg apart⟩
  | shift op type =>
      rcases left.asBits_cases type.width with ⟨leftSort, first⟩ | ⟨apart, mismatch, first⟩
      · rcases shiftCount_cases right type.width with
          ⟨rightSort, second⟩ | ⟨apart, mismatch, second⟩
        · refine Or.inl ⟨_, ?_, .shift op type leftSort rightSort, if_pos ⟨leftSort, rightSort⟩⟩
          rw [binaryTerm, first, second]
          rfl
        · refine Or.inr ⟨Or.inr ⟨mismatch, ?_⟩, if_neg fun both => apart both.2⟩
          rw [binaryTerm, first, second]
          rfl
      · refine Or.inr ⟨Or.inr ⟨mismatch, ?_⟩, if_neg fun both => apart both.1⟩
        rw [binaryTerm, first]
        rfl
  | enumEqual =>
      rcases enumPair_cases left right with
        ⟨width, leftSort, rightSort, pair⟩ | ⟨apart, mismatch, pair⟩
      · refine Or.inl ⟨_, by rw [binaryTerm, pair]; rfl, .enumEqual width leftSort rightSort, ?_⟩
        rw [leftSort, rightSort]
        exact if_pos rfl
      · refine Or.inr ⟨Or.inr ⟨mismatch, by rw [binaryTerm, pair]; rfl⟩, ?_⟩
        cases leftSort : left.sort with
        | bits width => exact if_neg (apart width leftSort)
        | bool | float _ | roundingMode | integer | real => rfl
  | enumUnequal =>
      rcases enumPair_cases left right with
        ⟨width, leftSort, rightSort, pair⟩ | ⟨apart, mismatch, pair⟩
      · refine Or.inl ⟨_, by rw [binaryTerm, pair]; rfl, .enumUnequal width leftSort rightSort, ?_⟩
        rw [leftSort, rightSort]
        exact if_pos rfl
      · refine Or.inr ⟨Or.inr ⟨mismatch, by rw [binaryTerm, pair]; rfl⟩, ?_⟩
        cases leftSort : left.sort with
        | bits width => exact if_neg (apart width leftSort)
        | bool | float _ | roundingMode | integer | real => rfl
  | floatComparison op type =>
      rcases floatPair_cases left right type.width with
        ⟨format, leftSort, rightSort, wide, pair⟩ | ⟨apart, mismatch, pair⟩
      · refine Or.inl ⟨_, by rw [binaryTerm, pair]; rfl,
          .floatComparison op type format leftSort rightSort wide, ?_⟩
        rw [leftSort, rightSort]
        exact if_pos ⟨rfl, wide⟩
      · refine Or.inr ⟨Or.inr ⟨mismatch, by rw [binaryTerm, pair]; rfl⟩, ?_⟩
        cases leftSort : left.sort with
        | float format => exact if_neg (apart format leftSort)
        | bool | bits _ | roundingMode | integer | real => rfl
  | floatArithmetic op type =>
      rcases floatPair_cases left right type.width with
        ⟨format, leftSort, rightSort, wide, pair⟩ | ⟨apart, mismatch, pair⟩
      · refine Or.inl ⟨_, by rw [binaryTerm, pair]; rfl,
          .floatArithmetic op type format leftSort rightSort wide, ?_⟩
        rw [leftSort, rightSort]
        exact if_pos ⟨rfl, wide⟩
      · refine Or.inr ⟨Or.inr ⟨mismatch, by rw [binaryTerm, pair]; rfl⟩, ?_⟩
        cases leftSort : left.sort with
        | float format => exact if_neg (apart format leftSort)
        | bool | bits _ | roundingMode | integer | real => rfl
  | complement _ | negation | minus _ | floatMinus _ | plus _ | floatPlus _ | unmodelled _ =>
      exact Or.inr ⟨Or.inl rfl, rfl⟩

theorem unaryTerm_cases (tag : Tag) (operand : TypedTerm) :
    (∃ term, unaryTerm tag operand = .ok (some term) ∧ UnaryCase operand tag term ∧
      unarySort? tag operand.sort = some term.sort) ∨
    ((unaryTerm tag operand = .ok none ∨ ∃ mismatch, unaryTerm tag operand = .error mismatch) ∧
      unarySort? tag operand.sort = none) := by
  cases tag with
  | complement type =>
      rcases operand.asBits_cases type.width with ⟨sorted, projected⟩ | ⟨apart, mismatch, projected⟩
      · refine Or.inl ⟨_, by rw [unaryTerm, projected]; rfl, .complement type sorted, if_pos sorted⟩
      · exact Or.inr ⟨Or.inr ⟨mismatch, by rw [unaryTerm, projected]; rfl⟩, if_neg apart⟩
  | negation =>
      rcases operand.asBool_cases with ⟨sorted, projected⟩ | ⟨apart, mismatch, projected⟩
      · exact Or.inl ⟨_, by rw [unaryTerm, projected]; rfl, .negation sorted, if_pos sorted⟩
      · exact Or.inr ⟨Or.inr ⟨mismatch, by rw [unaryTerm, projected]; rfl⟩, if_neg apart⟩
  | minus type =>
      rcases operand.asBits_cases type.toInteger.width with
        ⟨sorted, projected⟩ | ⟨apart, mismatch, projected⟩
      · exact Or.inl ⟨_, by rw [unaryTerm, projected]; rfl, .minus type sorted, if_pos sorted⟩
      · exact Or.inr ⟨Or.inr ⟨mismatch, by rw [unaryTerm, projected]; rfl⟩, if_neg apart⟩
  | plus type =>
      rcases operand.asBits_cases type.width with ⟨sorted, projected⟩ | ⟨apart, mismatch, projected⟩
      · exact Or.inl ⟨_, by rw [unaryTerm, projected]; rfl, .plus type sorted, if_pos sorted⟩
      · exact Or.inr ⟨Or.inr ⟨mismatch, by rw [unaryTerm, projected]; rfl⟩, if_neg apart⟩
  | floatMinus type =>
      rcases operand.asFloat_cases with ⟨format, sorted, projected⟩ | ⟨apart, mismatch, projected⟩
      · refine Or.inl ⟨_, by rw [unaryTerm, projected]; rfl, .floatMinus type format sorted, ?_⟩
        rw [sorted]
        rfl
      · refine Or.inr ⟨Or.inr ⟨mismatch, by rw [unaryTerm, projected]; rfl⟩, ?_⟩
        cases sorted : operand.sort with
        | float format => exact absurd sorted (apart format)
        | bool | bits _ | roundingMode | integer | real => rfl
  | floatPlus type =>
      rcases operand.asFloat_cases with ⟨format, sorted, projected⟩ | ⟨apart, mismatch, projected⟩
      · refine Or.inl ⟨_, by rw [unaryTerm, projected]; rfl, .floatPlus type format sorted, ?_⟩
        rw [sorted]
        rfl
      · refine Or.inr ⟨Or.inr ⟨mismatch, by rw [unaryTerm, projected]; rfl⟩, ?_⟩
        cases sorted : operand.sort with
        | float format => exact absurd sorted (apart format)
        | bool | bits _ | roundingMode | integer | real => rfl
  | connective _ | arithmetic _ _ | bitwise _ _ | shift _ _ | comparison _ _ | floatArithmetic _ _
  | floatComparison _ _ | enumEqual | enumUnequal | unmodelled _ =>
      exact Or.inr ⟨Or.inl rfl, rfl⟩

end Analysis

end CondSat
