import CondSat.Proofs.OperatorTerms

/-! # Values of operator terms

Under every assignment the term of an operator has the value the operator has on
the values of its operands, and this value has the sort of the term. -/
set_option autoImplicit false
namespace CondSat.Analysis

open Ieee (Format RoundingMode)
open Solver (Assignment BitsOrder FloatOp FloatOrder Term Value ValueSort)
open Source

variable {assign : Assignment} {a b : Term}

attribute [local simp] Term.eval

/-! ## Terms over words -/

theorem equal_eval {width : Nat} {x y : BitVec width} (first : a.eval assign = some (.bits width x))
    (second : b.eval assign = some (.bits width y)) :
    (Term.equal a b).eval assign = some (.bool (x == y)) := by
  simp [first, second, Value.same, Value.sort, Value.beq_bits]

theorem distinct_eval {width : Nat} {x y : BitVec width}
    (first : a.eval assign = some (.bits width x))
    (second : b.eval assign = some (.bits width y)) :
    (Term.distinct a b).eval assign = some (.bool (x != y)) := by
  simp [first, second, Value.same, Value.sort, Value.beq_bits, bne]

theorem bitsOrder_eval {width : Nat} {x y : BitVec width} (op : BitsOrder)
    (first : a.eval assign = some (.bits width x))
    (second : b.eval assign = some (.bits width y)) :
    (Term.bitsOrder op a b).eval assign = some (.bool (op.holds x y)) := by
  simp [first, second, Value.bitsOrder]

theorem bitsBinary_eval {width : Nat} {x y : BitVec width} (op : Solver.BitsOp)
    (first : a.eval assign = some (.bits width x))
    (second : b.eval assign = some (.bits width y)) :
    (Term.bitsBinary op a b).eval assign = some (.bits width (op.apply x y)) := by
  simp [first, second, Value.bits2]

theorem comparisonTerm_eval {width : Nat} {x y : BitVec width} (op : Comparison) (signed : Bool)
    (first : a.eval assign = some (.bits width x))
    (second : b.eval assign = some (.bits width y)) :
    (comparisonTerm op signed a b).eval assign =
      some (.bool (op.compute (reading signed x) (reading signed y))) := by
  cases op with
  | equal => rw [comparisonTerm, equal_eval first second, Comparison.compute, reading_beq]
  | unequal =>
      rw [comparisonTerm, distinct_eval first second, Comparison.compute, bne, bne, reading_beq]
  | greater => rw [comparisonTerm, bitsOrder_eval _ second first, less_holds, Comparison.compute]
  | greaterEqual =>
      rw [comparisonTerm, bitsOrder_eval _ second first, lessEqual_holds, Comparison.compute]
  | less => rw [comparisonTerm, bitsOrder_eval _ first second, less_holds, Comparison.compute]
  | lessEqual =>
      rw [comparisonTerm, bitsOrder_eval _ first second, lessEqual_holds, Comparison.compute]

theorem countTerm_eval {count : BitVec countWidth} (type : IntegerType)
    (counted : b.eval assign = some (.bits countWidth count)) :
    ∃ masked : BitVec type.width, masked.toNat = count.toNat % type.width ∧
      (countTerm b type.width).eval assign = some (.bits type.width masked) := by
  have low : (Term.bitsBinary .and b (.bits countWidth (BitVec.ofNat _ (type.width - 1)))).eval
      assign = some (.bits countWidth (count &&& BitVec.ofNat _ (type.width - 1))) :=
    bitsBinary_eval .and counted rfl
  have number := masked_toNat count type
  cases type with
  | int | uint => exact ⟨_, number, low⟩
  | long | ulong =>
      refine ⟨_, (BitVec.toNat_setWidth_of_le (show countWidth ≤ 64 by decide)).trans number, ?_⟩
      change (Term.zeroExtend 32 _).eval assign = _
      rw [Term.eval, low]
      rfl

/-! ## Terms over truth values and numbers -/

theorem connectiveTerm_eval {x y : Bool} (op : Connective) (first : a.eval assign = some (.bool x))
    (second : b.eval assign = some (.bool y)) :
    (connectiveTerm op a b).eval assign = some (.bool (op.compute x y)) := by
  cases op with
  | equal =>
      rw [connectiveTerm, Connective.compute]
      cases x <;> cases y <;> simp [first, second, Value.same, Value.sort]
  | unequal | xor | and | or | andAlso | orElse =>
      simp [connectiveTerm, Connective.compute, first, second, Value.bool2]

theorem floatOrder_eval {format : Format} {x y : BitVec format.width} (op : FloatOrder)
    (first : a.eval assign = some (.float format x))
    (second : b.eval assign = some (.float format y)) :
    (Term.floatOrder op a b).eval assign = some (.bool (op.holds format x.toNat y.toNat)) := by
  simp [first, second, Value.floatOrder]

theorem not_eval {x : Bool} (value : a.eval assign = some (.bool x)) :
    (Term.not a).eval assign = some (.bool !x) := by
  rw [Term.eval, value]

theorem floatComparisonTerm_eval {format : Format} {x y : BitVec format.width} (op : Comparison)
    (first : a.eval assign = some (.float format x))
    (second : b.eval assign = some (.float format y)) :
    (floatComparisonTerm op a b).eval assign =
      some (.bool (op.onFloats format x.toNat y.toNat)) := by
  have ordered (op : FloatOrder) := floatOrder_eval op first second
  have unequal := not_eval (ordered .eq)
  rw [Comparison.onFloats]
  cases leftNaN : format.isNaN x.toNat <;> cases rightNaN : format.isNaN y.toNat <;> cases op <;>
    simp [floatComparisonTerm, ordered, unequal, FloatOrder.holds, Format.numEq, Format.numLt,
      Format.numLe, Comparison.compute, leftNaN, rightNaN, bne]

theorem floatBinary_eval {format : Format} {x y : BitVec format.width} {mode : RoundingMode}
    (op : FloatOp) (rounding : assign roundingModeName .roundingMode = some (.mode mode))
    (first : a.eval assign = some (.float format x))
    (second : b.eval assign = some (.float format y)) :
    (Term.floatBinary op roundingMode.term a b).eval assign =
      some (.ofPattern format (op.apply format mode x.toNat y.toNat)) := by
  have rounded : roundingMode.term.eval assign = some (.mode mode) := by
    change (assign roundingModeName .roundingMode).filter _ = _
    rw [rounding]
    rfl
  simp [rounded, first, second, Value.float2]

theorem floatArithmeticTerm_eval {format : Format} {x y : BitVec format.width}
    {mode : RoundingMode} (op : Arithmetic)
    (rounding : op ≠ .remainder → assign roundingModeName .roundingMode = some (.mode mode))
    (first : a.eval assign = some (.float format x))
    (second : b.eval assign = some (.float format y)) :
    (floatArithmeticTerm op a b).eval assign =
      some (.ofPattern format (op.onFloats format mode x.toNat y.toNat)) := by
  cases op with
  | plus => exact floatBinary_eval .add (rounding nofun) first second
  | minus => exact floatBinary_eval .sub (rounding nofun) first second
  | times => exact floatBinary_eval .mul (rounding nofun) first second
  | divide => exact floatBinary_eval .div (rounding nofun) first second
  | remainder =>
      simp [floatArithmeticTerm, first, second, Value.floatRem, Arithmetic.onFloats]

/-! ## Operators -/

/-- The value of the term of a binary operator is the operator's value.  A mode
is needed only where the operator rounds. -/
theorem BinaryCase.eval {left right term : TypedTerm} {tag : Tag} {x y : Value}
    {mode : RoundingMode} (case : BinaryCase left right tag term)
    (rounding : rounds tag = true → assign roundingModeName .roundingMode = some (.mode mode))
    (first : left.term.eval assign = some x) (leftSort : x.sort = left.sort)
    (second : right.term.eval assign = some y) (rightSort : y.sort = right.sort) :
    term.term.eval assign = binaryValue? mode tag x y := by
  cases case with
  | connective op leftBool rightBool =>
      obtain ⟨x, rfl⟩ := Value.eq_bool (leftSort.trans leftBool)
      obtain ⟨y, rfl⟩ := Value.eq_bool (rightSort.trans rightBool)
      exact connectiveTerm_eval op first second
  | comparison op type leftBits rightBits =>
      obtain ⟨x, rfl⟩ := Value.eq_bits (leftSort.trans leftBits)
      obtain ⟨y, rfl⟩ := Value.eq_bits (rightSort.trans rightBits)
      simpa [binaryValue?] using comparisonTerm_eval op type.isSigned first second
  | enumEqual width leftBits rightBits =>
      obtain ⟨x, rfl⟩ := Value.eq_bits (leftSort.trans leftBits)
      obtain ⟨y, rfl⟩ := Value.eq_bits (rightSort.trans rightBits)
      rw [equal_eval first second, ← Value.toNat_beq]
      simp [binaryValue?, Value.sameWord?]
  | enumUnequal width leftBits rightBits =>
      obtain ⟨x, rfl⟩ := Value.eq_bits (leftSort.trans leftBits)
      obtain ⟨y, rfl⟩ := Value.eq_bits (rightSort.trans rightBits)
      rw [distinct_eval first second, bne, ← Value.toNat_beq]
      simp [binaryValue?, Value.sameWord?]
  | arithmetic op type leftBits rightBits =>
      obtain ⟨x, rfl⟩ := Value.eq_bits (leftSort.trans leftBits)
      obtain ⟨y, rfl⟩ := Value.eq_bits (rightSort.trans rightBits)
      rw [bitsBinary_eval _ first second, arithmeticOp_apply]
      simp [binaryValue?]
  | bitwise op type leftBits rightBits =>
      obtain ⟨x, rfl⟩ := Value.eq_bits (leftSort.trans leftBits)
      obtain ⟨y, rfl⟩ := Value.eq_bits (rightSort.trans rightBits)
      rw [bitsBinary_eval _ first second, bitwiseOp_apply]
      simp [binaryValue?]
  | shift op type leftBits rightBits =>
      obtain ⟨x, rfl⟩ := Value.eq_bits (leftSort.trans leftBits)
      obtain ⟨count, rfl⟩ := Value.eq_bits (rightSort.trans rightBits)
      obtain ⟨masked, number, counted⟩ := countTerm_eval type second
      rw [bitsBinary_eval _ first counted, shiftOp_apply, number]
      simp [binaryValue?]
  | floatComparison op type format leftFloat rightFloat wide =>
      obtain ⟨x, rfl⟩ := Value.eq_float (leftSort.trans leftFloat)
      obtain ⟨y, rfl⟩ := Value.eq_float (rightSort.trans rightFloat)
      rw [floatComparisonTerm_eval op first second]
      simp [binaryValue?, Value.patterns?, wide]
  | floatArithmetic op type format leftFloat rightFloat wide =>
      obtain ⟨x, rfl⟩ := Value.eq_float (leftSort.trans leftFloat)
      obtain ⟨y, rfl⟩ := Value.eq_float (rightSort.trans rightFloat)
      have needed : op ≠ .remainder →
          assign roundingModeName .roundingMode = some (.mode mode) := by
        intro inexact
        apply rounding
        cases op with
        | remainder => exact absurd rfl inexact
        | plus | minus | times | divide => rfl
      rw [floatArithmeticTerm_eval op needed first second]
      simp [binaryValue?, Value.patterns?, wide]

theorem UnaryCase.eval {operand term : TypedTerm} {tag : Tag} {x : Value}
    (case : UnaryCase operand tag term) (value : operand.term.eval assign = some x)
    (sorted : x.sort = operand.sort) : term.term.eval assign = unaryValue? tag x := by
  cases case with
  | complement type bits =>
      obtain ⟨x, rfl⟩ := Value.eq_bits (sorted.trans bits)
      simp only [Term.eval, value]
      simp [unaryValue?, Solver.BitsUnary.apply, complement_apply]
  | negation truth =>
      obtain ⟨x, rfl⟩ := Value.eq_bool (sorted.trans truth)
      exact not_eval value
  | minus type bits =>
      obtain ⟨x, rfl⟩ := Value.eq_bits (sorted.trans bits)
      simp only [Term.eval, value]
      simp [unaryValue?, Solver.BitsUnary.apply, negate_apply]
  | plus type bits =>
      obtain ⟨x, rfl⟩ := Value.eq_bits (sorted.trans bits)
      simp [unaryValue?, value]
  | floatMinus type format float =>
      obtain ⟨x, rfl⟩ := Value.eq_float (sorted.trans float)
      simp only [Term.eval, value]
      rfl
  | floatPlus type format float =>
      obtain ⟨x, rfl⟩ := Value.eq_float (sorted.trans float)
      exact value

/-! ## Sorts of values -/

/-- The value of a binary operator exists exactly for operands that fit it, and
has the sort of its term. -/
theorem sort_binaryValue? (mode : RoundingMode) (tag : Tag) (x y : Value) :
    (binaryValue? mode tag x y).map Value.sort = binarySort? tag x.sort y.sort := by
  cases tag with
  | connective op =>
      cases x <;> cases y <;> simp [binaryValue?, binarySort?, Value.sort]
  | comparison _ type | arithmetic _ type | bitwise _ type =>
      rcases x.word?_cases type.width with ⟨x, rfl⟩ | ⟨apart, missing⟩
      · rcases y.word?_cases type.width with ⟨y, rfl⟩ | ⟨apart, missing⟩
        · simp [binaryValue?, binarySort?, Value.sort]
        · simp [binaryValue?, binarySort?, missing, apart]
      · simp [binaryValue?, binarySort?, missing, apart]
  | shift op type =>
      rcases x.word?_cases type.width with ⟨x, rfl⟩ | ⟨apart, missing⟩
      · rcases y.word?_cases countWidth with ⟨y, rfl⟩ | ⟨apart, missing⟩
        · simp [binaryValue?, binarySort?, Value.sort]
        · simp [binaryValue?, binarySort?, missing, apart]
      · simp [binaryValue?, binarySort?, missing, apart]
  | enumEqual | enumUnequal =>
      cases x with
      | bits v x =>
          cases y with
          | bits w y =>
              by_cases same : v = w
              · simp [binaryValue?, binarySort?, Value.sameWord?, Value.sort, same]
              · simp [binaryValue?, binarySort?, Value.sameWord?, Value.sort, same, Ne.symm same]
          | bool _ | float _ _ | mode _ => rfl
      | bool _ | float _ _ | mode _ => rfl
  | floatComparison op type | floatArithmetic op type =>
      cases x with
      | float f x =>
          cases y with
          | float g y =>
              by_cases same : f = g
              · by_cases wide : g.width = type.width <;>
                  simp [binaryValue?, binarySort?, Value.patterns?, Value.ofPattern, Value.sort,
                    same, wide]
              · simp [binaryValue?, binarySort?, Value.patterns?, Value.sort, same, Ne.symm same]
          | bool _ | bits _ _ | mode _ => rfl
      | bool _ | bits _ _ | mode _ => rfl
  | complement _ | negation | minus _ | floatMinus _ | plus _ | floatPlus _ | unmodelled _ => rfl

theorem sort_unaryValue? (tag : Tag) (x : Value) :
    (unaryValue? tag x).map Value.sort = unarySort? tag x.sort := by
  cases tag with
  | complement type | plus type =>
      rcases x.word?_cases type.width with ⟨x, rfl⟩ | ⟨apart, missing⟩
      · simp [unaryValue?, unarySort?, Value.sort]
      · simp [unaryValue?, unarySort?, missing, apart]
  | minus type =>
      rcases x.word?_cases type.toInteger.width with ⟨x, rfl⟩ | ⟨apart, missing⟩
      · simp [unaryValue?, unarySort?, Value.sort]
      · simp [unaryValue?, unarySort?, missing, apart]
  | negation | floatMinus _ | floatPlus _ => cases x <;> rfl
  | connective _ | arithmetic _ _ | bitwise _ _ | shift _ _ | comparison _ _ | floatArithmetic _ _
  | floatComparison _ _ | enumEqual | enumUnequal | unmodelled _ => rfl

end CondSat.Analysis
