import CondSat.Analysis.Session

/-! # Meaning of the predefined operators

Each modelled operator has one meaning on terms.  Binary operators are grouped
by the family of the type they return.  Signedness comes from the operator and
not from the sorts of the operands. -/
set_option autoImplicit false
namespace CondSat.Analysis

open Source
open Solver (Term BitsOp BitsUnary BitsOrder FloatOp FloatOrder ValueSort)

inductive Family where
  | boolean | integer | float
  deriving DecidableEq, Repr

namespace Family

def name : Family → String
  | boolean => "boolean"
  | integer => "integer"
  | float => "float"

def ofType? (type : SourceType) : Option Family :=
  match type.kind with
  | .bool => some boolean
  | .int | .uint | .long | .ulong => some integer
  | .float | .double => some float
  | _ => none

end Family

/-- Whether an operator is recognised and never modelled. -/
def isUnmodelled : Tag → Bool
  | .unmodelled _ => true
  | _ => false

def binaryFamily? : Tag → Option Family
  | .connective _ | .comparison _ _ | .floatComparison _ _ | .enumEqual | .enumUnequal =>
    some .boolean
  | .arithmetic _ _ | .bitwise _ _ | .shift _ _ => some .integer
  | .floatArithmetic _ _ => some .float
  | _ => none

def isModelledUnary : Tag → Bool
  | .complement _ | .negation | .minus _ | .floatMinus _ | .plus _ | .floatPlus _ => true
  | _ => false

def rounds : Tag → Bool
  | .floatArithmetic .remainder _ => false
  | .floatArithmetic _ _ => true
  | _ => false

/-- The width of a shift count, whatever is shifted. -/
def countWidth : Nat := 32

/-- A shift count at the width of the shifted operand: only as many low bits
of it count as the width has places. -/
def shiftCount (count : TypedTerm) (width : Nat) : Except SortMismatch Term := do
  let count ← count.asBits (some countWidth)
  let masked := Term.bitsBinary .and count (.bits countWidth (BitVec.ofNat _ (width - 1)))
  return if countWidth < width then .zeroExtend (width - countWidth) masked
    else if width < countWidth then .extract (width - 1) 0 masked
    else masked

def connectiveTerm (op : Connective) (a b : Term) : Term :=
  match op with
  | .equal => .equal a b
  | .unequal | .xor => .xor a b
  | .and | .andAlso => .and a b
  | .or | .orElse => .or a b

def comparisonTerm (op : Comparison) (signed : Bool) (a b : Term) : Term :=
  let less := if signed then BitsOrder.slt else .ult
  let lessEqual := if signed then BitsOrder.sle else .ule
  match op with
  | .equal => .equal a b
  | .unequal => .distinct a b
  | .greater => .bitsOrder less b a
  | .greaterEqual => .bitsOrder lessEqual b a
  | .less => .bitsOrder less a b
  | .lessEqual => .bitsOrder lessEqual a b

def arithmeticOp (op : Arithmetic) (signed : Bool) : BitsOp :=
  match op with
  | .plus => .add
  | .minus => .sub
  | .times => .mul
  | .divide => if signed then .sdiv else .udiv
  | .remainder => if signed then .srem else .urem

def bitwiseOp : Bitwise → BitsOp
  | .and => .and
  | .or => .or
  | .xor => .xor

def shiftOp (op : Shift) (signed : Bool) : BitsOp :=
  match op with
  | .left => .shl
  | .right => if signed then .ashr else .lshr

def floatComparisonTerm (op : Comparison) (a b : Term) : Term :=
  match op with
  | .equal => .floatOrder .eq a b
  | .unequal => .not (.floatOrder .eq a b)
  | .greater => .floatOrder .gt a b
  | .greaterEqual => .floatOrder .ge a b
  | .less => .floatOrder .lt a b
  | .lessEqual => .floatOrder .le a b

/-- Floating-point arithmetic rounds by the mode of the run; the remainder is
exact. -/
def floatArithmeticTerm (op : Arithmetic) (a b : Term) : Term :=
  match op with
  | .plus => .floatBinary .add roundingMode.term a b
  | .minus => .floatBinary .sub roundingMode.term a b
  | .times => .floatBinary .mul roundingMode.term a b
  | .divide => .floatBinary .div roundingMode.term a b
  | .remainder => .floatRem a b

def bitsPair (left right : TypedTerm) (width : Nat) : Except SortMismatch (Term × Term) := do
  let a ← left.asBits (some width)
  let b ← right.asBits (some width)
  return (a, b)

def floatPair (left right : TypedTerm) (width : Nat) : Except SortMismatch (Term × Term) := do
  let a ← left.asFloat none (some width)
  let b ← right.asFloat (some left) none
  return (a, b)

def enumPair (left right : TypedTerm) : Except SortMismatch (Term × Term) := do
  let a ← left.asBits none
  let b ← right.asBits left.sort.width?
  return (a, b)

/-- The term of a modelled binary operator; there is none for other operators. -/
def binaryTerm (tag : Tag) (left right : TypedTerm) : Except SortMismatch (Option TypedTerm) :=
  match tag with
  | .connective op => do
    let a ← left.asBool
    let b ← right.asBool
    return some ⟨connectiveTerm op a b, .bool⟩
  | .comparison op type => do
    let (a, b) ← bitsPair left right type.width
    return some ⟨comparisonTerm op type.isSigned a b, .bool⟩
  | .enumEqual => do
    let (a, b) ← enumPair left right
    return some ⟨.equal a b, .bool⟩
  | .enumUnequal => do
    let (a, b) ← enumPair left right
    return some ⟨.distinct a b, .bool⟩
  | .arithmetic op type => do
    let (a, b) ← bitsPair left right type.width
    return some ⟨.bitsBinary (arithmeticOp op type.isSigned) a b, .bits type.width⟩
  | .bitwise op type => do
    let (a, b) ← bitsPair left right type.width
    return some ⟨.bitsBinary (bitwiseOp op) a b, .bits type.width⟩
  | .shift op type => do
    let a ← left.asBits (some type.width)
    let b ← shiftCount right type.width
    return some ⟨.bitsBinary (shiftOp op type.isSigned) a b, .bits type.width⟩
  | .floatComparison op type => do
    let (a, b) ← floatPair left right type.width
    return some ⟨floatComparisonTerm op a b, .bool⟩
  | .floatArithmetic op type => do
    let (a, b) ← floatPair left right type.width
    return some ⟨floatArithmeticTerm op a b, left.sort⟩
  | _ => return none

/-- The term of a modelled unary operator; there is none for other operators.
The floating-point ones take an operand of any storage width. -/
def unaryTerm (tag : Tag) (operand : TypedTerm) : Except SortMismatch (Option TypedTerm) :=
  match tag with
  | .complement type => do
    let a ← operand.asBits (some type.width)
    return some ⟨.bitsUnary .not a, .bits type.width⟩
  | .negation => do
    let a ← operand.asBool
    return some ⟨.not a, .bool⟩
  | .minus type => do
    let a ← operand.asBits (some type.toInteger.width)
    return some ⟨.bitsUnary .neg a, .bits type.toInteger.width⟩
  | .plus type => do
    let a ← operand.asBits (some type.width)
    return some ⟨a, .bits type.width⟩
  | .floatMinus _ => do
    let a ← operand.asFloat none none
    return some ⟨.floatNeg a, operand.sort⟩
  | .floatPlus _ => do
    let a ← operand.asFloat none none
    return some ⟨a, operand.sort⟩
  | _ => return none

end CondSat.Analysis
