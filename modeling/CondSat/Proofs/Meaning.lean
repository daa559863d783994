import CondSat.Analysis.Formula
import Mathlib.Algebra.Ring.Int.Defs

/-! # Meaning of expressions

What a tree means, computed on values and without a session.  Words are read as
integers, the operators compute in the integers, and results are put back into
words of the width of the operator's type.  A node with an encodable constant
means that constant.  An operand that has no meaning of its own takes the value
a `Valuation` gives to the node; the root does not, so that a tree may mean
nothing.

`formulaSort?` is the same recursion on sorts: it says which nodes have a meaning
and what kind of value they have, before any value is known. -/
set_option autoImplicit false
namespace CondSat

open Ieee (Format RoundingMode)
open Solver (Value ValueSort)

/-! ## Words as integers -/

namespace Source

/-- The integer a word stands for in a signed or an unsigned type. -/
def reading {width : Nat} (signed : Bool) (word : BitVec width) : Int :=
  if signed then word.toInt else word.toNat

def wordOf (width : Nat) (bit : Nat → Bool) : BitVec width :=
  (BitVec.iunfoldr (fun place (_ : Unit) => ((), bit place)) ()).2

/-- Quotients are cut off toward zero and remainders have the sign of the
dividend.  Division by zero has the values the solver's logic gives it. -/
def Arithmetic.compute : Arithmetic → Int → Int → Int
  | plus, x, y => x + y
  | minus, x, y => x - y
  | times, x, y => x * y
  | divide, x, y => if y = 0 then if x < 0 then 1 else -1 else x.tdiv y
  | remainder, x, y => if y = 0 then x else x.tmod y

def Bitwise.compute : Bitwise → Bool → Bool → Bool
  | and, x, y => x && y
  | or, x, y => x || y
  | xor, x, y => x != y

def Shift.compute : Shift → Int → Nat → Int
  | left, x, places => x * 2 ^ places
  | right, x, places => x / 2 ^ places

def Comparison.compute : Comparison → Int → Int → Bool
  | equal, x, y => x == y
  | unequal, x, y => x != y
  | greater, x, y => y < x
  | greaterEqual, x, y => y ≤ x
  | less, x, y => x < y
  | lessEqual, x, y => x ≤ y

def Connective.compute : Connective → Bool → Bool → Bool
  | equal, x, y => x == y
  | unequal, x, y | xor, x, y => x != y
  | and, x, y | andAlso, x, y => x && y
  | or, x, y | orElse, x, y => x || y

/-- Numbers are compared by their place on the number line; a NaN has none and
is different from everything. -/
def Comparison.onFloats (op : Comparison) (format : Format) (x y : Nat) : Bool :=
  if format.isNaN x || format.isNaN y then decide (op = .unequal)
  else op.compute (format.place x) (format.place y)

def Arithmetic.onFloats (op : Arithmetic) (format : Format) (mode : RoundingMode) (x y : Nat) :
    Nat :=
  match op with
  | plus => format.add mode x y
  | minus => format.sub mode x y
  | times => format.mul mode x y
  | divide => format.div mode x y
  | remainder => format.rem x y

end Source

/-! ## Operators on values -/

namespace Solver.Value

def word? (width : Nat) : Value → Option (BitVec width)
  | bits actual word => if same : actual = width then some (word.cast same) else none
  | _ => none

def patterns? (width : Nat) : Value → Value → Option (Format × Nat × Nat)
  | float f x, float g y =>
    if f = g ∧ f.width = width then some (f, x.toNat, y.toNat) else none
  | _, _ => none

def sameWord? : Value → Value → Option Bool
  | bits v x, bits w y => if v = w then some (x.toNat == y.toNat) else none
  | _, _ => none

end Solver.Value

namespace Analysis

open Source

def binaryValue? (mode : RoundingMode) (tag : Tag) (left right : Value) : Option Value :=
  match tag with
  | .connective op =>
    match left, right with
    | .bool x, .bool y => some (.bool (op.compute x y))
    | _, _ => none
  | .comparison op type => do
    let x ← left.word? type.width
    let y ← right.word? type.width
    return .bool (op.compute (reading type.isSigned x) (reading type.isSigned y))
  | .enumEqual => do return .bool (← left.sameWord? right)
  | .enumUnequal => do return .bool !(← left.sameWord? right)
  | .arithmetic op type => do
    let x ← left.word? type.width
    let y ← right.word? type.width
    let result := op.compute (reading type.isSigned x) (reading type.isSigned y)
    return .bits type.width (BitVec.ofInt type.width result)
  | .bitwise op type => do
    let x ← left.word? type.width
    let y ← right.word? type.width
    return .bits type.width (wordOf type.width fun i => op.compute (x.getLsbD i) (y.getLsbD i))
  | .shift op type => do
    let x ← left.word? type.width
    let count ← right.word? countWidth
    let result := op.compute (reading type.isSigned x) (count.toNat % type.width)
    return .bits type.width (BitVec.ofInt type.width result)
  | .floatComparison op type => do
    let (format, x, y) ← left.patterns? type.width right
    return .bool (op.onFloats format x y)
  | .floatArithmetic op type => do
    let (format, x, y) ← left.patterns? type.width right
    return .ofPattern format (op.onFloats format mode x y)
  | _ => none

def unaryValue? (tag : Tag) (operand : Value) : Option Value :=
  match tag with
  | .complement type => do
    let x ← operand.word? type.width
    return .bits type.width (wordOf type.width fun i => !x.getLsbD i)
  | .negation =>
    match operand with
    | .bool x => some (.bool !x)
    | _ => none
  | .minus type => do
    let x ← operand.word? type.toInteger.width
    return .bits type.toInteger.width (BitVec.ofInt _ (-(reading true x)))
  | .plus type => do
    let x ← operand.word? type.width
    return .bits type.width x
  | .floatMinus _ =>
    match operand with
    | .float format x => some (.ofPattern format (format.neg x.toNat))
    | _ => none
  | .floatPlus _ =>
    match operand with
    | .float format x => some (.float format x)
    | _ => none
  | _ => none

/-! ## The sorts operators need and give -/

def binarySort? (tag : Tag) (left right : ValueSort) : Option ValueSort :=
  match tag with
  | .connective _ => if left = .bool ∧ right = .bool then some .bool else none
  | .comparison _ type =>
    if left = .bits type.width ∧ right = .bits type.width then some .bool else none
  | .enumEqual | .enumUnequal =>
    match left with
    | .bits width => if right = .bits width then some .bool else none
    | _ => none
  | .arithmetic _ type | .bitwise _ type =>
    if left = .bits type.width ∧ right = .bits type.width then some (.bits type.width) else none
  | .shift _ type =>
    if left = .bits type.width ∧ right = .bits countWidth then some (.bits type.width) else none
  | .floatComparison _ type =>
    match left with
    | .float format => if right = .float format ∧ format.width = type.width then some .bool else none
    | _ => none
  | .floatArithmetic _ type =>
    match left with
    | .float format =>
      if right = .float format ∧ format.width = type.width then some (.float format) else none
    | _ => none
  | _ => none

def unarySort? (tag : Tag) (operand : ValueSort) : Option ValueSort :=
  match tag with
  | .complement type | .plus type =>
    if operand = .bits type.width then some (.bits type.width) else none
  | .minus type =>
    if operand = .bits type.toInteger.width then some (.bits type.toInteger.width) else none
  | .negation => if operand = .bool then some .bool else none
  | .floatMinus _ | .floatPlus _ =>
    match operand with
    | .float format => some (.float format)
    | _ => none
  | _ => none

/-! ## Constants and operators of nodes -/

def floatValue? (format : Format) (value : Json) : Option Value := do
  let number ← number? value
  let pattern ← (number.toPattern format).toOption
  return .ofPattern format pattern

def constantValue? (constant : Constant) : Option Value :=
  match constant.kind with
  | .bool =>
    match constant.value with
    | .bool value => some (.bool value)
    | _ => none
  | .float => floatValue? .single constant.value
  | .double => floatValue? .double constant.value
  | kind => do
    let width ← kind.integralWidth?
    let number ← whole? kind constant.value
    return .bits width (BitVec.ofInt width number)

def binaryTag? (resolution : Resolution) : Option Tag := do
  let operator ← resolution.predefined?
  let family ← Family.ofType? operator.returnType
  operator.tag.filter (binaryFamily? · = some family)

def unaryTag? (resolution : Resolution) : Option Tag := do
  let operator ← resolution.predefined?
  operator.tag.filter isModelledUnary

/-! ## Nodes -/

def formulaSort? : Expr → Option ValueSort
  | .literal constant _ _ => (constantValue? constant).map Value.sort
  | .reference declaration _ _ constant =>
    ((constant.bind constantValue?).map Value.sort).or
      ((declaration.filter (·.isVariable)).bind (·.type.sort?))
  | .unmodelled _ _ _ _ constant => (constant.bind constantValue?).map Value.sort
  | .unary resolution operand _ _ constant =>
    ((constant.bind constantValue?).map Value.sort).or do
      let tag ← unaryTag? resolution
      let sort ← (formulaSort? operand).or operand.type.sort?
      unarySort? tag sort
  | .binary resolution left right _ _ constant =>
    ((constant.bind constantValue?).map Value.sort).or do
      let tag ← binaryTag? resolution
      let leftSort ← (formulaSort? left).or left.type.sort?
      let rightSort ← (formulaSort? right).or right.type.sort?
      binarySort? tag leftSort rightSort

structure Valuation where
  /-- The value of a local or a parameter. -/
  declared : Declaration → Value
  /-- The value of a node that has no meaning of its own. -/
  unknown : Expr → Value
  /-- How floating-point arithmetic rounds. -/
  mode : RoundingMode

/-- The value of a node that has no meaning of its own; there is none when its
type has no values. -/
def Valuation.unknown? (V : Valuation) (node : Expr) : Option Value :=
  node.type.sort?.map fun _ => V.unknown node

def Valuation.value? (V : Valuation) : Expr → Option Value
  | .literal constant _ _ => constantValue? constant
  | .reference declaration _ _ constant =>
    (constant.bind constantValue?).or do
      let declaration ← declaration.filter (·.isVariable)
      let _ ← declaration.type.sort?
      return V.declared declaration
  | .unmodelled _ _ _ _ constant => constant.bind constantValue?
  | .unary resolution operand _ _ constant =>
    (constant.bind constantValue?).or do
      let tag ← unaryTag? resolution
      let x ← (V.value? operand).or (V.unknown? operand)
      unaryValue? tag x
  | .binary resolution left right _ _ constant =>
    (constant.bind constantValue?).or do
      let tag ← binaryTag? resolution
      let x ← (V.value? left).or (V.unknown? left)
      let y ← (V.value? right).or (V.unknown? right)
      binaryValue? V.mode tag x y

/-- A node of a tree that has no meaning of its own. -/
def IsUnknown (root node : Expr) : Prop := node ∈ root.preorder ∧ formulaSort? node = none

/-- Whether the values of locals, parameters and unknown nodes have the sorts of
their types. -/
structure Valuation.Fits (V : Valuation) (root : Expr) : Prop where
  declared : ∀ declaration, declaration.isVariable = true →
    ∀ sort, declaration.type.sort? = some sort → (V.declared declaration).sort = sort
  unknown : ∀ node, IsUnknown root node →
    ∀ sort, node.type.sort? = some sort → (V.unknown node).sort = sort

end Analysis

end CondSat
