import CondSat.Solver.Circuit
import CondSat.Solver.Eval

/-! # Terms as circuits

A term without floating-point arithmetic becomes a circuit over the bits of
its constants.  A floating-point constant is the word of its pattern: signs
and comparisons need no more.  Closed parts of a term are evaluated first,
under the rounding mode at hand. -/
set_option autoImplicit false
namespace CondSat.Solver

open Ieee (Format RoundingMode)

def Value.numeral? : Value → Option Term
  | bool value => some (.bool value)
  | bits width value => some (.bits width value)
  | float format pattern => some (.float format pattern)
  | mode _ => none

namespace Term

def close (mode : RoundingMode) (term : Term) : Term :=
  let assign : Assignment := fun _ sort =>
    if sort = .roundingMode then some (.mode mode) else none
  ((term.eval assign).bind Value.numeral?).getD term

def fold (mode : RoundingMode) : Term → Term
  | not a => close mode (.not (fold mode a))
  | and a b => close mode (.and (fold mode a) (fold mode b))
  | or a b => close mode (.or (fold mode a) (fold mode b))
  | xor a b => close mode (.xor (fold mode a) (fold mode b))
  | equal a b => close mode (.equal (fold mode a) (fold mode b))
  | distinct a b => close mode (.distinct (fold mode a) (fold mode b))
  | bitsBinary op a b => close mode (.bitsBinary op (fold mode a) (fold mode b))
  | bitsUnary op a => close mode (.bitsUnary op (fold mode a))
  | bitsOrder op a b => close mode (.bitsOrder op (fold mode a) (fold mode b))
  | zeroExtend extra a => close mode (.zeroExtend extra (fold mode a))
  | extract high low a => close mode (.extract high low (fold mode a))
  | floatBinary op m a b => close mode (.floatBinary op m (fold mode a) (fold mode b))
  | floatRem a b => close mode (.floatRem (fold mode a) (fold mode b))
  | floatNeg a => close mode (.floatNeg (fold mode a))
  | floatOrder op a b => close mode (.floatOrder op (fold mode a) (fold mode b))
  | term => term

end Term

/-- The wires of a term. -/
inductive Signal where
  | bool (wire : Wire)
  | bits (word : List Wire)
  | float (format : Format) (word : List Wire)
  deriving Repr, Inhabited

abbrev Constant := String × ValueSort

structure Board where
  circuit : Circuit
  inputs : List (Constant × Signal)

/-- Blasting fails on terms outside its reach. -/
abbrev Blasting := OptionT (StateM Board)

namespace Blasting

def wiring {α : Type} (step : Wiring α) : Blasting α := do
  let board ← get
  let (result, circuit) := step.run board.circuit
  set { board with circuit }
  return result

def constant (key : Constant) : Blasting Signal := do
  match (← get).inputs.lookup key with
  | some signal => return signal
  | none =>
    let signal ← match key.2 with
      | .bool => Signal.bool <$> wiring Wiring.input
      | .bits width => Signal.bits <$> wiring (Wiring.inputs width)
      | .float format => Signal.float format <$> wiring (Wiring.inputs format.width)
      | _ => failure
    modify fun board => { board with inputs := (key, signal) :: board.inputs }
    return signal

def word {width : Nat} (value : BitVec width) : List Wire :=
  (List.range width).map fun index => .fixed (value.getLsbD index)

def asBool : Signal → Blasting Wire
  | .bool wire => return wire
  | _ => failure

def asBits : Signal → Blasting (List Wire)
  | .bits wires => return wires
  | _ => failure

def asFloat : Signal → Blasting (Format × List Wire)
  | .float format wires => return (format, wires)
  | _ => failure

def isFixed : List Wire → Bool := fun word => word.all fun
  | .fixed _ => true
  | .literal _ => false

/-- Signed division and remainder by way of magnitudes. -/
def signedDivide (a b : List Wire) : Wiring (List Wire × List Wire) := do
  let signA := Wiring.top a
  let signB := Wiring.top b
  let sizeA ← Wiring.choose signA (← Wiring.negate a) a
  let sizeB ← Wiring.choose signB (← Wiring.negate b) b
  let (quotient, rest) ← Wiring.divide sizeB sizeA
  let sign ← Wiring.xor signA signB
  let quotient ← Wiring.choose sign (← Wiring.negate quotient) quotient
  let rest ← Wiring.choose signA (← Wiring.negate rest) rest
  return (quotient, rest)

def bitsBinary (op : BitsOp) (a b : List Wire) : Wiring (List Wire) :=
  match op with
  | .add => Wiring.sum a b (.fixed false)
  | .sub => Wiring.difference a b
  | .mul => if isFixed a then Wiring.product b a else Wiring.product a b
  | .udiv => do return (← Wiring.divide b a).1
  | .urem => do return (← Wiring.divide b a).2
  | .sdiv => do return (← signedDivide a b).1
  | .srem => do return (← signedDivide a b).2
  | .and => Wiring.zip Wiring.and a b
  | .or => Wiring.zip Wiring.or a b
  | .xor => Wiring.zip Wiring.xor a b
  | .shl => Wiring.shiftBy Wiring.shiftLeft 1 b a
  | .lshr => Wiring.shiftBy (Wiring.shiftRight (.fixed false)) 1 b a
  | .ashr => Wiring.shiftBy (Wiring.shiftRight (Wiring.top a)) 1 b a

def bitsOrder (op : BitsOrder) (a b : List Wire) : Wiring Wire :=
  match op with
  | .ult => Wiring.lessThan a b
  | .ule => do return (← Wiring.lessThan b a).not
  | .slt => Wiring.lessThan (Wiring.flipTop a) (Wiring.flipTop b)
  | .sle => do return (← Wiring.lessThan (Wiring.flipTop b) (Wiring.flipTop a)).not

def magnitude (wires : List Wire) : List Wire := wires.take (wires.length - 1)

/-- Whether a pattern is a NaN: its magnitude is above that of infinity. -/
def isNaN (format : Format) (wires : List Wire) : Wiring Wire :=
  Wiring.lessThan (magnitude (word (BitVec.ofNat format.width format.infinity))) (magnitude wires)

def isZero (wires : List Wire) : Wiring Wire := Wiring.all ((magnitude wires).map Wire.not)

/-- A word that is ordered, as an unsigned number, like the numbers the
patterns stand for: negative magnitudes are inverted, and the two zeros get
the same word. -/
def floatKey (wires : List Wire) : Wiring (List Wire) := do
  let negative ← Wiring.and (Wiring.top wires) (← isZero wires).not
  let size := magnitude wires
  let turned ← Wiring.zip Wiring.xor size (List.replicate size.length negative)
  return turned ++ [negative.not]

def floatOrder (op : FloatOrder) (format : Format) (a b : List Wire) : Wiring Wire := do
  let numbers ← Wiring.and (← isNaN format a).not (← isNaN format b).not
  let a ← floatKey a
  let b ← floatKey b
  let holds ← match op with
    | .eq => Wiring.equal a b
    | .lt => Wiring.lessThan a b
    | .gt => Wiring.lessThan b a
    | .le => Wire.not <$> Wiring.lessThan b a
    | .ge => Wire.not <$> Wiring.lessThan a b
  Wiring.and numbers holds

def term : Term → Blasting Signal
  | .const name sort => constant (name, sort)
  | .bool value => return .bool (.fixed value)
  | .bits _ value => return .bits (word value)
  | .float format pattern => return .float format (word pattern)
  | .not a => do return .bool (← asBool (← term a)).not
  | .and a b => do
    let a ← asBool (← term a)
    let b ← asBool (← term b)
    return .bool (← wiring (Wiring.and a b))
  | .or a b => do
    let a ← asBool (← term a)
    let b ← asBool (← term b)
    return .bool (← wiring (Wiring.or a b))
  | .xor a b => do
    let a ← asBool (← term a)
    let b ← asBool (← term b)
    return .bool (← wiring (Wiring.xor a b))
  | .equal a b => do
    match ← term a, ← term b with
    | .bool a, .bool b => return .bool (← wiring (Wiring.xor a b)).not
    | .bits a, .bits b => return .bool (← wiring (Wiring.equal a b))
    | _, _ => failure
  | .distinct a b => do
    match ← term a, ← term b with
    | .bool a, .bool b => return .bool (← wiring (Wiring.xor a b))
    | .bits a, .bits b => return .bool (← wiring (Wiring.equal a b)).not
    | _, _ => failure
  | .bitsBinary op a b => do
    let a ← asBits (← term a)
    let b ← asBits (← term b)
    return .bits (← wiring (bitsBinary op a b))
  | .bitsUnary .not a => do return .bits (Wiring.invert (← asBits (← term a)))
  | .bitsUnary .neg a => do
    let a ← asBits (← term a)
    return .bits (← wiring (Wiring.negate a))
  | .bitsOrder op a b => do
    let a ← asBits (← term a)
    let b ← asBits (← term b)
    return .bool (← wiring (bitsOrder op a b))
  | .zeroExtend extra a => do return .bits ((← asBits (← term a)) ++ Wiring.zeros extra)
  | .extract high low a => do
    return .bits (((← asBits (← term a)).drop low).take (high - low + 1))
  | .floatNeg a => do
    let (format, wires) ← asFloat (← term a)
    return .float format (Wiring.flipTop wires)
  | .floatOrder op a b => do
    let (format, a) ← asFloat (← term a)
    let (_, b) ← asFloat (← term b)
    return .bool (← wiring (floatOrder op format a b))
  | .floatBinary _ _ _ _ | .floatRem _ _ => failure

end Blasting

end CondSat.Solver
