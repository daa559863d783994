import CondSat.Solver.Term

/-! # Meaning of terms

`eval` gives the value of a term under an assignment of its constants, with
the standard meaning of bit-vector and floating-point operations: division by
zero is total, shifts beyond the width give zero or the sign, and a comparison
with a NaN is false.  It is defined on every well-sorted term. -/
set_option autoImplicit false
namespace CondSat.Solver

open Ieee (Format RoundingMode)

/-- A value for every constant, which is a name with a sort. -/
abbrev Assignment := String → ValueSort → Option Value

def BitsOp.apply {width : Nat} (op : BitsOp) (a b : BitVec width) : BitVec width :=
  match op with
  | add => a + b
  | sub => a - b
  | mul => a * b
  | sdiv => a.smtSDiv b
  | udiv => a.smtUDiv b
  | srem => a.srem b
  | urem => a.umod b
  | and => a &&& b
  | or => a ||| b
  | xor => a ^^^ b
  | shl => a <<< b
  | ashr => a.sshiftRight' b
  | lshr => a >>> b

def BitsUnary.apply {width : Nat} (op : BitsUnary) (a : BitVec width) : BitVec width :=
  match op with
  | neg => -a
  | not => ~~~a

def BitsOrder.holds {width : Nat} (op : BitsOrder) (a b : BitVec width) : Bool :=
  match op with
  | slt => a.slt b
  | sle => a.sle b
  | ult => a.ult b
  | ule => a.ule b

def FloatOp.apply (op : FloatOp) (format : Format) (mode : RoundingMode) (a b : Nat) : Nat :=
  match op with
  | add => format.add mode a b
  | sub => format.sub mode a b
  | mul => format.mul mode a b
  | div => format.div mode a b

def FloatOrder.holds (op : FloatOrder) (format : Format) (a b : Nat) : Bool :=
  match op with
  | eq => format.numEq a b
  | lt => format.numLt a b
  | le => format.numLe a b
  | gt => format.numLt b a
  | ge => format.numLe b a

namespace Value

def bits2 (op : BitsOp) : Value → Value → Option Value
  | bits v a, bits w b => if v = w then some (bits v (op.apply a (b.setWidth v))) else none
  | _, _ => none

def bitsOrder (op : BitsOrder) : Value → Value → Option Value
  | bits v a, bits w b => if v = w then some (bool (op.holds a (b.setWidth v))) else none
  | _, _ => none

def bool2 (op : Bool → Bool → Bool) : Value → Value → Option Value
  | bool a, bool b => some (bool (op a b))
  | _, _ => none

def same (a b : Value) : Option Bool := if a.sort = b.sort then some (a == b) else none

def float2 (op : FloatOp) : Value → Value → Value → Option Value
  | mode m, float f a, float g b =>
    if f = g then some (ofPattern f (op.apply f m a.toNat b.toNat)) else none
  | _, _, _ => none

def floatRem : Value → Value → Option Value
  | float f a, float g b => if f = g then some (ofPattern f (f.rem a.toNat b.toNat)) else none
  | _, _ => none

def floatOrder (op : FloatOrder) : Value → Value → Option Value
  | float f a, float g b => if f = g then some (bool (op.holds f a.toNat b.toNat)) else none
  | _, _ => none

end Value

def Term.eval (assign : Assignment) : Term → Option Value
  | const name sort => (assign name sort).filter (·.sort = sort)
  | bool value => some (.bool value)
  | bits width value => some (.bits width value)
  | float format pattern => some (.ofPattern format pattern.toNat)
  | not a =>
    match eval assign a with
    | some (.bool value) => some (.bool !value)
    | _ => none
  | and a b => do Value.bool2 Bool.and (← eval assign a) (← eval assign b)
  | or a b => do Value.bool2 Bool.or (← eval assign a) (← eval assign b)
  | xor a b => do Value.bool2 Bool.xor (← eval assign a) (← eval assign b)
  | equal a b => do return .bool (← Value.same (← eval assign a) (← eval assign b))
  | distinct a b => do return .bool !(← Value.same (← eval assign a) (← eval assign b))
  | bitsBinary op a b => do Value.bits2 op (← eval assign a) (← eval assign b)
  | bitsUnary op a =>
    match eval assign a with
    | some (.bits width value) => some (.bits width (op.apply value))
    | _ => none
  | bitsOrder op a b => do Value.bitsOrder op (← eval assign a) (← eval assign b)
  | zeroExtend extra a =>
    match eval assign a with
    | some (.bits width value) => some (.bits (width + extra) (value.setWidth (width + extra)))
    | _ => none
  | extract high low a =>
    match eval assign a with
    | some (.bits width value) =>
      if low ≤ high ∧ high < width then some (.bits (high - low + 1) (value.extractLsb' low _))
      else none
    | _ => none
  | floatBinary op mode a b => do
    Value.float2 op (← eval assign mode) (← eval assign a) (← eval assign b)
  | floatRem a b => do Value.floatRem (← eval assign a) (← eval assign b)
  | floatNeg a =>
    match eval assign a with
    | some (.float format pattern) => some (.ofPattern format (format.neg pattern.toNat))
    | _ => none
  | floatOrder op a b => do Value.floatOrder op (← eval assign a) (← eval assign b)

end CondSat.Solver
