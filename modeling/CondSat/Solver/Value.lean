import CondSat.Ieee.Number
import CondSat.Solver.Sort

/-! # Values of solver terms -/
set_option autoImplicit false
namespace CondSat.Solver

open Ieee (Format RoundingMode)

/-- A value of a formula's sort.  A floating-point value is its pattern. -/
inductive Value where
  | bool (value : Bool)
  | bits (width : Nat) (value : BitVec width)
  | float (format : Format) (pattern : BitVec format.width)
  | mode (mode : RoundingMode)
  deriving DecidableEq, Repr

namespace Value

def sort : Value → ValueSort
  | bool _ => .bool
  | bits width _ => .bits width
  | float format _ => .float format
  | mode _ => .roundingMode

/-- The floating-point value of a pattern; all NaNs are one value. -/
def ofPattern (format : Format) (pattern : Nat) : Value :=
  .float format (BitVec.ofNat _ (format.canonical pattern))

def binaryText (count value : Nat) : String :=
  let digits := Nat.toDigits 2 value
  "#b" ++ String.ofList (List.replicate (count - digits.length) '0' ++ digits)

/-- The text of a floating-point value: fixed spellings for the special ones; the
others are put together again from their fields and shown by the shortest decimal
at their width.  A format that has no stored width is shown by its three fields. -/
def floatText (format : Format) (pattern : Nat) : String :=
  let negative := format.isNegative pattern
  if format.isNaN pattern then "NaN"
  else if format.isInfinite pattern then if negative then "-oo" else "+oo"
  else if format.isZero pattern then if negative then "-0" else "0.0"
  else
    let exponent := if format.isSubnormal pattern then 0 else format.biasedExponent pattern
    let rebuilt := format.ofFields negative exponent (format.fraction pattern)
    if format = .double then Format.double.text rebuilt
    else if format = .single then Ieee.singleText (Ieee.widen .single rebuilt)
    else
      "(fp " ++ binaryText 1 (if negative then 1 else 0) ++ " " ++
        binaryText format.exponentBits exponent ++ " " ++
        binaryText (format.precision - 1) (format.fraction pattern) ++ ")"

def text : Value → String
  | bool value => if value then "True" else "False"
  | bits _ value => toString value.toNat
  | float format pattern => floatText format pattern.toNat
  | mode direction => direction.longName

/-- The value of a constant the model leaves open. -/
def default? : ValueSort → Option Value
  | .bool => some (.bool false)
  | .bits width => some (.bits width 0)
  | .float format => some (.ofPattern format format.quietNaN)
  | .roundingMode => some (.mode .nearestEven)
  | .integer | .real => none

end Value

end CondSat.Solver
