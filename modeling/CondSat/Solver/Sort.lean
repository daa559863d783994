import CondSat.Ieee.Format

/-! # Sorts of solver terms

Formulas are built over truth values, bit-vectors, floating-point numbers and
rounding modes.  The solver also knows the integers and the reals; terms of
these sorts have no place in a formula of ours. -/
set_option autoImplicit false
namespace CondSat.Solver

inductive ValueSort where
  | bool
  | bits (width : Nat)
  | float (format : Ieee.Format)
  | roundingMode
  | integer
  | real
  deriving DecidableEq, Repr, Inhabited

inductive SortKind where
  | bool
  | bitVec
  | floatingPoint
  | roundingMode
  deriving DecidableEq, Repr

def SortKind.name : SortKind → String
  | bool => "Bool"
  | bitVec => "BitVec"
  | floatingPoint => "FloatingPoint"
  | roundingMode => "RoundingMode"

namespace ValueSort

def kind? : ValueSort → Option SortKind
  | bool => some .bool
  | bits _ => some .bitVec
  | float _ => some .floatingPoint
  | roundingMode => some .roundingMode
  | integer | real => none

def describe : ValueSort → String
  | bool => "Bool"
  | bits width => s!"BitVec({width})"
  | float format => s!"FP({format.exponentBits}, {format.precision})"
  | roundingMode => "RoundingMode"
  | integer => "Int"
  | real => "Real"

def width? : ValueSort → Option Nat
  | bits width => some width
  | _ => none

end ValueSort

end CondSat.Solver
