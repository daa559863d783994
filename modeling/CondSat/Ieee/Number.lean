import CondSat.Ieee.Decimal

/-! # Numbers and their patterns

Whole numbers of any size and 64-bit floating-point numbers are both accepted
where a real number is wanted.  A whole number is first rounded to 64 bits and
is refused when it lies beyond the largest of them. -/
set_option autoImplicit false
namespace CondSat.Ieee

/-- A number given as a whole number or by a 64-bit pattern. -/
inductive Number where
  | whole (value : Int)
  | real (pattern : Nat)
  deriving DecidableEq, Repr

inductive NumberFault where
  | tooLarge
  deriving DecidableEq, Repr

def NumberFault.message : NumberFault → String
  | tooLarge => "int too large to convert to float"

def storedFormat? : Nat → Option Format
  | 32 => some .single
  | 64 => some .double
  | _ => none

namespace Number

def toDouble : Number → Except NumberFault Nat
  | whole value =>
    let pattern := Format.double.ofInt .nearestEven value
    if Format.double.isInfinite pattern then .error .tooLarge else .ok pattern
  | real pattern => .ok pattern

/-- The pattern of the number in a format, rounded by way of 64 bits. -/
def toPattern (f : Format) (number : Number) : Except NumberFault Nat :=
  number.toDouble.map fun pattern => if f = .double then pattern else Format.double.convert f pattern

end Number

def widen (f : Format) (pattern : Nat) : Nat :=
  if f = .double then pattern else f.convert .double pattern

def widen? (f : Format) (bits : Int) : Option Nat :=
  if 0 ≤ bits ∧ bits < Word.count f.width then some (widen f bits.toNat) else none

/-- A 64-bit pattern rounded to 32 bits and widened again. -/
def roundToSingle (pattern : Nat) : Nat := widen .single (Format.double.convert .single pattern)

/-- The first of `count`, `count + 1`, … digits, `tries` of them, to which a
64-bit pattern can be rounded so that it reads back after rounding to 32 bits;
the result is the 64-bit pattern of the rounded decimal. -/
def readableSingle? (pattern : Nat) : Nat → Nat → Option Nat
  | 0, _ => none
  | tries + 1, count =>
    let f := Format.double
    let exact := f.ratio (f.magnitude pattern)
    let read := f.ofDecimal (f.isNegative pattern) (roundToDigits count exact.1 exact.2)
    if f.numEq (roundToSingle read) pattern then some read
    else readableSingle? pattern tries (count + 1)

/-- The shortest decimal text that reads back in 32 bits, else the text of the
64-bit number. -/
def singleText (pattern : Nat) : String :=
  let f := Format.double
  if f.infinity ≤ f.magnitude pattern || f.isZero pattern then f.text pattern
  else f.text ((readableSingle? pattern Format.digitBound 1).getD pattern)

/-- The shortest text of a number that reads back at a width; every width but
64 is treated as 32. -/
def Number.shortestText (number : Number) (width : Nat) : Except NumberFault String :=
  number.toDouble.map fun pattern =>
    match number with
    | whole value =>
      if width = 64 then toString value
      else
        let text := singleText pattern
        let exact := Format.double.ratio (Format.double.magnitude pattern)
        let reads := (readableSingle? pattern Format.digitBound 1).isSome || value == 0
        if exact.1 == value.natAbs * exact.2 && reads then text else toString value
    | real pattern => if width = 64 then Format.double.text pattern else singleText pattern

end CondSat.Ieee
