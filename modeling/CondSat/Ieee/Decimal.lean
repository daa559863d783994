import CondSat.Ieee.Arithmetic
import CondSat.Text.Numeral

/-! # Decimal text of floating-point numbers

Reading rounds the exact decimal value once, to nearest with ties to even.
Writing picks the fewest significant digits that read back to the same number
and, of two such decimals, the nearer one, or the even one of two that are equally near;
the digits are laid out in
positional notation while the decimal exponent is from -4 to 15, and with an
exponent of at least two digits otherwise. -/
set_option autoImplicit false
namespace CondSat.Ieee

/-- A non-negative decimal number `digits * 10 ^ exponent`. -/
structure Decimal where
  digits : Nat
  exponent : Int
  deriving DecidableEq, Repr, Inhabited

def decimalLength (value : Nat) : Nat := (Nat.toDigits 10 value).length

/-- The greatest `k` with `10 ^ k ≤ numerator / divisor`, both positive. -/
def floorLog10 (numerator divisor : Nat) : Int :=
  if divisor ≤ numerator then decimalLength (numerator / divisor) - 1
  else -(decimalLength ((divisor - 1) / numerator) : Int)

namespace Decimal

def ratio (d : Decimal) : Nat × Nat := scaleDown 10 (-d.exponent) d.digits 1

def dropZeros : Nat → Decimal → Decimal
  | 0, d => d
  | fuel + 1, d =>
    if d.digits % 10 = 0 && d.digits != 0 then dropZeros fuel ⟨d.digits / 10, d.exponent + 1⟩ else d

def trimmed (d : Decimal) : Decimal := d.dropZeros (decimalLength d.digits)

def leadingExponent (d : Decimal) : Int := d.exponent + (decimalLength d.digits - 1 : Int)

def exponentText (exponent : Int) : String :=
  let digits := toString exponent.natAbs
  (if exponent < 0 then "-" else "+") ++ (if digits.length < 2 then "0" ++ digits else digits)

def isPositional (leading : Int) : Bool := -4 ≤ leading && leading < 16

def layout (d : Decimal) : String :=
  let d := d.trimmed
  let digits := toString d.digits
  let leading := d.leadingExponent
  if isPositional leading then
    if 0 ≤ d.exponent then digits ++ "".pushn '0' d.exponent.toNat ++ ".0"
    else if 0 ≤ leading then
      let whole := leading.toNat + 1
      String.ofList (digits.toList.take whole) ++ "." ++ String.ofList (digits.toList.drop whole)
    else "0." ++ "".pushn '0' (-leading - 1).toNat ++ digits
  else
    let tail := digits.toList.drop 1
    String.ofList (digits.toList.take 1) ++
      (if tail.isEmpty then "" else "." ++ String.ofList tail) ++ "e" ++ exponentText leading

end Decimal

namespace Format

variable (f : Format)

/-- How far a decimal point can move before every value is infinite or zero. -/
def decimalReach : Nat := Word.count f.exponentBits + f.precision

def ofDecimal (negative : Bool) (d : Decimal) : Nat :=
  let position : Int := decimalLength d.digits + d.exponent
  if d.digits = 0 || position < -f.decimalReach then f.withSign negative 0
  else if f.decimalReach < position then f.withSign negative f.infinity
  else f.ofRatio .nearestEven negative d.ratio.1 d.ratio.2

def ofText : Text.RealText → Nat
  | .nan negative => f.withSign negative f.quietNaN
  | .infinity negative => f.withSign negative f.infinity
  | .decimal negative digits exponent => f.ofDecimal negative ⟨digits, exponent⟩

/-- The two neighbours of `numerator / divisor` with `count` significant digits. -/
def neighbours (count numerator divisor : Nat) : Decimal × Decimal :=
  let exponent := floorLog10 numerator divisor - (count - 1 : Int)
  let scaled := scaleDown 10 exponent numerator divisor
  let below := scaled.1 / scaled.2
  (⟨below, exponent⟩, ⟨below + 1, exponent⟩)

/-- Whether the lower of the two neighbours is nearer, or as near and even. -/
def lowerIsNearer (count numerator divisor : Nat) : Bool :=
  let exponent := floorLog10 numerator divisor - (count - 1 : Int)
  let scaled := scaleDown 10 exponent numerator divisor
  2 * (scaled.1 % scaled.2) < scaled.2 ||
    2 * (scaled.1 % scaled.2) == scaled.2 && scaled.1 / scaled.2 % 2 == 0

/-- A decimal with `count` digits that reads back as the magnitude: of the neighbours
that do, the one to prefer. -/
def readableAt? (count magnitude : Nat) : Option Decimal :=
  let exact := f.ratio magnitude
  let (below, above) := neighbours count exact.1 exact.2
  let (first, second) := if lowerIsNearer count exact.1 exact.2 then (below, above) else (above, below)
  if f.ofDecimal false first = magnitude then some first
  else if f.ofDecimal false second = magnitude then some second
  else none

/-- Try `count`, `count + 1`, … digits, `tries` of them. -/
def shortestFrom (magnitude : Nat) : Nat → Nat → Option Decimal
  | 0, _ => none
  | tries + 1, count =>
    match f.readableAt? count magnitude with
    | some d => some d
    | none => shortestFrom magnitude tries (count + 1)

/-- Seventeen digits always suffice for the formats up to 64 bits. -/
def digitBound : Nat := 17

def shortest (magnitude : Nat) : Decimal :=
  (f.shortestFrom magnitude digitBound 1).getD
    (neighbours digitBound (f.ratio magnitude).1 (f.ratio magnitude).2).1

def text (pattern : Nat) : String :=
  let sign := if f.isNegative pattern then "-" else ""
  let magnitude := f.magnitude pattern
  if f.isNaN pattern then "nan"
  else if f.isInfinite pattern then sign ++ "inf"
  else if magnitude = 0 then sign ++ "0.0"
  else sign ++ (f.shortest magnitude).layout

end Format

def roundToDigits (count numerator divisor : Nat) : Decimal :=
  let exponent := floorLog10 numerator divisor - (count - 1 : Int)
  let scaled := scaleDown 10 exponent numerator divisor
  ⟨RoundingMode.nearestEven.quotient false scaled.1 scaled.2, exponent⟩

end CondSat.Ieee
