import CondSat.Ieee.Rounding

/-! # Floating-point arithmetic and comparison

Each operation treats NaN, the infinities and the zeros first and otherwise
rounds the exact result once.  Comparisons follow the number line `place`, on
which the two zeros coincide, and are false as soon as an operand is a NaN. -/
set_option autoImplicit false
namespace CondSat.Ieee.Format

variable (f : Format)

def unitsAt (exponent : Int) (pattern : Nat) : Int :=
  let magnitude := f.magnitude pattern
  let units : Int := 
    f.significand magnitude * Word.count (f.exponent magnitude - exponent).toNat
  if f.isNegative pattern then -units else units

/-- The sign of an exact zero sum: kept when both operands agree, otherwise
negative only when rounding downward. -/
def zeroSumSign (mode : RoundingMode) (left right : Bool) : Bool :=
  if left == right then left else mode == .towardNegative

def add (mode : RoundingMode) (left right : Nat) : Nat :=
  if f.isNaN left || f.isNaN right then f.quietNaN
  else if f.isInfinite left then
    if f.isInfinite right && f.isNegative left != f.isNegative right then f.quietNaN else left
  else if f.isInfinite right then right
  else
    let exponent := min (f.exponent (f.magnitude left)) (f.exponent (f.magnitude right))
    let sum := f.unitsAt exponent left + f.unitsAt exponent right
    if sum = 0 then f.withSign (zeroSumSign mode (f.isNegative left) (f.isNegative right)) 0
    else f.ofScaled mode (sum < 0) sum.natAbs exponent

def neg (pattern : Nat) : Nat :=
  if f.isNaN pattern then f.quietNaN else f.withSign (!f.isNegative pattern) (f.magnitude pattern)

def sub (mode : RoundingMode) (left right : Nat) : Nat := f.add mode left (f.neg right)

def mul (mode : RoundingMode) (left right : Nat) : Nat :=
  let negative := f.isNegative left != f.isNegative right
  if f.isNaN left || f.isNaN right then f.quietNaN
  else if f.isInfinite left || f.isInfinite right then
    if f.isZero left || f.isZero right then f.quietNaN else f.withSign negative f.infinity
  else
    let l := f.magnitude left
    let r := f.magnitude right
    f.ofScaled mode negative (f.significand l * f.significand r) (f.exponent l + f.exponent r)

def div (mode : RoundingMode) (left right : Nat) : Nat :=
  let negative := f.isNegative left != f.isNegative right
  if f.isNaN left || f.isNaN right then f.quietNaN
  else if f.isInfinite left then
    if f.isInfinite right then f.quietNaN else f.withSign negative f.infinity
  else if f.isInfinite right then f.withSign negative 0
  else if f.isZero right then
    if f.isZero left then f.quietNaN else f.withSign negative f.infinity
  else
    let l := f.magnitude left
    let r := f.magnitude right
    let scaled := scaleDown 2 (f.exponent r - f.exponent l) (f.significand l) (f.significand r)
    f.ofRatio mode negative scaled.1 scaled.2

/-- The remainder `left - right * n` for the integer `n` nearest to the
quotient, the even one of two equally near. -/
def rem (left right : Nat) : Nat :=
  if f.isNaN left || f.isNaN right || f.isInfinite left || f.isZero right then f.quietNaN
  else if f.isInfinite right || f.isZero left then left
  else
    let exponent := min (f.exponent (f.magnitude left)) (f.exponent (f.magnitude right))
    let dividend := (f.unitsAt exponent left).natAbs
    let divisor := (f.unitsAt exponent right).natAbs
    let times := RoundingMode.nearestEven.quotient false dividend divisor
    let rest : Int := dividend - divisor * times
    let negative := if rest < 0 then !f.isNegative left else f.isNegative left
    f.ofScaled .nearestEven negative rest.natAbs exponent

/-- Equality of numbers: the zeros are equal, a NaN equals nothing. -/
def numEq (left right : Nat) : Bool :=
  !f.isNaN left && !f.isNaN right && f.place left == f.place right

def numLt (left right : Nat) : Bool :=
  !f.isNaN left && !f.isNaN right && f.place left < f.place right

def numLe (left right : Nat) : Bool :=
  !f.isNaN left && !f.isNaN right && f.place left ≤ f.place right

end CondSat.Ieee.Format
