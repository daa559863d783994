import CondSat.Ieee.Format

/-! # Rounding a quotient to a format

Every operation computes its exact result as a quotient of natural numbers and
rounds once.  The quotient is measured in units of the last place of its
binade, `scaledQuotient` rounds it to a whole number of units, and the whole
number together with the binade *is* the magnitude: a carry out of the
significand moves to the next binade by itself. -/
set_option autoImplicit false
namespace CondSat.Ieee

/-- Whether a positive or negative quotient with whole part `whole` and the
remainder `rest` of `divisor` is rounded away from zero. -/
def RoundingMode.roundsUp (mode : RoundingMode) (negative : Bool) (whole rest divisor : Nat) : Bool :=
  match mode with
  | .nearestEven => divisor < 2 * rest || (2 * rest == divisor && whole % 2 == 1)
  | .nearestAway => divisor ≤ 2 * rest
  | .towardPositive => rest != 0 && !negative
  | .towardNegative => rest != 0 && negative
  | .towardZero => false

def RoundingMode.quotient (mode : RoundingMode) (negative : Bool) (numerator divisor : Nat) : Nat :=
  let whole := numerator / divisor
  if mode.roundsUp negative whole (numerator % divisor) divisor then whole + 1 else whole

/-- `numerator / (divisor * base ^ exponent)` as a quotient of naturals. -/
def scaleDown (base : Nat) (exponent : Int) (numerator divisor : Nat) : Nat × Nat :=
  if 0 ≤ exponent then (numerator, divisor * Nat.pow base exponent.toNat)
  else (numerator * Nat.pow base (-exponent).toNat, divisor)

/-- The greatest `k` with `2 ^ k ≤ numerator / divisor`, both positive. -/
def floorLog2 (numerator divisor : Nat) : Int :=
  let guess : Int := numerator.log2 - divisor.log2
  let scaled := scaleDown 2 guess numerator divisor
  if scaled.2 ≤ scaled.1 then guess else guess - 1

namespace Format

variable (f : Format)

/-- The magnitude of a result that is past the largest finite number. -/
def overflowMagnitude (mode : RoundingMode) (negative : Bool) : Nat :=
  match mode with
  | .nearestEven | .nearestAway => f.infinity
  | .towardPositive => if negative then f.largest else f.infinity
  | .towardNegative => if negative then f.infinity else f.largest
  | .towardZero => f.largest

/-- The magnitude of `numerator / divisor` rounded to the format. -/
def roundMagnitude (mode : RoundingMode) (negative : Bool) (numerator divisor : Nat) : Nat :=
  if numerator = 0 then 0 else
    let unit := max f.leastExponent (floorLog2 numerator divisor - (f.precision - 1))
    let scaled := scaleDown 2 unit numerator divisor
    let magnitude := (unit - f.leastExponent).toNat * f.hiddenBit
      + mode.quotient negative scaled.1 scaled.2
    if magnitude < f.infinity then magnitude else f.overflowMagnitude mode negative

def ofRatio (mode : RoundingMode) (negative : Bool) (numerator divisor : Nat) : Nat :=
  f.withSign negative (f.roundMagnitude mode negative numerator divisor)

def ofScaled (mode : RoundingMode) (negative : Bool) (amount : Nat) (exponent : Int) : Nat :=
  let scaled := scaleDown 2 (-exponent) amount 1
  f.ofRatio mode negative scaled.1 scaled.2

def ofInt (mode : RoundingMode) (value : Int) : Nat :=
  f.ofRatio mode (value < 0) value.natAbs 1

def ratio (magnitude : Nat) : Nat × Nat :=
  scaleDown 2 (-f.exponent magnitude) (f.significand magnitude) 1

/-- A pattern of `f` as the nearest pattern of `g`.  A NaN stays a NaN of the
same sign, keeps the leading bits of its payload, and is made quiet. -/
def convert (g : Format) (pattern : Nat) : Nat :=
  let negative := f.isNegative pattern
  let magnitude := f.magnitude pattern
  if f.isNaN pattern then
    let payload := scaleDown 2 (f.precision - g.precision : Int) (magnitude - f.infinity) 1
    g.withSign negative (g.infinity + ((payload.1 / payload.2) ||| Word.count (g.precision - 2)))
  else if f.isInfinite pattern then g.withSign negative g.infinity
  else g.ofScaled .nearestEven negative (f.significand magnitude) (f.exponent magnitude)

end Format

end CondSat.Ieee
