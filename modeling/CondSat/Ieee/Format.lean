import CondSat.Word

/-! # Binary floating-point formats

A format is given by its exponent width and its precision (hidden bit
included).  A value is its bit pattern, a natural number below `2 ^ width`:
one sign bit above a *magnitude*.  Magnitudes are ordered like the values they
stand for, `infinity` is the least magnitude that is not finite, and every
magnitude above it is a NaN.

A finite magnitude `m` stands for `significand m * 2 ^ exponent m`; the least
binade is shared by the subnormal numbers, which is why `binade` is cut off at
zero. -/
set_option autoImplicit false
namespace CondSat.Ieee

inductive RoundingMode where
  | nearestEven
  | nearestAway
  | towardPositive
  | towardNegative
  | towardZero
  deriving DecidableEq, Repr, Inhabited

namespace RoundingMode

/-- Every mode, in the order in which a free mode is tried. -/
def all : List RoundingMode :=
  [nearestEven, nearestAway, towardPositive, towardNegative, towardZero]

def longName : RoundingMode → String
  | nearestEven => "roundNearestTiesToEven"
  | nearestAway => "roundNearestTiesToAway"
  | towardPositive => "roundTowardPositive"
  | towardNegative => "roundTowardNegative"
  | towardZero => "roundTowardZero"

def shortName : RoundingMode → String
  | nearestEven => "RNE"
  | nearestAway => "RNA"
  | towardPositive => "RTP"
  | towardNegative => "RTN"
  | towardZero => "RTZ"

def ofShortName? (name : String) : Option RoundingMode :=
  all.find? (·.shortName == name)

end RoundingMode

/-- A binary format: exponent bits, and significand bits with the hidden one. -/
structure Format where
  exponentBits : Nat
  precision : Nat
  deriving DecidableEq, Repr, Inhabited

namespace Format

def half : Format := ⟨5, 11⟩

def single : Format := ⟨8, 24⟩

def double : Format := ⟨11, 53⟩

variable (f : Format)

/-- Storage width: the hidden bit makes room for the sign. -/
def width : Nat := f.exponentBits + f.precision

def signBit : Nat := Word.count (f.width - 1)

def hiddenBit : Nat := Word.count (f.precision - 1)

def infinity : Nat := (Word.count f.exponentBits - 1) * f.hiddenBit

def largest : Nat := f.infinity - 1

/-- The pattern that stands for "not a number" where only one is wanted. -/
def quietNaN : Nat := f.infinity + Word.count (f.precision - 2)

/-- The exponent of the least positive number: subnormals count its multiples. -/
def leastExponent : Int := 3 - Word.count (f.exponentBits - 1) - f.precision

def isNegative (pattern : Nat) : Bool := f.signBit ≤ pattern

def magnitude (pattern : Nat) : Nat := pattern % f.signBit

def isNaN (pattern : Nat) : Bool := f.infinity < f.magnitude pattern

def isInfinite (pattern : Nat) : Bool := f.magnitude pattern == f.infinity

def isZero (pattern : Nat) : Bool := f.magnitude pattern == 0

def withSign (negative : Bool) (magnitude : Nat) : Nat :=
  if negative then f.signBit + magnitude else magnitude

/-- Which binade a finite magnitude lies in, the subnormals sharing the least. -/
def binade (magnitude : Nat) : Nat := magnitude / f.hiddenBit - 1

def significand (magnitude : Nat) : Nat := magnitude - f.binade magnitude * f.hiddenBit

def exponent (magnitude : Nat) : Int := f.leastExponent + f.binade magnitude

def biasedExponent (pattern : Nat) : Nat := f.magnitude pattern / f.hiddenBit

def fraction (pattern : Nat) : Nat := f.magnitude pattern % f.hiddenBit

def isSubnormal (pattern : Nat) : Bool :=
  f.magnitude pattern != 0 && f.magnitude pattern < f.hiddenBit

def ofFields (negative : Bool) (exponent fraction : Nat) : Nat :=
  (if negative then 1 else 0) <<< (f.width - 1) ||| exponent <<< (f.precision - 1) ||| fraction

/-- A number line without NaN: the two zeros share a place. -/
def place (pattern : Nat) : Int :=
  if f.isNegative pattern then -(f.magnitude pattern : Int) else f.magnitude pattern

/-- The one NaN that stands for all of them; other patterns are kept. -/
def canonical (pattern : Nat) : Nat := if f.isNaN pattern then f.quietNaN else pattern

end Format

end CondSat.Ieee
