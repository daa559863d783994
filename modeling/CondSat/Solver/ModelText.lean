import CondSat.Solver.Decide

/-! # Text of models

A model is shown as a block of constants, one a line, and a dump.  The block
lists the declared constants in the order of their declaration, then whatever
else the model defines by name; it is left out when there is nothing to list. -/
set_option autoImplicit false
namespace CondSat.Solver

open Ieee (Format)

def distinctNames : List Constant → List String → List Constant
  | [], _ => []
  | constant :: rest, seen =>
    if seen.contains constant.1 then distinctNames rest seen
    else constant :: distinctNames rest (constant.1 :: seen)

def byName (constants : List Constant) : List Constant :=
  constants.mergeSort fun a b => a.1 ≤ b.1

/-- The constants to list, each name once: declared ones first, then those the
model defines. -/
def listed (declared : List Constant) (model : Model) : List Constant :=
  distinctNames (declared ++ byName (model.map (·.1))) []

def Model.entries (model : Model) (declared : List Constant) : List (String × Value) :=
  (listed declared model).filterMap fun constant =>
    (model.assignment constant.1 constant.2).map (constant.1, ·)

def entryText (entry : String × Value) : String := entry.1 ++ " = " ++ entry.2.text

def binaryFraction : Nat → Nat → Nat → String
  | 0, _, _ => ""
  | fuel + 1, rest, one =>
    if rest = 0 then ""
    else toString (10 * rest / one) ++ binaryFraction fuel (10 * rest % one) one

/-- A floating-point value in a dump: its significand in decimal, times a
power of two. -/
def dumpFloat (format : Format) (pattern : Nat) : String :=
  let sign := if format.isNegative pattern then "-" else ""
  let magnitude := format.magnitude pattern
  if format.isNaN pattern then "NaN"
  else if format.isInfinite pattern then if format.isNegative pattern then "-oo" else "+oo"
  else if magnitude = 0 then if format.isNegative pattern then "-0.0" else "+0.0"
  else
    let significand := format.significand magnitude
    let fraction := binaryFraction format.precision (significand % format.hiddenBit) format.hiddenBit
    let exponent := format.exponent magnitude + (format.precision - 1 : Int)
    sign ++ toString (significand / format.hiddenBit) ++
      (if fraction.isEmpty then "" else "." ++ fraction) ++
      (if exponent = 0 then "" else "*(2**" ++ toString exponent ++ ")")

def dumpValue : Value → String
  | .float format pattern => dumpFloat format pattern.toNat
  | .mode mode => mode.shortName ++ "()"
  | value => value.text

def Model.dump (model : Model) : String :=
  "[" ++ ", ".intercalate (model.map fun entry => entry.1.1 ++ " = " ++ dumpValue entry.2) ++ "]"

def Model.text (model : Model) (declared : List Constant) : String :=
  let lines := (model.entries declared).map entryText
  let block := if lines.isEmpty then [] else "CONSTANTS:" :: lines ++ [""]
  "\n".intercalate (block ++ ["MODEL:", model.dump])

end CondSat.Solver
