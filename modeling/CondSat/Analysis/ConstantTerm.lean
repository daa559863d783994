import CondSat.Analysis.Session

/-! # Constants as terms

A constant becomes a numeral of the sort of its kind: whole numbers by their
bit pattern at the width of the kind, characters also by their code point, and
floating-point numbers by their exact pattern.  A value that does not belong
to the kind has no term. -/
set_option autoImplicit false
namespace CondSat.Analysis

open Source (Constant Kind)
open Solver (Term)

def bitsNumeral (width : Nat) (value : Int) : TypedTerm :=
  ⟨.bits width (BitVec.ofInt width value), .bits width⟩

/-- A pattern as a floating-point numeral; all NaNs are one. -/
def floatNumeral (format : Ieee.Format) (pattern : Nat) : TypedTerm :=
  ⟨.float format (BitVec.ofNat _ (format.canonical pattern)), .float format⟩

def number? : Json → Option Ieee.Number
  | .int value => some (.whole value)
  | .float pattern => some (.real pattern.toNat)
  | _ => none

/-- The whole number a value stands for at an integral kind.  A character is its code
point, and half a surrogate pair its unit. -/
def whole? (kind : Kind) : Json → Option Int
  | .int value => some value
  | .str text =>
    match kind, text.toList with
    | .char, [c] => some c.toNat
    | _, _ => none
  | .torn text =>
    match kind, text.marks with
    | .char, [mark] => some mark.code
    | _, _ => none
  | _ => none

def floatConstant (format : Ieee.Format) (value : Json) : Except Failure (Option TypedTerm) :=
  match number? value with
  | none => .ok none
  | some number =>
    match number.toPattern format with
    | .ok pattern => .ok (some (floatNumeral format pattern))
    | .error fault => .error (.number fault)

def encodeConstant (value : Json) (kind : Kind) : Except Failure (Option TypedTerm × List Event) :=
  match kind with
  | .bool =>
    match value with
    | .bool b => .ok (some ⟨.bool b, .bool⟩, [])
    | _ => .ok (none, [])
  | .float => (floatConstant .single value).map (·, [])
  | .double => (floatConstant .double value).map (·, [])
  | _ =>
    match kind.integralWidth? with
    | some width => .ok ((whole? kind value).map (bitsNumeral width), [])
    | none => .ok (none, [.noEncoding value kind])

def constantTerm : Option Constant → Build (Option TypedTerm)
  | none => pure none
  | some constant =>
    match encodeConstant constant.value constant.kind with
    | .error failure => throw failure
    | .ok (term, events) => do
      Build.report events
      pure term

end CondSat.Analysis
