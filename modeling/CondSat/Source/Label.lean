import CondSat.Json.Display

/-! # Labels

Declarations are looked up by ids and unknowns by texts, and a document may put any
value where an id, a name or a text is wanted.  Scalars can be looked up, and numbers by
their value, whatever they are written as; truth values count as numbers. -/
set_option autoImplicit false
namespace CondSat.Source

/-- The whole number a value equals, if it equals one. -/
def wholeValue? : Json → Option Int
  | .int value => some value
  | .bool value => some (if value then 1 else 0)
  | .float pattern =>
    let f := Ieee.Format.double
    if f.infinity ≤ f.magnitude pattern.toNat then none
    else
      let exact := f.ratio (f.magnitude pattern.toNat)
      if exact.1 % exact.2 ≠ 0 then none
      else some (if f.isNegative pattern.toNat then -(exact.1 / exact.2 : Nat)
        else (exact.1 / exact.2 : Nat))
  | _ => none

/-- What a value is looked up as: equal numbers are one label. -/
def lookupForm (value : Json) : Json := (wholeValue? value).elim value .int

@[simp] theorem lookupForm_str (text : String) : lookupForm (.str text) = .str text := rfl

/-- Lists and objects cannot be looked up. -/
def isLookupKey : Json → Bool
  | .arr _ | .obj _ => false
  | _ => true

def isTorn : Json → Bool
  | .torn _ => true
  | _ => false

/-- Values that fare alike where a text is wanted. -/
def FareAlike (text text' : Json) : Prop :=
  isLookupKey text = isLookupKey text' ∧ isTorn text = isTorn text'

end CondSat.Source
