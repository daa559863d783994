import CondSat.Text.Quoted

/-! # Torn texts

A text is a sequence of characters.  Documents write characters by the units of
UTF-16, and the half of a surrogate pair that stands alone is no character: a text
with such a half in it is torn.  It can be kept, compared and shown, and no
encoding writes it out. -/
set_option autoImplicit false
namespace CondSat.Text

inductive Mark where
  | char (c : Char)
  /-- The unit `0xd800 + offset` without its other half. -/
  | half (offset : Fin 0x800)
  deriving DecidableEq, Repr

namespace Mark

def isHalf : Mark → Bool
  | char _ => false
  | half _ => true

/-- The code point of a character, and the unit of a half. -/
def code : Mark → Nat
  | char c => c.toNat
  | half offset => 0xd800 + offset

/-- A code unit; the halves of pairs are no characters. -/
def ofUnit (unit : Nat) : Mark :=
  if h : 0xd800 ≤ unit ∧ unit < 0xe000 then half ⟨unit - 0xd800, by omega⟩
  else char (Char.ofNat unit)

/-- A mark written with characters only: a half by its unit. -/
def spelled : Mark → List Char
  | char c => [c]
  | half offset => '\\' :: 'u' :: (hexDigits 4 (half offset).code).toList

def quoted (quote : Char) : Mark → List Char
  | char c => quotedChar quote c
  | half offset => (half offset).spelled

end Mark

structure Torn where
  marks : List Mark
  torn : marks.any Mark.isHalf = true
  deriving DecidableEq, Repr

namespace Torn

def spelled (text : Torn) : String := String.ofList (text.marks.flatMap Mark.spelled)

def quoted (text : Torn) : String :=
  let quote := quoteFor (text.marks.filterMap fun
    | .char c => some c
    | .half _ => none)
  String.ofList (quote :: text.marks.flatMap (Mark.quoted quote) ++ [quote])

end Torn

end CondSat.Text
