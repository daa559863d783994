import CondSat.Source.Operator

/-! # Operator selection

Which predefined operator a token means, given the types of its operands.
Narrow integral operands are promoted to `int`; two numeric operands meet at
the smallest kind of the catalogue that holds both; shifts look at their left
operand alone.  Where no operator applies, the fault names the token and the
types. -/
set_option autoImplicit false
namespace CondSat.Source

inductive ResolutionFault where
  | oneOperand (token : String) (operand : SourceType)
  | twoOperands (token : String) (left right : SourceType)
  deriving DecidableEq, Repr

def ResolutionFault.message : ResolutionFault → String
  | oneOperand token operand =>
    "Operator '" ++ token ++ "' cannot be applied to operand of type '" ++ operand.name ++ "'"
  | twoOperands token left right =>
    "Operator '" ++ token ++ "' cannot be applied to operands of type '" ++ left.name ++
      "' and '" ++ right.name ++ "'"

namespace Kind

def isNarrow : Kind → Bool
  | sbyte | byte | short | ushort | char => true
  | _ => false

/-- Arithmetic takes a narrow operand as an `int`. -/
def promoted (kind : Kind) : Kind := if kind.isNarrow then .int else kind

/-- The kind two numeric operands meet at.  There is none for a `decimal` and a
binary floating kind, nor for `ulong` and a signed kind. -/
def common? (left right : Kind) : Option Kind :=
  let has (kind : Kind) : Bool := left == kind || right == kind
  let hasSigned : Bool := left.isSigned || right.isSigned
  if has .decimal then if has .float || has .double then none else some .decimal
  else if has .double then some .double
  else if has .float then some .float
  else if has .ulong then if hasSigned then none else some .ulong
  else if has .long then some .long
  else if has .uint then if hasSigned then some .long else some .uint
  else some .int

end Kind

def shiftTokens : List String := Shift.all.map Shift.token

def booleanTokens : List String := Connective.all.map Connective.token

def equalityTokens : List String := ["==", "!="]

def binaryKind? (token : String) (left right : SourceType) : Option Kind :=
  if shiftTokens.contains token then
    if left.kind.promoted.isIntegral && right.kind.promoted == .int then some left.kind.promoted
    else none
  else if left.isBool || right.isBool then
    if left.kind = right.kind ∧ booleanTokens.contains token then some .bool else none
  else if left.isEnum || right.isEnum then
    if left = right ∧ equalityTokens.contains token then some .enum else none
  else if left.kind == .string || right.kind == .string then
    if token = "+" ∨ (left.kind = right.kind ∧ equalityTokens.contains token) then some .string
    else none
  else if left.kind.isNumeric && right.kind.isNumeric then left.kind.common? right.kind
  else none

/-- The kind of operand of the operator a token means before a type.  There is
no minus on `uint`: its operand is taken as a `long`. -/
def unaryKind? (token : String) (operand : SourceType) : Option Kind :=
  if token = "!" then if operand.isBool then some .bool else none
  else if !operand.kind.isNumeric then none
  else if token = "-" ∧ operand.kind = .uint then some .long
  else some operand.kind.promoted

def binaryKind (token : String) (left right : SourceType) : Except ResolutionFault Kind :=
  match binaryKind? token left right with
  | some kind => .ok kind
  | none => .error (.twoOperands token left right)

def unaryKind (token : String) (operand : SourceType) : Except ResolutionFault Kind :=
  match unaryKind? token operand with
  | some kind => .ok kind
  | none => .error (.oneOperand token operand)

def binaryTag (token : String) (left right : SourceType) : Except ResolutionFault Tag := do
  let kind ← binaryKind token left right
  match Tag.find? token kind false with
  | some tag => .ok tag
  | none => .error (.twoOperands token left right)

def unaryTag (token : String) (operand : SourceType) : Except ResolutionFault Tag := do
  let kind ← unaryKind token operand
  match Tag.find? token kind true with
  | some tag => .ok tag
  | none => .error (.oneOperand token operand)

end CondSat.Source
