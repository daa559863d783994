import CondSat.Source.Expr

/-! # Literals

The type an unmarked literal gets from its value, and how a literal is written
in source text. -/
set_option autoImplicit false
namespace CondSat.Source

def IntegerType.contains (type : IntegerType) (value : Int) : Bool :=
  match type with
  | .int => -Word.count 31 ≤ value && value < Word.count 31
  | .uint => 0 ≤ value && value < Word.count 32
  | .long => -Word.count 63 ≤ value && value < Word.count 63
  | .ulong => 0 ≤ value && value < Word.count 64

inductive LiteralFault where
  | outOfRange (value : Int)
  | notAScalar (value : Json)
  deriving DecidableEq, Repr

def LiteralFault.message : LiteralFault → String
  | outOfRange value => s!"integral literal out of range: {value}"
  | notAScalar value => "no literal type for " ++ value.quoted

/-- The first of `int`, `uint`, `long` and `ulong` that contains a whole number. -/
def IntegerType.ofValue? (value : Int) : Option IntegerType :=
  IntegerType.all.find? (·.contains value)

def literalType (value : Json) : Except LiteralFault SourceType :=
  match value with
  | .bool _ => .ok .bool
  | .int value =>
    match IntegerType.ofValue? value with
    | some type => .ok type.type
    | none => .error (.outOfRange value)
  | .float _ => .ok .double
  | .str _ | .torn _ => .ok .string
  | .null => .ok .null
  | .arr _ | .obj _ => .error (.notAScalar value)

def literalSuffix : Kind → String
  | .uint => "u"
  | .long => "L"
  | .ulong => "UL"
  | .float => "f"
  | _ => ""

def literalText (value : Json) (type : SourceType) : Json :=
  match type.kind, value with
  | .bool, _ => .str (if value.isTruthy then "true" else "false")
  | .char, .str _ | .char, .torn _ => .str "'" ++ value ++ .str "'"
  | .string, _ => .str "\"" ++ value ++ .str "\""
  | _, .null => .str "null"
  | kind, _ => value ++ .str (literalSuffix kind)

def Expr.ofLiteral (value : Json) (type : SourceType) : Expr :=
  .literal ⟨value, type.valueKind⟩ type (literalText value type)

end CondSat.Source
