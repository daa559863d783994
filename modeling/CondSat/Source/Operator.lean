import CondSat.Source.Type

/-! # Predefined operators

Type resolution binds an operator node to one predefined operator: `+` alone
stands for a dozen of them.  A `Tag` names a predefined operator by what it
computes and on which operands; its `signature` gives the surface token, the
kind its operands are converted to, and the type of its result. -/
set_option autoImplicit false
namespace CondSat.Source

inductive IntegerType where
  | int | uint | long | ulong
  deriving DecidableEq, Repr

namespace IntegerType

def all : List IntegerType := [int, uint, long, ulong]

def kind : IntegerType → Kind
  | int => .int
  | uint => .uint
  | long => .long
  | ulong => .ulong

def suffix : IntegerType → String
  | int => "Int"
  | uint => "Uint"
  | long => "Long"
  | ulong => "Ulong"

def width : IntegerType → Nat
  | int | uint => 32
  | long | ulong => 64

def isSigned : IntegerType → Bool
  | int | long => true
  | uint | ulong => false

def type : IntegerType → SourceType
  | int => .int
  | uint => .uint
  | long => .long
  | ulong => .ulong

end IntegerType

inductive SignedType where
  | int | long
  deriving DecidableEq, Repr

def SignedType.toInteger : SignedType → IntegerType
  | .int => .int
  | .long => .long

inductive FloatType where
  | float | double
  deriving DecidableEq, Repr

namespace FloatType

def all : List FloatType := [float, double]

def kind : FloatType → Kind
  | float => .float
  | double => .double

def suffix : FloatType → String
  | float => "Float"
  | double => "Double"

def width : FloatType → Nat
  | float => 32
  | double => 64

def type : FloatType → SourceType
  | float => .float
  | double => .double

end FloatType

/-- Operators on two truth values; the last two evaluate the right one on demand. -/
inductive Connective where
  | equal | unequal | and | or | xor | andAlso | orElse
  deriving DecidableEq, Repr

namespace Connective

def all : List Connective := [equal, unequal, and, or, xor, andAlso, orElse]

def name : Connective → String
  | equal => "Equality"
  | unequal => "Inequality"
  | and => "LogicalAnd"
  | or => "LogicalOr"
  | xor => "LogicalXor"
  | andAlso => "ConditionalLogicalAndAlso"
  | orElse => "ConditionalLogicalOrElse"

def token : Connective → String
  | equal => "=="
  | unequal => "!="
  | and => "&"
  | or => "|"
  | xor => "^"
  | andAlso => "&&"
  | orElse => "||"

end Connective

inductive Arithmetic where
  | plus | minus | times | divide | remainder
  deriving DecidableEq, Repr

namespace Arithmetic

def all : List Arithmetic := [plus, minus, times, divide, remainder]

def name : Arithmetic → String
  | plus => "Plus"
  | minus => "Minus"
  | times => "Multiplication"
  | divide => "Division"
  | remainder => "Remainder"

def token : Arithmetic → String
  | plus => "+"
  | minus => "-"
  | times => "*"
  | divide => "/"
  | remainder => "%"

end Arithmetic

inductive Bitwise where
  | and | or | xor
  deriving DecidableEq, Repr

namespace Bitwise

def all : List Bitwise := [and, or, xor]

def name : Bitwise → String
  | and => "LogicalAnd"
  | or => "LogicalOr"
  | xor => "LogicalXor"

def token : Bitwise → String
  | and => "&"
  | or => "|"
  | xor => "^"

end Bitwise

inductive Shift where
  | left | right
  deriving DecidableEq, Repr

namespace Shift

def all : List Shift := [left, right]

def name : Shift → String
  | left => "LeftShift"
  | right => "RightShift"

def token : Shift → String
  | left => "<<"
  | right => ">>"

end Shift

inductive Comparison where
  | equal | unequal | greater | greaterEqual | less | lessEqual
  deriving DecidableEq, Repr

namespace Comparison

def all : List Comparison := [equal, unequal, greater, greaterEqual, less, lessEqual]

def name : Comparison → String
  | equal => "Equality"
  | unequal => "Inequality"
  | greater => "Greater"
  | greaterEqual => "GreaterEquality"
  | less => "Less"
  | lessEqual => "LessEquality"

def token : Comparison → String
  | equal => "=="
  | unequal => "!="
  | greater => ">"
  | greaterEqual => ">="
  | less => "<"
  | lessEqual => "<="

end Comparison

inductive Unmodelled where
  | equalDecimal | unequalDecimal | greaterDecimal | lessDecimal
  | equalDelegate | unequalDelegate
  | equalNullable | unequalNullable
  | equalString | unequalString
  | equalReference | unequalReference
  | addDecimal | subtractDecimal | concatenate
  | minusDecimal | plusDecimal
  deriving DecidableEq, Repr

/-- Token, operand kind and result type of a predefined operator.  For shifts
the operand kind is that of the left operand; the count is an `int`. -/
structure Signature where
  token : String
  operand : Kind
  result : SourceType
  deriving DecidableEq, Repr

namespace Unmodelled

def binary : List Unmodelled :=
  [equalDecimal, unequalDecimal, greaterDecimal, lessDecimal, equalDelegate, unequalDelegate,
   equalNullable, unequalNullable, equalString, unequalString, equalReference, unequalReference,
   addDecimal, subtractDecimal, concatenate]

def isUnary : Unmodelled → Bool
  | minusDecimal | plusDecimal => true
  | _ => false

def name : Unmodelled → String
  | equalDecimal => "BinaryEqualityDecimal"
  | unequalDecimal => "BinaryInequalityDecimal"
  | greaterDecimal => "BinaryGreaterDecimal"
  | lessDecimal => "BinaryLessDecimal"
  | equalDelegate => "BinaryEqualityDelegate"
  | unequalDelegate => "BinaryInequalityDelegate"
  | equalNullable => "BinaryEqualityNullable"
  | unequalNullable => "BinaryInequalityNullable"
  | equalString => "BinaryEqualityString"
  | unequalString => "BinaryInequalityString"
  | equalReference => "BinaryEqualityReference"
  | unequalReference => "BinaryInequalityReference"
  | addDecimal => "BinaryPlusDecimal"
  | subtractDecimal => "BinaryMinusDecimal"
  | concatenate => "BinaryPlusString"
  | minusDecimal => "UnaryMinusDecimal"
  | plusDecimal => "UnaryPlusDecimal"

def signature : Unmodelled → Signature
  | equalDecimal => ⟨"==", .decimal, .bool⟩
  | unequalDecimal => ⟨"!=", .decimal, .bool⟩
  | greaterDecimal => ⟨">", .decimal, .bool⟩
  | lessDecimal => ⟨"<", .decimal, .bool⟩
  | equalDelegate | equalNullable | equalReference => ⟨"==", .other, .bool⟩
  | unequalDelegate | unequalNullable | unequalReference => ⟨"!=", .other, .bool⟩
  | equalString => ⟨"==", .string, .bool⟩
  | unequalString => ⟨"!=", .string, .bool⟩
  | addDecimal => ⟨"+", .decimal, .decimal⟩
  | subtractDecimal => ⟨"-", .decimal, .decimal⟩
  | concatenate => ⟨"+", .string, .string⟩
  | minusDecimal => ⟨"-", .decimal, .decimal⟩
  | plusDecimal => ⟨"+", .decimal, .decimal⟩

end Unmodelled

inductive Tag where
  | connective (op : Connective)
  | arithmetic (op : Arithmetic) (type : IntegerType)
  | bitwise (op : Bitwise) (type : IntegerType)
  | shift (op : Shift) (type : IntegerType)
  | comparison (op : Comparison) (type : IntegerType)
  | floatArithmetic (op : Arithmetic) (type : FloatType)
  | floatComparison (op : Comparison) (type : FloatType)
  | enumEqual
  | enumUnequal
  | complement (type : IntegerType)
  | negation
  | minus (type : SignedType)
  | floatMinus (type : FloatType)
  | plus (type : IntegerType)
  | floatPlus (type : FloatType)
  | unmodelled (op : Unmodelled)
  deriving DecidableEq, Repr

namespace Tag

def all : List Tag :=
  Connective.all.map connective ++
  Arithmetic.all.flatMap (fun op => IntegerType.all.map (arithmetic op)) ++
  Bitwise.all.flatMap (fun op => IntegerType.all.map (bitwise op)) ++
  Shift.all.flatMap (fun op => IntegerType.all.map (shift op)) ++
  Comparison.all.flatMap (fun op => IntegerType.all.map (comparison op)) ++
  Arithmetic.all.flatMap (fun op => FloatType.all.map (floatArithmetic op)) ++
  Comparison.all.flatMap (fun op => FloatType.all.map (floatComparison op)) ++
  [enumEqual, enumUnequal] ++
  Unmodelled.binary.map unmodelled ++
  IntegerType.all.map complement ++
  [negation, minus .int, minus .long] ++
  FloatType.all.map floatMinus ++
  [unmodelled .minusDecimal] ++
  IntegerType.all.map plus ++
  FloatType.all.map floatPlus ++
  [unmodelled .plusDecimal]

def name : Tag → String
  | connective op => "Binary" ++ op.name ++ "Bool"
  | arithmetic op type => "Binary" ++ op.name ++ type.suffix
  | bitwise op type => "Binary" ++ op.name ++ type.suffix
  | shift op type => "Binary" ++ op.name ++ type.suffix
  | comparison op type => "Binary" ++ op.name ++ type.suffix
  | floatArithmetic op type => "Binary" ++ op.name ++ type.suffix
  | floatComparison op type => "Binary" ++ op.name ++ type.suffix
  | enumEqual => "BinaryEqualityEnum"
  | enumUnequal => "BinaryInequalityEnum"
  | complement type => "UnaryBitwiseComplement" ++ type.suffix
  | negation => "UnaryLogicalNegation"
  | minus type => "UnaryMinus" ++ type.toInteger.suffix
  | floatMinus type => "UnaryMinus" ++ type.suffix
  | plus type => "UnaryPlus" ++ type.suffix
  | floatPlus type => "UnaryPlus" ++ type.suffix
  | unmodelled op => op.name

def ofName? (text : String) : Option Tag := all.find? (·.name == text)

def isUnary : Tag → Bool
  | complement _ | negation | minus _ | floatMinus _ | plus _ | floatPlus _ => true
  | unmodelled op => op.isUnary
  | _ => false

def signature : Tag → Signature
  | connective op => ⟨op.token, .bool, .bool⟩
  | arithmetic op type => ⟨op.token, type.kind, type.type⟩
  | bitwise op type => ⟨op.token, type.kind, type.type⟩
  | shift op type => ⟨op.token, type.kind, type.type⟩
  | comparison op type => ⟨op.token, type.kind, .bool⟩
  | floatArithmetic op type => ⟨op.token, type.kind, type.type⟩
  | floatComparison op type => ⟨op.token, type.kind, .bool⟩
  | enumEqual => ⟨"==", .enum, .bool⟩
  | enumUnequal => ⟨"!=", .enum, .bool⟩
  | complement type => ⟨"~", type.kind, type.type⟩
  | negation => ⟨"!", .bool, .bool⟩
  | minus type => ⟨"-", type.toInteger.kind, type.toInteger.type⟩
  | floatMinus type => ⟨"-", type.kind, type.type⟩
  | plus type => ⟨"+", type.kind, type.type⟩
  | floatPlus type => ⟨"+", type.kind, type.type⟩
  | unmodelled op => op.signature

def token (tag : Tag) : String := tag.signature.token

/-- The predefined operator for a token applied to operands of a kind.  The
operators on delegates, nullables and references share a kind and are never
found this way. -/
def find? (token : String) (operand : Kind) (unary : Bool) : Option Tag :=
  if operand = .other then none
  else all.find? fun tag =>
    tag.isUnary == unary && tag.token == token && tag.signature.operand == operand

end Tag

/-- An operator declaration as type resolution reports it.  It has no tag when
it is defined by the user or not in the catalogue. -/
structure Operator where
  name : String
  returnType : SourceType
  tag : Option Tag
  isPredefined : Bool
  deriving DecidableEq, Repr

def Operator.predefined (tag : Tag) : Operator := ⟨tag.name, tag.signature.result, some tag, true⟩

inductive Resolution where
  | resolved (operator : Operator)
  | ambiguous
  | unresolved
  deriving DecidableEq, Repr

namespace Resolution

def ofTag (tag : Tag) : Resolution := .resolved (.predefined tag)

def status : Resolution → String
  | resolved _ => "ok"
  | ambiguous => "ambiguous"
  | unresolved => "unresolved"

def operator? : Resolution → Option Operator
  | resolved operator => some operator
  | _ => none

def predefined? (resolution : Resolution) : Option Operator :=
  resolution.operator?.filter (·.isPredefined)

end Resolution

end CondSat.Source
