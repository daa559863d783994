import CondSat.Ieee.Number
import CondSat.Source.Literal
import CondSat.Source.Promotion

/-! # Building expression trees

Constructors that resolve operators the way the source language does.  An
operand is a tree or a bare value; a bare value becomes a literal of the type
it has without suffix.  Between two operands of an operator that is no shift,
an `int` literal takes the type of the other operand when it fits there.  No
conversion nodes are inserted: a narrow operand keeps its type under an `int`
operator. -/
set_option autoImplicit false
namespace CondSat.Source

inductive BuildFault where
  | operator (fault : ResolutionFault)
  | literal (fault : LiteralFault)
  | notEnumeration (type : SourceType)
  | takesOneOperand (tag : Tag)
  | takesTwoOperands (tag : Tag)
  /-- The value of a literal is text that is no number. -/
  | notANumber (text : Json)
  /-- The value of a literal is neither a number nor text. -/
  | notReal (value : Json)
  | number (fault : Ieee.NumberFault)
  /-- A tree is asked for its truth before it is analysed. -/
  | noTruthValue
  deriving DecidableEq, Repr

def BuildFault.message : BuildFault → String
  | operator fault => fault.message
  | literal fault => fault.message
  | notEnumeration type => type.name ++ " is not an enumeration type"
  | takesOneOperand tag => tag.name ++ " takes one operand"
  | takesTwoOperands tag => tag.name ++ " takes two operands"
  | notANumber text => "could not convert string to float: " ++ text.quoted
  | notReal value => "no number in " ++ value.quoted
  | number fault => fault.message
  | noTruthValue => "a Term has no truth value; use and_also/or_else/not_ instead of and/or/not"

def BuildFault.guard {ε α : Type} (wrap : ε → BuildFault) : Except ε α → Except BuildFault α
  | .ok value => .ok value
  | .error fault => .error (wrap fault)

def realValue : Json → Except BuildFault Json
  | .int value => (realPattern (.whole value)).map .float
  | .bool value => (realPattern (.whole (if value then 1 else 0))).map .float
  | .float pattern => .ok (.float pattern)
  | .str text =>
    match Text.real? text with
    | some real => .ok (.float (BitVec.ofNat 64 (Ieee.Format.double.ofText real)))
    | none => .error (.notANumber (.str text))
  | .torn text => .error (.notANumber (.torn text))
  | value => .error (.notReal value)
where
  realPattern (number : Ieee.Number) : Except BuildFault (BitVec 64) :=
    BuildFault.guard .number (number.toDouble.map (BitVec.ofNat 64))

namespace Expr

/-- The literal an `int` literal becomes where a value of the target type is
wanted; none when it stays as it is. -/
def converted? (node : Expr) (target : SourceType) : Except BuildFault (Option Expr) :=
  match node with
  | .literal constant type text =>
    if type.kind ≠ .int then .ok none
    else
      let inRange (goal : IntegerType) : Option Expr :=
        if (wholeValue? constant.value).any goal.contains then
          some (.literal ⟨constant.value, goal.kind⟩ goal.type text)
        else none
      let real (goal : FloatType) : Except BuildFault (Option Expr) :=
        (realValue constant.value).map fun value => some (.literal ⟨value, goal.kind⟩ goal.type text)
      match target.kind with
      | .uint => .ok (inRange .uint)
      | .long => .ok (inRange .long)
      | .ulong => .ok (inRange .ulong)
      | .float => real .float
      | .double => real .double
      | _ => .ok none
  | _ => .ok none

def converted (node : Expr) (target : SourceType) : Except BuildFault Expr :=
  (node.converted? target).map (·.getD node)

/-- A literal of the type its value has without suffix. -/
def ofValue (value : Json) : Except BuildFault Expr := do
  let type ← BuildFault.guard .literal (literalType value)
  return ofLiteral value type

def applyUnary (tag : Tag) (operand : Expr) : Expr :=
  .unary (.ofTag tag) operand tag.signature.result (.str tag.token ++ operand.operandText) none

def applyBinary (tag : Tag) (left right : Expr) : Expr :=
  .binary (.ofTag tag) left right tag.signature.result
    (left.operandText ++ .str (" " ++ tag.token ++ " ") ++ right.operandText) none

def unaryOf (token : String) (operand : Expr) : Except BuildFault Expr := do
  let tag ← BuildFault.guard .operator (unaryTag token operand.type)
  return applyUnary tag operand

/-- The two operands of a token after conversion of literals: the right one is
converted to the type of the left one, then the left one to that of the right. -/
def convertedPair (token : String) (left right : Expr) : Except BuildFault (Expr × Expr) := do
  if shiftTokens.contains token then return (left, right)
  let right ← right.converted left.type
  let left ← left.converted right.type
  return (left, right)

def binaryOf (token : String) (left right : Expr) : Except BuildFault Expr := do
  let (left, right) ← convertedPair token left right
  let tag ← BuildFault.guard .operator (binaryTag token left.type right.type)
  return applyBinary tag left right

def ofDeclaration (declaration : Declaration) : Expr :=
  .reference (some declaration) declaration.type declaration.name none

def localVariable (name : String) (type : SourceType) (id : Nat) : Expr :=
  ofDeclaration ⟨name, .localVariable, type, id⟩

def parameter (name : String) (type : SourceType) (id : Nat) : Expr :=
  ofDeclaration ⟨name, .parameter, type, id⟩

def field (name : String) (type : SourceType) (value : Option Json) (id : Nat) : Expr :=
  match value with
  | none => ofDeclaration ⟨name, .field, type, id⟩
  | some value =>
    .reference (some ⟨name, .constant, type, id⟩) type (.str name) (some ⟨value, type.valueKind⟩)

/-- A named constant of an enumeration. -/
def enumMember (type : SourceType) (name : String) (value : Json) (id : Nat) :
    Except BuildFault Expr :=
  if type.isEnum then
    .ok (.reference (some ⟨name, .constant, type, id⟩) type (.str (type.name ++ "." ++ name))
      (some ⟨value, type.valueKind⟩))
  else .error (.notEnumeration type)

def unresolved (text : String) (type : SourceType) : Expr := .reference none type (.str text) none

def call (name : String) (type : SourceType) (arguments : List Expr) : Expr :=
  .unmodelled .invocation type
    (.str (name ++ "(") ++ Json.intercalate ", " (arguments.map Expr.text) ++ .str ")")
    arguments none

def castTo (type : SourceType) (operand : Expr) : Expr :=
  .unmodelled .cast type (.str ("(" ++ type.name ++ ")") ++ operand.operandText) [operand] none

def display (tree : Expr) : String :=
  "Term(" ++ tree.text.quoted ++ ": " ++ tree.type.name ++ ")"

/-- The truth of a tree, which depends on its variables and so is refused. -/
def truth (_ : Expr) : Except BuildFault Bool := .error .noTruthValue

end Expr

inductive Operand where
  | node (tree : Expr)
  | value (given : Json)
  deriving Inhabited

namespace Operand

def lift : Operand → Except BuildFault Expr
  | node tree => .ok tree
  | value given => Expr.ofValue given

def liftAll (operands : List Operand) : Except BuildFault (List Expr) := operands.mapM lift

end Operand

/-- The token that says the same with its operands exchanged. -/
def exchangedToken? (token : String) : Option String :=
  [("==", "=="), ("!=", "!="), ("<", ">"), ("<=", ">="), (">", "<"), (">=", "<=")].lookup token

/-- The node for a token between two operands as they are written.  A value on
the left of a comparison changes sides with the tree it is compared with. -/
def combine (token : String) (left right : Operand) : Except BuildFault Expr := do
  match left, exchangedToken? token with
  | .value _, some token =>
    let right ← right.lift
    Expr.binaryOf token right (← left.lift)
  | .value _, none =>
    let right ← right.lift
    Expr.binaryOf token (← left.lift) right
  | .node _, _ =>
    let left ← left.lift
    Expr.binaryOf token left (← right.lift)

/-- Apply a predefined operator by name to one or two operands.  The operands
are lifted before their number is looked at, the second only if it is used. -/
def applyTag (tag : Tag) (first : Operand) (second : Option Operand) : Except BuildFault Expr := do
  let left ← first.lift
  match tag.isUnary, second with
  | true, none => return .applyUnary tag left
  | true, some _ => .error (.takesOneOperand tag)
  | false, none => .error (.takesTwoOperands tag)
  | false, some second => return .applyBinary tag left (← second.lift)

def joinAll (token : String) (first : Operand) (others : List Operand) : Except BuildFault Expr := do
  others.foldlM (fun joined other => do Expr.binaryOf token joined (← other.lift)) (← first.lift)

end CondSat.Source
