import CondSat.Json.Reader
import CondSat.Source.Literal
import CondSat.Source.Place

/-! # Trees from documents

The decoder accepts what the encoder writes and much that it does not: texts,
operator types and declaration numbers may be left out and are then made up.
References with the same `id`, or without ids with the same name and kind,
denote one declaration and have to agree on its name and type.

Names are meant to be texts.  The name of a declaration that is another value is kept
and compared as it is written, where ids are compared by number; the name of a type or
of an operator is then the text that the value is shown as.

Declarations are numbered in the order of their first reference.  A failed
document keeps the numbers it has used, so the state is carried through every
outcome.  Decoding descends a bounded number of levels; the bound counts two
for an operator node and three for a node that is not modelled. -/
set_option autoImplicit false
namespace CondSat.Source

/-- What identifies a declaration within one document. -/
inductive DeclarationKey where
  | id (value : Json)
  | named (name : Json) (kind : ElementKind)
  deriving DecidableEq, Repr

inductive FormatFault where
  | expectedObject
  | missing (key : String)
  | unknownType (name : String)
  | expectedType
  | badEnumeration (fault : TypeFault)
  | unknownKindCode (shown : String)
  | unknownNode (shown : String)
  | constantWithoutValue
  | noLiteralType (fault : LiteralFault)
  | unknownElementKind (shown : String)
  | conflictingUse (key : DeclarationKey) (first : Declaration) (name : Json) (type : SourceType)
  | unknownOperator (name : String)
  | expectedOperator
  | unknownStatus (shown : String)
  | operatorWithoutReturnType (shown : String)
  | unresolvedWithoutType
  | unknownShape (shown : String)
  deriving DecidableEq, Repr

def DeclarationKey.shown : DeclarationKey → String
  | id value => "('id', " ++ value.quoted ++ ")"
  | named name kind =>
    "(" ++ name.quoted ++ ", <ElementKind." ++ kind.label ++ ": '" ++ kind.name ++ "'>)"

def FormatFault.message : FormatFault → String
  | expectedObject => "expected an object"
  | missing key => "missing '" ++ key ++ "'"
  | unknownType name => "unknown type '" ++ name ++ "'"
  | expectedType => "expected a type name or object"
  | badEnumeration fault => fault.message
  | unknownKindCode shown => "unknown type code '" ++ shown ++ "'"
  | unknownNode shown => "unknown node kind '" ++ shown ++ "'"
  | constantWithoutValue => "constant needs a 'value'"
  | noLiteralType fault => fault.message
  | unknownElementKind shown => "unknown element kind '" ++ shown ++ "'"
  | conflictingUse key first name type =>
    "declaration " ++ key.shown ++ " used as both " ++ first.name.display ++ ": "
      ++ first.type.name ++ " and " ++ name.display ++ ": " ++ type.name
  | unknownOperator name => "unknown operator '" ++ name ++ "'"
  | expectedOperator => "expected an operator name or object"
  | unknownStatus shown => "unknown status '" ++ shown ++ "'"
  | operatorWithoutReturnType shown => "operator '" ++ shown ++ "' needs a 'return_type'"
  | unresolvedWithoutType => "unresolved operator node needs a 'type'"
  | unknownShape shown => "unknown shape '" ++ shown ++ "'"

inductive DecodeError where
  /-- The document is malformed at a place. -/
  | format (place : Place) (fault : FormatFault)
  /-- A member cannot serve as what it is needed for: children that are no
  sequence, or a list or an object where a declaration is looked up. -/
  | wrongKind
  /-- The document is nested beyond the bound. -/
  | tooDeep
  deriving DecidableEq, Repr

def FormatFault.located (fault : FormatFault) (place : Place) : String :=
  place.text ++ ": " ++ fault.message

/-- The declarations of a document so far, and the next free number. -/
structure Declarations where
  known : List (DeclarationKey × Declaration) := []
  next : Nat := 1
  deriving Repr

abbrev Decoder := EStateM DecodeError Declarations

def Decoder.lift {α : Type} : Except DecodeError α → Decoder α
  | .ok value => pure value
  | .error e => throw e

def require (key : String) (place : Place) (data : Json) : Except DecodeError Json :=
  match data.get? key with
  | some value => .ok value
  | none => .error (.format place (.missing key))

/-- The name of a type as a text; one that counts as false is empty. -/
def nameText (value : Json) : String := if value.isTruthy then value.display else ""

def atPlace {α : Type} (place : Place) : Except TypeFault α → Except DecodeError α
  | .ok value => .ok value
  | .error fault => .error (.format place (.badEnumeration fault))

def decodeType : Nat → Place → Json → Except DecodeError SourceType
  | 0, _, _ => .error .tooDeep
  | budget + 1, place, data =>
    match data with
    | .str name =>
      match SourceType.primitive? name with
      | some type => .ok type
      | none =>
        if name = "object" then .ok .object else .error (.format place (.unknownType name))
    | .torn _ => .error (.format place (.unknownType data.display))
    | .obj _ => do
      let kind ← require "kind" place data
      if kind = .str "enum" then
        let underlying ← decodeType budget (place.push .underlying)
          ((data.get? "underlying").getD (.str "int"))
        let name ← require "name" place data
        atPlace place (SourceType.enumeration (nameText name) (some underlying))
      else if kind = .str "other" then
        atPlace place (SourceType.build .other
          (nameText ((data.get? "name").getD (.str "object"))) none)
      else decodeType budget place kind
    | _ => .error (.format place .expectedType)

def decodeKind (place : Place) (data : Json) : Except DecodeError Kind :=
  match data with
  | .str name =>
    match Kind.ofName? name with
    | some kind => .ok kind
    | none => .error (.format place (.unknownKindCode name))
  | other => .error (.format place (.unknownKindCode other.display))

def kindCode (place : Place) (type : SourceType) (data : Json) : Except DecodeError Kind :=
  match data.get? "type_code" with
  | some code => decodeKind place code
  | none => .ok type.valueKind

def decodeConstant (place : Place) (type : SourceType) (data : Option Json) :
    Except DecodeError (Option Constant) :=
  match data with
  | none | some .null => .ok none
  | some data =>
    match data.get? "value" with
    | none => .error (.format place .constantWithoutValue)
    | some value => do
      let kind ← kindCode place type data
      return some ⟨value, kind⟩

def nodeConstant (place : Place) (type : SourceType) (data : Json) :
    Except DecodeError (Option Constant) :=
  decodeConstant (place.push .constant) type (data.get? "constant")

def sameNumber : Json → Json → Bool
  | .float a, .float b => Ieee.Format.double.numEq a.toNat b.toNat
  | .float a, .int n | .int n, .float a =>
    let f := Ieee.Format.double
    let magnitude := f.magnitude a.toNat
    let exact := f.ratio magnitude
    magnitude < f.infinity && exact.1 == n.natAbs * exact.2
      && (n == 0 || f.isNegative a.toNat == (n < 0))
  | .int m, .int n => m == n
  | _, _ => false

/-- Truth values count as the numbers one and zero. -/
def numberOf : Json → Json
  | .bool value => .int (if value then 1 else 0)
  | other => other

/-- Whether two keys denote the same declaration.  A value is the same id as itself,
also where it is no number. -/
def DeclarationKey.same : DeclarationKey → DeclarationKey → Bool
  | id a, id b => a == b || sameNumber (numberOf a) (numberOf b)
  | named name kind, named name' kind' => name == name' && kind == kind'
  | _, _ => false

def decodeElementKind (place : Place) (data : Json) : Except DecodeError ElementKind :=
  match data.get? "kind" with
  | none => .ok .localVariable
  | some shown =>
    match shown with
    | .str name =>
      match ElementKind.ofName? name with
      | some kind => .ok kind
      | none => .error (.format place (.unknownElementKind name))
    | other => .error (.format place (.unknownElementKind other.display))

/-- The declaration for a key: the known one when it agrees, a new one else. -/
def declare (place : Place) (key : DeclarationKey) (name : Json) (kind : ElementKind)
    (type : SourceType) : Decoder Declaration := do
  let declarations ← get
  match declarations.known.find? (·.1.same key) with
  | some (_, known) =>
    if known.type = type ∧ known.name = name then pure known
    else throw (.format place (.conflictingUse key known name type))
  | none =>
    let declaration : Declaration := ⟨name, kind, type, declarations.next⟩
    set ({ known := declarations.known ++ [(key, declaration)], next := declarations.next + 1 }
      : Declarations)
    pure declaration

/-- The declaration of a resolved reference.  Names are compared as they are written. -/
def decodeDeclaration (place : Place) (type : SourceType) (data : Json) : Decoder Declaration := do
  let name ← Decoder.lift (require "name" place data)
  let kind ← Decoder.lift (decodeElementKind place data)
  let key : DeclarationKey := match data.get? "id" with
    | some value => .id value
    | none => .named name kind
  if isLookupKey ((data.get? "id").getD name) then declare place key name kind type
  else throw .wrongKind

/-- The stated text of a node, unless it counts as false. -/
def statedText? (data : Json) : Option Json := data.truthy? "text"

/-- The predefined operator that a value names; only text names one. -/
def namedTag? : Json → Option Tag
  | .str text => Tag.ofName? text
  | _ => none

/-- The type an operator returns: as stated, else that of its signature. -/
def operatorResult (budget : Nat) (place : Place) (name data : Json) :
    Except DecodeError SourceType :=
  match data.get? "return_type", namedTag? name with
  | some type, _ => decodeType budget (place.push .returnType) type
  | none, some tag => .ok tag.signature.result
  | none, none => .error (.format place (.operatorWithoutReturnType name.display))

/-- Decode the operator of a node.  Its name is a text, as the name of a type is. -/
def decodeOperator (budget : Nat) (place : Place) (data : Json) : Except DecodeError Resolution :=
  match data with
  | .str name =>
    match Tag.ofName? name with
    | some tag => .ok (.ofTag tag)
    | none => .error (.format place (.unknownOperator name))
  | .torn _ => .error (.format place (.unknownOperator data.display))
  | .obj _ =>
    match (data.get? "status").getD (.str "ok") with
    | .str "ok" => do
      let name ← require "name" place data
      let returnType ← operatorResult budget place name data
      let predefined := ((data.get? "predefined").map Json.isTruthy).getD true
      let tag := if predefined then namedTag? name else none
      return .resolved ⟨name.display, returnType, tag, predefined⟩
    | .str "ambiguous" => .ok .ambiguous
    | .str "unresolved" => .ok .unresolved
    | other => .error (.format place (.unknownStatus other.display))
  | _ => .error (.format place .expectedOperator)

def nodeOperator (budget : Nat) (place : Place) (data : Json) : Except DecodeError Resolution := do
  let operator ← require "operator" place data
  decodeOperator budget (place.push .operator) operator

def nodeType (budget : Nat) (place : Place) (data : Json) : Except DecodeError SourceType := do
  let type ← require "type" place data
  decodeType budget (place.push .type) type

/-- The type of an operator node: as stated, else what the operator returns. -/
def operatorNodeType (budget : Nat) (place : Place) (resolution : Resolution) (data : Json) :
    Except DecodeError SourceType :=
  match data.get? "type", resolution.operator? with
  | some type, _ => decodeType budget (place.push .type) type
  | none, some operator => .ok operator.returnType
  | none, none => .error (.format place .unresolvedWithoutType)

def operatorToken (resolution : Resolution) (data : Json) : Json :=
  match resolution.operator?.bind (·.tag) with
  | some tag => .str tag.token
  | none => (data.get? "token").getD (.str "?")

/-- The type of a literal node: as stated, else the one its value has without suffix.
Either is found one level below the node. -/
def literalNodeType (budget : Nat) (place : Place) (value data : Json) :
    Except DecodeError SourceType :=
  match data.get? "type", budget with
  | some type, budget => decodeType budget (place.push .type) type
  | none, 0 => .error .tooDeep
  | none, _ + 1 =>
    match literalType value with
    | .ok type => .ok type
    | .error fault => .error (.format place (.noLiteralType fault))

def decodeLiteral (budget : Nat) (place : Place) (data : Json) : Except DecodeError Expr := do
  let value ← require "value" place data
  let type ← literalNodeType budget place value data
  let kind ← kindCode place type data
  return .literal ⟨value, kind⟩ type ((statedText? data).getD (literalText value type))

def decodeReference (budget : Nat) (place : Place) (data : Json) : Decoder Expr := do
  let type ← Decoder.lift (nodeType budget place data)
  let constant ← Decoder.lift (nodeConstant place type data)
  if ((data.get? "resolved").map Json.isTruthy).getD true then
    let declaration ← decodeDeclaration place type data
    return .reference (some declaration) type ((statedText? data).getD declaration.name) constant
  else
    let text ← Decoder.lift (require "text" place data)
    return .reference none type text constant

def childrenOf (data : Json) : Except DecodeError (List Json) :=
  match data.get? "children" with
  | none => .ok []
  | some (.arr items) => .ok items
  | some (.str text) => .ok (text.toList.map fun c => .str c.toString)
  | some (.torn text) => .ok (text.marks.map fun mark => .ofMarks [mark])
  | some (.obj members) => .ok (members.map fun member => .str member.1)
  | some _ => .error .wrongKind

def decodeShape (place : Place) (data : Json) : Except DecodeError Shape :=
  match data.get? "shape" with
  | none => .ok .other
  | some (.str name) =>
    match Shape.ofName? name with
    | some shape => .ok shape
    | none => .error (.format place (.unknownShape name))
  | some other => .error (.format place (.unknownShape other.display))

def decodeChildren (decode : Place → Json → Decoder Expr) (place : Place) :
    Nat → List Json → Decoder (List Expr)
  | _, [] => pure []
  | index, item :: rest => do
    let node ← decode (place.push (.child index)) item
    let nodes ← decodeChildren decode place (index + 1) rest
    return node :: nodes

def decodePart (decode : Place → Json → Decoder Expr) (key : String) (step : Step) (place : Place)
    (data : Json) : Decoder Expr := do
  let part ← Decoder.lift (require key place data)
  decode (place.push step) part

def decodeUnary (decode : Place → Json → Decoder Expr) (budget : Nat) (place : Place)
    (data : Json) : Decoder Expr := do
  let operator ← Decoder.lift (nodeOperator budget place data)
  let operand ← decodePart decode "operand" .operand place data
  let type ← Decoder.lift (operatorNodeType budget place operator data)
  let text := (statedText? data).getD (operatorToken operator data ++ operand.operandText)
  let constant ← Decoder.lift (nodeConstant place type data)
  return .unary operator operand type text constant

def decodeBinary (decode : Place → Json → Decoder Expr) (budget : Nat) (place : Place)
    (data : Json) : Decoder Expr := do
  let operator ← Decoder.lift (nodeOperator budget place data)
  let left ← decodePart decode "left" .left place data
  let right ← decodePart decode "right" .right place data
  let type ← Decoder.lift (operatorNodeType budget place operator data)
  let text := (statedText? data).getD
    (left.operandText ++ .str " " ++ operatorToken operator data ++ .str " " ++ right.operandText)
  let constant ← Decoder.lift (nodeConstant place type data)
  return .binary operator left right type text constant

def decodeUnmodelled (decode : Place → Json → Decoder Expr) (budget : Nat) (place : Place)
    (data : Json) : Decoder Expr := do
  let shape ← Decoder.lift (decodeShape place data)
  let type ← Decoder.lift (nodeType budget place data)
  let items ← Decoder.lift (childrenOf data)
  let children ← decodeChildren decode place 0 items
  let constant ← Decoder.lift (nodeConstant place type data)
  let text ← Decoder.lift (require "text" place data)
  return .unmodelled shape type text children constant

def decodeNode : Nat → Place → Json → Decoder Expr
  | budget + 3, place, data => do
    match data with
    | .obj _ =>
      let node ← Decoder.lift (require "node" place data)
      match node with
      | .str "literal" => Decoder.lift (decodeLiteral budget place data)
      | .str "variable" => decodeReference budget place data
      | .str "unary" => decodeUnary (decodeNode (budget + 1)) budget place data
      | .str "binary" => decodeBinary (decodeNode (budget + 1)) budget place data
      | .str "unsupported" => decodeUnmodelled (decodeNode budget) budget place data
      | other => throw (.format place (.unknownNode other.display))
    | _ => throw (.format place .expectedObject)
  | _, _, _ => throw .tooDeep

/-- Decode a whole document.  Declarations are shared within one document
only; the numbers go on from `next`. -/
def Expr.ofJson [Limits] (data : Json) (next : Nat) : Except DecodeError Expr × Nat :=
  match (decodeNode Limits.decoding .document data).run { known := [], next } with
  | .ok tree state => (.ok tree, state.next)
  | .error e state => (.error e, state.next)

inductive LoadError where
  /-- The text is no document. -/
  | malformed (reason : Json.SyntaxReason) (line column offset : Nat)
  /-- A number of the document has too many digits. -/
  | tooManyDigits (count : Nat)
  /-- The document is no tree. -/
  | format (place : Place) (fault : FormatFault)
  /-- A member cannot serve as what it is needed for. -/
  | wrongKind
  | tooDeep
  deriving DecidableEq, Repr

def Expr.ofText [Limits] (text : String) (next : Nat) : Except LoadError Expr × Nat :=
  match Json.read text with
  | .error (.malformed reason line column offset) => (.error (.malformed reason line column offset), next)
  | .error .tooDeep => (.error .tooDeep, next)
  | .error (.tooManyDigits count) => (.error (.tooManyDigits count), next)
  | .ok data =>
    match Expr.ofJson data next with
    | (.ok tree, next) => (.ok tree, next)
    | (.error (.format place fault), next) => (.error (.format place fault), next)
    | (.error .wrongKind, next) => (.error .wrongKind, next)
    | (.error .tooDeep, next) => (.error .tooDeep, next)

def LoadError.message : LoadError → String
  | malformed reason line column offset => "invalid JSON: " ++ reason.located line column offset
  | tooManyDigits count => (Text.IntegerFault.tooManyDigits count).message
  | format place fault => fault.located place
  | wrongKind => "a member cannot serve as what it is needed for"
  | tooDeep => "expression tree is nested too deeply"

end CondSat.Source
