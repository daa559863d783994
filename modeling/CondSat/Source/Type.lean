import CondSat.Text.Quoted

/-! # Static types of source expressions

A `Kind` is the kind of a value at run time; a `SourceType` adds the display
name and, for an enumeration, the integral kind that carries its members.
Exactly the enumerations have an underlying kind, and it is integral: the
structure holds the proof. -/
set_option autoImplicit false
namespace CondSat.Source

inductive Kind where
  | bool
  | sbyte
  | byte
  | short
  | ushort
  | char
  | int
  | uint
  | long
  | ulong
  | float
  | double
  | decimal
  | string
  | null
  | enum
  | other
  deriving DecidableEq, Repr, Inhabited

namespace Kind

def all : List Kind :=
  [bool, sbyte, byte, short, ushort, char, int, uint, long, ulong, float, double, decimal, string,
   null, enum, other]

def name : Kind → String
  | bool => "bool"
  | sbyte => "sbyte"
  | byte => "byte"
  | short => "short"
  | ushort => "ushort"
  | char => "char"
  | int => "int"
  | uint => "uint"
  | long => "long"
  | ulong => "ulong"
  | float => "float"
  | double => "double"
  | decimal => "decimal"
  | string => "string"
  | null => "null"
  | enum => "enum"
  | other => "other"

def ofName? (text : String) : Option Kind := all.find? (·.name == text)

def integralWidth? : Kind → Option Nat
  | sbyte | byte => some 8
  | short | ushort | char => some 16
  | int | uint => some 32
  | long | ulong => some 64
  | _ => none

def isIntegral (kind : Kind) : Bool := kind.integralWidth?.isSome

def isFloating : Kind → Bool
  | float | double => true
  | _ => false

def isSigned : Kind → Bool
  | sbyte | short | int | long => true
  | _ => false

def bitWidth? : Kind → Option Nat
  | float => some 32
  | double => some 64
  | kind => kind.integralWidth?

/-- Integral and floating kinds and `decimal` take part in arithmetic. -/
def isNumeric (kind : Kind) : Bool := kind.isIntegral || kind.isFloating || kind == .decimal

/-- Whether a type of this kind may have this underlying kind. -/
def admits (kind : Kind) : Option Kind → Bool
  | none => kind != .enum
  | some underlying => kind == .enum && underlying.isIntegral

end Kind

inductive TypeFault where
  | enumNeedsIntegral (name : String)
  | onlyEnumsHaveUnderlying
  deriving DecidableEq, Repr

def TypeFault.message : TypeFault → String
  | enumNeedsIntegral name =>
    "enum type " ++ Text.quoted name ++ " needs an integral underlying type"
  | onlyEnumsHaveUnderlying => "only enum types have an underlying type"

structure SourceType where
  kind : Kind
  name : String
  underlying : Option Kind
  admitted : kind.admits underlying = true
  deriving DecidableEq, Repr

namespace SourceType

def ofKind (kind : Kind) (h : kind.admits none = true := by decide) : SourceType :=
  ⟨kind, kind.name, none, h⟩

def bool : SourceType := ofKind .bool

def sbyte : SourceType := ofKind .sbyte

def byte : SourceType := ofKind .byte

def short : SourceType := ofKind .short

def ushort : SourceType := ofKind .ushort

def char : SourceType := ofKind .char

def int : SourceType := ofKind .int

def uint : SourceType := ofKind .uint

def long : SourceType := ofKind .long

def ulong : SourceType := ofKind .ulong

def float : SourceType := ofKind .float

def double : SourceType := ofKind .double

def decimal : SourceType := ofKind .decimal

def string : SourceType := ofKind .string

def null : SourceType := ofKind .null

instance : Inhabited SourceType := ⟨bool⟩

def object : SourceType := ⟨.other, "object", none, by decide⟩

/-- Build a type.  An empty name stands for the name of the kind. -/
def build (kind : Kind) (name : String) (underlying : Option SourceType) :
    Except TypeFault SourceType :=
  let name := if name.isEmpty then kind.name else name
  let carrier := underlying.map (·.kind)
  if h : kind.admits carrier = true then .ok ⟨kind, name, carrier, h⟩
  else if kind = .enum then .error (.enumNeedsIntegral name)
  else .error .onlyEnumsHaveUnderlying

/-- An enumeration type; its members are carried by `int` unless stated. -/
def enumeration (name : String) (underlying : Option SourceType) : Except TypeFault SourceType :=
  build .enum name (some (underlying.getD int))

def isEnum (type : SourceType) : Bool := type.kind == .enum

def isBool (type : SourceType) : Bool := type.kind == .bool

/-- The kind of the values of a type at run time. -/
def valueKind (type : SourceType) : Kind := type.underlying.getD type.kind

def primitives : List SourceType :=
  [bool, sbyte, byte, short, ushort, char, int, uint, long, ulong, float, double, decimal, string,
   null]

def primitive? (name : String) : Option SourceType := primitives.find? (·.name == name)

end SourceType

end CondSat.Source
