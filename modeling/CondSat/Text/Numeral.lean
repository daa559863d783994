import CondSat.Text.Quoted

/-! # Reading numbers from text

Whole numbers and real numbers as users write them: blanks around the number
are ignored, a sign may lead, digits of every script count, and a single
underscore may stand between two digits.  Reading a real number yields its
exact decimal value; rounding is left to the format that receives it. -/
set_option autoImplicit false
namespace CondSat.Text

def blanks : List (Nat × Nat) :=
  [(0x9, 0xd), (0x1c, 0x20), (0x85, 0x85), (0xa0, 0xa0), (0x1680, 0x1680), (0x2000, 0x200a),
   (0x2028, 0x2029), (0x202f, 0x202f), (0x205f, 0x205f), (0x3000, 0x3000)]

def isBlank (c : Char) : Bool :=
  blanks.any fun range => range.1 ≤ c.toNat && c.toNat ≤ range.2

/-- The code points of the digit zero; the other nine digits of a script follow it. -/
def digitZeros : List Nat := [
  0x30, 0x660, 0x6f0, 0x7c0, 0x966, 0x9e6, 0xa66, 0xae6, 0xb66, 0xbe6, 0xc66, 0xce6, 0xd66, 0xde6,
  0xe50, 0xed0, 0xf20, 0x1040, 0x1090, 0x17e0, 0x1810, 0x1946, 0x19d0, 0x1a80, 0x1a90, 0x1b50,
  0x1bb0, 0x1c40, 0x1c50, 0xa620, 0xa8d0, 0xa900, 0xa9d0, 0xa9f0, 0xaa50, 0xabf0, 0xff10, 0x104a0,
  0x10d30, 0x11066, 0x110f0, 0x11136, 0x111d0, 0x112f0, 0x11450, 0x114d0, 0x11650, 0x116c0,
  0x11730, 0x118e0, 0x11950, 0x11c50, 0x11d50, 0x11da0, 0x16a60, 0x16ac0, 0x16b50, 0x1d7ce,
  0x1d7d8, 0x1d7e2, 0x1d7ec, 0x1d7f6, 0x1e140, 0x1e2f0, 0x1e950, 0x1fbf0]

def digitValue? (c : Char) : Option Nat :=
  (digitZeros.find? fun start => start ≤ c.toNat && c.toNat < start + 10).map (c.toNat - ·)

def trimBlanks (text : List Char) : List Char :=
  ((text.dropWhile isBlank).reverse.dropWhile isBlank).reverse

/-- Split off a leading sign; `true` is a minus. -/
def leadingSign : List Char → Bool × List Char
  | '-' :: rest => (true, rest)
  | '+' :: rest => (false, rest)
  | text => (false, text)

def ofDigits (digits : List Nat) : Nat := digits.foldl (fun value digit => 10 * value + digit) 0

/-- Digits with single underscores between them, all of the text. -/
def digitGroup? : List Char → Option (List Nat)
  | [] => none
  | [c] => (digitValue? c).map ([·])
  | c :: '_' :: rest => do return (← digitValue? c) :: (← digitGroup? rest)
  | c :: rest => do return (← digitValue? c) :: (← digitGroup? rest)

inductive IntegerFault where
  | notANumeral (text : String)
  | tooManyDigits (count : Nat)
  deriving DecidableEq, Repr

/-- Numerals longer than this are refused. -/
def digitLimit : Nat := 4300

/-- The notice about a text, shown between quotes, that is no whole number. -/
def IntegerFault.notice (shown : String) : String :=
  "invalid literal for int() with base 10: " ++ shown

def IntegerFault.message : IntegerFault → String
  | notANumeral text => notice (quoted text)
  | tooManyDigits count =>
    s!"Exceeds the limit ({digitLimit} digits) for integer string conversion: value has {count} " ++
    "digits; use sys.set_int_max_str_digits() to increase the limit"

def integer? (text : String) : Except IntegerFault Int :=
  let (negative, body) := leadingSign (trimBlanks text.toList)
  match digitGroup? body with
  | none => .error (.notANumeral text)
  | some digits =>
    if digitLimit < digits.length then .error (.tooManyDigits digits.length)
    else .ok (if negative then -(ofDigits digits : Int) else ofDigits digits)

inductive RealText where
  | nan (negative : Bool)
  | infinity (negative : Bool)
  /-- The value `±digits * 10 ^ exponent`. -/
  | decimal (negative : Bool) (digits : Nat) (exponent : Int)
  deriving DecidableEq, Repr

def exponentPart? : List Char → Option Int
  | [] => some 0
  | mark :: rest =>
    if mark == 'e' || mark == 'E' then
      let (negative, body) := leadingSign rest
      (digitGroup? body).map fun digits =>
        if negative then -(ofDigits digits : Int) else ofDigits digits
    else none

def isGroupChar (c : Char) : Bool := (digitValue? c).isSome || c == '_'

def optionalGroup? (text : List Char) : Option (List Nat) :=
  if text.isEmpty then some [] else digitGroup? text

def unsignedDecimal? (text : List Char) : Option (Nat × Int) := do
  let whole ← optionalGroup? (text.takeWhile isGroupChar)
  match text.dropWhile isGroupChar with
  | '.' :: rest =>
    let fraction ← optionalGroup? (rest.takeWhile isGroupChar)
    let exponent ← exponentPart? (rest.dropWhile isGroupChar)
    if whole.isEmpty && fraction.isEmpty then none
    else some (ofDigits (whole ++ fraction), exponent - fraction.length)
  | rest =>
    let exponent ← exponentPart? rest
    if whole.isEmpty then none else some (ofDigits whole, exponent)

def real? (text : String) : Option RealText :=
  let (negative, body) := leadingSign (trimBlanks text.toList)
  let word := String.ofList (body.map Char.toLower)
  if word == "inf" || word == "infinity" then some (.infinity negative)
  else if word == "nan" then some (.nan negative)
  else (unsignedDecimal? body).map fun (digits, exponent) => .decimal negative digits exponent

end CondSat.Text
