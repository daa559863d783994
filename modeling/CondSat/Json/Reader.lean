import CondSat.Json.Display
import CondSat.Limits

/-! # Reading documents

A recursive-descent reader over the characters that are left.  A failure names
its reason and the place where it was noticed; places are kept as the number
of characters left and turned into line, column and offset at the end. -/
set_option autoImplicit false
namespace CondSat.Json

inductive SyntaxReason where
  | expectedValue
  | expectedName
  | expectedColon
  | expectedComma
  | extraData
  | unterminatedString
  | controlCharacter
  | badEscape
  | badUnicodeEscape
  | byteOrderMark
  deriving DecidableEq, Repr

def SyntaxReason.message : SyntaxReason → String
  | expectedValue => "Expecting value"
  | expectedName => "Expecting property name enclosed in double quotes"
  | expectedColon => "Expecting ':' delimiter"
  | expectedComma => "Expecting ',' delimiter"
  | extraData => "Extra data"
  | unterminatedString => "Unterminated string starting at"
  | controlCharacter => "Invalid control character at"
  | badEscape => "Invalid \\escape"
  | badUnicodeEscape => "Invalid \\uXXXX escape"
  | byteOrderMark => "Unexpected UTF-8 BOM (decode using utf-8-sig)"

inductive ReadFault where
  /-- The text breaks the grammar at an offset in the text. -/
  | malformed (reason : SyntaxReason) (line column offset : Nat)
  /-- Arrays and objects are nested beyond the limit. -/
  | tooDeep
  /-- A whole number has more than `Text.digitLimit` digits. -/
  | tooManyDigits (count : Nat)
  deriving DecidableEq, Repr

namespace Reader

/-- A failure with the number of characters left where it was noticed. -/
inductive Stop where
  | syntaxError (reason : SyntaxReason) (left : Nat)
  | tooDeep
  | tooManyDigits (count : Nat)
  deriving DecidableEq, Repr

def failAt {α : Type} (reason : SyntaxReason) (rest : List Char) : Except Stop α :=
  .error (.syntaxError reason rest.length)

def isSpace (c : Char) : Bool := c == ' ' || c == '\t' || c == '\n' || c == '\r'

def skipSpace (text : List Char) : List Char := text.dropWhile isSpace

def hexValue? (c : Char) : Option Nat :=
  if '0' ≤ c && c ≤ '9' then some (c.toNat - '0'.toNat)
  else if 'a' ≤ c && c ≤ 'f' then some (c.toNat - 'a'.toNat + 10)
  else if 'A' ≤ c && c ≤ 'F' then some (c.toNat - 'A'.toNat + 10)
  else none

def hexQuad? (a b c d : Char) : Option Nat := do
  return (((← hexValue? a) * 16 + (← hexValue? b)) * 16 + (← hexValue? c)) * 16 + (← hexValue? d)

def escapeLetter? : Char → Option Char
  | '"' => some '"'
  | '\\' => some '\\'
  | '/' => some '/'
  | 'b' => some '\x08'
  | 'f' => some '\x0c'
  | 'n' => some '\n'
  | 'r' => some '\r'
  | 't' => some '\t'
  | _ => none

def isHighSurrogate (unit : Nat) : Bool := 0xd800 ≤ unit && unit ≤ 0xdbff

def isLowSurrogate (unit : Nat) : Bool := 0xdc00 ≤ unit && unit ≤ 0xdfff

def pairChar (high low : Nat) : Char :=
  Char.ofNat (0x10000 + (high - 0xd800) * 0x400 + (low - 0xdc00))

/-- The second half of a surrogate pair: some when an escape follows that is
followed by at least one more character. -/
def secondHalf? : List Char → Except Stop (Option (Nat × List Char))
  | '\\' :: 'u' :: a :: b :: c :: d :: next :: rest =>
    match hexQuad? a b c d with
    | none => failAt .badUnicodeEscape ('u' :: a :: b :: c :: d :: next :: rest)
    | some unit => if isLowSurrogate unit then .ok (some (unit, next :: rest)) else .ok none
  | _ => .ok none

/-- The marks of a string after its opening quote, latest first in `read`;
`opening` is the text from the opening quote on. -/
def string (opening : List Char) :
    Nat → List Text.Mark → List Char → Except Stop (List Text.Mark × List Char)
  | 0, _, _ => failAt .unterminatedString opening
  | fuel + 1, read, text =>
    match text with
    | [] => failAt .unterminatedString opening
    | '"' :: rest => .ok (read.reverse, rest)
    | '\\' :: [] => failAt .unterminatedString opening
    | '\\' :: 'u' :: rest =>
      match rest with
      | a :: b :: c :: d :: next :: more =>
        match hexQuad? a b c d with
        | none => failAt .badUnicodeEscape ('u' :: rest)
        | some unit =>
          if isHighSurrogate unit then
            match secondHalf? (next :: more) with
            | .error stop => .error stop
            | .ok none => string opening fuel (.ofUnit unit :: read) (next :: more)
            | .ok (some (low, after)) =>
              string opening fuel (.char (pairChar unit low) :: read) after
          else string opening fuel (.ofUnit unit :: read) (next :: more)
      | _ => failAt .badUnicodeEscape ('u' :: rest)
    | '\\' :: letter :: rest =>
      match escapeLetter? letter with
      | none => failAt .badEscape text
      | some c => string opening fuel (.char c :: read) rest
    | c :: rest =>
      if c.toNat < 0x20 then failAt .controlCharacter text
      else string opening fuel (.char c :: read) rest

def isDigit (c : Char) : Bool := '0' ≤ c && c ≤ '9'

def digits (text : List Char) : List Char × List Char :=
  (text.takeWhile isDigit, text.dropWhile isDigit)

def digitsValue (text : List Char) : Nat :=
  Text.ofDigits (text.map fun c => c.toNat - '0'.toNat)

/-- The whole part of a number: a zero, or digits that start with another one. -/
def wholePart? (text : List Char) : Option (List Char × List Char) :=
  match text with
  | '0' :: rest => some (['0'], rest)
  | c :: _ => if isDigit c then some (digits text) else none
  | [] => none

def fraction (text : List Char) : Option (List Char) × List Char :=
  match text with
  | '.' :: rest => if (digits rest).1.isEmpty then (none, text) else (some (digits rest).1, (digits rest).2)
  | _ => (none, text)

def exponent (text : List Char) : Option Int × List Char :=
  match text with
  | mark :: rest =>
    if mark == 'e' || mark == 'E' then
      let (negative, body) := Text.leadingSign rest
      let (ds, after) := digits body
      if ds.isEmpty then (none, text)
      else (some (if negative then -(digitsValue ds : Int) else digitsValue ds), after)
    else (none, text)
  | [] => (none, text)

def number (text : List Char) : Except Stop (Json × List Char) :=
  let (negative, body) := match text with
    | '-' :: rest => (true, rest)
    | _ => (false, text)
  match wholePart? body with
  | none => failAt .expectedValue text
  | some (whole, afterWhole) =>
    let (frac, afterFraction) := fraction afterWhole
    let (exp, rest) := exponent afterFraction
    if frac.isNone && exp.isNone then
      if Text.digitLimit < whole.length then .error (.tooManyDigits whole.length)
      else
        let value : Int := digitsValue whole
        .ok (.int (if negative then -value else value), rest)
    else
      let fractionDigits := frac.getD []
      let decimal : Ieee.Decimal :=
        ⟨digitsValue (whole ++ fractionDigits), exp.getD 0 - fractionDigits.length⟩
      .ok (.float (BitVec.ofNat 64 (Ieee.Format.double.ofDecimal negative decimal)), rest)

def scalar (text : List Char) : Except Stop (Json × List Char) :=
  match text with
  | 'n' :: 'u' :: 'l' :: 'l' :: rest => .ok (.null, rest)
  | 't' :: 'r' :: 'u' :: 'e' :: rest => .ok (.bool true, rest)
  | 'f' :: 'a' :: 'l' :: 's' :: 'e' :: rest => .ok (.bool false, rest)
  | 'N' :: 'a' :: 'N' :: rest => .ok (.float (BitVec.ofNat 64 Ieee.Format.double.quietNaN), rest)
  | 'I' :: 'n' :: 'f' :: 'i' :: 'n' :: 'i' :: 't' :: 'y' :: rest =>
    .ok (.float (BitVec.ofNat 64 Ieee.Format.double.infinity), rest)
  | '-' :: 'I' :: 'n' :: 'f' :: 'i' :: 'n' :: 'i' :: 't' :: 'y' :: rest =>
    .ok (.float (BitVec.ofNat 64
      (Ieee.Format.double.withSign true Ieee.Format.double.infinity)), rest)
  | _ => number text

mutual

def value [Limits] : Nat → Nat → List Char → Except Stop (Json × List Char)
  | 0, _, text => failAt .expectedValue text
  | fuel + 1, depth, text =>
    match text with
    | [] => failAt .expectedValue text
    | '"' :: rest =>
      match string text (rest.length + 1) [] rest with
      | .error stop => .error stop
      | .ok (marks, after) => .ok (.ofMarks marks, after)
    | '[' :: rest =>
      if Limits.nesting ≤ depth + 1 then .error .tooDeep
      else match skipSpace rest with
        | ']' :: after => .ok (.arr [], after)
        | body => items fuel (depth + 1) [] body
    | '\x7b' :: rest =>
      if Limits.nesting ≤ depth + 1 then .error .tooDeep
      else match skipSpace rest with
        | '\x7d' :: after => .ok (.obj [], after)
        | body => members fuel (depth + 1) [] body
    | _ => scalar text

/-- The items of an array from the next one on, latest first in `read`. -/
def items [Limits] : Nat → Nat → List Json → List Char → Except Stop (Json × List Char)
  | 0, _, _, text => failAt .expectedValue text
  | fuel + 1, depth, read, text =>
    match value fuel depth text with
    | .error stop => .error stop
    | .ok (item, rest) =>
      match skipSpace rest with
      | ']' :: after => .ok (.arr (item :: read).reverse, after)
      | ',' :: after => items fuel depth (item :: read) (skipSpace after)
      | other => failAt .expectedComma other

/-- The members of an object from the next one on.  The key of a torn text is spelled. -/
def members [Limits] : Nat → Nat → List (String × Json) → List Char → Except Stop (Json × List Char)
  | 0, _, _, text => failAt .expectedName text
  | fuel + 1, depth, read, text =>
    match text with
    | '"' :: rest =>
      match string text (rest.length + 1) [] rest with
      | .error stop => .error stop
      | .ok (key, afterKey) =>
        match skipSpace afterKey with
        | ':' :: afterColon =>
          match value fuel depth (skipSpace afterColon) with
          | .error stop => .error stop
          | .ok (member, afterValue) =>
            let read := setMember (String.ofList (key.flatMap Text.Mark.spelled)) member read
            match skipSpace afterValue with
            | '\x7d' :: after => .ok (.obj read, after)
            | ',' :: after => members fuel depth read (skipSpace after)
            | other => failAt .expectedComma other
        | other => failAt .expectedColon other
    | _ => failAt .expectedName text

end

/-- A whole document.  Each character opens at most two calls one inside the
other, which bounds their depth. -/
def document [Limits] (text : List Char) : Except Stop Json :=
  match text with
  | '\ufeff' :: _ => failAt .byteOrderMark text
  | _ =>
    match value (2 * text.length + 2) 0 (skipSpace text) with
    | .error stop => .error stop
    | .ok (result, rest) =>
      match skipSpace rest with
      | [] => .ok result
      | other => failAt .extraData other

def locate (text : List Char) : Stop → ReadFault
  | .syntaxError reason left =>
    let offset := text.length - left
    let before := text.take offset
    let line := before.count '\n' + 1
    let column := (before.reverse.takeWhile (· != '\n')).length + 1
    .malformed reason line column offset
  | .tooDeep => .tooDeep
  | .tooManyDigits count => .tooManyDigits count

end Reader

def read [Limits] (text : String) : Except ReadFault Json :=
  (Reader.document text.toList).mapError (Reader.locate text.toList)

def SyntaxReason.located (reason : SyntaxReason) (line column offset : Nat) : String :=
  s!"{reason.message}: line {line} column {column} (char {offset})"

end CondSat.Json
