import CondSat.Json.Value

/-! # Writing documents

Files hold one member or item a line, indented by two blanks a level, in
characters of the ASCII set only; others are written as escaped UTF-16 units.
Messages between programs hold a whole document on one line, without blanks and
with all characters that need no escape as they are. -/
set_option autoImplicit false
namespace CondSat.Json

def units (c : Char) : List Nat :=
  if c.toNat < 0x10000 then [c.toNat]
  else [0xd800 + (c.toNat - 0x10000) / 0x400, 0xdc00 + (c.toNat - 0x10000) % 0x400]

def escaped (c : Char) : String :=
  if c == '"' then "\\\""
  else if c == '\\' then "\\\\"
  else if c == '\n' then "\\n"
  else if c == '\r' then "\\r"
  else if c == '\t' then "\\t"
  else if c == '\x0c' then "\\f"
  else if c == '\x08' then "\\b"
  else if ' ' ≤ c && c ≤ '~' then c.toString
  else String.join ((units c).map fun unit => "\\u" ++ Text.hexDigits 4 unit)

def stringText (text : String) : String :=
  "\"" ++ String.join (text.toList.map escaped) ++ "\""

/-- A written text that is torn: its halves stand as escaped units. -/
def tornText (char : Char → String) (text : Text.Torn) : String :=
  "\"" ++ String.join (text.marks.map fun
    | .char c => char c
    | .half offset => "\\u" ++ Text.hexDigits 4 (Text.Mark.half offset).code) ++ "\""

/-- A written floating-point number; the values outside the number line have names. -/
def floatText (pattern : Nat) : String :=
  let f := Ieee.Format.double
  if f.isNaN pattern then "NaN"
  else if f.isInfinite pattern then if f.isNegative pattern then "-Infinity" else "Infinity"
  else f.text pattern

def lineBreak (level : Nat) : String := "\n" ++ "".pushn ' ' (2 * level)

mutual

def indented (level : Nat) : Json → String
  | .null => "null"
  | .bool value => if value then "true" else "false"
  | .int value => toString value
  | .float pattern => floatText pattern.toNat
  | .str value => stringText value
  | .torn value => tornText escaped value
  | .arr [] => "[]"
  | .arr (item :: rest) =>
    "[" ++ lineBreak (level + 1) ++ indented (level + 1) item ++ indentedItems (level + 1) rest
      ++ lineBreak level ++ "]"
  | .obj [] => "\x7b\x7d"
  | .obj ((key, value) :: rest) =>
    "\x7b" ++ lineBreak (level + 1) ++ stringText key ++ ": " ++ indented (level + 1) value
      ++ indentedMembers (level + 1) rest ++ lineBreak level ++ "\x7d"

def indentedItems (level : Nat) : List Json → String
  | [] => ""
  | item :: rest => "," ++ lineBreak level ++ indented level item ++ indentedItems level rest

def indentedMembers (level : Nat) : List (String × Json) → String
  | [] => ""
  | (key, value) :: rest =>
    "," ++ lineBreak level ++ stringText key ++ ": " ++ indented level value
      ++ indentedMembers level rest

end

def fileText (value : Json) : String := indented 0 value

def lineChar (c : Char) : String :=
  if c == '"' || c == '\\' || c.toNat < 0x20 then escaped c else c.toString

def lineString (text : String) : String :=
  "\"" ++ String.join (text.toList.map lineChar) ++ "\""

mutual

def lineText : Json → String
  | .null => "null"
  | .bool value => if value then "true" else "false"
  | .int value => toString value
  | .float pattern => floatText pattern.toNat
  | .str value => lineString value
  | .torn value => tornText lineChar value
  | .arr items => "[" ++ ",".intercalate (lineItems items) ++ "]"
  | .obj members => "\x7b" ++ ",".intercalate (lineMembers members) ++ "\x7d"

def lineItems : List Json → List String
  | [] => []
  | item :: rest => lineText item :: lineItems rest

def lineMembers : List (String × Json) → List String
  | [] => []
  | (key, value) :: rest => (lineString key ++ ":" ++ lineText value) :: lineMembers rest

end

end CondSat.Json
