import CondSat.Text.Printing

/-! # Quoted text

Messages show text between quotes.  The quote is a single one unless the text
holds a single quote and no double quote.  The quote in use and the backslash
are escaped by a backslash, the tabulator and the line ends have their
letters, and any other character that does not print is shown by its code
point in two, four or eight hexadecimal digits. -/
set_option autoImplicit false
namespace CondSat.Text

/-- The `count` low hexadecimal digits of a number, padded with zeros. -/
def hexDigits (count value : Nat) : String :=
  let digits := Nat.toDigits 16 value
  String.ofList (List.replicate (count - digits.length) '0' ++ digits)

def quoteFor (text : List Char) : Char :=
  if text.contains '\'' && !text.contains '"' then '"' else '\''

def quotedChar (quote c : Char) : List Char :=
  if c == quote || c == '\\' then ['\\', c]
  else if c == '\t' then ['\\', 't']
  else if c == '\n' then ['\\', 'n']
  else if c == '\r' then ['\\', 'r']
  else if isPrinting c then [c]
  else if c.toNat < 0x100 then '\\' :: 'x' :: (hexDigits 2 c.toNat).toList
  else if c.toNat < 0x10000 then '\\' :: 'u' :: (hexDigits 4 c.toNat).toList
  else '\\' :: 'U' :: (hexDigits 8 c.toNat).toList

def quoted (text : String) : String :=
  let chars := text.toList
  let quote := quoteFor chars
  String.ofList (quote :: chars.flatMap (quotedChar quote) ++ [quote])

end CondSat.Text
