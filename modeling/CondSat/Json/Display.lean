import CondSat.Json.Value

/-! # Values in messages

How a document value is shown inside a message.  Text stands for itself at the
top and is quoted inside lists and objects; nothing, truth and falsehood have
capitalised names; numbers are shown by their shortest text. -/
set_option autoImplicit false
namespace CondSat.Json

mutual

def quoted : Json → String
  | .null => "None"
  | .bool value => if value then "True" else "False"
  | .int value => toString value
  | .float pattern => Ieee.Format.double.text pattern.toNat
  | .str value => Text.quoted value
  | .torn value => value.quoted
  | .arr items => "[" ++ quotedItems items ++ "]"
  | .obj members => "\x7b" ++ quotedMembers members ++ "\x7d"

def quotedItems : List Json → String
  | [] => ""
  | [item] => quoted item
  | item :: next :: rest => quoted item ++ ", " ++ quotedItems (next :: rest)

def quotedMembers : List (String × Json) → String
  | [] => ""
  | [(key, value)] => Text.quoted key ++ ": " ++ quoted value
  | (key, value) :: next :: rest =>
    Text.quoted key ++ ": " ++ quoted value ++ ", " ++ quotedMembers (next :: rest)

end

def display : Json → String
  | .str value => value
  | .torn value => value.spelled
  | other => other.quoted

/-! ## Texts made of values -/

def ofMarks (marks : List Text.Mark) : Json :=
  if h : marks.any Text.Mark.isHalf = true then .torn ⟨marks, h⟩
  else .str (String.ofList (marks.flatMap Text.Mark.spelled))

def marks : Json → List Text.Mark
  | .torn value => value.marks
  | other => other.display.toList.map .char

/-- Two values one after the other in running text, which is torn where one of them is. -/
def append : Json → Json → Json
  | .torn first, second => ofMarks (first.marks ++ second.marks)
  | first, .torn second => ofMarks (first.marks ++ second.marks)
  | first, second => .str (first.display ++ second.display)

instance : Append Json := ⟨append⟩

@[simp] theorem str_append_str (first second : String) :
    (.str first ++ .str second : Json) = .str (first ++ second) := rfl

def intercalate (between : String) : List Json → Json
  | [] => .str ""
  | [value] => .str "" ++ value
  | value :: next :: rest => value ++ .str between ++ intercalate between (next :: rest)

end CondSat.Json
