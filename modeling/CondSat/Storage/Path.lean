/-! # Paths

A path is a root and the names below it.  Reading a path drops empty names and
names that mean "here", so two spellings of one path are equal; names that mean
"one up" stay, because where they lead depends on the disk. -/
set_option autoImplicit false
namespace CondSat.Storage

inductive Root where
  /-- At the working directory. -/
  | here
  | top
  /-- At the root that is written with exactly two slashes. -/
  | doubleTop
  deriving DecidableEq, Repr

def Root.text : Root → String
  | here => ""
  | top => "/"
  | doubleTop => "//"

/-- A path. -/
structure Path where
  root : Root
  names : List String
  deriving DecidableEq, Repr

namespace Path

def pieces : List Char → List (List Char)
  | [] => [[]]
  | '/' :: rest => [] :: pieces rest
  | c :: rest =>
    match pieces rest with
    | [] => [[c]]
    | first :: others => (c :: first) :: others

def rootOf : List Char → Root
  | '/' :: '/' :: '/' :: _ => .top
  | '/' :: '/' :: _ => .doubleTop
  | '/' :: _ => .top
  | _ => .here

def isStep (name : String) : Bool := name != "" && name != "."

def ofText (text : String) : Path :=
  ⟨rootOf text.toList, ((pieces text.toList).map String.ofList).filter isStep⟩

def text (path : Path) : String :=
  if path.root = .here ∧ path.names = [] then "."
  else path.root.text ++ "/".intercalate path.names

/-- A path seen from another one: a path with a root of its own stands alone. -/
def join (path other : Path) : Path :=
  if other.root = .here then ⟨path.root, path.names ++ other.names⟩ else other

def child (path : Path) (name : String) : Path := path.join (ofText name)

def parent (path : Path) : Path := ⟨path.root, path.names.dropLast⟩

end Path

end CondSat.Storage
