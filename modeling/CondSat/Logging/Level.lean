import CondSat.Analysis.Event

/-! # Levels

Levels are numbers; some have names, and two of them have a second name. -/
set_option autoImplicit false
namespace CondSat.Logging

def namedLevels : List (String × Int) :=
  [("CRITICAL", 50), ("FATAL", 50), ("ERROR", 40), ("WARNING", 30), ("WARN", 30), ("INFO", 20),
   ("DEBUG", 10), ("NOTSET", 0)]

def inherited : Int := 0

def defaultLevel : Int := 20

def warningLevel : Int := 30

/-- The capital of a letter.  Two letters that are not in a to z have one in A to Z. -/
def capital : Char → Char
  | 'ı' => 'I'
  | 'ſ' => 'S'
  | c => c.toUpper

def levelNamed? (name : String) : Option Int :=
  namedLevels.lookup (String.ofList (name.toList.map capital))

/-- The name of a level: the first one, or its number. -/
def levelName (level : Int) : String :=
  match namedLevels.find? (·.2 == level) with
  | some (name, _) => name
  | none => s!"Level {level}"

end CondSat.Logging
