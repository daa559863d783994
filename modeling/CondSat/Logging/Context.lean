import CondSat.Json.Display

/-! # Diagnostic contexts

Every record carries a context: named values that say what was being worked on.
A context that holds nothing counts as unset, and an unset context is one with
an empty expression. -/
set_option autoImplicit false
namespace CondSat.Logging

structure Context where
  members : List (String × Json) := [("expression", .str "")]
  deriving DecidableEq, Repr

namespace Context

def expressionKey : String := "expression"

/-- The context in force: an empty one counts as unset. -/
def current (context : Context) : Context :=
  if context.members.isEmpty then {} else context

def get? (context : Context) (key : String) : Option Json := context.current.members.lookup key

def add (context : Context) (key : String) (value : Json) : Context :=
  ⟨Json.setMember key value context.current.members⟩

def remove (context : Context) (key : String) : Context :=
  ⟨context.current.members.filter (·.1 != key)⟩

def enter (context : Context) (text : Json) : Context := context.add expressionKey text

def leave (context : Context) : Context := context.remove expressionKey

end Context

end CondSat.Logging
