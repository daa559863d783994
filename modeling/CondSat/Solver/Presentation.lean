import CondSat.Solver.ModelText

/-! # Presenting the models of a solver

A solver's model may define functions besides constants, and what is declared may be a
function too.  Of all these symbols the constants are listed, each name once: the declared
ones first, then those the model defines, by name.  The listing does not look at sorts. -/
set_option autoImplicit false
namespace CondSat.Solver

structure Symbol (S : Type) where
  name : String
  arity : Nat
  sort : S
  deriving DecidableEq, Repr

/-- What is presented of a model: the symbols it defines, the text of the value a constant
has under it, and its dump. -/
structure Presentation (S : Type) where
  defined : List (Symbol S)
  valueText : Symbol S → String
  dump : String

namespace Presentation

variable {S : Type}

/-- Pass over symbols of a name that has been seen, and over functions. -/
def emit : List (Symbol S) → List String → List (Symbol S)
  | [], _ => []
  | symbol :: rest, seen =>
    if seen.contains symbol.name || symbol.arity != 0 then emit rest seen
    else symbol :: emit rest (symbol.name :: seen)

def byName (symbols : List (Symbol S)) : List (Symbol S) :=
  symbols.mergeSort fun a b => a.name ≤ b.name

def listed (p : Presentation S) (declared : List (Symbol S)) : List (Symbol S) :=
  emit (declared ++ byName p.defined) []

def line (p : Presentation S) (symbol : Symbol S) : String :=
  symbol.name ++ " = " ++ p.valueText symbol

def text (p : Presentation S) (declared : List (Symbol S)) : String :=
  let lines := (p.listed declared).map p.line
  let block := if lines.isEmpty then [] else "CONSTANTS:" :: lines ++ [""]
  "\n".intercalate (block ++ ["MODEL:", p.dump])

end Presentation

def Symbol.ofConstant (constant : Constant) : Symbol ValueSort := ⟨constant.1, 0, constant.2⟩

/-- The text of the value of a constant; unbounded numbers have no `Value` and are zero. -/
def Model.valueText (model : Model) (symbol : Symbol ValueSort) : String :=
  match model.assignment symbol.name symbol.sort, symbol.sort with
  | some value, _ => value.text
  | none, .real => "0.0"
  | none, _ => "0"

def Model.presentation (model : Model) : Presentation ValueSort :=
  ⟨model.map fun entry => .ofConstant entry.1, model.valueText, model.dump⟩

end CondSat.Solver
