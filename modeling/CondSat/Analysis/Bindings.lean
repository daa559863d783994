import CondSat.Analysis.Event

/-! # Bindings of free variables

Every unknown of a formula is a named constant, and one key always means one
constant.  Names are handed out once: a second declaration called `x` becomes
`x!1`, a third `x!2`, so that different unknowns never share a constant. -/
set_option autoImplicit false
namespace CondSat.Analysis

open Source (Declaration SourceType)

inductive Key where
  /-- A local or a parameter. -/
  | declaration (declaration : Declaration)
  /-- A node that is not modelled, by its label. -/
  | unmodelled (label : Json)
  /-- The rounding mode of the run. -/
  | roundingMode
  /-- Any other label. -/
  | label (label : Json)
  deriving DecidableEq, Repr

structure Bindings where
  bound : List (Key × TypedTerm) := []
  reserved : List (Key × String) := []
  deriving Repr

namespace Bindings

def get? (bindings : Bindings) (key : Key) : Option TypedTerm := bindings.bound.lookup key

def taken (bindings : Bindings) : List String := bindings.reserved.map (·.2)

/-- The candidates for a name: the name itself, then numbered ones.  One of
the first `taken.length + 1` is free. -/
def candidates (name : String) (count : Nat) : List String :=
  name :: (List.range count).map fun index => name ++ "!" ++ toString (index + 1)

def freshName (taken : List String) (name : String) : String :=
  ((candidates name taken.length).find? fun candidate => !taken.contains candidate).getD name

/-- The name reserved for a key, reserving a free one on first use. -/
def reserve (bindings : Bindings) (key : Key) (name : String) : String × Bindings :=
  match bindings.reserved.lookup key with
  | some reserved => (reserved, bindings)
  | none =>
    let fresh := freshName bindings.taken name
    (fresh, { bindings with reserved := bindings.reserved ++ [(key, fresh)] })

def insert (bindings : Bindings) (key : Key) (term : TypedTerm) : Bindings :=
  { bindings with bound := bindings.bound ++ [(key, term)] }

/-- The constant for a key, made on first use.  There is none when the type
has no sort.  Reports what it did. -/
def bind (bindings : Bindings) (key : Key) (type : SourceType) (name : String) :
    Option TypedTerm × Bindings × List Event :=
  match bindings.get? key with
  | some term => (some term, bindings, [])
  | none =>
    match type.sort? with
    | none => (none, bindings, [.noSort type name])
    | some sort =>
      let (unique, reserved) := bindings.reserve key name
      let term : TypedTerm := ⟨.const unique sort, sort⟩
      (some term, reserved.insert key term, [.bound term])

def declarations (bindings : Bindings) : List (String × Solver.ValueSort) :=
  bindings.bound.flatMap (·.2.term.constants)

end Bindings

end CondSat.Analysis
