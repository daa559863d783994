import CondSat.Solver.Eval
import CondSat.Source.Expr

/-! # Terms with their sorts

A term travels with its sort.  Before an operator uses a term it projects it
onto the sort it needs; a projection that does not fit names the sort it
expected and the one it got. -/
set_option autoImplicit false
namespace CondSat

open Solver (Term ValueSort)

namespace Source

/-- The solver sort of the values of a kind; signedness is not part of it. -/
def Kind.sort? (kind : Kind) : Option ValueSort :=
  match kind with
  | .bool => some .bool
  | .float => some (.float .single)
  | .double => some (.float .double)
  | _ => kind.integralWidth?.map .bits

def SourceType.sort? (type : SourceType) : Option ValueSort := type.valueKind.sort?

def SourceType.isSupported (type : SourceType) : Bool :=
  type.valueKind == .bool || type.valueKind.bitWidth?.isSome

end Source

namespace Analysis

structure SortMismatch where
  expected : String
  actual : String
  deriving DecidableEq, Repr

def SortMismatch.message (mismatch : SortMismatch) : String :=
  "Sort mismatch: expected " ++ mismatch.expected ++ ", got " ++ mismatch.actual

structure TypedTerm where
  term : Term
  sort : ValueSort
  deriving DecidableEq, Repr, Inhabited

namespace TypedTerm

def constant (name : String) (sort : ValueSort) : Except SortMismatch TypedTerm :=
  match sort.kind? with
  | some _ => .ok ⟨.const name sort, sort⟩
  | none => .error ⟨"Bool, BitVec or FloatingPoint", sort.describe⟩

def asBool (t : TypedTerm) : Except SortMismatch Term :=
  match t.sort with
  | .bool => .ok t.term
  | sort => .error ⟨"Bool", sort.describe⟩

def asBits (t : TypedTerm) (width : Option Nat) : Except SortMismatch Term :=
  match t.sort, width with
  | .bits _, none => .ok t.term
  | .bits actual, some width =>
    if actual = width then .ok t.term else .error ⟨s!"BitVec({width})", t.sort.describe⟩
  | sort, some (width + 1) => .error ⟨s!"BitVec({width + 1})", sort.describe⟩
  | sort, _ => .error ⟨"BitVec", sort.describe⟩

/-- Project onto floating-point numbers: of the sort of another term, of a
given storage width, both, or any. -/
def asFloat (t : TypedTerm) (like : Option TypedTerm) (width : Option Nat) :
    Except SortMismatch Term :=
  match t.sort with
  | .float format =>
    if like.any (·.sort ≠ t.sort) then
      .error ⟨(like.getD t).sort.describe, t.sort.describe⟩
    else
      match width with
      | some width =>
        if format.width = width then .ok t.term
        else .error ⟨s!"FP of {width} bits", t.sort.describe⟩
      | none => .ok t.term
  | sort => .error ⟨"FloatingPoint", sort.describe⟩

/-- A constant is shown by its name, as a symbol where it is a floating-point
number, with its sort. -/
def text (t : TypedTerm) : String :=
  let shown := match t.term with
    | .const name (.float _) => Term.symbolText name
    | .const name _ => name
    | term => term.render
  shown ++ " : " ++ t.sort.describe

end TypedTerm

end Analysis

end CondSat
