import CondSat.Solver.Value

/-! # Solver terms

Terms carry no sorts of their own except at constants, which are identified by
name and sort.  `sort?` is the sort judgement: it is defined exactly on the
terms that are well sorted at every application. -/
set_option autoImplicit false
namespace CondSat.Solver

open Ieee (Format)

inductive BitsOp where
  | add | sub | mul | sdiv | udiv | srem | urem | and | or | xor | shl | ashr | lshr
  deriving DecidableEq, Repr

inductive BitsUnary where
  | neg | not
  deriving DecidableEq, Repr

inductive BitsOrder where
  | slt | sle | ult | ule
  deriving DecidableEq, Repr

inductive FloatOp where
  | add | sub | mul | div
  deriving DecidableEq, Repr

inductive FloatOrder where
  | eq | lt | le | gt | ge
  deriving DecidableEq, Repr

def BitsOp.head : BitsOp → String
  | add => "bvadd"
  | sub => "bvsub"
  | mul => "bvmul"
  | sdiv => "bvsdiv"
  | udiv => "bvudiv"
  | srem => "bvsrem"
  | urem => "bvurem"
  | and => "bvand"
  | or => "bvor"
  | xor => "bvxor"
  | shl => "bvshl"
  | ashr => "bvashr"
  | lshr => "bvlshr"

def BitsUnary.head : BitsUnary → String
  | neg => "bvneg"
  | not => "bvnot"

def BitsOrder.head : BitsOrder → String
  | slt => "bvslt"
  | sle => "bvsle"
  | ult => "bvult"
  | ule => "bvule"

def FloatOp.head : FloatOp → String
  | add => "fp.add"
  | sub => "fp.sub"
  | mul => "fp.mul"
  | div => "fp.div"

def FloatOrder.head : FloatOrder → String
  | eq => "fp.eq"
  | lt => "fp.lt"
  | le => "fp.leq"
  | gt => "fp.gt"
  | ge => "fp.geq"

inductive Term where
  | const (name : String) (sort : ValueSort)
  | bool (value : Bool)
  | bits (width : Nat) (value : BitVec width)
  | float (format : Format) (pattern : BitVec format.width)
  | not (a : Term)
  | and (a b : Term)
  | or (a b : Term)
  | xor (a b : Term)
  | equal (a b : Term)
  | distinct (a b : Term)
  | bitsBinary (op : BitsOp) (a b : Term)
  | bitsUnary (op : BitsUnary) (a : Term)
  | bitsOrder (op : BitsOrder) (a b : Term)
  | zeroExtend (extra : Nat) (a : Term)
  | extract (high low : Nat) (a : Term)
  | floatBinary (op : FloatOp) (mode a b : Term)
  | floatRem (a b : Term)
  | floatNeg (a : Term)
  | floatOrder (op : FloatOrder) (a b : Term)
  deriving DecidableEq, Repr, Inhabited

namespace Term

def sort? : Term → Option ValueSort
  | const _ sort => some sort
  | bool _ => some .bool
  | bits width _ => some (.bits width)
  | float format _ => some (.float format)
  | not a =>
    match sort? a with
    | some .bool => some .bool
    | _ => none
  | and a b | or a b | xor a b =>
    match sort? a, sort? b with
    | some .bool, some .bool => some .bool
    | _, _ => none
  | equal a b | distinct a b =>
    match sort? a, sort? b with
    | some s, some t => if s = t then some .bool else none
    | _, _ => none
  | bitsBinary _ a b =>
    match sort? a, sort? b with
    | some (.bits v), some (.bits w) => if v = w then some (.bits v) else none
    | _, _ => none
  | bitsUnary _ a =>
    match sort? a with
    | some (.bits width) => some (.bits width)
    | _ => none
  | bitsOrder _ a b =>
    match sort? a, sort? b with
    | some (.bits v), some (.bits w) => if v = w then some .bool else none
    | _, _ => none
  | zeroExtend extra a =>
    match sort? a with
    | some (.bits width) => some (.bits (width + extra))
    | _ => none
  | extract high low a =>
    match sort? a with
    | some (.bits width) => if low ≤ high ∧ high < width then some (.bits (high - low + 1)) else none
    | _ => none
  | floatBinary _ mode a b =>
    match sort? mode, sort? a, sort? b with
    | some .roundingMode, some (.float f), some (.float g) => if f = g then some (.float f) else none
    | _, _, _ => none
  | floatRem a b =>
    match sort? a, sort? b with
    | some (.float f), some (.float g) => if f = g then some (.float f) else none
    | _, _ => none
  | floatNeg a =>
    match sort? a with
    | some (.float f) => some (.float f)
    | _ => none
  | floatOrder _ a b =>
    match sort? a, sort? b with
    | some (.float f), some (.float g) => if f = g then some .bool else none
    | _, _ => none

def constants : Term → List (String × ValueSort)
  | const name sort => [(name, sort)]
  | bool _ | bits _ _ | float _ _ => []
  | not a | bitsUnary _ a | zeroExtend _ a | extract _ _ a | floatNeg a => constants a
  | and a b | or a b | xor a b | equal a b | distinct a b | bitsBinary _ a b | bitsOrder _ a b
  | floatRem a b | floatOrder _ a b => constants a ++ constants b
  | floatBinary _ mode a b => constants mode ++ constants a ++ constants b

def children : Term → List Term
  | const _ _ | bool _ | bits _ _ | float _ _ => []
  | not a | bitsUnary _ a | zeroExtend _ a | extract _ _ a | floatNeg a => [a]
  | and a b | or a b | xor a b | equal a b | distinct a b | bitsBinary _ a b | bitsOrder _ a b
  | floatRem a b | floatOrder _ a b => [a, b]
  | floatBinary _ mode a b => [mode, a, b]

def constantName? : Term → Option String
  | const name _ => some name
  | _ => none

noncomputable def totalSize : List Term → Nat
  | [] => 0
  | term :: rest => sizeOf term + totalSize rest

theorem totalSize_append (pending more : List Term) :
    totalSize (pending ++ more) = totalSize pending + totalSize more := by
  induction pending with
  | nil => exact (Nat.zero_add _).symm
  | cons term rest ih => rw [List.cons_append, totalSize, totalSize, ih, Nat.add_assoc]

theorem totalSize_reverse (pending : List Term) : totalSize pending.reverse = totalSize pending := by
  induction pending with
  | nil => rfl
  | cons term rest ih =>
      rw [List.reverse_cons, totalSize_append, ih, totalSize, totalSize, totalSize, Nat.add_zero,
        Nat.add_comm]

theorem totalSize_children_lt (term : Term) : totalSize term.children < sizeOf term := by
  cases term <;> simp +arith [children, totalSize]

/-- The names collected so far and those of the constants in the pending terms.
A term is looked into where it is met first, the last child of an application
before the others. -/
def collectNames (pending seen : List Term) (names : List String) : List String :=
  match pending with
  | [] => names
  | term :: rest =>
    if seen.contains term then collectNames rest seen names
    else match term.constantName? with
      | some name => collectNames rest (term :: seen) (names.insert name)
      | none => collectNames (term.children.reverse ++ rest) (term :: seen) names
termination_by totalSize pending
decreasing_by
  all_goals
    have smaller := totalSize_children_lt term
    simp only [totalSize_append, totalSize_reverse, totalSize]
    omega

/-- The names of the constants of a term, each once. -/
def freeNames (term : Term) : List String := collectNames [term] [] []

def isBitsNumeral : Term → Bool
  | bits _ _ => true
  | _ => false

def quotedName (name : String) : String :=
  "\"" ++ String.ofList (name.toList.flatMap fun c =>
    if c == '"' || c == '\\' then ['\\', c] else [c]) ++ "\""

def isSymbolChar (c : Char) : Bool := c.isAlphanum || "~!@$%^&*_-+=<>.?/".toList.contains c

/-- A name as a symbol: between bars unless it is made of symbol characters
and does not start with a digit. -/
def symbolText (name : String) : String :=
  let chars := name.toList
  if chars.all isSymbolChar && !(chars.head?.any Char.isDigit) then name
  else "|" ++ String.ofList (chars.flatMap fun c =>
    if c == '|' || c == '\\' then ['\\', c] else [c]) ++ "|"

def application (head : String) (arguments : List String) : String :=
  "(" ++ " ".intercalate (head :: arguments) ++ ")"

def floatNumeral (format : Format) (pattern : Nat) : String :=
  let shown := if format.isNaN pattern then "nan"
    else "0x" ++ Text.hexDigits (format.width / 4) pattern
  application "fp" [toString format.width, shown]

/-- Equality and disequality are written with a lone numeral second. -/
def symmetric (head : String) (a b : Term) (shownA shownB : String) : String :=
  if a.isBitsNumeral && !b.isBitsNumeral then application head [shownB, shownA]
  else application head [shownA, shownB]

def render : Term → String
  | const name _ => quotedName name
  | bool value => if value then "true" else "false"
  | bits width value => application "bv" [toString width, toString value.toNat]
  | float format pattern => floatNumeral format pattern.toNat
  | not a => application "not" [render a]
  | and a b => application "and" [render a, render b]
  | or a b => application "or" [render a, render b]
  | xor a b => application "xor" [render a, render b]
  | equal a b => symmetric "=" a b (render a) (render b)
  | distinct a b => symmetric "distinct" a b (render a) (render b)
  | bitsBinary op a b => application op.head [render a, render b]
  | bitsUnary op a => application op.head [render a]
  | bitsOrder op a b => application op.head [render a, render b]
  | zeroExtend extra a => application s!"zero_extend {extra}" [render a]
  | extract high low a => application s!"extract {high} {low}" [render a]
  | floatBinary op mode a b => application op.head [render mode, render a, render b]
  | floatRem a b => application "fp.rem" [render a, render b]
  | floatNeg a => application "fp.neg" [render a]
  | floatOrder op a b => application op.head [render a, render b]

end Term

end CondSat.Solver
