import Std.Data.HashMap

/-! # Circuits of clauses

A circuit is a growing set of clauses over numbered variables; literal `2 v` is
the variable `v` and literal `2 v + 1` its negation.  A `Wire` is a known truth
value or a literal.  Every gate simplifies on known inputs and otherwise adds
a variable with the clauses that tie it to its inputs; a gate that is already
there is used again.  Words are lists of wires, the least significant first. -/
set_option autoImplicit false
namespace CondSat.Solver

abbrev Clause := List Nat

inductive Gate where
  | and (a b : Nat)
  | xor (a b : Nat)
  | majority (a b c : Nat)
  deriving BEq, Hashable

structure Circuit where
  clauses : Array Clause := #[]
  /-- The number of variables. -/
  size : Nat := 0
  /-- The outputs of the gates. -/
  gates : Std.HashMap Gate Nat := {}

abbrev Wiring := StateM Circuit

inductive Wire where
  | fixed (value : Bool)
  | literal (code : Nat)
  deriving DecidableEq, Repr, Inhabited

namespace Wire

def negateLiteral (code : Nat) : Nat := if code % 2 = 0 then code + 1 else code - 1

def not : Wire → Wire
  | fixed value => fixed !value
  | literal code => literal (negateLiteral code)

end Wire

namespace Wiring

def add (clause : Clause) : Wiring Unit :=
  modify fun circuit => { circuit with clauses := circuit.clauses.push clause }

def fresh : Wiring Nat :=
  modifyGet fun circuit => (2 * circuit.size, { circuit with size := circuit.size + 1 })

/-- The output of a gate; `clauses` tie a new one to its inputs. -/
def output (gate : Gate) (clauses : Nat → List Clause) : Wiring Wire := do
  match (← get).gates[gate]? with
  | some out => return .literal out
  | none =>
    let out ← fresh
    modify fun circuit => { circuit with gates := circuit.gates.insert gate out }
    (clauses out).forM add
    return .literal out

def input : Wiring Wire := do return .literal (← fresh)

def inputs : Nat → Wiring (List Wire)
  | 0 => pure []
  | count + 1 => do
    let wire ← input
    let rest ← inputs count
    return wire :: rest

open Wire (negateLiteral)

def and (a b : Wire) : Wiring Wire :=
  match a, b with
  | .fixed false, _ | _, .fixed false => pure (.fixed false)
  | .fixed true, wire | wire, .fixed true => pure wire
  | .literal a, .literal b =>
    if a = b then pure (.literal a)
    else if a = negateLiteral b then pure (.fixed false)
    else output (.and (min a b) (max a b)) fun out =>
      [[negateLiteral out, a], [negateLiteral out, b],
       [out, negateLiteral a, negateLiteral b]]

def or (a b : Wire) : Wiring Wire := do return (← and a.not b.not).not

def xor (a b : Wire) : Wiring Wire :=
  match a, b with
  | .fixed value, wire | wire, .fixed value => pure (if value then wire.not else wire)
  | .literal a, .literal b =>
    if a = b then pure (.fixed false)
    else if a = negateLiteral b then pure (.fixed true)
    else output (.xor (min a b) (max a b)) fun out =>
      [[negateLiteral out, a, b], [negateLiteral out, negateLiteral a, negateLiteral b],
       [out, negateLiteral a, b], [out, a, negateLiteral b]]

def majority (a b c : Wire) : Wiring Wire :=
  match a, b, c with
  | .fixed true, x, y | x, .fixed true, y | x, y, .fixed true => or x y
  | .fixed false, x, y | x, .fixed false, y | x, y, .fixed false => and x y
  | .literal a, .literal b, .literal c =>
    if a = b then pure (.literal a)
    else if a = c then pure (.literal a)
    else if b = c then pure (.literal b)
    else if a = negateLiteral b then pure (.literal c)
    else if a = negateLiteral c then pure (.literal b)
    else if b = negateLiteral c then pure (.literal a)
    else
    let low := min a (min b c)
    let high := max a (max b c)
    output (.majority low (a + b + c - low - high) high) fun out =>
      [[negateLiteral out, a, b], [negateLiteral out, a, c], [negateLiteral out, b, c],
       [out, negateLiteral a, negateLiteral b], [out, negateLiteral a, negateLiteral c],
       [out, negateLiteral b, negateLiteral c]]

def mux (choice yes no : Wire) : Wiring Wire :=
  match choice with
  | .fixed value => pure (if value then yes else no)
  | .literal choice => do
    if yes = no then return yes
    let chosen ← and (.literal choice) yes
    let other ← and (.literal (negateLiteral choice)) no
    or chosen other

def all : List Wire → Wiring Wire
  | [] => pure (.fixed true)
  | [wire] => pure wire
  | wire :: rest => do and wire (← all rest)

def zip (gate : Wire → Wire → Wiring Wire) : List Wire → List Wire → Wiring (List Wire)
  | a :: as, b :: bs => do
    let wire ← gate a b
    let rest ← zip gate as bs
    return wire :: rest
  | _, _ => pure []

def sum : List Wire → List Wire → Wire → Wiring (List Wire)
  | a :: as, b :: bs, carry => do
    let half ← xor a b
    let wire ← xor half carry
    let next ← majority a b carry
    let rest ← sum as bs next
    return wire :: rest
  | _, _, _ => pure []

def invert (word : List Wire) : List Wire := word.map Wire.not

def difference (a b : List Wire) : Wiring (List Wire) := sum a (invert b) (.fixed true)

def zeros (width : Nat) : List Wire := List.replicate width (.fixed false)

def negate (word : List Wire) : Wiring (List Wire) :=
  sum (zeros word.length) (invert word) (.fixed true)

def choose (choice : Wire) (yes no : List Wire) : Wiring (List Wire) := zip (mux choice) yes no

/-- The product, by adding a shifted copy of `a` for every bit of `b`. -/
def product (a : List Wire) : List Wire → Wiring (List Wire)
  | [] => pure (zeros a.length)
  | bit :: rest => do
    let others ← product ((Wire.fixed false :: a).take a.length) rest
    if bit = .fixed false then return others
    let row ← zip and (List.replicate a.length bit) a
    sum row others (.fixed false)

def less : List Wire → List Wire → Wire → Wiring Wire
  | a :: as, b :: bs, lower => do less as bs (← majority a.not b lower)
  | _, _, lower => pure lower

def lessThan (a b : List Wire) : Wiring Wire := less a b (.fixed false)

def equal (a b : List Wire) : Wiring Wire := do
  all ((← zip xor a b).map Wire.not)

/-- Turn the order of signed numbers into that of unsigned ones. -/
def flipTop (word : List Wire) : List Wire :=
  word.mapIdx fun index wire => if index + 1 = word.length then wire.not else wire

def top (word : List Wire) : Wire := word.getLast?.getD (.fixed false)

def shiftLeft (places : Nat) (word : List Wire) : List Wire :=
  (zeros (min places word.length) ++ word).take word.length

def shiftRight (fill : Wire) (places : Nat) (word : List Wire) : List Wire :=
  word.drop places ++ List.replicate (min places word.length) fill

/-- Shift by an amount given as a word: one stage for every bit of it. -/
def shiftBy (shift : Nat → List Wire → List Wire) :
    Nat → List Wire → List Wire → Wiring (List Wire)
  | places, bit :: rest, word => do
    let word ← choose bit (shift places word) word
    shiftBy shift (min (2 * places) word.length) rest word
  | _, [], word => pure word

/-- Long division: the quotient and the remainder of the bits seen so far, the
most significant bit of the dividend first.  Dividing by zero gives all ones
and the dividend. -/
def divide (divisor : List Wire) : List Wire → Wiring (List Wire × List Wire)
  | [] => pure ([], zeros divisor.length)
  | bit :: higher => do
    let (quotient, rest) ← divide divisor higher
    let shifted := bit :: rest
    let extended := divisor ++ [.fixed false]
    let fits := (← lessThan shifted extended).not
    let reduced ← difference shifted extended
    let rest ← choose fits reduced shifted
    return (fits :: quotient, rest.take divisor.length)

end Wiring

end CondSat.Solver
