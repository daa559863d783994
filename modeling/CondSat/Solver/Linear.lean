import CondSat.Solver.Eval

/-! # Linear normal form

Sums, differences and constant multiples of bit-vectors are brought to one
form before a search: a sum of distinct parts with constant factors, in a
fixed order.  An equation is sorted so that no part stands on both sides.
Laws such as associativity, which are hard to find bit by bit, then hold by
syntax. -/
set_option autoImplicit false
namespace CondSat.Solver

/-- The sum of a constant and of parts with factors, modulo `2 ^ width`. -/
structure Linear where
  constant : Nat
  parts : List (Term × Nat)

namespace Linear

def addPart (width : Nat) (part : Term) (factor : Nat) : List (Term × Nat) → List (Term × Nat)
  | [] => if factor % Word.count width = 0 then [] else [(part, factor % Word.count width)]
  | (other, known) :: rest =>
    if other = part then
      let total := (known + factor) % Word.count width
      if total = 0 then rest else (other, total) :: rest
    else (other, known) :: addPart width part factor rest

def addMultiple (width : Nat) (a : Linear) (factor : Nat) (b : Linear) : Linear :=
  ⟨(a.constant + factor * b.constant) % Word.count width,
   b.parts.foldl (fun parts (part, known) => addPart width part (factor * known) parts) a.parts⟩

def zero : Linear := ⟨0, []⟩

def minusOne (width : Nat) : Nat := Word.count width - 1

def ofTerm (width : Nat) : Term → Linear
  | .bits _ value => ⟨value.toNat % Word.count width, []⟩
  | .bitsBinary .add a b => addMultiple width (ofTerm width a) 1 (ofTerm width b)
  | .bitsBinary .sub a b => addMultiple width (ofTerm width a) (minusOne width) (ofTerm width b)
  | .bitsUnary .neg a => addMultiple width zero (minusOne width) (ofTerm width a)
  | .bitsUnary .not a =>
    addMultiple width ⟨minusOne width, []⟩ (minusOne width) (ofTerm width a)
  | .bitsBinary .mul a b =>
    let left := ofTerm width a
    let right := ofTerm width b
    if left.parts.isEmpty then addMultiple width zero left.constant right
    else if right.parts.isEmpty then addMultiple width zero right.constant left
    else ⟨0, [(.bitsBinary .mul a b, 1)]⟩
  | .bitsBinary .shl a (.bits _ places) =>
    if places.toNat < width then addMultiple width zero (Word.count places.toNat) (ofTerm width a)
    else zero
  | term => ⟨0, [(term, 1)]⟩

def numeral (width value : Nat) : Term := .bits width (BitVec.ofNat width value)

def partTerm (width : Nat) (part : Term × Nat) : Term :=
  if part.2 = 1 then part.1 else .bitsBinary .mul part.1 (numeral width part.2)

def ordered (parts : List (Term × Nat)) : List (Term × Nat) :=
  ((parts.map fun part => (part.1.render, part)).mergeSort fun a b => a.1 ≤ b.1).map (·.2)

def sumOf (width : Nat) : List (Term × Nat) → Option Term
  | [] => none
  | part :: rest =>
    some (rest.foldl (fun sum part => .bitsBinary .add sum (partTerm width part))
      (partTerm width part))

/-- The parts with small factors, and those with factors near the modulus,
which are as well subtracted. -/
def split (width : Nat) (linear : Linear) : Option Term × Option Term :=
  let (low, high) := (ordered linear.parts).partition fun part => 2 * part.2 ≤ Word.count width
  (sumOf width low, sumOf width (high.map fun part => (part.1, Word.count width - part.2)))

def plusConstant (width : Nat) (sum : Option Term) (constant : Nat) : Term :=
  match sum with
  | none => numeral width constant
  | some sum =>
    if constant = 0 then sum else .bitsBinary .add sum (numeral width constant)

def toTerm (width : Nat) (linear : Linear) : Term :=
  match linear.split width with
  | (low, none) => plusConstant width low linear.constant
  | (low, some high) => .bitsBinary .sub (plusConstant width low linear.constant) high

def sides (width : Nat) (linear : Linear) : Term × Term :=
  let opposite := (Word.count width - linear.constant) % Word.count width
  match linear.split width with
  | (none, none) => (numeral width linear.constant, numeral width 0)
  | (none, some high) => (high, numeral width linear.constant)
  | (some low, high) => (low, plusConstant width high opposite)

end Linear

namespace Term

def linearRoot (term : Term) : Term :=
  match term, term.sort? with
  | .bitsBinary .add _ _, some (.bits width) => (Linear.ofTerm width term).toTerm width
  | .bitsBinary .sub _ _, some (.bits width) => (Linear.ofTerm width term).toTerm width
  | .bitsBinary .mul _ _, some (.bits width) => (Linear.ofTerm width term).toTerm width
  | .bitsUnary .neg _, some (.bits width) => (Linear.ofTerm width term).toTerm width
  | _, _ => term

def linearSides (a b : Term) : Term × Term :=
  match a.sort? with
  | some (.bits width) => (Linear.ofTerm width (.bitsBinary .sub a b)).sides width
  | _ => (a, b)

def linearise : Term → Term
  | not a => .not (linearise a)
  | and a b => .and (linearise a) (linearise b)
  | or a b => .or (linearise a) (linearise b)
  | xor a b => .xor (linearise a) (linearise b)
  | equal a b =>
    let (a, b) := linearSides (linearise a) (linearise b)
    .equal a b
  | distinct a b =>
    let (a, b) := linearSides (linearise a) (linearise b)
    .distinct a b
  | bitsBinary op a b => linearRoot (.bitsBinary op (linearise a) (linearise b))
  | bitsUnary op a => linearRoot (.bitsUnary op (linearise a))
  | bitsOrder op a b => .bitsOrder op (linearise a) (linearise b)
  | zeroExtend extra a => .zeroExtend extra (linearise a)
  | extract high low a => .extract high low (linearise a)
  | term => term

end Term

end CondSat.Solver
