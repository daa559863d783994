import CondSat.Solver.Eval

/-! # Guessing models

Most satisfiable conditions already hold at the numbers they mention, next to
them, or at the ends of a range.  Before a search is started the formula is
evaluated at a number of such values; the choice is fixed, so that the same
formula always gets the same guess. -/
set_option autoImplicit false
namespace CondSat.Solver

open Ieee (Format RoundingMode)

namespace Term

def numerals : Term → List (Nat × Nat)
  | bits width value => [(width, value.toNat)]
  | float format pattern => [(format.width, pattern.toNat)]
  | const _ _ | bool _ => []
  | not a | bitsUnary _ a | zeroExtend _ a | extract _ _ a | floatNeg a => numerals a
  | and a b | or a b | xor a b | equal a b | distinct a b | bitsBinary _ a b | bitsOrder _ a b
  | floatRem a b | floatOrder _ a b | floatBinary _ _ a b => numerals a ++ numerals b

end Term

def scatter (seed : Nat) : Nat := (6364136223846793005 * seed + 1442695040888963407) % Word.count 64

/-- Patterns worth trying at a width: the ends of both ranges, and the
numerals of the formula with their neighbours. -/
def candidatePatterns (numerals : List (Nat × Nat)) (width : Nat) : Array Nat :=
  let size := Word.count width
  let near := numerals.flatMap fun (w, value) =>
    if w = width then [value, (value + 1) % size, (value + size - 1) % size] else []
  ([0, 1, size - 1, size / 2 - 1, size / 2] ++ near).toArray

/-- The value for the constant at a place of the formula in one round: an even
number picks a candidate, an odd one is scattered itself. -/
def guessValue (numerals : List (Nat × Nat)) (choice : Nat) : ValueSort → Option Value
  | .bool => some (.bool (choice / 8 % 2 == 1))
  | .bits width => some (.bits width (BitVec.ofNat width (pattern width)))
  | .float format => some (.ofPattern format (pattern format.width))
  | _ => none
where
  pattern (width : Nat) : Nat :=
    let candidates := candidatePatterns numerals width
    if choice / Word.count 33 % 4 = 0 then
      choice / Word.count 7 * (choice % Word.count 20) % Word.count width
    else candidates.getD (choice / Word.count 13 % candidates.size) 0

def guessRound (numerals : List (Nat × Nat)) (mode : RoundingMode) :
    List (String × ValueSort) → Nat → List ((String × ValueSort) × Value)
  | [], _ => []
  | constant :: rest, seed =>
    let next := scatter seed
    let others := guessRound numerals mode rest next
    if constant.2 = .roundingMode then (constant, .mode mode) :: others
    else
      match guessValue numerals next constant.2 with
      | some value => (constant, value) :: others
      | none => others

end CondSat.Solver
