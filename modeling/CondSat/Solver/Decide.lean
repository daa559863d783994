import CondSat.Solver.Blasting
import CondSat.Solver.Guess
import CondSat.Solver.Linear
import CondSat.Solver.Search

/-! # Deciding formulas

A formula is decided under every rounding mode in turn, first by guessing and
then by search.  A model that was found is evaluated before it is reported, so that a
reported model satisfies the formula whatever the search did. -/
set_option autoImplicit false
namespace CondSat.Solver

open Ieee (RoundingMode)

abbrev Model := List (Constant × Value)

inductive Answer where
  | unsat
  | sat (model : Model)
  | unknown (reason : String)
  deriving DecidableEq, Repr

/-- A solver: from a formula to an answer, within a time limit in
milliseconds; zero is no limit. -/
abbrev Oracle := Nat → Term → Answer

/-- The assignment of a model, completed by default values. -/
def Model.assignment (model : Model) : Assignment := fun name sort =>
  match model.lookup (name, sort) with
  | some value => some value
  | none => Value.default? sort

def Model.satisfies (model : Model) (formula : Term) : Bool :=
  formula.eval model.assignment == some (.bool true)

def wireValue (values : Array (Option Bool)) : Wire → Bool
  | .fixed value => value
  | .literal code =>
    ((values.getD (code / 2) none).getD false) != (code % 2 == 1)

def wordValue (values : Array (Option Bool)) (word : List Wire) : Nat :=
  word.foldr (fun wire rest => 2 * rest + (if wireValue values wire then 1 else 0)) 0

def Signal.value (values : Array (Option Bool)) : Signal → Value
  | bool wire => .bool (wireValue values wire)
  | bits word => .bits word.length (BitVec.ofNat _ (wordValue values word))
  | float format word => .ofPattern format (wordValue values word)

def guess? (formula : Term) (mode : RoundingMode) : Nat → Option Model
  | 0 => none
  | round + 1 =>
    let model := guessRound formula.numerals mode formula.constants.eraseDups (scatter round)
    if Model.satisfies model formula then some model else guess? formula mode round

def guessLimit : Nat := 200

def searchUnder (mode : RoundingMode) (formula : Term) : Answer :=
  let start : Board := ⟨{}, []⟩
  match (Blasting.term ((formula.fold mode).linearise.fold mode)).run start with
  | (some (.bool root), board) =>
    let outcome := match root with
      | .fixed true => Search.Outcome.satisfied #[]
      | .fixed false => .unsatisfied
      | .literal code =>
        { board.circuit with clauses := board.circuit.clauses.push [code] }.solve
    match outcome with
    | .unsatisfied => .unsat
    | .undecided => .unknown "timeout"
    | .satisfied values =>
      let constants := formula.constants.eraseDups
      let model : Model := constants.filterMap fun key =>
        if key.2 = .roundingMode then some (key, .mode mode)
        else (board.inputs.lookup key).map fun signal => (key, signal.value values)
      if model.satisfies formula then .sat model else .unknown "incomplete"
  | _ => .unknown "incomplete"

def decideUnder (mode : RoundingMode) (formula : Term) : Answer :=
  match guess? formula mode guessLimit with
  | some model => .sat model
  | none => searchUnder mode formula

/-- Decide under the modes in turn: a model under any of them will do, and
there is none only if there is none under each. -/
def decideAny (formula : Term) : List RoundingMode → Answer
  | [] => .unsat
  | mode :: rest =>
    match decideUnder mode formula with
    | .sat model => .sat model
    | .unsat => decideAny formula rest
    | .unknown reason =>
      match decideAny formula rest with
      | .sat model => .sat model
      | _ => .unknown reason

def Term.usesRounding (formula : Term) : Bool :=
  formula.constants.any (·.2 = .roundingMode)

def decide : Oracle := fun _ formula =>
  if formula.usesRounding then decideAny formula RoundingMode.all
  else decideUnder .nearestEven formula

end CondSat.Solver
