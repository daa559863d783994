import CondSat.Analysis.Options
import CondSat.Analysis.Session
import CondSat.Solver.ModelText

/-! # Verdicts

The outcome of checking one formula. -/
set_option autoImplicit false
namespace CondSat.Analysis

open Solver (Answer Constant Oracle Term Value)

inductive Verdict where
  | unsatisfiable
  /-- With the text of a model. -/
  | satisfiable (model : String)
  /-- With the solver's reason. -/
  | inconclusive (reason : String)
  deriving DecidableEq, Repr

namespace Verdict

def kind : Verdict → String
  | unsatisfiable => "unsatisfiable"
  | satisfiable _ => "satisfiable"
  | inconclusive _ => "inconclusive"

def text : Verdict → String
  | unsatisfiable => "Unsatisfiable"
  | satisfiable model => "Satisfiable\n" ++ model
  | inconclusive reason => "Inconclusive: " ++ reason

end Verdict

structure Checked where
  verdict : Verdict
  witness : List (String × Value)
  events : List Event
  deriving Repr

/-- Check a formula.  Of the declared constants the model lists those that
occur in the formula: one bound under a node that was later replaced by an
unknown does not. -/
def check (oracle : Oracle) (options : Options) (formula : Term) (declared : List Constant) :
    Checked :=
  match oracle options.timeout formula with
  | .unsat => ⟨.unsatisfiable, [], [.problem formula, .unsatisfiable]⟩
  | .unknown reason => ⟨.inconclusive reason, [], [.problem formula, .undecided reason]⟩
  | .sat model =>
    let used := formula.freeNames
    let declared := declared.filter fun constant => used.contains constant.1
    let text := model.text declared
    ⟨.satisfiable text, model.entries declared, [.problem formula, .satisfiable text]⟩

end CondSat.Analysis
