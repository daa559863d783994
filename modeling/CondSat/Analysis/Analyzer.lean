import CondSat.Analysis.Formula
import CondSat.Analysis.Verdict

/-! # Analysing conditions

Only boolean operator nodes are worth a solver call.  Each is analysed in a
session of its own; the report says what came out and what was reported on the
way. -/
set_option autoImplicit false
namespace CondSat.Analysis

open Source (Expr)
open Solver (Oracle Value)

def isCandidate (node : Expr) : Bool :=
  match node with
  | .unary .. | .binary .. => node.type.isBool
  | _ => false

structure Report where
  /-- No verdict when the node is no candidate or has no formula. -/
  outcome : Except Failure (Option Verdict)
  /-- The values of the model of a satisfiable condition. -/
  witness : List (String × Value)
  events : List Event

def analyze [Limits] (oracle : Oracle) (options : Options) (node : Expr) : Report :=
  if !isCandidate node then ⟨.ok none, [], []⟩
  else
    match Build.outcome (formulate node) .start with
    | (.error .tooDeep, progress) => ⟨.ok none, [], progress.events ++ [.tooDeep]⟩
    | (.error failure, progress) => ⟨.error failure, [], progress.events⟩
    | (.ok none, progress) => ⟨.ok none, [], progress.events⟩
    | (.ok (some term), progress) =>
      match term.asBool with
      | .error mismatch => ⟨.ok none, [], progress.events ++ [.notBoolean mismatch]⟩
      | .ok formula =>
        let declared := match progress.session with
          | .closed => []
          | .opened run => run.bindings.declarations
        let checked := check oracle options formula declared
        ⟨.ok (some checked.verdict), checked.witness, progress.events ++ checked.events⟩

end CondSat.Analysis
