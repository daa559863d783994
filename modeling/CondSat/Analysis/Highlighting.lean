import CondSat.Analysis.Analyzer

/-! # Highlightings

What the analysis shows at a node of the source: an error where the condition
can never be true, a hint with a model where it can. -/
set_option autoImplicit false
namespace CondSat.Analysis

open Source (Expr)
open Solver (Oracle)

inductive Severity where
  | hint | suggestion | warning | error
  deriving DecidableEq, Repr

namespace Severity

def all : List Severity := [hint, suggestion, warning, error]

def name : Severity → String
  | hint => "HINT"
  | suggestion => "SUGGESTION"
  | warning => "WARNING"
  | error => "ERROR"

def rank : Severity → Nat
  | hint => 1
  | suggestion => 2
  | warning => 3
  | error => 4

end Severity

structure SeverityDescriptor where
  id : String
  title : String
  description : String
  severity : Severity
  group : String

def groupId : String := "SatisfiabilityIssues"

def groupTitle : String := "[Agent Zero] Satisfiability issues"

inductive Highlighting where
  | unsatisfiable (node : Expr)
  | satisfiable (node : Expr) (model : String)
  deriving Repr

namespace Highlighting

def node : Highlighting → Expr
  | unsatisfiable node => node
  | satisfiable node _ => node

def id : Highlighting → String
  | unsatisfiable _ => "AgentZero.UnsatisfiableExpression"
  | satisfiable _ _ => "AgentZero.SatisfiableExpression"

def className : Highlighting → String
  | unsatisfiable _ => "UnsatisfiableExpressionError"
  | satisfiable _ _ => "SatisfiableExpressionHint"

def severity : Highlighting → Severity
  | unsatisfiable _ => .error
  | satisfiable _ _ => .hint

def tooltip : Highlighting → String
  | unsatisfiable _ => "Expression is unsatisfiable"
  | satisfiable _ model => "Expression is satisfiable, model is: \n\n" ++ model

def text (h : Highlighting) : String :=
  h.severity.name ++ ": '" ++ h.node.text.display ++ "': " ++ h.tooltip

def descriptors : List SeverityDescriptor :=
  [⟨"AgentZero.UnsatisfiableExpression", "Expression is unsatisfiable",
    "Expression is detected to be never satisfiable with any given variables values", .error, groupId⟩,
   ⟨"AgentZero.SatisfiableExpression", "Expression is satisfiable",
    "Expression is detected to be satisfiable with given model of variables", .hint, groupId⟩]

def ofVerdict? (options : Options) (node : Expr) : Verdict → Option Highlighting
  | .unsatisfiable => some (.unsatisfiable node)
  | .satisfiable model => if options.reportsHints then some (.satisfiable node model) else none
  | .inconclusive _ => none

end Highlighting

def highlight [Limits] (oracle : Oracle) (options : Options) (node : Expr) :
    Except Failure (Option Highlighting) :=
  (analyze oracle options node).outcome.map fun verdict =>
    verdict.bind (Highlighting.ofVerdict? options node)

/-- Highlight nodes one after the other; the first failure ends it. -/
def highlightAll [Limits] (oracle : Oracle) (options : Options) :
    List Expr → Except Failure (List Highlighting)
  | [] => .ok []
  | node :: rest => do
    let first ← highlight oracle options node
    let others ← highlightAll oracle options rest
    return first.toList ++ others

/-- Highlight every node of a tree, parents before children. -/
def highlightTree [Limits] (oracle : Oracle) (options : Options) (root : Expr) :
    Except Failure (List Highlighting) :=
  highlightAll oracle options root.walk

end CondSat.Analysis
