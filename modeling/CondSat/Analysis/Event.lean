import CondSat.Analysis.Typed

/-! # Events of an analysis

What an analysis has to tell while it runs.  Every event has a level, a
channel and a message; which of them anybody reads is decided elsewhere. -/
set_option autoImplicit false
namespace CondSat.Analysis

open Source (Kind SourceType)

inductive Level where
  | debug | info | warning | error | critical
  deriving DecidableEq, Repr

namespace Level

def name : Level → String
  | debug => "DEBUG"
  | info => "INFO"
  | warning => "WARNING"
  | error => "ERROR"
  | critical => "CRITICAL"

def rank : Level → Nat
  | debug => 10
  | info => 20
  | warning => 30
  | error => 40
  | critical => 50

end Level

inductive Channel where
  | analyzer | formulas | solver | problems | settings
  deriving DecidableEq, Repr

def Channel.name : Channel → String
  | analyzer => "AgentZero"
  | formulas => "AgentZero.translator"
  | solver => "AgentZero.solver"
  | problems => "AgentZero.smt2"
  | settings => "AgentZero.config"

inductive Event where
  /-- A constant's kind has no encoding. -/
  | noEncoding (value : Json) (kind : Kind)
  /-- A variable's type has no sort. -/
  | noSort (type : SourceType) (name : String)
  /-- A variable was bound for the first time. -/
  | bound (unknown : TypedTerm)
  /-- The rounding mode was created. -/
  | roundingModeCreated (name : String)
  /-- A node of a shape that is not modelled. -/
  | unmodelledNode (text : Json)
  /-- A node whose operator is not resolved or not predefined. -/
  | notPredefined (text : Json) (status : String)
  /-- A binary operator that is recognised and not modelled. -/
  | unmodelledBinary (operator : String) (returns : SourceType) (text : Json)
  /-- A unary operator that is recognised and not modelled. -/
  | unmodelledUnary (operator : String) (text : Json)
  /-- A binary operator that is not known for the type it returns. -/
  | unknownBinary (family operator : String) (text : Json)
  /-- A unary operator that is not known. -/
  | unknownUnary (operator : String) (text : Json)
  /-- The operands of a binary operator have the wrong sorts. -/
  | operandsDoNotFit (operator : String) (text : Json) (mismatch : SortMismatch)
  /-- The operand of a unary operator has the wrong sort. -/
  | operandDoesNotFit (operator : String) (text : Json) (mismatch : SortMismatch)
  /-- A whole tree has no formula. -/
  | noFormula (text : Json)
  /-- The formula of a condition is not a truth value. -/
  | notBoolean (mismatch : SortMismatch)
  /-- A tree is nested too deeply. -/
  | tooDeep
  /-- A problem was handed to the solver. -/
  | problem (formula : Solver.Term)
  | unsatisfiable
  | satisfiable (model : String)
  | undecided (reason : String)
  deriving DecidableEq, Repr

namespace Event

def level : Event → Level
  | unknownBinary .. | unknownUnary .. | notBoolean _ => .error
  | problem _ | unsatisfiable | undecided _ => .info
  | _ => .debug

def channel : Event → Channel
  | roundingModeCreated _ | notBoolean _ | tooDeep => .analyzer
  | problem _ => .problems
  | unsatisfiable | satisfiable _ | undecided _ => .solver
  | _ => .formulas

def message : Event → String
  | noEncoding value kind =>
    "No constant encoding for " ++ value.quoted ++ " of type " ++ kind.name
  | noSort type name => "No sort for " ++ type.name ++ ", cannot bind " ++ name
  | bound unknown => "Bound free variable " ++ unknown.text
  | roundingModeCreated name => "Created rounding mode constant " ++ name
  | unmodelledNode text => "Unsupported expression '" ++ text.display ++ "'"
  | notPredefined text status =>
    "Operator of '" ++ text.display ++ "' is not a resolved predefined operator (" ++ status ++ ")"
  | unmodelledBinary operator returns text =>
    "Unsupported operator " ++ operator ++ " returning " ++ returns.name ++ " in '"
      ++ text.display ++ "'"
  | unmodelledUnary operator text =>
    "Unsupported operator " ++ operator ++ " in '" ++ text.display ++ "'"
  | unknownBinary family operator text =>
    "Unknown " ++ family ++ " operator: " ++ operator ++ " in '" ++ text.display ++ "'"
  | unknownUnary operator text =>
    "Unknown unary operator: " ++ operator ++ " in '" ++ text.display ++ "'"
  | operandsDoNotFit operator text mismatch =>
    "Operand sorts do not fit " ++ operator ++ " in '" ++ text.display ++ "': " ++ mismatch.message
  | operandDoesNotFit operator text mismatch =>
    "Operand sort does not fit " ++ operator ++ " in '" ++ text.display ++ "': " ++ mismatch.message
  | noFormula text => "Could not translate '" ++ text.display ++ "'"
  | notBoolean mismatch =>
    "Boolean expression translated to a non-boolean term: " ++ mismatch.message
  | tooDeep => "Expression is nested too deeply to analyze"
  | problem formula => formula.render ++ "(check-sat)\n"
  | unsatisfiable => "Formula is unsatisfiable"
  | satisfiable model => "Formula is satisfiable:\n" ++ model
  | undecided reason => "Solver could not decide the formula: " ++ reason

end Event

end CondSat.Analysis
