/-! # Options of an analysis -/
set_option autoImplicit false
namespace CondSat.Analysis

structure Options where
  /-- The solver's time limit in milliseconds; zero is no limit. -/
  timeout : Nat := 0
  /-- Whether satisfiable conditions are reported too. -/
  reportsHints : Bool := true
  deriving DecidableEq, Repr, Inhabited

inductive OptionsFault where
  | negativeTimeout (shown : String)
  deriving DecidableEq, Repr

def OptionsFault.message : OptionsFault → String
  | negativeTimeout shown => "timeout_ms must be >= 0, got " ++ shown

def Options.build (timeout : Int) (reportsHints : Bool) : Except OptionsFault Options :=
  if timeout < 0 then .error (.negativeTimeout (toString timeout))
  else .ok ⟨timeout.toNat, reportsHints⟩

end CondSat.Analysis
