import CondSat.Analysis.Analyzer
import CondSat.Logging.State

/-! # Analyses with their records

While a condition is analysed the diagnostic context names its text, so an event that
the logger of its channel takes becomes a record that carries it.  However the analysis
ends, the context names no expression afterwards.

A record cannot be made while the context names an attribute that every record has.  This
ends the analysis where it would have been made, and nothing is reported after that. -/
set_option autoImplicit false
namespace CondSat.Logging

open Analysis (Event Options Report Verdict analyze isCandidate)
open Source (Expr)
open Solver (Oracle)

inductive Interruption where
  | failure (failure : Analysis.Failure)
  /-- A record could not be made. -/
  | clash (found : Clash)
  deriving DecidableEq, Repr

namespace State

/-- The record of an event, when its logger takes it. -/
def record? (state : State) (event : Event) : Except Clash (Option Record) × State :=
  let (number, state) := state.getLogger event.channel.name
  if state.registry.isEnabled number event.level.rank then
    ((Record.make event.channel.name event.level.rank event.message [] state.context).map some,
      state)
  else (.ok none, state)

/-- The records of events in order, up to the first that cannot be made. -/
def recordAll (state : State) : List Event → List Record × Option Clash × State
  | [] => ([], none, state)
  | event :: rest =>
    match state.record? event with
    | (.error found, state) => ([], some found, state)
    | (.ok made, state) =>
      let (records, clash, state) := state.recordAll rest
      (made.toList ++ records, clash, state)

/-- Work while the context names an expression.  It is forgotten however the work ends. -/
def during {α : Type} (state : State) (text : Json) (work : State → α × State) : α × State :=
  let (result, state) := work { state with context := state.context.enter text }
  (result, { state with context := state.context.leave })

end State

/-- An analysis, its records, and the state of logging it leaves behind. -/
structure Trace where
  outcome : Except Interruption (Option Verdict)
  records : List Record
  state : State

def reported (report : Report) (state : State) :
    (Except Interruption (Option Verdict) × List Record) × State :=
  match state.recordAll report.events with
  | (records, some found, state) => ((.error (.clash found), records), state)
  | (records, none, state) => ((report.outcome.mapError .failure, records), state)

def trace [Limits] (oracle : Oracle) (options : Options) (state : State) (node : Expr) : Trace :=
  if isCandidate node then
    let ((outcome, records), state) :=
      state.during node.text (reported (analyze oracle options node))
    ⟨outcome, records, state⟩
  else ⟨.ok none, [], state⟩

end CondSat.Logging
