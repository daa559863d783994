import CondSat.Analysis.Bindings

/-! # Sessions

A session holds the bindings of one analysis and its rounding mode.  It is
open between `openSession` and `closeSession`; everything that needs bindings
fails on a closed session.  Building a formula threads the session
and the events through every outcome, so that a failure shows what was done
before it. -/
set_option autoImplicit false
namespace CondSat.Analysis

open Source (Declaration Expr SourceType)

structure Run where
  bindings : Bindings
  /-- Whether the rounding mode has been created. -/
  hasRoundingMode : Bool
  deriving Repr

inductive Session where
  | closed
  | opened (run : Run)
  deriving Repr

def roundingModeName : String := "roundingmode"

def roundingMode : TypedTerm := ⟨.const roundingModeName .roundingMode, .roundingMode⟩

/-- The state of a session just opened: a variable called like the rounding
mode will get another name. -/
def Run.initial : Run :=
  ⟨{ bound := [], reserved := [(.roundingMode, roundingModeName)] }, false⟩

def Session.start : Session := .opened .initial

/-- Why building a formula fails, as opposed to finding none. -/
inductive Failure where
  | alreadyOpen
  | notOpen
  | number (fault : Ieee.NumberFault)
  /-- The text an unknown is looked up by is a list or an object. -/
  | unhashable
  /-- The text an unknown is called by is torn. -/
  | unencodable
  | tooDeep
  deriving DecidableEq, Repr

def Failure.message : Failure → String
  | alreadyOpen => "analysis session is already open"
  | notOpen => "analysis session is not open"
  | number fault => fault.message
  | unhashable => "a text cannot be looked up"
  | unencodable => "a text cannot be encoded"
  | tooDeep => "maximum depth exceeded"

structure Progress where
  session : Session
  events : List Event
  deriving Repr

abbrev Build := EStateM Failure Progress

namespace Build

def report (events : List Event) : Build Unit :=
  modify fun progress => { progress with events := progress.events ++ events }

/-- Open the session.  An open one is refused and stays as it is. -/
def openSession : Build Unit := do
  match (← get).session with
  | .opened _ => throw .alreadyOpen
  | .closed => modify fun progress => { progress with session := .start }

def closeSession : Build Unit := modify fun progress => { progress with session := .closed }

def current : Build Run := do
  match (← get).session with
  | .closed => throw .notOpen
  | .opened run => pure run

def setRun (run : Run) : Build Unit :=
  modify fun progress => { progress with session := .opened run }

def bind (key : Key) (type : SourceType) (name : String) : Build (Option TypedTerm) := do
  let run ← current
  let (term, bindings, events) := run.bindings.bind key type name
  setRun { run with bindings }
  report events
  pure term

/-- Why no constant can be made for a text: the text cannot be looked up, or it is torn,
so that the solver gets no name for the constant. -/
def nameFault? (text : Json) (type : SourceType) : Option Failure :=
  if !Source.isLookupKey text then some .unhashable
  else if Source.isTorn text && type.sort?.isSome then some .unencodable
  else none

def bindNamed (key : Key) (type : SourceType) (text : Json) (name : String) :
    Build (Option TypedTerm) := do
  let _ ← current
  match nameFault? text type with
  | some failure => throw failure
  | none => bind key type name

def bindDeclaration (declaration : Declaration) : Build (Option TypedTerm) :=
  bindNamed (.declaration declaration) declaration.type declaration.name declaration.name.display

def reserve (key : Key) (name : String) : Build String := do
  let run ← current
  let (reserved, bindings) := run.bindings.reserve key name
  setRun { run with bindings }
  pure reserved

def lookup (key : Key) : Build (Option TypedTerm) := do return (← current).bindings.get? key

def items : Build (List (Key × TypedTerm)) := do return (← current).bindings.bound

def clear : Build Unit := do
  let run ← current
  setRun { run with bindings := {} }

def unmodelledName (text : Json) : String := "variable from expr: '" ++ text.display ++ "'"

/-- An unknown of the node's static type.  Nodes with equal labels share one, and
every other relation between the node and the rest of the formula is lost. -/
def bindUnmodelled (node : Expr) : Build (Option TypedTerm) :=
  bindNamed (.unmodelled node.label) node.type node.text (unmodelledName node.text)

def useRoundingMode : Build Unit := do
  let run ← current
  if run.hasRoundingMode then pure ()
  else do
    setRun { run with hasRoundingMode := true }
    report [.roundingModeCreated roundingModeName]

end Build

end CondSat.Analysis
