import CondSat.Logging.State
import CondSat.Storage.Disk

/-! # Delivering records

A record goes to the handlers of its logger and of the loggers above, as far as
each passes it on.  Handlers are met in order and share the record, so what an
earlier one did to it shows in the text of a later one.  A warning that meets
no handler at all goes to the error stream as it is. -/
set_option autoImplicit false
namespace CondSat.Logging

open Storage (Disk Path)

structure Output where
  disk : Disk := {}
  errors : String := ""
  /-- What listeners have heard. -/
  heard : String := ""
  deriving Inhabited

namespace Output

def append (output : Output) (file : Option Path) (text : String) : Output :=
  match file with
  | none => output
  | some path =>
    { output with disk := (output.disk.append path text.toUTF8).toOption.getD output.disk }

end Output

def Handler.least : Handler → Int
  | console => 30
  | journal => 10
  | problems => 20
  | silent | listener => 0

namespace State

def hand (state : State) (time : String) (handler : Handler) (delivery : Record × Output) :
    Record × Output :=
  let (record, output) := delivery
  if record.level < handler.least then delivery
  else
    let shown := record.wrapped
    match handler with
    | .console =>
      (shown, { output with errors := output.errors ++ time ++ " - " ++ shown.line ++ "\n" })
    | .journal => (shown, output.append state.journal (time ++ " - " ++ shown.line ++ "\n"))
    | .problems => (record, output.append state.problems (record.message ++ "\n"))
    | .listener => (shown, { output with heard := output.heard ++ shown.line ++ "\n" })
    | .silent => delivery

def deliver (state : State) (time : String) (number : Nat) (record : Record) (output : Output) :
    Output :=
  match state.registry.handlersOf number with
  | [] =>
    if record.level < warningLevel then output
    else { output with errors := output.errors ++ record.message ++ "\n" }
  | handlers =>
    (handlers.foldl (fun delivery handler => state.hand time handler delivery) (record, output)).2

/-- Deliver a record that is already made, if its logger takes it. -/
def dispatch (state : State) (time : String) (record : Record) (output : Output) :
    State × Output :=
  let (number, state) := state.getLogger record.logger
  (state, if state.registry.isEnabled number record.level then
      state.deliver time number record output
    else output)

/-- Log a message with values for it.  Nothing is delivered when the values do
not fit the message. -/
def log (state : State) (time name : String) (level : Int) (message : String)
    (values : List Json) (extra : List (String × Json)) (output : Output) :
    Except Clash Output × State :=
  let (number, state) := state.getLogger name
  if !state.registry.isEnabled number level then (.ok output, state)
  else
    let logger := (state.registry.logger number).name
    let delivered := (Record.make logger level ((messageText? message values).getD "") extra
      state.context).map fun record =>
        if (messageText? message values).isSome then state.deliver time number record output
        else output
    (delivered, state)

/-- Log a message and return what a listener at the logger hears of it. -/
def hear (state : State) (time name : String) (level : Int) (message : String)
    (values : List Json) (extra : List (String × Json)) (output : Output) :
    Except Clash Output × State :=
  let (number, state) := state.getLogger name
  let own := (state.registry.logger number).handlers
  let listening := { state with
    registry := state.registry.change number fun l => { l with handlers := own ++ [Handler.listener] } }
  let (result, after) := listening.log time name level message values extra
    { output with heard := "" }
  (result, { after with
    registry := after.registry.change number fun l => { l with handlers := own } })

end State

end CondSat.Logging
