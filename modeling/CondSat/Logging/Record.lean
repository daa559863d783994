import CondSat.Logging.Context
import CondSat.Logging.Level

/-! # Records

A record is one message with its logger, its level and what the diagnostic
context says.  Layouts turn records into text.  The layout with context wraps
the expression into brackets and leaves it wrapped in the record, so a record
laid out twice shows two pairs of them. -/
set_option autoImplicit false
namespace CondSat.Logging

inductive Piece where
  | letter (c : Char)
  | percent
  /-- A value as running text. -/
  | shown
  /-- A value with its text quoted. -/
  | quoted
  /-- A whole number. -/
  | whole
  deriving DecidableEq, Repr

/-- The pieces of a template, unless it uses a marker with no meaning here. -/
def pieces? : List Char → Option (List Piece)
  | [] => some []
  | '%' :: '%' :: rest => (pieces? rest).map (.percent :: ·)
  | '%' :: 's' :: rest => (pieces? rest).map (.shown :: ·)
  | '%' :: 'r' :: rest => (pieces? rest).map (.quoted :: ·)
  | '%' :: 'd' :: rest => (pieces? rest).map (.whole :: ·)
  | '%' :: 'i' :: rest => (pieces? rest).map (.whole :: ·)
  | '%' :: _ => none
  | c :: rest => (pieces? rest).map (.letter c :: ·)

/-- The whole number in a value, with fractions cut off. -/
def wholeText? : Json → Option String
  | .int value => some (toString value)
  | .bool value => some (if value then "1" else "0")
  | .float pattern =>
    let f := Ieee.Format.double
    if f.infinity ≤ f.magnitude pattern.toNat then none
    else
      let exact := f.ratio (f.magnitude pattern.toNat)
      let whole : Nat := exact.1 / exact.2
      some (toString (if f.isNegative pattern.toNat then -(whole : Int) else (whole : Int)))
  | _ => none

/-- Put values into the pieces of a template; all of them have to be used. -/
def fill? : List Piece → List Json → Option String
  | [], [] => some ""
  | [], _ :: _ => none
  | .letter c :: rest, values => (fill? rest values).map (c.toString ++ ·)
  | .percent :: rest, values => (fill? rest values).map ("%" ++ ·)
  | _ :: _, [] => none
  | .shown :: rest, value :: values => (fill? rest values).map (value.display ++ ·)
  | .quoted :: rest, value :: values => (fill? rest values).map (value.quoted ++ ·)
  | .whole :: rest, value :: values => do
    let text ← wholeText? value
    return text ++ (← fill? rest values)

def messageText? (template : String) (values : List Json) : Option String :=
  if values.isEmpty then some template
  else (pieces? template.toList).bind (fill? · values)

structure Record where
  logger : String
  level : Int
  message : String
  /-- The expression the context names, if it names one. -/
  expression : Option Json
  deriving DecidableEq, Repr

/-- The attributes every record has; a context may not name them. -/
def reservedKeys : List String :=
  ["name", "msg", "args", "levelname", "levelno", "pathname", "filename", "module", "exc_info",
   "exc_text", "stack_info", "lineno", "funcName", "created", "msecs", "relativeCreated", "thread",
   "threadName", "processName", "process", "message", "asctime"]

structure Clash where
  key : String
  deriving DecidableEq, Repr

def Clash.message (clash : Clash) : String :=
  Text.quoted ("Attempt to overwrite " ++ Text.quoted clash.key ++ " in LogRecord")

namespace Record

/-- A record with further values; those of the context win over them. -/
def make (logger : String) (level : Int) (message : String) (extra : List (String × Json))
    (context : Context) : Except Clash Record :=
  let members := context.current.members.foldl (fun known m => Json.setMember m.1 m.2 known) extra
  match members.find? fun m => reservedKeys.contains m.1 with
  | some (key, _) => .error ⟨key⟩
  | none => .ok ⟨logger, level, message, members.lookup Context.expressionKey⟩

/-- The record with its expression wrapped into brackets. -/
def wrapped (record : Record) : Record :=
  let shown := record.expression.getD (.str "")
  { record with
    expression := some (.str (if shown.isTruthy then " - [" ++ shown.display ++ "]" else "")) }

def line (record : Record) : String :=
  record.logger ++ " - " ++ levelName record.level ++
    ((record.expression.map Json.display).getD "") ++ " - " ++ record.message

end Record

end CondSat.Logging
