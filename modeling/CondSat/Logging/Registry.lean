import CondSat.Logging.Level

/-! # Loggers and their registry

Loggers are registered by dotted names and inherit the level of the nearest
logger above them.  The registry keeps every logger ever made under a number,
because a logger keeps the parent it was given even when that parent is later
replaced under its name.  A name without a logger of its own remembers the
loggers below it, so that they can be adopted when the name gets one. -/
set_option autoImplicit false
namespace CondSat.Logging

inductive Handler where
  /-- The error stream, from warnings up. -/
  | console
  /-- The log file, everything. -/
  | journal
  /-- The file of solver problems, from information up. -/
  | problems
  /-- A handler that writes nowhere. -/
  | silent
  /-- A handler that keeps the lines it gets, without their time. -/
  | listener
  deriving DecidableEq, Repr

structure Logger where
  name : String
  level : Int := inherited
  propagates : Bool := true
  handlers : List Handler := []
  /-- Whether its records carry the diagnostic context. -/
  hasContext : Bool := false
  /-- The number of the logger above; the top one has none. -/
  parent : Option Nat := some 0
  deriving DecidableEq, Repr, Inhabited

/-- What a name stands for. -/
inductive Slot where
  | logger (number : Nat)
  /-- No logger yet; the loggers below, in the order they were made. -/
  | vacant (below : List Nat)
  deriving DecidableEq, Repr

/-- All loggers, and what each name stands for. -/
structure Registry where
  loggers : List Logger
  slots : List (String × Slot) := []
  deriving DecidableEq, Repr

namespace Registry

def topName : String := "root"

def initial : Registry := ⟨[⟨topName, warningLevel, true, [], false, none⟩], []⟩

def logger (registry : Registry) (number : Nat) : Logger :=
  (registry.loggers[number]?).getD default

def change (registry : Registry) (number : Nat) (f : Logger → Logger) : Registry :=
  { registry with loggers := registry.loggers.modify number f }

def slot? (registry : Registry) (name : String) : Option Slot := registry.slots.lookup name

def setSlot (registry : Registry) (name : String) (slot : Slot) : Registry :=
  { registry with
    slots := if registry.slots.any (·.1 == name) then
        registry.slots.map fun known => if known.1 == name then (name, slot) else known
      else registry.slots ++ [(name, slot)] }

def add (registry : Registry) (logger : Logger) : Nat × Registry :=
  (registry.loggers.length, { registry with loggers := registry.loggers ++ [logger] })

/-- The beginnings of a name that end before a dot, the longest first.  Of two
dots next to each other only the second one divides. -/
def beginnings (name : String) : List String :=
  let chars := name.toList
  let dots := (chars.zipIdx.filter (·.1 == '.')).map (·.2)
  let apart := dots.reverse.foldl
    (fun (kept : List Nat) position =>
      match kept.getLast? with
      | some last => if position + 1 < last then kept ++ [position] else kept
      | none => [position]) []
  (apart.filter (0 < ·)).map fun position => String.ofList (chars.take position)

/-- Look for the nearest logger above; the vacant names passed on the way note
the logger below. -/
def adopt (registry : Registry) (number : Nat) : List String → Nat × Registry
  | [] => (0, registry)
  | name :: rest =>
    match registry.slot? name with
    | some (.logger above) => (above, registry)
    | some (.vacant below) =>
      (registry.setSlot name (.vacant (if below.contains number then below else below ++ [number]))).adopt
        number rest
    | none => (registry.setSlot name (.vacant [number])).adopt number rest

/-- Put a new logger between the loggers below it and their parents. -/
def takeOver (registry : Registry) (number : Nat) : List Nat → Registry
  | [] => registry
  | child :: rest =>
    let name := (registry.logger number).name
    let parent := (registry.logger child).parent
    let above := (parent.map fun p => (registry.logger p).name).getD ""
    let registry :=
      if above.startsWith name then registry
      else (registry.change number fun l => { l with parent }).change child
        fun l => { l with parent := some number }
    registry.takeOver number rest

/-- The number of the logger under a name, which is made when there is none.  The
empty name is the top logger's too. -/
def obtain (registry : Registry) (name : String) : Nat × Registry :=
  let make (below : List Nat) : Nat × Registry :=
    let (number, registry) := registry.add { name }
    let registry := (registry.setSlot name (.logger number)).takeOver number below
    let (parent, registry) := registry.adopt number (beginnings name)
    (number, registry.change number fun l => { l with parent := some parent })
  if name = topName ∨ name.isEmpty then (0, registry)
  else
    match registry.slot? name with
    | some (.logger number) => (number, registry)
    | some (.vacant below) => make below
    | none => make []

def anonymous : String := "agentzero.core.logging"

/-- The logger with context under a name.  A logger without context is replaced
by one with its handlers and its parent; its level is at least the given one,
and a logger whose records would be lost passes them on. -/
def contextual (registry : Registry) (name : String) (least : Int) : Nat × Registry :=
  let name := if name.isEmpty then anonymous else name
  let (number, registry) := registry.obtain name
  let plain := registry.logger number
  if plain.hasContext then (number, registry)
  else
    let level := if plain.level = inherited ∨ plain.level < least then least else plain.level
    let (number, registry) := registry.add
      { plain with
        level, hasContext := true, propagates := plain.propagates || plain.handlers.isEmpty }
    (number, registry.setSlot name (.logger number))

/-- The first level set on the way up, at most `steps` loggers long. -/
def levelAbove (registry : Registry) : Nat → Option Nat → Int
  | _, none | 0, _ => inherited
  | steps + 1, some number =>
    let logger := registry.logger number
    if logger.level = inherited then registry.levelAbove steps logger.parent else logger.level

def effectiveLevel (registry : Registry) (number : Nat) : Int :=
  registry.levelAbove (registry.loggers.length + 1) (some number)

def isEnabled (registry : Registry) (number : Nat) (level : Int) : Bool :=
  0 < level && registry.effectiveLevel number ≤ level

def setLevel (registry : Registry) (number : Nat) (level : Int) : Registry :=
  registry.change number fun logger => { logger with level }

def names (registry : Registry) : List String :=
  registry.slots.filterMap fun
    | (name, .logger _) => some name
    | _ => none

/-- The handlers a record meets on its way up, in order, from at most `steps`
loggers. -/
def handlersFrom (registry : Registry) : Nat → Option Nat → List Handler
  | _, none | 0, _ => []
  | steps + 1, some number =>
    let logger := registry.logger number
    logger.handlers ++
      (if logger.propagates then registry.handlersFrom steps logger.parent else [])

def handlersOf (registry : Registry) (number : Nat) : List Handler :=
  registry.handlersFrom (registry.loggers.length + 1) (some number)

end Registry

end CondSat.Logging
