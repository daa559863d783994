import CondSat.Logging.Record
import CondSat.Logging.Registry
import CondSat.Storage.Path

/-! # Logging as a whole

The state of logging: the registry, the diagnostic context, the files that are
written to, and the cached answers to "does this logger take that level?".  A
cached answer carries the version of the configuration it was given under and
is asked for again when the version has moved on. -/
set_option autoImplicit false
namespace CondSat.Logging

open Analysis (Channel)
open Storage (Path)

/-- A question with a cached answer. -/
structure LevelFlag where
  logger : String
  level : Int
  /-- Flags that belong to a logger are kept apart from free ones. -/
  owned : Bool := false
  /-- Flags with the same question have answers of their own. -/
  number : Nat := 0
  deriving DecidableEq, Repr

def LevelFlag.text (flag : LevelFlag) : String :=
  "<LevelFlag " ++ flag.logger ++ "≥" ++ levelName flag.level ++ ">"

structure State where
  registry : Registry
  context : Context := {}
  /-- How often the configuration has changed. -/
  version : Nat := 0
  /-- The answers given, each with the version it was given under. -/
  answers : List (LevelFlag × Nat × Bool) := []
  /-- The log file, unless it was removed while it was open. -/
  journal : Option Path := none
  /-- The file of solver problems, likewise. -/
  problems : Option Path := none
  deriving DecidableEq, Repr

structure UnknownLevel where
  name : String
  deriving DecidableEq, Repr

def UnknownLevel.message (fault : UnknownLevel) : String := "Unknown logging level: " ++ fault.name

namespace State

/-- The loggers of the program, in the order in which its parts ask for them. -/
def initialNames : List String :=
  [Channel.settings, .formulas, .analyzer, .solver, .problems].map Channel.name

def getLogger (state : State) (name : String) (least : Int := defaultLevel) : Nat × State :=
  let (number, registry) := state.registry.contextual name least
  (number, { state with registry })

def initial : State :=
  initialNames.foldl (fun state name => (state.getLogger name).2) { registry := .initial }

def getLevel (state : State) (name : String) : Int × State :=
  let (number, state) := state.getLogger name
  (state.registry.effectiveLevel number, state)

def bump (state : State) : State := { state with version := state.version + 1 }

/-- Set the level of a logger, and leave the cached answers as they are. -/
def setRawLevel (state : State) (name : String) (level : Int) : State :=
  let (number, state) := state.getLogger name
  { state with registry := state.registry.setLevel number level }

def setLevel (state : State) (name level : String) : Except UnknownLevel State :=
  match levelNamed? level with
  | none => .error ⟨level⟩
  | some rank =>
    let (number, state) := state.getLogger name rank
    .ok { state with registry := state.registry.setLevel number rank }.bump

/-- Whether the logger of a flag takes its level, without the cache. -/
def isOn (state : State) (flag : LevelFlag) : Bool × State :=
  let (number, state) := state.getLogger flag.logger
  (state.registry.isEnabled number flag.level, state)

/-- The cached answer of a flag, if it was given under the current version. -/
def cached? (state : State) (flag : LevelFlag) : Option Bool :=
  (state.answers.lookup flag).bind fun (version, answer) =>
    if version = state.version then some answer else none

def readFlag (state : State) (flag : LevelFlag) : Bool × State :=
  match state.cached? flag with
  | some answer => (answer, state)
  | none =>
    let (answer, state) := state.isOn flag
    (answer, { state with answers := (flag, state.version, answer) :: state.answers })

def readOwnFlag (state : State) (name : String) (level : Int) : Bool × State :=
  let (number, state) := state.getLogger name
  state.readFlag { logger := (state.registry.logger number).name, level, owned := true }

def configuredNames : List String :=
  [Channel.analyzer, .formulas, .solver, .problems].map Channel.name

def isBelow (above name : String) : Bool := name == above || name.startsWith (above ++ ".")

/-- The names of all loggers, sorted; with beginnings given, those at or below
one of them. -/
def available (state : State) (above : Option (List String)) (anyCase : Bool) : List String :=
  let known := state.registry.names ++
    configuredNames.filter fun name => !state.registry.names.contains name
  let folded (text : String) : String :=
    if anyCase then String.ofList (text.toList.map Char.toLower) else text
  let chosen := match above with
    | none => known
    | some above => known.filter fun name => above.any fun a => isBelow (folded a) (folded name)
  chosen.mergeSort fun a b => decide (a ≤ b)

end State

end CondSat.Logging
