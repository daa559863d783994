import CondSat.Logging.Delivery

/-! # Configuring the loggers

Configuring opens the two log files in a directory and gives the loggers of the
program their levels and handlers.  Loggers below a configured one that are not
configured themselves start over: they inherit everything. -/
set_option autoImplicit false
namespace CondSat.Logging

open Analysis (Channel)
open Storage (Disk Path)

def journalName : String := "agentzero.log"

def problemsName : String := "smt2_problems.smt2"

def problemsHeader : String :=
  "; problems submitted by agentzero, one check-sat per expression\n"

inductive ConfigureFault where
  /-- The directory cannot be made. -/
  | directory (fault : Storage.Fault)
  /-- A log file cannot be opened. -/
  | handler (name : String)
  | clash (found : Clash)
  deriving DecidableEq, Repr

def ConfigureFault.message : ConfigureFault → String
  | directory fault => fault.text
  | handler name => "Unable to configure handler " ++ Text.quoted name
  | clash found => found.message

def configuredHandlers : List (Channel × List Handler) :=
  [(.analyzer, [.console, .journal]), (.formulas, [.console, .journal]), (.solver, [.journal]),
   (.problems, [.problems])]

namespace Registry

def configureOne (registry : Registry) (entry : Channel × List Handler) : Registry :=
  let (number, registry) := registry.obtain entry.1.name
  registry.change number fun l =>
    { l with level := defaultLevel, handlers := entry.2, propagates := false }

/-- Let a logger inherit everything. -/
def reset (registry : Registry) (name : String) : Registry :=
  match registry.slot? name with
  | some (.logger number) =>
    registry.change number fun l =>
      { l with level := inherited, handlers := [], propagates := true }
  | _ => registry

def configure (registry : Registry) : Registry :=
  let known := registry.slots.map (·.1)
  let configured := configuredHandlers.map (·.1.name)
  let below := known.filter fun name =>
    !configured.contains name &&
      configured.any fun above => known.contains above && name.startsWith (above ++ ".")
  let registry := configuredHandlers.foldl configureOne registry
  let registry := below.foldl reset registry
  registry.change 0 fun l => { l with level := warningLevel, handlers := [.console] }

end Registry

namespace State

def openFile (disk : Disk) (path : Path) (handler : String) : Except ConfigureFault Disk :=
  match disk.append path .empty with
  | .ok disk => .ok disk
  | .error _ => .error (.handler handler)

def configure (state : State) (time : String) (directory : Path) (output : Output) :
    Except ConfigureFault (State × Output) := do
  let disk ← (output.disk.ensureDirectory directory).mapError fun fault =>
    ConfigureFault.directory fault.1
  let journal := directory.child journalName
  let problems := directory.child problemsName
  let disk ← openFile disk journal "defaultFileHandler"
  let disk ← openFile disk problems "smt2FileHandler"
  let state := { state with
    registry := state.registry.configure, journal := some journal, problems := some problems }
  match state.log time Channel.problems.name 20 problemsHeader [] [] { output with disk } with
  | (.ok output, state) => .ok (state.bump, output)
  | (.error clash, _) => .error (.clash clash)

/-- Remove a directory with log files.  Files that were open in it are lost. -/
def clear (state : State) (directory : Path) (output : Output) : State × Output :=
  let disk := output.disk.removeTree directory
  let kept (file : Option Path) : Option Path :=
    file.filter fun path => (disk.read path).toOption.isSome
  ({ state with journal := kept state.journal, problems := kept state.problems },
   { output with disk })

end State

end CondSat.Logging
