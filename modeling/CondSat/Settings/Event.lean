import CondSat.Analysis.Event
import CondSat.Storage.Disk

/-! # Events of settings

What loading and saving settings have to tell. -/
set_option autoImplicit false
namespace CondSat.Settings

open Analysis (Level)
open Storage (Path)

inductive Origin where
  | file (path : Path)
  /-- The settings every user starts with. -/
  | builtIn
  deriving DecidableEq, Repr

def Origin.text : Origin → String
  | file path => path.text
  | builtIn => "<TEMPLATE>"

inductive Event where
  | loaded (origin : Origin)
  | missing (origin : Origin)
  | malformed (origin : Origin)
  | noneValid
  | saved (path : Path)
  | notSaved (path : Path) (fault : Storage.Fault) (place : Path)
  deriving DecidableEq, Repr

namespace Event

def level : Event → Level
  | loaded _ | saved _ => .info
  | missing _ => .debug
  | malformed _ | notSaved .. => .error
  | noneValid => .warning

def message : Event → String
  | loaded origin => "Loaded configuration from " ++ origin.text
  | missing origin => "Configuration file " ++ origin.text ++ " not found"
  | malformed origin => "Failed to parse config file: " ++ origin.text
  | noneValid => "No valid configuration found; using defaults in memory."
  | saved path => "Configuration saved to " ++ path.text
  | notSaved path fault place =>
    "Failed to save configuration to " ++ path.text ++ ": " ++ fault.message place

end Event

end CondSat.Settings
