import CondSat.Json.Reader
import CondSat.Json.Writer
import CondSat.Settings.Event
import CondSat.Settings.Fault

/-! # Configurations

A configuration is a document with the settings of a user, and the file it
belongs to.  Loading takes the first document that can be read: the user's
file, then, when no file was named, the settings every user starts with, then
nothing at all.  Settings are read out of the document on demand and have
defaults. -/
set_option autoImplicit false
namespace CondSat.Settings

open Analysis (Options)
open Storage (Disk Path)

structure Surroundings where
  /-- The directory to use instead of the one in the home directory. -/
  override : Option String := none
  home : String := "/root"
  deriving DecidableEq, Repr

/-- The home directory without slashes at its end; the top when nothing is left. -/
def Surroundings.homePath (surroundings : Surroundings) : Path :=
  let kept := (surroundings.home.toList.reverse.dropWhile (· == '/')).reverse
  .ofText (if kept.isEmpty then "/" else String.ofList kept)

def Surroundings.userDirectory (surroundings : Surroundings) : Path :=
  match surroundings.override with
  | some text =>
    if text.isEmpty then surroundings.homePath.child ".agentzero" else .ofText text
  | none => surroundings.homePath.child ".agentzero"

def fileName : String := "options.json"

def builtIn : Json := .obj [("timeout_ms", .int 0), ("report_satisfiable_hints", .bool true)]

structure Configuration where
  file : Path
  userDirectory : Path
  document : Json
  deriving DecidableEq, Repr

inductive Reading where
  | document (value : Json)
  | missing
  | malformed
  | failed (fault : Fault)

def readDocument [Limits] (disk : Disk) (path : Path) : Reading :=
  match disk.readText path with
  | .error (.file .notFound) => .missing
  | .error (.file fault) => .failed (.file fault)
  | .error .notText => .failed .notText
  | .ok text =>
    match Json.read text with
    | .ok value => .document value
    | .error (.malformed ..) => .malformed
    | .error .tooDeep => .failed .tooDeep
    | .error (.tooManyDigits count) => .failed (.numeral (.tooManyDigits count))

namespace Configuration

/-- Load settings.  The events tell what was tried, also when loading fails. -/
def load [Limits] (disk : Disk) (surroundings : Surroundings) (file directory : Option String) :
    Except Fault Configuration × List Event :=
  let userDirectory := (directory.map Path.ofText).getD surroundings.userDirectory
  let path := (file.map Path.ofText).getD (userDirectory.child fileName)
  let fallback (first : Event) : Except Fault Configuration × List Event :=
    if file.isSome then (.ok ⟨path, userDirectory, .obj []⟩, [first, .noneValid])
    else (.ok ⟨path, userDirectory, builtIn⟩, [first, .loaded .builtIn])
  match readDocument disk path with
  | .document value => (.ok ⟨path, userDirectory, value⟩, [.loaded (.file path)])
  | .missing => fallback (.missing (.file path))
  | .malformed => fallback (.malformed (.file path))
  | .failed fault => (.error fault, [])

def members (configuration : Configuration) : Except Fault (List (String × Json)) :=
  match configuration.document with
  | .obj members => .ok members
  | _ => .error .notAnObject

def get (configuration : Configuration) (name : String) (default : Json) : Except Fault Json :=
  configuration.members.map fun members => (members.lookup name).getD default

def member (configuration : Configuration) (name : String) : Except Fault Json :=
  match configuration.document with
  | .obj members =>
    match members.lookup name with
    | some value => .ok value
    | none => .error (.noMember name)
  | _ => .error .notIndexable

def set (configuration : Configuration) (name : String) (value : Json) :
    Except Fault Configuration :=
  match configuration.document with
  | .obj members => .ok { configuration with document := .obj (Json.setMember name value members) }
  | _ => .error .notIndexable

/-- The solver's time limit in milliseconds; zero is no limit. -/
def timeout (configuration : Configuration) : Except Fault Int := do
  wholeNumber (← configuration.get "timeout_ms" (.int 0))

def reportsHints (configuration : Configuration) : Except Fault Bool := do
  return (← configuration.get "report_satisfiable_hints" (.bool true)).isTruthy

def options (configuration : Configuration) : Except Fault Options := do
  let timeout ← configuration.timeout
  let hints ← configuration.reportsHints
  match Options.build timeout hints with
  | .ok options => .ok options
  | .error fault => .error (.options fault)

/-- The directory for log files.  When none is set, the one in the user's
directory is used and becomes part of the settings. -/
def logDirectory (configuration : Configuration) : Except Fault (Path × Configuration) := do
  let value ← configuration.get "log_dir" .null
  if value.isTruthy then
    match value with
    | .str text => .ok (.ofText text, configuration)
    | .torn _ => .error .unencodable
    | _ => .error .wrongKind
  else
    let path := configuration.userDirectory.child "logs"
    let configuration ← configuration.set "log_dir" (.str path.text)
    .ok (path, configuration)

def save (configuration : Configuration) (disk : Disk) : Disk × Event :=
  let path := configuration.file
  match disk.ensureDirectory path.parent with
  | .error (fault, place) => (disk, .notSaved path fault place)
  | .ok disk =>
    match disk.write path configuration.document.fileText.toUTF8 with
    | .ok disk => (disk, .saved path)
    | .error fault => (disk, .notSaved path fault path)

end Configuration

end CondSat.Settings
