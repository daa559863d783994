import CondSat.Command.Usage
import CondSat.Logging.Configure
import CondSat.Logging.Trace
import CondSat.Settings.Configuration
import CondSat.Source.Decode

/-! # The check command

`check` loads the settings, configures the loggers, reads a tree and analyses
it.  It works on a disk and returns what is left on the disk and what was
printed.  Faults in the tree are reported and end with a status; faults in the
settings and in the log directory end the command as faults. -/
set_option autoImplicit false
namespace CondSat.Command

open Logging (Output State)
open Settings (Configuration Surroundings)
open Source (Expr)
open Solver (Oracle)
open Storage (Disk Path)

inductive Status where
  | satisfiable
  | unsatisfiable
  /-- No verdict: inconclusive, or the tree is not analysed. -/
  | noVerdict
  | invalidInput
  deriving DecidableEq, Repr

def Status.code : Status → Nat
  | satisfiable => 0
  | unsatisfiable => 1
  | noVerdict => 2
  | invalidInput => 3

inductive Crash where
  | settings (fault : Settings.Fault)
  | logging (fault : Logging.ConfigureFault)
  | level (fault : Logging.UnknownLevel)
  /-- The name of the tree's file holds the null character. -/
  | treeName
  /-- The tree's file holds no text. -/
  | treeNotText
  /-- A number in the tree has too many digits. -/
  | treeNumber (fault : Text.IntegerFault)
  /-- A member of the tree cannot serve as what it is needed for. -/
  | treeWrongKind
  | analysis (failure : Analysis.Failure)
  /-- A torn text is to be printed. -/
  | unprintable
  deriving DecidableEq, Repr

def Crash.message : Crash → String
  | settings fault => fault.message
  | logging fault => fault.message
  | level fault => fault.message
  | treeName => Storage.Fault.nullCharacter.text
  | treeNotText => "the tree is not text"
  | treeNumber fault => fault.message
  | treeWrongKind => (Source.LoadError.wrongKind).message
  | analysis failure => failure.message
  | unprintable => "a text cannot be encoded"

/-- An analysis that was interrupted ends the program. -/
def Crash.ofInterruption : Logging.Interruption → Crash
  | .failure failure => analysis failure
  | .clash found => logging (.clash found)

inductive Ending where
  | status (status : Status)
  /-- A text was shown, or the command line was wrong. -/
  | stopped (stop : Stop)
  | crash (fault : Crash)
  deriving DecidableEq, Repr

structure Session where
  logging : State := .initial
  output : Output := {}
  printed : String := ""

/-- A step of the program: it may crash, and keeps what was done before. -/
abbrev Program := ExceptT Crash (StateM Session)

namespace Program

def print (line : String) : Program Unit :=
  modify fun session => { session with printed := session.printed ++ line ++ "\n" }

/-- Print a line around the text of a tree.  A torn text cannot be printed. -/
def printAround (before : String) (text : Json) (after : String) : Program Unit :=
  match text with
  | .torn _ => throw .unprintable
  | text => print (before ++ text.display ++ after)

def printError (line : String) : Program Unit :=
  modify fun session => { session with
    output := { session.output with errors := session.output.errors ++ line ++ "\n" } }

def lift {ε α : Type} (wrap : ε → Crash) : Except ε α → Program α
  | .ok value => pure value
  | .error fault => throw (wrap fault)

def record (time : String) (record : Logging.Record) : Program Unit :=
  modify fun session =>
    let (logging, output) := session.logging.dispatch time record session.output
    { session with logging, output }

def loadSettings [Limits] (time : String) (surroundings : Surroundings) (file : Option String) :
    Program Configuration := do
  let session ← get
  let (loaded, events) := Configuration.load session.output.disk surroundings file none
  for event in events do
    record time ⟨Analysis.Channel.settings.name, event.level.rank, event.message, some (.str "")⟩
  lift .settings loaded

def setLevels (level : String) : Program Unit := do
  let session ← get
  for name in session.logging.available (some [Analysis.Channel.analyzer.name]) false do
    let session ← get
    let logging ← lift .level (session.logging.setLevel name level)
    set { session with logging }

def configure (time : String) (directory : Path) : Program Unit := do
  let session ← get
  let (logging, output) ← lift .logging (session.logging.configure time directory session.output)
  set { session with logging, output }

def readTree [Limits] (path : String) : Program (Option Expr) := do
  let session ← get
  match session.output.disk.readText (.ofText path) with
  | .error (.file .nullCharacter) => throw .treeName
  | .error (.file fault) =>
    printError ("Error: cannot read '" ++ path ++ "': " ++ fault.text)
    return none
  | .error .notText => throw .treeNotText
  | .ok text =>
    match (Expr.ofText text 1).1 with
    | .ok tree => return some tree
    | .error .wrongKind => throw .treeWrongKind
    | .error (.tooManyDigits count) => throw (.treeNumber (.tooManyDigits count))
    | .error fault =>
      printError ("Error: invalid expression tree '" ++ path ++ "': " ++ fault.message)
      return none

def statusOf : Analysis.Verdict → Status
  | .satisfiable _ => .satisfiable
  | .unsatisfiable => .unsatisfiable
  | .inconclusive _ => .noVerdict

def judge [Limits] (oracle : Oracle) (time : String) (configuration : Configuration) (quiet : Bool)
    (tree : Expr) : Program Status := do
  if !Analysis.isCandidate tree then
    printAround "Not analyzable: '" tree.text "' is not a boolean operator expression"
    return .noVerdict
  let options ← lift .settings configuration.options
  let session ← get
  let trace := Logging.trace oracle options session.logging tree
  for entry in trace.records do
    record time entry
  modify fun session =>
    { session with logging := { session.logging with context := trace.state.context } }
  match ← lift Crash.ofInterruption trace.outcome with
  | none =>
    printAround "Not analyzable: '" tree.text "' could not be translated"
    return .noVerdict
  | some verdict =>
    if quiet then print verdict.kind
    else
      printAround "'" tree.text "'"
      print verdict.text
    return statusOf verdict

def withTimeout (configuration : Configuration) : Option Int → Program (Option Configuration)
  | none => return some configuration
  | some timeout => do
    if timeout < 0 then
      printError s!"Error: timeout must be >= 0, got {timeout}"
      return none
    return some (← lift .settings (configuration.set "timeout_ms" (.int timeout)))

/-- The directory for log files: the one asked for, else that of the settings. -/
def logDirectory (configuration : Configuration) (asked : Option String) :
    Program (Path × Configuration) :=
  match asked.filter (!·.isEmpty) with
  | some text => return (.ofText text, configuration)
  | none => lift .settings configuration.logDirectory

def check [Limits] (oracle : Oracle) (time : String) (surroundings : Surroundings)
    (request : CheckRequest) : Program Status := do
  let configuration ← loadSettings time surroundings request.settings
  match ← withTimeout configuration request.timeout with
  | none => return .invalidInput
  | some configuration =>
    let (directory, configuration) ← logDirectory configuration request.logDirectory
    configure time directory
    match request.logLevel with
    | some level => setLevels level
    | none => pure ()
    match ← readTree request.tree with
    | none => return .invalidInput
    | some tree => judge oracle time configuration request.quiet tree

end Program

def run [Limits] (oracle : Oracle) (time : String) (surroundings : Surroundings)
    (words : List String) (disk : Disk) : Ending × Session :=
  let start : Session := { output := { disk } }
  match readArguments words with
  | .error stop => (.stopped stop, start)
  | .ok request =>
    match (Program.check oracle time surroundings request).run start with
    | (.ok status, session) => (.status status, session)
    | (.error fault, session) => (.crash fault, session)

end CondSat.Command
