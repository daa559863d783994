import CondSat.Command.Check
import CondSat.Solver.Decide

/-! # The program

The outer layer: it brings the files a run may look at onto a disk, runs the
program on the disk, and writes out the files the run has made. -/
set_option autoImplicit false
namespace CondSat.Main

open Command (readArguments)
open Settings (Surroundings)
open Storage (Disk Path)

def bring (disk : Disk) (text : String) : IO Disk := do
  let path := Path.ofText text
  try
    return disk.withFile path (← IO.FS.readBinFile path.text)
  catch _ =>
    try
      let _ ← IO.FS.realPath path.text
      return (disk.ensureDirectory path).toOption.getD disk
    catch _ => return disk

def inputPaths (surroundings : Surroundings) (words : List String) : List String :=
  match readArguments words with
  | .ok request =>
    [request.tree, request.settings.getD (surroundings.userDirectory.child Settings.fileName).text]
  | .error _ => []

/-- Write out a file that was not brought.  Log files are added to. -/
def writeOut (brought : Disk) (path : String) (content : ByteArray) : IO Unit := do
  match brought.read (.ofText path) with
  | .ok _ => return
  | .error _ =>
    IO.FS.createDirAll (Path.ofText path).parent.text
    IO.FS.withFile path .append fun handle => handle.write content

/-- The time of log lines, as milliseconds of the machine's clock. -/
def timeText : IO String := do return toString (← IO.monoMsNow)

end CondSat.Main

open CondSat in
def main (words : List String) : IO UInt32 := do
  let override ← IO.getEnv "AGENTZERO_HOME"
  let home := (← IO.getEnv "HOME").getD "/"
  let surroundings : Settings.Surroundings := { override, home }
  let mut brought : Storage.Disk := {}
  for path in Main.inputPaths surroundings words do
    brought ← Main.bring brought path
  let (ending, session) := Command.run Solver.decide (← Main.timeText) surroundings words brought
  for (path, content) in session.output.disk.files do
    Main.writeOut brought path content
  IO.print session.printed
  IO.eprint session.output.errors
  match ending with
  | .status status => return UInt32.ofNat status.code
  | .stopped (.shown text) =>
    IO.print text
    return 0
  | .stopped (.misuse usage program message) =>
    IO.eprint (usage ++ program ++ ": error: " ++ message ++ "\n")
    return 2
  | .crash fault =>
    IO.eprint (fault.message ++ "\n")
    return 1
