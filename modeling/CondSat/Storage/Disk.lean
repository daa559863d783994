import CondSat.Storage.Path
import CondSat.Text.Quoted

/-! # Disks

A disk maps places to directories and files.  A place is a list of names with
no detours in it; a path is followed name by name, and each directory on the
way has to be there.  What a failed operation says carries the number and the
wording of the operating system. -/
set_option autoImplicit false
namespace CondSat.Storage

inductive Fault where
  | notFound
  | alreadyThere
  | notADirectory
  | isADirectory
  /-- A name holds the character that ends names, so the system is not asked at all. -/
  | nullCharacter
  deriving DecidableEq, Repr

namespace Fault

def number? : Fault → Option Nat
  | notFound => some 2
  | alreadyThere => some 17
  | notADirectory => some 20
  | isADirectory => some 21
  | nullCharacter => none

def text : Fault → String
  | notFound => "No such file or directory"
  | alreadyThere => "File exists"
  | notADirectory => "Not a directory"
  | isADirectory => "Is a directory"
  | nullCharacter => "embedded null byte"

def message (fault : Fault) (path : Path) : String :=
  match fault.number? with
  | some number => s!"[Errno {number}] {fault.text}: " ++ Text.quoted path.text
  | none => fault.text

end Fault

inductive Entry where
  | directory
  | file (content : ByteArray)
  deriving Inhabited

abbrev Place := List String

structure Disk where
  entries : List (Place × Entry) := []
  deriving Inhabited

namespace Disk

/-- The directory a path starts at.  It is always there. -/
def start : Root → Place
  | .here => []
  | .top | .doubleTop => ["/"]

def entry? (disk : Disk) (place : Place) : Option Entry :=
  if place = start .here ∨ place = start .top then some .directory else disk.entries.lookup place

def put (disk : Disk) (place : Place) (entry : Entry) : Disk :=
  ⟨if disk.entries.any (·.1 == place) then
      disk.entries.map fun known => if known.1 == place then (place, entry) else known
    else disk.entries ++ [(place, entry)]⟩

/-- Follow names from a directory.  The last name need not be there. -/
def follow (disk : Disk) (place : Place) : List String → Except Fault Place
  | [] => .ok place
  | name :: rest =>
    let next := if name = ".." then place.dropLast else place ++ [name]
    if rest = [] then .ok next
    else
      match disk.entry? next with
      | some .directory => follow disk next rest
      | some (.file _) => .error .notADirectory
      | none => .error .notFound

/-- The place of a path. -/
def locate (disk : Disk) (path : Path) : Except Fault Place :=
  if path.names.any (·.toList.contains '\x00') then .error .nullCharacter
  else disk.follow (start path.root) path.names

def isDirectory (disk : Disk) (path : Path) : Bool :=
  match disk.locate path with
  | .ok place =>
    match disk.entry? place with
    | some .directory => true
    | _ => false
  | .error _ => false

def read (disk : Disk) (path : Path) : Except Fault ByteArray := do
  let place ← disk.locate path
  match disk.entry? place with
  | some (.file content) => .ok content
  | some .directory => .error .isADirectory
  | none => .error .notFound

def modify (disk : Disk) (path : Path) (change : ByteArray → ByteArray) : Except Fault Disk := do
  let place ← disk.locate path
  match disk.entry? place with
  | some (.file content) => .ok (disk.put place (.file (change content)))
  | some .directory => .error .isADirectory
  | none => .ok (disk.put place (.file (change .empty)))

def write (disk : Disk) (path : Path) (content : ByteArray) : Except Fault Disk :=
  disk.modify path fun _ => content

def append (disk : Disk) (path : Path) (content : ByteArray) : Except Fault Disk :=
  disk.modify path (· ++ content)

def makeDirectory (disk : Disk) (path : Path) : Except Fault Disk := do
  let place ← disk.locate path
  match disk.entry? place with
  | some _ => .error .alreadyThere
  | none => .ok (disk.put place .directory)

/-- Make one directory unless it is there; a fault is reported with the path. -/
def ensureOne (disk : Disk) (path : Path) : Except (Fault × Path) Disk :=
  match disk.makeDirectory path with
  | .ok disk => .ok disk
  | .error fault => if disk.isDirectory path then .ok disk else .error (fault, path)

/-- Make a directory and the missing ones above it, at most `above` of them. -/
def ensure (disk : Disk) (path : Path) : Nat → Except (Fault × Path) Disk
  | 0 => disk.ensureOne path
  | above + 1 =>
    match disk.makeDirectory path with
    | .error .notFound =>
      match disk.ensure path.parent above with
      | .ok disk => disk.ensureOne path
      | .error fault => .error fault
    | _ => disk.ensureOne path

def ensureDirectory (disk : Disk) (path : Path) : Except (Fault × Path) Disk :=
  disk.ensure path path.names.length

/-- Remove a directory and everything below it; anything else stays. -/
def removeTree (disk : Disk) (path : Path) : Disk :=
  match disk.locate path with
  | .ok place =>
    if disk.isDirectory path then ⟨disk.entries.filter fun known => !place.isPrefixOf known.1⟩
    else disk
  | .error _ => disk

def placeText : Place → String
  | "/" :: names => "/" ++ "/".intercalate names
  | names => "/".intercalate names

def files (disk : Disk) : List (String × ByteArray) :=
  disk.entries.filterMap fun
    | (place, .file content) => some (placeText place, content)
    | _ => none

def listing? (disk : Disk) (path : Path) : Option (List (String × ByteArray)) :=
  match disk.locate path with
  | .ok place =>
    if disk.isDirectory path then
      some (disk.entries.filterMap fun
        | (other, .file content) =>
          if other.dropLast = place then other.getLast?.map (·, content) else none
        | _ => none)
    else none
  | .error _ => none

def withFile (disk : Disk) (path : Path) (content : ByteArray) : Disk :=
  match disk.ensureDirectory path.parent with
  | .ok disk => (disk.write path content).toOption.getD disk
  | .error _ => disk

end Disk

/-- Each end of line, however it is marked, becomes one mark. -/
def unifyLines : List Char → List Char
  | [] => []
  | '\r' :: '\n' :: rest => '\n' :: unifyLines rest
  | '\r' :: rest => '\n' :: unifyLines rest
  | c :: rest => c :: unifyLines rest

inductive TextFault where
  | file (fault : Fault)
  | notText
  deriving DecidableEq, Repr

def Disk.readText (disk : Disk) (path : Path) : Except TextFault String :=
  match disk.read path with
  | .error fault => .error (.file fault)
  | .ok content =>
    match String.fromUTF8? content with
    | some text => .ok (String.ofList (unifyLines text.toList))
    | none => .error .notText

end CondSat.Storage
