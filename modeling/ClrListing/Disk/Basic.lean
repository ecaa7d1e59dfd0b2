/-
Disks: what stands at the places of a tree of directories, the way from a
path to its place, and why a file cannot be used.

Names and paths are texts of octets. A path is walked name by name; links
on the way are followed, a bounded number of times, and everything but the
end of the path has to be a directory.
-/
import ClrListing.Text.Search

namespace ClrListing

open Text

-- =============================================================== faults

/-- Why a file could not be used. -/
inductive FileFault where
  | notFound
  | permissionDenied
  | alreadyExists
  /-- Something on the way to it is no directory. -/
  | notADirectory
  | isADirectory
  | directoryNotEmpty
  /-- Its name or its path is too long. -/
  | invalidFilename
  /-- There are too many links on the way to it. -/
  | filesystemLoop
  /-- Its path or an argument holds a zero. -/
  | invalidInput
  /-- Its bytes are not the text they should be. -/
  | invalidData
  /-- It is run with more arguments than there is room for. -/
  | argumentListTooLong
  /-- It is of a kind that this is not done with. -/
  | uncategorized
  deriving DecidableEq, Repr, Inhabited

namespace FileFault

/-- The name of a file fault. -/
def name : FileFault → String
  | notFound => "NotFound"
  | permissionDenied => "PermissionDenied"
  | alreadyExists => "AlreadyExists"
  | notADirectory => "NotADirectory"
  | isADirectory => "IsADirectory"
  | directoryNotEmpty => "DirectoryNotEmpty"
  | invalidFilename => "InvalidFilename"
  | filesystemLoop => "FilesystemLoop"
  | invalidInput => "InvalidInput"
  | invalidData => "InvalidData"
  | argumentListTooLong => "ArgumentListTooLong"
  | uncategorized => "Uncategorized"

/-- The words that programs put a file fault in. -/
def words : FileFault → String
  | notFound => "No such file or directory"
  | permissionDenied => "Permission denied"
  | alreadyExists => "File exists"
  | notADirectory => "Not a directory"
  | isADirectory => "Is a directory"
  | directoryNotEmpty => "Directory not empty"
  | invalidFilename => "File name too long"
  | filesystemLoop => "Too many levels of symbolic links"
  | invalidInput => "Invalid argument"
  | invalidData => "Invalid or incomplete multibyte or wide character"
  | argumentListTooLong => "Argument list too long"
  | uncategorized => "No such device"

end FileFault

-- ============================================================== entries

/-- What may be done with a file or a directory: three bits for each of its
owner, its group and all others, to read, to write and to run it. -/
abbrev Mode := Nat

namespace Mode

/-- The mode of files unless another is asked for. -/
def plain : Mode := 0o644

/-- The mode of programs and directories unless another is asked for. -/
def running : Mode := 0o755

/-- Whether anyone may run a file of this mode. -/
def isRunnable (m : Mode) : Bool := m &&& 0o111 != 0

end Mode

/-- What stands at a place of a disk. -/
inductive Entry where
  | file (content : List UInt8) (mode : Mode)
  | directory (mode : Mode)
  /-- Leads on to a path. -/
  | link (path : List Char)
  /-- Swallows what is written, and holds nothing. -/
  | void
  deriving DecidableEq, Repr, Inhabited

namespace Entry

/-- Whether this is a directory. -/
def isDirectory : Entry → Bool
  | directory _ => true
  | _ => false

/-- Whether this is a file. -/
def isFile : Entry → Bool
  | file _ _ => true
  | _ => false

/-- Whether this is a link. -/
def isLink : Entry → Bool
  | link _ => true
  | _ => false

/-- Whether this is a file that may be run. -/
def isProgram : Entry → Bool
  | file _ mode => mode.isRunnable
  | _ => false

end Entry

/-- A place: the names from the root of a disk on. -/
abbrev Trail := List (List Char)

/-- A disk: what stands at its places; the root is a directory. -/
structure Disk where
  entries : List (Trail × Entry)
  deriving DecidableEq, Repr, Inhabited

namespace Disk

-- ================================================================ places

/-- What stands at a place. -/
def at? (d : Disk) (place : Trail) : Option Entry :=
  if place.isEmpty then some (.directory .running) else d.entries.lookup place

/-- Puts an entry at a place, instead of what stood there. -/
def put (d : Disk) (place : Trail) (e : Entry) : Disk :=
  ⟨(place, e) :: d.entries.filter fun x => x.1 ≠ place⟩

/-- Takes what stands at a place away, with all below it. -/
def erase (d : Disk) (place : Trail) : Disk :=
  ⟨d.entries.filter fun x => !place.isPrefixOf x.1⟩

/-- The names in a directory. -/
def names (d : Disk) (place : Trail) : List (List Char) :=
  d.entries.filterMap fun x =>
    if x.1.length = place.length + 1 && place.isPrefixOf x.1 then x.1.getLast? else none

-- ================================================================= paths

/-- How long a name may be. -/
def nameLimit : Nat := 255

/-- How long a path may be, with its end. -/
def pathLimit : Nat := 4096

/-- How many links are followed on one way. -/
def linkLimit : Nat := 40

/-- The names that a path consists of; a slash at its end is a step that
stays where it is. -/
def steps (path : List Char) : List (List Char) :=
  let parts := (splitAll '/' path).filter fun part => !part.isEmpty
  if path.getLast? = some '/' then parts ++ [['.']] else parts

/-- Walks from a directory along names. The last name may lead to nothing;
a link there is followed if `follows` holds. -/
def walk (d : Disk) (follows : Bool) :
    (links : Nat) → (place : Trail) → List (List Char) → Except FileFault Trail
  | _, place, [] => .ok place
  | links, place, name :: rest =>
    if name.length > nameLimit then .error .invalidFilename
    else if name = ['.'] then walk d follows links place rest
    else if name = ['.', '.'] then walk d follows links place.dropLast rest
    else
      let next := place ++ [name]
      match d.at? next with
      | some (.directory _) => walk d follows links next rest
      | some (.link path) =>
        if rest.isEmpty && !follows then .ok next
        else match links with
          | 0 => .error .filesystemLoop
          | links + 1 =>
            walk d follows links (if path.head? = some '/' then [] else place)
              (steps path ++ rest)
      | some _ => if rest.isEmpty then .ok next else .error .notADirectory
      | none => if rest.isEmpty then .ok next else .error .notFound
termination_by links _ names => (links, names.length)

/-- The place of a path, seen from a directory. -/
def place (d : Disk) (here : Trail) (path : List Char) (follows : Bool) :
    Except FileFault Trail :=
  if path.isEmpty then .error .notFound
  else if path.contains '\x00' then .error .invalidInput
  else if path.length ≥ pathLimit then .error .invalidFilename
  else d.walk follows linkLimit (if path.head? = some '/' then [] else here) (steps path)

/-- What a path leads to, and where. -/
def find (d : Disk) (here : Trail) (path : List Char) (follows : Bool) :
    Except FileFault (Trail × Entry) := do
  let place ← d.place here path follows
  match d.at? place with
  | some e => return (place, e)
  | none => throw .notFound

/-- What a path leads to, if there is anything. -/
def found? (d : Disk) (here : Trail) (path : List Char) : Option Entry :=
  match d.find here path true with
  | .ok (_, e) => some e
  | .error _ => none

/-- A place as a path. -/
def pathOf (place : Trail) : List Char :=
  if place.isEmpty then ['/'] else place.flatMap fun name => '/' :: name

/-- A path, or where it leads from another: below that, unless it starts
at the root. -/
def join (directory path : List Char) : List Char :=
  if path.head? = some '/' then path
  else if directory.getLast? = some '/' then directory ++ path
  else directory ++ '/' :: path

-- ================================================================= files

/-- What a file holds. -/
def read (d : Disk) (here : Trail) (path : List Char) : Except FileFault (List UInt8) := do
  match (← d.find here path true).2 with
  | .file content _ => return content
  | .directory _ => throw .isADirectory
  | .link _ => throw .filesystemLoop
  | .void => return []

/-- Makes sure that there is a file to write to, which is new with a mode or
left as it is: its place, and the disk then. -/
def openAs (d : Disk) (mode : Mode) (here : Trail) (path : List Char) :
    Except FileFault (Trail × Disk) := do
  let place ← d.place here path true
  match d.at? place with
  | some (.directory _) => throw .isADirectory
  | some _ => return (place, d)
  | none => return (place, d.put place (.file [] mode))

/-- Makes sure that there is a file to write to. -/
def open_ (d : Disk) (here : Trail) (path : List Char) : Except FileFault (Trail × Disk) :=
  d.openAs .plain here path

/-- Sets what the file at a place holds. -/
def setContent (d : Disk) (place : Trail) (f : List UInt8 → List UInt8) : Disk :=
  match d.at? place with
  | some (.file content mode) => d.put place (.file (f content) mode)
  | _ => d

/-- Sets the mode of what stands at a place. -/
def setMode (d : Disk) (place : Trail) (f : Mode → Mode) : Disk :=
  match d.at? place with
  | some (.file content mode) => d.put place (.file content (f mode))
  | some (.directory mode) => d.put place (.directory (f mode))
  | _ => d

/-- Writes a file, instead of what it held. -/
def write (d : Disk) (here : Trail) (path : List Char) (content : List UInt8) :
    Except FileFault Disk := do
  let (place, d) ← d.open_ here path
  return d.setContent place fun _ => content

-- ============================================================ directories

/-- Puts an entry where there was nothing. -/
def make (d : Disk) (here : Trail) (path : List Char) (e : Entry) : Except FileFault Disk := do
  let place ← d.place here path false
  match d.at? place with
  | some _ => throw .alreadyExists
  | none => return d.put place e

/-- Makes a directory. -/
def makeDirectory (d : Disk) (here : Trail) (path : List Char) : Except FileFault Disk :=
  d.make here path (.directory .running)

/-- Takes a file or a link away. -/
def remove (d : Disk) (here : Trail) (path : List Char) : Except FileFault Disk := do
  match ← d.find here path false with
  | (_, .directory _) => throw .isADirectory
  | (place, _) => return d.erase place

/-- Takes an empty directory away. -/
def removeDirectory (d : Disk) (here : Trail) (path : List Char) : Except FileFault Disk := do
  match ← d.find here path false with
  | (place, .directory _) =>
    if (d.names place).isEmpty then return d.erase place else throw .directoryNotEmpty
  | _ => throw .notADirectory

/-- Moves what stands at a place, with all below it, to another place. -/
def move (d : Disk) (source goal : Trail) : Disk :=
  let moved := d.entries.filterMap fun x =>
    if source.isPrefixOf x.1 then some (goal ++ x.1.drop source.length, x.2) else none
  ⟨moved ++ ((d.erase source).erase goal).entries⟩

end Disk

end ClrListing
