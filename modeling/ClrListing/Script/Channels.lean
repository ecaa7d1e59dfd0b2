/-
Letting channels lead elsewhere: to files and from them, and where other
channels lead.
-/
import ClrListing.Script.FileMode
import ClrListing.Script.Tool.Basic
import ClrListing.Script.World

namespace ClrListing.Script

open Text

namespace Shell

/-- The channel that a path stands for. -/
def channelOf? (path : List Char) : Option Nat :=
  if path = "/dev/stdin".toList then some 0
  else if path = "/dev/stdout".toList then some 1
  else if path = "/dev/stderr".toList then some 2
  else if "/dev/fd/".toList.isPrefixOf path then natural? (path.drop 8)
  else if "/proc/self/fd/".toList.isPrefixOf path then natural? (path.drop 14)
  else none

/-- Lets a channel lead elsewhere. -/
def setChannel (number : Nat) (channel : Option Channel) : Shell Unit :=
  modifyScope fun s => { s with channels := s.channels.set number channel }

/-- The complaint about a file that cannot be written. -/
def createComplaint (path : List Char) (fault : FileFault) : List Char :=
  "cannot create ".toList ++ path ++ ": ".toList ++ (if fault = .notFound || fault = .notADirectory
    then "Directory nonexistent" else fault.words).toList

/-- The complaint about a file that cannot be read. -/
def openComplaint (path : List Char) (fault : FileFault) : List Char :=
  "cannot open ".toList ++ path ++ ": ".toList ++ (if fault = .notFound || fault = .notADirectory
    then "No such file" else fault.words).toList

/-- Lets a channel lead to a file, which is empty then unless it is added
to; tells whether it can. -/
def openOutput (number : Nat) (path : List Char) (appends forces : Bool) : Shell Bool := do
  let w ← get
  let keeps := w.scope.options.contains "noclobber" && !appends && !forces
  match (channelOf? path).bind fun n => w.scope.channels.lookup n with
  | some channel =>
    setChannel number (some channel)
    return true
  | none =>
    let isKept := keeps && (w.disk.found? w.scope.here path).any Entry.isFile
    let mode := 0o666 &&& Mask.inverse w.scope.mask
    match if isKept then .error .alreadyExists else w.disk.openAs mode w.scope.here path with
    | .error fault =>
      complain (createComplaint path fault)
      return false
    | .ok (place, disk) =>
      let disk := if appends then disk else disk.setContent place fun _ => []
      set { w with disk := disk }
      setChannel number (some (if disk.at? place = some .void then .void else .file place))
      return true

/-- Lets a channel lead from a file; tells whether it can. -/
def openInput (number : Nat) (path : List Char) (creates : Bool) : Shell Bool := do
  let w ← get
  match (channelOf? path).bind fun n => w.scope.channels.lookup n with
  | some channel =>
    setChannel number (some channel)
    return true
  | none =>
    if creates then
      match w.disk.open_ w.scope.here path with
      | .ok (_, disk) => set { w with disk := disk }
      | .error _ => pure ()
    let disk := (← get).disk
    let text : Except FileFault (List Char) :=
      if path = "/dev/zero".toList then .ok zeros
      else match disk.read w.scope.here path with
        | .ok bytes => .ok (Octets.ofBytes bytes)
        | .error .isADirectory => .ok []
        | .error fault => .error fault
    match text with
    | .ok text =>
      setChannel number (some (.source (← newSource text)))
      return true
    | .error fault =>
      complain (openComplaint path fault)
      return false

/-- Lets a channel lead where another does, or nowhere; tells whether it
can. -/
def copyChannel (number : Nat) (other : List Char) : Shell Bool := do
  if other = ['-'] then
    setChannel number none
    return true
  else match natural? other with
    | none => abort "Syntax error: Bad fd number".toList
    | some n =>
      match (← scope).channels.lookup n with
      | some channel =>
        setChannel number (some channel)
        return true
      | none =>
        complain (other ++ ": Bad file descriptor".toList)
        return false

end Shell

end ClrListing.Script
