/-
A computer that runs shells and tools.
-/
import ClrListing.Process
import ClrListing.Script.Shell

namespace ClrListing.Script

open Text

-- ================================================================== disks

/-- A place, by its path. -/
def placeOf (path : String) : Trail :=
  (splitAll '/' path.toList).filter fun name => !name.isEmpty

/-- The directories that a computer starts with. -/
def firstDirectories : List String :=
  ["/boot", "/dev", "/dev/fd", "/etc", "/home", "/media", "/mnt", "/opt", "/proc", "/root", "/run",
    "/srv", "/sys", "/tmp", "/usr", "/usr/bin", "/usr/lib", "/usr/local", "/usr/local/bin",
    "/usr/sbin", "/usr/share", "/var", "/var/log", "/var/tmp", "/work"]

/-- The links that a computer starts with. -/
def firstLinks : List (String × String) :=
  [("/bin", "usr/bin"), ("/lib", "usr/lib"), ("/sbin", "usr/sbin")]

/-- The file that tells of users. -/
def userFile : String := "root:x:0:0:root:/root:/bin/bash\n"

/-- The disk that a computer starts with. -/
def firstDisk : Disk :=
  let directories := firstDirectories.map fun path => (placeOf path, Entry.directory .running)
  let links := firstLinks.map fun l => (placeOf l.1, Entry.link l.2.toList)
  let names := toolTable.map Prod.fst ++ refusals.map Prod.fst ++ runnerNames
  let programs := names.map fun name =>
    (placeOf "/usr/bin" ++ [name.toList], Entry.file (programContent name) .running)
  let devices := [(placeOf "/dev/null", Entry.void), (placeOf "/dev/stdout", .file [] .plain),
    (placeOf "/dev/stderr", .file [] .plain)]
  let files := [(placeOf "/etc/passwd", Entry.file (Octets.toBytes userFile.toList) .plain)]
  ⟨directories ++ links ++ devices ++ files ++ programs⟩

-- =============================================================== programs

/-- What programs are told where a computer starts. -/
def firstEnvironment : List (String × String) :=
  [("HOME", "/root"), ("PATH", Shell.standardPath), ("PWD", "/work")]

/-- The world that a program is run in: it has nothing to read, and what it
writes is kept. -/
def firstWorld (disk : Disk) : World where
  disk := disk
  outputs := [[], []]
  sources := [[]]
  pending := []
  living := []
  nextProcess := 101
  jobs := []
  scope :=
    { parameters := Parameters.ofEnvironment (firstEnvironment.map fun v =>
        (v.1.toList, v.2.toList))
      functions := []
      name := []
      arguments := []
      status := 0
      printed := none
      line := 0
      here := placeOf "/work"
      options := []
      aliases := []
      traps := []
      channels := [(0, .source 0), (1, .stream 0), (2, .stream 1)]
      process := 100
      depth := 0
      loops := 0
      locals := []
      isTested := false
      lastJob := none
      optionOffset := 0
      mask := 0o022 }

/-- How deep scripts may go. -/
def depthLimit : Nat := 2000

/-- Finds a program and runs it. -/
def launch (program : String) (arguments : List String) (disk : Disk) :
    Except FileFault Outcome :=
  let name := Octets.ofString program
  let (found, w) := ((Shell.locate [] name).run).run (firstWorld disk)
  match found with
  | .ok (.ok place) =>
    let run := Shell.execute depthLimit place name (arguments.map Octets.ofString)
    let (ended, w) := run.run.run w
    let status := match ended with
      | .ok status => status
      | .error _ => .code 2
    let written (number : Nat) : List UInt8 := Octets.toBytes ((w.outputs[number]?).getD [])
    .ok ⟨status, written 0, written 1, w.disk⟩
  | .ok (.error fault) => .error fault
  | .error _ => .error .notFound

/-- A computer that runs shells and tools. -/
def computer : Computer := ⟨firstDisk, launch⟩

end ClrListing.Script
