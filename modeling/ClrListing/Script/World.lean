/-
What scripts run in: a world of a disk, of texts that are read and
written, and of processes that signals are sent to; and what each shell
keeps to itself.

A part of a script that is run apart works on a copy of what its shell
keeps to itself, while the rest of the world is common to all.
-/
import ClrListing.Process
import ClrListing.Script.Arithmetic
import ClrListing.Script.Basic
import ClrListing.Text.Utf8

namespace ClrListing.Script

open Text

-- =============================================================== channels

/-- Where a channel leads. -/
inductive Channel where
  /-- To a text that is written. -/
  | stream (number : Nat)
  /-- From a text that is read. -/
  | source (number : Nat)
  /-- To the end of a file, or from a file. -/
  | file (place : Trail)
  | void
  deriving DecidableEq, Repr, Inhabited

/-- The channels by their numbers. -/
abbrev Channels := List (Nat × Channel)

/-- Channels with one that leads elsewhere, or nowhere. -/
def Channels.set (cs : Channels) (number : Nat) (channel : Option Channel) : Channels :=
  let others := cs.filter fun c => c.1 ≠ number
  match channel with
  | some c => (number, c) :: others
  | none => others

-- ============================================================= parameters

/-- A named parameter. -/
structure Parameter where
  value : Option (List Char)
  /-- The programs that are run get it too. -/
  isExported : Bool
  isReadOnly : Bool
  deriving DecidableEq, Repr, Inhabited

/-- A parameter without a value. -/
def Parameter.none : Parameter := ⟨Option.none, false, false⟩

/-- Parameters by their names. -/
abbrev Parameters := List (List Char × Parameter)

namespace Parameters

/-- The parameter of a name. -/
def get (ps : Parameters) (name : List Char) : Parameter := (ps.lookup name).getD .none

/-- Where a name stands among parameters: they are kept by a remainder of
the sum of their letters, in which the first counts seventeen times. -/
def slot (name : List Char) : Nat :=
  name.foldl (fun n c => n + c.toNat) (16 * (name.headD '\x00').toNat) % 39

/-- Parameters with one of some name changed. -/
def replace (ps : Parameters) (name : List Char) (p : Parameter) : Parameters :=
  ps.map fun q => if q.1 = name then (name, p) else q

/-- Parameters with one set, which stands by its name. -/
def set (ps : Parameters) (name : List Char) (p : Parameter) : Parameters :=
  if (ps.lookup name).isSome then ps.replace name p
  else
    let (before, after) := ps.span fun q => slot q.1 ≤ slot name
    before ++ (name, p) :: after

/-- Parameters with one set, which stands last if it is new. -/
def setLast (ps : Parameters) (name : List Char) (p : Parameter) : Parameters :=
  if (ps.lookup name).isSome then ps.replace name p else ps ++ [(name, p)]

/-- Parameters with others set. -/
def setAll (ps others : Parameters) : Parameters := others.foldl (fun ps p => ps.set p.1 p.2) ps

/-- What programs are told of parameters. -/
def environment (ps : Parameters) : List (List Char × List Char) :=
  ps.filterMap fun p => match p.2.value with
    | some value => if p.2.isExported then some (p.1, value) else Option.none
    | Option.none => Option.none

/-- The parameters of a program that is told these values. -/
def ofEnvironment (values : List (List Char × List Char)) : Parameters :=
  values.map fun v => (v.1, ⟨some v.2, true, false⟩)

end Parameters

-- ================================================================ options

/-- The options of a shell: their letters, where they have one, and their
names. -/
def optionTable : List (Option Char × String) :=
  [(some 'e', "errexit"), (some 'f', "noglob"), (some 'I', "ignoreeof"), (some 'i', "interactive"),
    (some 'm', "monitor"), (some 'n', "noexec"), (some 's', "stdin"), (some 'x', "xtrace"),
    (some 'v', "verbose"), (some 'V', "vi"), (some 'E', "emacs"), (some 'C', "noclobber"),
    (some 'a', "allexport"), (some 'b', "notify"), (some 'u', "nounset"),
    (some 'p', "privileged"), (none, "nolog"), (none, "debug")]

-- ================================================================= shells

/-- What a shell keeps to itself. -/
structure Scope where
  parameters : Parameters
  functions : List (List Char × Command)
  /-- What the script is called. -/
  name : List Char
  arguments : List (List Char)
  /-- How the last command ended. -/
  status : Nat
  /-- How the last command ended of those whose output the current one was
  given, if there were any. -/
  printed : Option Nat
  /-- The line that is run. -/
  line : Nat
  here : Trail
  /-- The options that are set, by their names. -/
  options : List String
  /-- The texts that stand for words where a command starts. -/
  aliases : List (List Char × List Char)
  /-- What is done at signals, by their numbers, and at the end of the
  script, as for zero. Nothing is done for an empty text. -/
  traps : List (Nat × List Char)
  channels : Channels
  /-- The number of the process. -/
  process : Nat
  /-- How many times a part of the script is run apart. -/
  depth : Nat
  /-- How many loops are run. -/
  loops : Nat
  /-- What parameters were before they were given to the functions that
  are run. -/
  locals : List Parameters
  /-- A command that fails does not end the script. -/
  isTested : Bool
  /-- The number of what was last run beside the script. -/
  lastJob : Option Nat
  /-- How much of an argument the options that are taken off took. -/
  optionOffset : Nat
  /-- What may not be done with the files that are made: three bits for
  each of their owner, their group and all others. -/
  mask : Nat
  deriving Inhabited

/-- What is run beside a script. It is run where the script waits, so that
it begins with what the script had then. -/
structure Job where
  number : Nat
  scope : Scope
  steps : List Step
  /-- How it ended, if it did. -/
  status : Option Nat
  deriving Inhabited

/-- The world that scripts run in. -/
structure World where
  disk : Disk
  /-- The texts that are written, by their numbers. -/
  outputs : List (List Char)
  /-- What is left of the texts that are read. -/
  sources : List (List Char)
  /-- The signals that were sent to processes and did not reach them
  yet. -/
  pending : List (Nat × Nat)
  /-- The processes that run shells. -/
  living : List Nat
  nextProcess : Nat
  scope : Scope
  jobs : List Job
  deriving Inhabited

/-- Why a run of commands ends early. -/
inductive Leave where
  /-- The script ends. -/
  | exited (status : Nat)
  /-- A signal ends the process. -/
  | killed (signal : Nat)
  /-- A program was run instead of the rest of the script. -/
  | replaced (status : ExitStatus)
  /-- So many loops end. -/
  | broke (loops : Nat)
  /-- All but one of so many loops end, and that goes on with its next
  turn. -/
  | continued (loops : Nat)
  /-- A function ends. -/
  | returned (status : Nat)
  deriving DecidableEq, Repr, Inhabited

/-- A run of commands. -/
abbrev Shell := ExceptT Leave (StateM World)

namespace Shell

-- ================================================================== scope

/-- What the shell keeps to itself. -/
def scope : Shell Scope := do return (← get).scope

/-- Whether an option is set. -/
def hasOption (name : String) : Shell Bool := do return (← scope).options.contains name

/-- Changes what the shell keeps to itself. -/
def modifyScope (f : Scope → Scope) : Shell Unit := modify fun w => { w with scope := f w.scope }

/-- Notes how a command ended. -/
def setStatus (status : Nat) : Shell Unit := modifyScope fun s => { s with status := status }

/-- The environment of the programs that are run. -/
def environment : Shell (List (List Char × List Char)) := do
  return (← scope).parameters.environment

/-- Runs commands, and tells why they ended early if they did. -/
def attempt (run : Shell Unit) : Shell (Option Leave) :=
  tryCatch (run *> pure none) fun leave => pure (some leave)

/-- Runs commands and then `last`, however they end. -/
def finally_ (run last : Shell Unit) : Shell Unit := do
  let ended ← attempt run
  last
  match ended with
  | some leave => throw leave
  | none => return ()

/-- Goes on with steps until one of them leads nowhere, at most so
often. -/
def following (step : α → Shell (Option α)) : (limit : Nat) → α → Shell Unit
  | 0, _ => return ()
  | limit + 1, a => do
    match ← step a with
    | some b => following step limit b
    | none => return ()

/-- How often a loop is run at most. -/
def turnLimit : Nat := 1000000

/-- Runs steps until one of them does not go on. -/
def repeating (step : Shell Bool) : Shell Unit :=
  following (fun _ => do return if ← step then some () else none) turnLimit ()

-- ================================================================ writing

/-- Writes to where a channel leads. -/
def writeTo (text : List Char) : Channel → Shell Unit
  | .stream n => modify fun w => { w with outputs := w.outputs.modify n (· ++ text) }
  | .file place => modify fun w =>
    { w with disk := w.disk.setContent place (· ++ Octets.toBytes text) }
  | .source _ | .void => return ()

/-- Writes to a channel, and tells whether there is one. -/
def write (number : Nat) (text : List Char) : Shell Bool := do
  match (← scope).channels.lookup number with
  | some channel =>
    writeTo text channel
    return true
  | none => return text.isEmpty

/-- Writes lines that tell of a fault. -/
def tell (text : List Char) : Shell Unit := do
  let _ ← write 2 text

/-- What a complaint starts with. -/
def complaintStart : Shell (List Char) := do
  let s ← scope
  return s.name ++ [':', ' '] ++ s.line.repr.toList ++ [':', ' ']

/-- Complains. -/
def complain (reason : List Char) : Shell Unit := do tell ((← complaintStart) ++ reason ++ ['\n'])

/-- Complains, and ends the script. -/
def abort (reason : List Char) : Shell α := do
  complain reason
  throw (.exited 2)

/-- Complains, and notes that the command failed. -/
def reject (status : Nat) (reason : List Char) : Shell Unit := do
  complain reason
  setStatus status

/-- A new text to write to: its number. -/
def newOutput : Shell Nat := do
  let number := (← get).outputs.length
  modify fun w => { w with outputs := w.outputs ++ [[]] }
  return number

/-- What was written to a text. -/
def outputAt (number : Nat) : Shell (List Char) := do
  return ((← get).outputs[number]?).getD []

-- ================================================================ reading

/-- A new text to read from: its number. -/
def newSource (text : List Char) : Shell Nat := do
  let number := (← get).sources.length
  modify fun w => { w with sources := w.sources ++ [text] }
  return number

/-- What is left to read. -/
def input : Shell (List Char) := do
  let w ← get
  match w.scope.channels.lookup 0 with
  | some (.source n) => return (w.sources[n]?).getD []
  | some (.file place) =>
    match w.disk.at? place with
    | some (.file content _) => return Octets.ofBytes content
    | _ => return []
  | _ => return []

/-- Leaves only a part of what is left to read. -/
def leaveInput (text : List Char) : Shell Unit := do
  match (← scope).channels.lookup 0 with
  | some (.source n) => modify fun w => { w with sources := w.sources.set n text }
  | _ => return ()

/-- Takes the next line off what is left to read: its text, and whether a
line feed ended it. -/
def takeLine : Shell (List Char × Bool) := do
  let text ← input
  let line := text.takeWhile (· ≠ '\n')
  leaveInput (text.drop (line.length + 1))
  return (line, line.length < text.length)

-- ============================================================= parameters

/-- The value of a parameter. -/
def value? (w : World) (name : List Char) : Option (List Char) :=
  let s := w.scope
  match name with
  | ['?'] => some s.status.repr.toList
  | ['#'] => some s.arguments.length.repr.toList
  | ['$'] => some s.process.repr.toList
  | ['!'] => s.lastJob.map fun n => n.repr.toList
  | ['-'] =>
    some ((optionTable.filter fun o => s.options.contains o.2).filterMap Prod.fst).reverse
  | ['0'] => some s.name
  | _ =>
    match natural? name with
    | some n => s.arguments[n - 1]?
    | none => (s.parameters.get name).value

/-- The separators of fields. -/
def separators (w : World) : List Char :=
  (value? w ['I', 'F', 'S']).getD [' ', '\t', '\n']

/-- What stands between the arguments where they are one text. -/
def joinMark (w : World) : List Char := (separators w).take 1

/-- Gives a parameter a value; `tail` stands in a complaint before the
name. -/
def assign (tail : String) (name value : List Char) : Shell Unit := do
  let p := (← scope).parameters.get name
  if p.isReadOnly then abort (tail.toList ++ name ++ ": is read only".toList)
  else
    let isExported := p.isExported || (← hasOption "allexport")
    modifyScope fun s => { s with
      parameters := s.parameters.set name ⟨some value, isExported, false⟩
      optionOffset := if name = "OPTIND".toList then 0 else s.optionOffset }

/-- Gives a parameter a value that programs are told of. -/
def assignTold (tail : String) (name value : List Char) : Shell Unit := do
  assign tail name value
  modifyScope fun s => { s with
    parameters := s.parameters.set name { s.parameters.get name with isExported := true } }

/-- The number of an expression. -/
def arithmetic (expression : List Char) : Shell Int := do
  let w ← get
  let value (name : List Char) : List Char := (value? w name).getD []
  let result := do (← Arithmetic.ofText expression).evaluate value []
  match result with
  | .ok (n, given) =>
    given.reverse.forM fun g => assign "" g.1 (digitsOf g.2)
    return n
  | .error fault => abort (fault.message expression)

-- ================================================================ signals

/-- The signals by the names that scripts give them. -/
def signalNames : List (Nat × String) :=
  (signals.filter fun s => s.1 ≠ 16)
    ++ (List.range 16).map (fun n => (34 + n, if n = 0 then "RTMIN" else "RTMIN+" ++ n.repr))
    ++ (List.range 15).map fun n => (50 + n, if n = 14 then "RTMAX" else "RTMAX-" ++ (14 - n).repr)

/-- How many signals there are, with zero. -/
def signalCount : Nat := 65

/-- The name of a signal, or its number if it has none. -/
def signalName (n : Nat) : List Char :=
  if n = 0 then "EXIT".toList else ((signalNames.lookup n).getD n.repr).toList

/-- The signal that a text names; zero stands for the end of the
script. -/
def signal? (text : List Char) : Option Nat :=
  match natural? text with
  | some n => if n < signalCount then some n else none
  | none =>
    let upper := text.map Char.toUpper
    if upper = "EXIT".toList then some 0
    else (signalNames.find? fun s => s.2.toList = upper).map Prod.fst

/-- The signals that do nothing unless a script waits for them. -/
def quietSignals : List Nat := [17, 18, 23, 28]

/-- The words that a shell tells of a program in which a signal ended. -/
def signalWords : List (Nat × String) :=
  [(1, "Hangup"), (3, "Quit"), (4, "Illegal instruction"), (5, "Trace/breakpoint trap"),
    (6, "Aborted"), (7, "Bus error"), (8, "Floating point exception"), (9, "Killed"),
    (10, "User defined signal 1"), (11, "Segmentation fault"), (12, "User defined signal 2"),
    (14, "Alarm clock"), (15, "Terminated"), (16, "Stack fault"), (24, "CPU time limit exceeded"),
    (25, "File size limit exceeded"), (26, "Virtual timer expired"),
    (27, "Profiling timer expired"), (29, "I/O possible"), (30, "Power failure"),
    (31, "Bad system call")]

/-- The status that stands for how a program ended. -/
def statusOf : ExitStatus → Nat
  | .code n => n
  | .signal n => 128 + n

/-- Notes how a program ended, and tells of the signal that ended it. -/
def settle (ended : ExitStatus) : Shell Unit := do
  match ended with
  | .signal n =>
    match signalWords.lookup n with
    | some words => tell (words.toList ++ ['\n'])
    | none =>
      if n = 2 || n = 13 then pure ()
      else tell ("Signal ".toList ++ n.repr.toList ++ ['\n'])
  | .code _ => pure ()
  setStatus (statusOf ended)

end Shell

end ClrListing.Script
