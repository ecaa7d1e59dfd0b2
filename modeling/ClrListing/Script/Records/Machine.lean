/-
What a program for records works on: variables and tables, the record and
its fields, what is read, and what is written.

Commands are run by whoever runs the program. Where a command is to be run
whose result is not yet known, the program stops and asks for it; it is
then run again from the start with one more result.
-/
import ClrListing.Script.Records.Reader
import ClrListing.Script.Records.Value
import ClrListing.Script.Tool.Search

namespace ClrListing.Script.Records

open Text

-- ================================================================ commands

/-- A command that is to be run: its text, what it is given to read, unless
it reads what the program does, and whether what it prints is wanted. -/
structure Request where
  command : List Char
  input : Option (List Char)
  isWanted : Bool
  deriving DecidableEq, Repr, Inhabited

/-- What a command left. -/
structure Response where
  status : Int
  output : List Char
  disk : Disk
  /-- What is left of what the program reads. -/
  left : List Char
  deriving Inhabited

-- ================================================================= machine

/-- Why a run does not go on where it is. -/
inductive Stop where
  /-- The next record is due. -/
  | next
  | nextFile
  /-- The program ends. -/
  | finish
  /-- Something went wrong. -/
  | fault (reason : List Char)
  /-- A command is to be run. -/
  | ask (request : Request)
  deriving Repr, Inhabited

/-- A name in a function. -/
inductive Local where
  | value (v : Value)
  | table (number : Nat)
  deriving Repr, Inhabited

/-- What something is written to. -/
inductive Target where
  | output
  | file
  | command
  deriving DecidableEq, Repr, Inhabited

/-- What is open for writing; texts are kept last one first. -/
structure OpenSink where
  target : Target
  name : List Char
  texts : List (List Char)
  deriving Repr, Inhabited

/-- What is open for reading. -/
structure OpenSource where
  isCommand : Bool
  name : List Char
  rest : List Char
  status : Int
  deriving Repr, Inhabited

/-- What a program has got to. -/
structure Machine where
  functions : List Function
  globals : Std.HashMap String Value
  tables : Array Table
  /-- The tables by their names. -/
  tableNumbers : List (String × Nat)
  locals : List (String × Local)
  /-- How many functions are run. -/
  depth : Nat
  /-- The record, unless its fields were changed. -/
  line : Option Value
  /-- The fields, unless the record is not taken apart yet. -/
  fields : Option (List Value)
  /-- The number of the argument that is read next. -/
  place : Nat
  /-- What is left of the file that is read. -/
  stream : Option (List Char)
  hasFile : Bool
  input : List Char
  readsInput : Bool
  sources : List OpenSource
  /-- What is open for writing, the last one used first. -/
  sinks : List OpenSink
  /-- What left the program, each text with the number of its channel, and
  what was printed and is still kept back; the last text comes first. -/
  told : List (Nat × List Char)
  kept : List (List Char)
  disk : Disk
  here : Trail
  responses : List Response
  /-- The rules between whose records the record is. -/
  ranges : List Nat
  status : Nat
  seed : Value
  random : Nat
  deriving Inhabited

/-- A step of a program. -/
abbrev Step := EStateM Stop Machine

namespace Machine

-- ============================================================== variables

/-- The value of a variable that all see. -/
def global (m : Machine) (name : String) : Value := (m.globals[name]?).getD .unset

/-- What numbers are written by where they become texts. -/
def conversion (m : Machine) : NumberFormat := (m.global "CONVFMT").toText "%.6g".toList

/-- The text of a value. -/
def textOf (m : Machine) (v : Value) : List Char :=
  match v with
  | .number x => numberText m.conversion x
  | v => v.toText []

/-- The text of a variable that all see. -/
def globalText (m : Machine) (name : String) : List Char := m.textOf (m.global name)

/-- The start of a complaint that comes with where the program is. -/
def faultText (m : Machine) (reason : List Char) : List Char :=
  unlines ["awk: run time error: ".toList ++ reason,
    "\tFILENAME=\"".toList ++ m.globalText "FILENAME" ++ "\" FNR=".toList ++
      m.globalText "FNR" ++ " NR=".toList ++ m.globalText "NR"]

end Machine

/-- Ends the run with a complaint. -/
def fail (reason : List Char) : Step α := do throw (.fault ((← get).faultText reason))

/-- Ends the run since a file cannot be opened. -/
def failToOpen (path : List Char) (purpose : String) (fault : FileFault) : Step α :=
  throw (.fault ("awk: cannot open \"".toList ++ path ++ "\" ".toList ++ purpose.toList ++
    "(".toList ++ fault.words.toList ++ ")\n".toList))

/-- The regular expression of a text. -/
def compiled (source : List Char) : Step Regex := do
  match ProgramReader.pattern.compilePattern source with
  | .ok r => return r
  | .error reason => fail reason

-- ================================================================= fields

/-- A text taken apart at the places where it has an expression; there are
at most so many. -/
def splitByPattern (r : Regex) : (bound : Nat) → (before : Option Char) → (part : List Char) →
    List Char → List (List Char)
  | 0, _, part, s => [part.reverse ++ s]
  | bound + 1, before, part, s =>
    match r.search false before s with
    | none => [part.reverse ++ s]
    | some (skip, spot) =>
      if spot.taken = 0 then
        match s.drop skip with
        | [] => [part.reverse ++ s]
        | c :: rest =>
          splitByPattern r bound (some c) (c :: (s.take skip).reverse ++ part) rest
      else
        (part.reverse ++ s.take skip) :: splitByPattern r bound spot.before [] spot.rest

/-- How a text is taken apart. -/
inductive Separator where
  /-- Between blanks. -/
  | blanks
  /-- Into its characters. -/
  | none
  | char (c : Char)
  | pattern (r : Regex)
  deriving Repr, Inhabited

/-- The parts of a text. -/
def Separator.parts (separator : Separator) (s : List Char) : List (List Char) :=
  match separator with
  | .blanks =>
    (splitAll ' ' (s.map fun c => if c = '\t' || c = '\n' then ' ' else c)).filter fun w =>
      !w.isEmpty
  | .none => s.map fun c => [c]
  | .char c => if s.isEmpty then [] else splitAll c s
  | .pattern r => if s.isEmpty then [] else splitByPattern r (s.length + 1) Option.none [] s

/-- How a text asks to take others apart; where lines are joined to
records, their ends count too. -/
def separatorOf (s : List Char) (joinsLines : Bool) : Step Separator := do
  match s with
  | [' '] => return .blanks
  | [] => return .none
  | [c] =>
    if joinsLines && c ≠ '\n' then
      return .pattern (.either (.one (.char c)) (.one (.char '\n')))
    else return .char c
  | s =>
    let r ← compiled s
    return .pattern (if joinsLines then .either r (.one (.char '\n')) else r)

/-- The fields of the record. -/
def fields : Step (List Value) := do
  let m ← get
  match m.fields with
  | some fields => return fields
  | none =>
    let separator ← separatorOf (m.globalText "FS") (m.globalText "RS").isEmpty
    let parts := separator.parts (m.textOf (m.line.getD .unset))
    let fields := parts.map Value.read
    modify fun m => { m with fields := some fields }
    return fields

/-- The record. -/
def record : Step Value := do
  let m ← get
  match m.line with
  | some v => return v
  | none =>
    let texts := (← fields).map m.textOf
    let v := Value.read ((m.globalText "OFS").intercalate texts)
    modify fun m => { m with line := some v }
    return v

/-- Makes a value the record. -/
def setRecord (v : Value) : Step Unit := modify fun m => { m with line := some v, fields := none }

/-- The value of a field. -/
def field (n : Int) : Step Value := do
  if n < 0 then fail ("negative field index $".toList ++ digitsOf n)
  else if n = 0 then record
  else return ((← fields)[n.toNat - 1]?).getD .unset

/-- Gives a field a value; fields before it are empty if they are not
there. -/
def setField (n : Int) (v : Value) : Step Unit := do
  if n < 0 then fail ("negative field index $".toList ++ digitsOf n)
  else if n = 0 then setRecord v
  else
    let fields ← fields
    let n := n.toNat
    let filled := fields ++ List.replicate (n - fields.length) (.text [])
    modify fun m => { m with fields := some (filled.set (n - 1) v), line := none }

/-- Makes the record have so many fields. -/
def setFieldCount (n : Int) : Step Unit := do
  let fields ← fields
  let n := n.toNat
  let filled := fields.take n ++ List.replicate (n - fields.length) (.text [])
  modify fun m => { m with fields := some filled, line := none }

-- =============================================================== variables

/-- The value of a variable. -/
def valueOf (name : String) : Step Value := do
  let m ← get
  match m.locals.lookup name with
  | some (.value v) => return v
  | some (.table _) => fail ("illegal reference to array ".toList ++ name.toList)
  | none =>
    if name = "NF" then return .number (Float.ofNat (← fields).length)
    else return m.global name

/-- Gives a variable a value. -/
def setVariable (name : String) (v : Value) : Step Unit := do
  let m ← get
  match m.locals.lookup name with
  | some _ =>
    modify fun m => { m with
      locals := m.locals.map fun l => if l.1 = name then (name, .value v) else l }
  | none =>
    if name = "NF" then setFieldCount (truncated v.toNumber)
    else
      if name = "FS" then let _ ← fields
      if name = "OFS" || name = "CONVFMT" then let _ ← record
      modify fun m => { m with globals := m.globals.insert name v }

/-- Makes a variable with a number one more. -/
def countUp (name : String) : Step Unit := do
  setVariable name (.number (((← get).global name).toNumber + 1))

/-- The number of a new table. -/
def newTable : Step Nat := do
  let number := (← get).tables.size
  modify fun m => { m with tables := m.tables.push .empty }
  return number

/-- The number of the table of a name. -/
def tableNumber (name : String) : Step Nat := do
  let m ← get
  match m.locals.lookup name with
  | some (.table n) => return n
  | some (.value _) => fail ("illegal reference to variable ".toList ++ name.toList)
  | none =>
    match m.tableNumbers.lookup name with
    | some n => return n
    | none =>
      let n ← newTable
      modify fun m => { m with tableNumbers := (name, n) :: m.tableNumbers }
      return n

/-- A table. -/
def table (number : Nat) : Step Table := do return ((← get).tables[number]?).getD .empty

/-- Changes a table. -/
def changeTable (number : Nat) (f : Table → Table) : Step Unit :=
  modify fun m => { m with tables := m.tables.modify number f }

/-- The key of values. -/
def keyOf (values : List Value) : Step Key := do
  let m ← get
  match values with
  | [.number x] =>
    match whole? x with
    | some n =>
      if -signedLimit ≤ n && n ≤ signedLimit then return .number n
      else return .text (m.textOf (.number x))
    | none => return .text (m.textOf (.number x))
  | values => return .text ((m.globalText "SUBSEP").intercalate (values.map m.textOf))

-- ================================================================= output

/-- Lets what was printed go. -/
def sendOutput : Step Unit :=
  modify fun m => { m with told := m.kept.map (fun text => (1, text)) ++ m.told, kept := [] }

/-- Complains. -/
def complain (text : List Char) : Step Unit :=
  modify fun m => { m with told := (2, text) :: m.told }

/-- What was written to a sink. -/
def OpenSink.text (s : OpenSink) : List Char := s.texts.reverse.flatten

/-- Writes what was written to an open file to the disk. -/
def writeFile (s : OpenSink) : Step Unit := do
  if s.target = .file then
    let m ← get
    match m.disk.write m.here s.name (Octets.toBytes s.text) with
    | .ok disk => set { m with disk := disk }
    | .error _ => return ()

/-- Writes what was written to open files to the disk. -/
def writeFiles : Step Unit := do (← get).sinks.forM writeFile

/-- Runs a command, if its result is known. -/
def runCommand (request : Request) : Step Response := do
  writeFiles
  let m ← get
  match m.responses with
  | [] => throw (.ask request)
  | r :: rest =>
    set { m with
      responses := rest
      disk := r.disk
      input := if m.readsInput then m.input else r.left }
    return r

/-- Opens a sink that is not open. -/
def openSink (target : Target) (name : List Char) (appends : Bool) : Step OpenSink := do
  let m ← get
  match target with
  | .file =>
    let before := if appends then
        match m.disk.read m.here name with
        | .ok bytes => Octets.ofBytes bytes
        | .error _ => []
      else []
    match m.disk.write m.here name (Octets.toBytes before) with
    | .ok disk =>
      set { m with disk := disk }
      return ⟨.file, name, [before]⟩
    | .error fault => failToOpen name "for output " fault
  | .command =>
    sendOutput
    return ⟨.command, name, []⟩
  | .output => return ⟨.output, name, []⟩

/-- Writes to a sink of a name, which is opened if it is not open. -/
def writeTo (target : Target) (name : List Char) (appends : Bool) (text : List Char) :
    Step Unit := do
  let (target, name) := if target = .command then (target, name)
    else if name = ['-'] || name = "/dev/stdout".toList then (.output, "/dev/stdout".toList)
    else (target, name)
  if target = .file && name = "/dev/stderr".toList then
    complain text
  else
    let isIt (s : OpenSink) : Bool := s.target = target && s.name = name
    let sink ← match (← get).sinks.find? isIt with
      | some s => pure s
      | none => openSink target name appends
    let sink := if target = .output then sink else { sink with texts := text :: sink.texts }
    modify fun m => { m with
      sinks := sink :: m.sinks.filter fun s => !isIt s
      kept := if target = .output then text :: m.kept else m.kept }

/-- Prints. -/
def print (text : List Char) : Step Unit := modify fun m => { m with kept := text :: m.kept }

/-- Ends what was written to a sink, and gives the status of its command. -/
def closeSink (s : OpenSink) : Step Int := do
  match s.target with
  | .output =>
    sendOutput
    return 0
  | .file =>
    writeFile s
    return 0
  | .command => return (← runCommand ⟨s.name, some s.text, false⟩).status

/-- Closes what is open by a name, and gives its status. -/
def close (name : List Char) : Step Int := do
  let m ← get
  match m.sinks.find? fun s => s.name = name, m.sources.find? fun s => s.name = name with
  | none, none => return -1
  | some s, _ =>
    let status ← closeSink s
    modify fun m => { m with
      sinks := m.sinks.filter fun t => !(t.target = s.target && t.name = s.name) }
    return status
  | none, some s =>
    set { m with sources := m.sources.filter fun t => t.name ≠ name }
    return s.status

/-- Closes all that is open for writing, at most so often. -/
def closeAll : (bound : Nat) → Step Unit
  | 0 => return
  | bound + 1 => do
    match (← get).sinks with
    | [] => sendOutput
    | s :: rest =>
      let _ ← closeSink s
      modify fun m => { m with sinks := rest }
      closeAll bound

-- ================================================================== input

/-- How records end. -/
inductive RecordEnd where
  | char (c : Char)
  /-- At empty lines. -/
  | emptyLine
  | pattern (r : Regex)
  deriving Repr, Inhabited

/-- How records end by the text that tells it. -/
def recordEnd : Step RecordEnd := do
  match (← get).globalText "RS" with
  | [] => return .emptyLine
  | [c] => return .char c
  | s => return .pattern (← compiled s)

/-- The lines that a text opens with up to an empty one, and the rest. -/
def paragraph : List Char → List Char × List Char
  | [] => ([], [])
  | '\n' :: '\n' :: rest => ([], rest.dropWhile (· = '\n'))
  | ['\n'] => ([], [])
  | c :: rest =>
    let (text, after) := paragraph rest
    (c :: text, after)

/-- The record that a text opens with, and the rest. -/
def takeRecord? (ending : RecordEnd) (s : List Char) : Option (List Char × List Char) :=
  match ending with
  | .char c =>
    if s.isEmpty then none
    else
      let text := s.takeWhile (· ≠ c)
      some (text, s.drop (text.length + 1))
  | .emptyLine =>
    let s := s.dropWhile (· = '\n')
    if s.isEmpty then none else some (paragraph s)
  | .pattern r =>
    if s.isEmpty then none
    else match r.search false none s with
      | some (skip, spot) =>
        if spot.taken = 0 then some (s, []) else some (s.take skip, spot.rest)
      | none => some (s, [])

/-- Whether an argument gives a variable a value: its name and the
value. -/
def assignmentOf? (s : List Char) : Option (String × List Char) :=
  match splitOnce ['='] s with
  | some (name, value) =>
    if name.head?.any (fun c => c.isAlpha || c = '_') &&
        name.all fun c => c.isAlphanum || c = '_' then
      some (String.ofList name, unescapedText (value.length + 1) value)
    else none
  | none => none

/-- What a file holds, if it can be read. -/
def fileText? (path : List Char) : Step (Except FileFault (List Char)) := do
  let m ← get
  if path = ['-'] || path = "/dev/stdin".toList then
    set { m with readsInput := true, input := [] }
    return .ok m.input
  else match m.disk.read m.here path with
    | .ok bytes => return .ok (Octets.ofBytes bytes)
    | .error fault => return .error fault

/-- Opens the next file that the arguments tell of, of which at most so many
are left, and tells whether there is one. -/
def openNext : (bound : Nat) → Step Bool
  | 0 => return false
  | bound + 1 => do
    let m ← get
    let count := truncated (m.global "ARGC").toNumber
    if (m.place : Int) < count then
      let argument := m.textOf ((← table (← tableNumber "ARGV")).value (.number m.place))
      modify fun m => { m with place := m.place + 1 }
      match assignmentOf? argument with
      | some (name, value) =>
        setVariable name (.read value)
        openNext bound
      | none =>
        if argument.isEmpty then openNext bound
        else
          match ← fileText? argument with
          | .ok text =>
            setVariable "FILENAME" (.text argument)
            setVariable "FNR" (.number 0)
            modify fun m => { m with stream := some text, hasFile := true }
            return true
          | .error fault => failToOpen argument "" fault
    else if m.hasFile then return false
    else
      match ← fileText? ['-'] with
      | .ok text =>
        setVariable "FILENAME" (.text ['-'])
        modify fun m => { m with stream := some text, hasFile := true }
        return true
      | .error _ => return false

/-- The next record of the files, of which at most so many are left. -/
def nextRecord? : (bound : Nat) → Step (Option (List Char))
  | 0 => return none
  | bound + 1 => do
    match (← get).stream with
    | some text =>
      match takeRecord? (← recordEnd) text with
      | some (s, rest) =>
        modify fun m => { m with stream := some rest }
        return some s
      | none =>
        modify fun m => { m with stream := none }
        nextRecord? bound
    | none =>
      let left := (truncated ((← get).global "ARGC").toNumber).toNat + 2
      if ← openNext left then nextRecord? bound else return none

/-- Takes the next record of the files. -/
def takeRecord : Step (Option (List Char)) := do
  let left := (truncated ((← get).global "ARGC").toNumber).toNat
  nextRecord? (2 * left + 4)

/-- The next record of a source of a name, which is opened if it is not
open; nothing at its end, and a fault if it cannot be read. -/
def sourceRecord (isCommand : Bool) (name : List Char) :
    Step (Except FileFault (Option (List Char))) := do
  let isIt (s : OpenSource) : Bool := s.isCommand = isCommand && s.name = name
  let source : Except FileFault OpenSource ← match (← get).sources.find? isIt with
    | some s => pure (.ok s)
    | none =>
      if isCommand then do
        sendOutput
        let r ← runCommand ⟨name, none, true⟩
        pure (.ok ⟨true, name, r.output, r.status⟩)
      else do
        match ← fileText? name with
        | .ok text => pure (.ok ⟨false, name, text, 0⟩)
        | .error fault => pure (.error fault)
  match source with
  | .error fault => return .error fault
  | .ok s =>
    let (found, rest) := match takeRecord? (← recordEnd) s.rest with
      | some (text, rest) => (some text, rest)
      | none => (none, [])
    modify fun m => { m with
      sources := { s with rest := rest } :: m.sources.filter fun t => !isIt t }
    return .ok found

end ClrListing.Script.Records
