/-
Runs of programs for records: what the arguments tell, which rules are
followed when, and what a run comes to.

A run that needs the result of a command stops there. It is then made once
more from the start with all the results that are known, and passes the
same states up to where it stopped.
-/
import ClrListing.Script.Records.Evaluation

namespace ClrListing.Script.Records

open Text

-- ============================================================== arguments

/-- What arguments tell of a run. -/
structure Setup where
  /-- The variables that are given values. -/
  values : List (String × List Char)
  /-- The files that the program is in. -/
  files : List (List Char)
  /-- The other arguments; the first is the program if that is in no
  file. -/
  operands : List (List Char)
  deriving DecidableEq, Repr, Inhabited

/-- Why arguments are not understood. -/
inductive SetupFault where
  | unknown (argument : List Char)
  | lacksValue (letter : Char)
  | badAssignment (text : List Char)
  deriving DecidableEq, Repr, Inhabited

/-- How a fault is told. -/
def SetupFault.message : SetupFault → List Char
  | unknown argument => "not an option: ".toList ++ argument
  | lacksValue letter => "option -".toList ++ letter :: " lacks argument".toList
  | badAssignment text => "improper assignment: -v ".toList ++ text

namespace Setup

/-- A setup with an option more. -/
def adding (s : Setup) (letter : Char) (value : List Char) : Except SetupFault Setup :=
  match letter with
  | 'F' =>
    .ok { s with values := s.values ++ [("FS", unescapedText (value.length + 1) value)] }
  | 'v' =>
    match assignmentOf? value with
    | some assignment => .ok { s with values := s.values ++ [assignment] }
    | none => .error (.badAssignment value)
  | 'f' => .ok { s with files := s.files ++ [value] }
  | _ => .ok s

/-- A setup with what arguments tell more. -/
def reading (s : Setup) : List (List Char) → Except SetupFault Setup
  | [] => .ok s
  | argument :: rest =>
    match argument with
    | ['-', '-'] => .ok { s with operands := rest }
    | '-' :: letter :: value =>
      if !(['F', 'v', 'f', 'W'].contains letter) then .error (.unknown argument)
      else if value.isEmpty then
        match rest with
        | [] => .error (.lacksValue letter)
        | value :: rest =>
          match s.adding letter value with
          | .ok s => s.reading rest
          | .error fault => .error fault
      else
        match s.adding letter value with
        | .ok s => s.reading rest
        | .error fault => .error fault
    | _ => .ok { s with operands := argument :: rest }

/-- What arguments tell. -/
def ofArguments (arguments : List (List Char)) : Except SetupFault Setup :=
  Setup.reading ⟨[], [], []⟩ arguments

end Setup

/-- What is told to those who give no arguments. -/
def usageText : String :=
  "Usage: mawk [Options] [Program] [file ...]\n\n" ++
  "Program:\n" ++
  "    The -f option value is the name of a file containing program text.\n" ++
  "    If no -f option is given, a \x22--\x22 ends option processing; the following\n" ++
  "    parameters are the program text.\n\n" ++
  "Options:\n" ++
  "    -f program-file  Program  text is read from file instead of from the\n" ++
  "                     command-line.  Multiple -f options are accepted.\n" ++
  "    -F value         sets the field separator, FS, to value.\n" ++
  "    -v var=value     assigns value to program variable var.\n" ++
  "    --               unambiguous end of options.\n\n" ++
  "    Implementation-specific options are prefixed with \x22-W\x22.  They can be\n" ++
  "    abbreviated:\n\n" ++
  "    -W version       show version information and exit.\n" ++
  "    -W compat        pre-POSIX 2001.\n" ++
  "    -W dump          show assembler-like listing of program and exit.\n" ++
  "    -W help          show this message and exit.\n" ++
  "    -W interactive   set unbuffered output, line-buffered input.\n" ++
  "    -W exec file     use file as program as well as last option.\n" ++
  "    -W posix         stricter POSIX checking.\n" ++
  "    -W random=number set initial random seed.\n" ++
  "    -W sprintf=number adjust size of sprintf buffer.\n" ++
  "    -W usage         show this message and exit.\n"

-- =================================================================== rules

/-- How many steps a program is run at most. -/
def stepLimit : Nat := 1000000000

/-- Whether a rule is followed for the record; `number` is its number. -/
def applies (number : Nat) : Occasion → Step Bool
  | .start | .finish => return false
  | .always => return true
  | .when test => do return (← evaluate stepLimit test).holds
  | .between first last => do
    let isOpen := (← get).ranges.contains number
    if !isOpen && !(← evaluate stepLimit first).holds then return false
    let ends := (← evaluate stepLimit last).holds
    modify fun m =>
      let others := m.ranges.filter (· ≠ number)
      { m with ranges := if ends then others else number :: others }
    return true

/-- Does what a rule tells: it prints the record if it tells nothing. -/
def follow (rule : Rule) : Step Unit := do
  let _ ← run stepLimit (rule.body.getD (.print [] .output))

/-- Leaves all functions. -/
def leaveFunctions : Step Unit := modify fun m => { m with locals := [], depth := 0 }

/-- Follows the rules that are followed at the start or at the end. -/
def followAll (rules : List Rule) : Step Unit := rules.forM fun rule => do
  leaveFunctions
  follow rule

/-- Follows rules for the record, as far as they let it. -/
def followFor (rules : List Rule) : Step Unit := do
  let all : Step Unit := rules.zipIdx.forM fun rule => do
    leaveFunctions
    if ← applies rule.2 rule.1.occasion then follow rule.1
  tryCatch all fun stop => match stop with
    | .next => return
    | .nextFile => modify fun m => { m with stream := none }
    | stop => throw stop

/-- Follows rules for all records, of which there are at most so many. -/
def followRecords (rules : List Rule) : (bound : Nat) → Step Unit
  | 0 => return
  | bound + 1 => do
    match ← takeRecord with
    | none => return
    | some s =>
      countUp "NR"
      countUp "FNR"
      setRecord (.read s)
      followFor rules
      followRecords rules bound

/-- Runs a part of a program that may end all parts like it. -/
def endingHere (step : Step Unit) : Step Unit := tryCatch step fun stop => match stop with
  | .finish | .next | .nextFile => return
  | stop => throw stop

/-- Runs a program: its rules for the start, those for records if there are
any or the end is waited for, and those for the end. -/
def Program.run (p : Program) : Step Unit := do
  let isStart (r : Rule) : Bool := match r.occasion with
    | .start => true
    | _ => false
  let isEnd (r : Rule) : Bool := match r.occasion with
    | .finish => true
    | _ => false
  let others := p.rules.filter fun r => !isStart r
  endingHere do
    followAll (p.rules.filter isStart)
    if !others.isEmpty then
      followRecords (others.filter fun r => !isEnd r) stepLimit
  endingHere (followAll (others.filter isEnd))

-- ==================================================================== runs

/-- The complaint about a program, which is in a file or among the
arguments. -/
def Complaint.message (c : Complaint) (file : Option (List Char)) : List Char :=
  let line := c.line.repr.toList ++ [':', ' '] ++ c.reason ++ ['\n']
  "awk: ".toList ++
    if "unexpected character".toList.isPrefixOf c.reason then line
    else (file.map (· ++ [':', ' '])).getD [] ++ "line ".toList ++ line

/-- The table of keys with values that were read. -/
def Table.ofEntries (entries : List (Key × List Char)) : Table :=
  entries.foldl (fun t entry => (t.touch entry.1).set entry.1 (.read entry.2)) .empty

/-- What a program starts with, which is told of results of commands. -/
def Machine.start (i : Invocation) (arguments : List (List Char)) (responses : List Response) :
    Machine where
  functions := []
  globals := .ofList [("FS", .text [' ']), ("OFS", .text [' ']), ("ORS", .text ['\n']),
    ("RS", .text ['\n']), ("NR", .number 0), ("FNR", .number 0), ("SUBSEP", .text ['\x1c']),
    ("CONVFMT", .text "%.6g".toList), ("OFMT", .text "%.6g".toList), ("RSTART", .number 0),
    ("RLENGTH", .number (-1)), ("FILENAME", .text []),
    ("ARGC", .number (Float.ofNat arguments.length))]
  tables := #[.ofEntries (arguments.zipIdx.map fun a => (.number a.2, a.1)),
    .ofEntries (i.environment.map fun v => (.text v.1, v.2))]
  tableNumbers := [("ARGV", 0), ("ENVIRON", 1)]
  locals := []
  depth := 0
  line := some (.read [])
  fields := none
  place := 1
  stream := none
  hasFile := false
  input := i.input
  readsInput := false
  sources := []
  sinks := [⟨.output, "/dev/stdout".toList, []⟩]
  told := []
  kept := []
  disk := i.disk
  here := i.here
  responses := responses
  ranges := []
  status := 0
  seed := .number 0
  random := 0

/-- The text of the program, from its files or from an argument. -/
def programText (s : Setup) : Step (List Char) := do
  let texts ← s.files.mapM fun path => do
    match ← fileText? path with
    | .ok text => return text
    | .error fault => failToOpen path "" fault
  return if s.files.isEmpty then s.operands.headD [] else texts.flatten

/-- Reads a program and runs it. -/
def Setup.run (s : Setup) : Step Unit := do
  match Program.ofText (← programText s) with
  | .error complaints =>
    throw (.fault (complaints.flatMap fun c => c.message s.files.head?))
  | .ok p =>
    modify fun m => { m with functions := p.functions }
    s.values.forM fun v => setVariable v.1 (.read v.2)
    p.run

/-- Runs steps, complains of what goes wrong, and closes all that is open
then. -/
def closingAll (step : Step Unit) : Step Unit := do
  tryCatch step fun stop => match stop with
    | .fault reason => do
      complain reason
      modify fun m => { m with status := 2 }
    | .ask request => throw (.ask request)
    | _ => return
  closeAll ((← get).sinks.length + 1)

/-- What a run comes to. -/
structure Run where
  /-- The command whose result the run waits for. -/
  request : Option Request
  /-- What left the program, each text with the number of its channel. -/
  told : List (Nat × List Char)
  status : Nat
  disk : Disk
  /-- What is left of what the program reads. -/
  left : List Char
  deriving Inhabited

/-- What a run comes to that reached a machine. -/
def Run.ofMachine (request : Option Request) (m : Machine) : Run :=
  ⟨request, m.told.reverse, m.status, m.disk, if m.readsInput then [] else m.input⟩

/-- What steps come to. -/
def Run.of (step : Step Unit) (m : Machine) : Run :=
  match step m with
  | .ok _ m => .ofMachine none m
  | .error (.ask request) m => .ofMachine (some request) m
  | .error _ m => .ofMachine none m

/-- Runs the program that arguments tell of, with the results of commands
that are known. -/
def Run.ofInvocation (i : Invocation) (responses : List Response) : Run :=
  let start (arguments : List (List Char)) : Machine :=
    .start i ("awk".toList :: arguments) responses
  if i.arguments.isEmpty then .of (complain usageText.toList) (start [])
  else match Setup.ofArguments i.arguments with
    | .error fault =>
      .of (closingAll (throw (.fault ("awk: ".toList ++ fault.message ++ ['\n'])))) (start [])
    | .ok s =>
      if s.files.isEmpty && (s.operands.isEmpty || s.operands.head? = some ['-']) then
        .of (return) (start [])
      else
        .of (closingAll s.run)
          (start (if s.files.isEmpty then s.operands.tail else s.operands))

end ClrListing.Script.Records
