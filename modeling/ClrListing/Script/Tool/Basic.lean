/-
Tools: programs that scripts run. A tool is given its arguments, its input
and the disk, and leaves what it prints, how it ended, and the disk.

Arguments, input and output are texts of octets. What a tool does to one
path does not depend on the others, except by the disk that it leaves. Where
something cannot be done there is a complaint, and the disk stays as it was.
-/
import ClrListing.Disk.Basic
import ClrListing.Script.Number
import ClrListing.Text.Utf8

namespace ClrListing.Script

open Text

-- ================================================================ tools

/-- What a tool is given. -/
structure Invocation where
  name : List Char
  arguments : List (List Char)
  input : List Char
  disk : Disk
  /-- The directory that it is run in. -/
  here : Trail
  environment : List (List Char × List Char)
  /-- What may not be done with the files that are made. -/
  mask : Nat

/-- A text that leaves a tool, with the number of the channel that it goes
to. -/
abbrev Telling := Nat × List Char

/-- What a tool leaves. -/
structure Completion where
  /-- What it printed and complained about, in the order in which it did. -/
  told : List Telling
  status : Nat
  disk : Disk
  /-- What it left of its input. -/
  left : List Char
  deriving DecidableEq, Repr, Inhabited

/-- A tool. -/
abbrev Tool := Invocation → Completion

/-- A text of lines. -/
def unlines (lines : List (List Char)) : List Char := lines.flatMap fun line => line ++ ['\n']

/-- A text in quotes. -/
def ticked (s : List Char) : List Char := '\x27' :: s ++ ['\x27']

/-- A text in quotes that a shell understands, where it needs them. -/
def shellQuoted (s : List Char) : List Char :=
  let isPlain (c : Char) : Bool := c.isAlphanum || "%+,-./:@_".toList.contains c
  if !s.isEmpty && s.all isPlain then s
  else if s.contains '\x27' && s.all fun c => !"\x22\\$`!".toList.contains c then
    '\x22' :: s ++ ['\x22']
  else ticked (s.flatMap fun c => if c = '\x27' then "\x27\\\x27\x27".toList else [c])

namespace Completion

/-- Ends with a status, and nothing else. -/
def ofStatus (i : Invocation) (status : Nat) : Completion := ⟨[], status, i.disk, i.input⟩

/-- Prints. -/
def printing (i : Invocation) (output : List Char) : Completion :=
  { ofStatus i 0 with told := [(1, output)] }

/-- Tells of faults. -/
def complaining (i : Invocation) (status : Nat) (errors : List Char) : Completion :=
  { ofStatus i status with told := [(2, errors)] }

/-- Complains. -/
def failing (i : Invocation) (status : Nat) (reason : List Char) : Completion :=
  complaining i status (i.name ++ [':', ' '] ++ reason ++ ['\n'])

/-- The same, with a text before all. -/
def precededBy (c : Completion) (channel : Nat) (text : List Char) : Completion :=
  if text.isEmpty then c else { c with told := (channel, text) :: c.told }

/-- The same, with a text after all. -/
def followedBy (c : Completion) (channel : Nat) (text : List Char) : Completion :=
  if text.isEmpty then c else { c with told := c.told ++ [(channel, text)] }

/-- The same without complaints. -/
def quietly (c : Completion) : Completion := { c with told := c.told.filter fun t => t.1 ≠ 2 }

/-- The same with another status. -/
def withStatus (c : Completion) (status : Nat) : Completion := { c with status := status }

/-- Where help is to be found. -/
def helpHint (name : List Char) : List Char :=
  let hint := "Try \x27".toList ++ name ++ " --help\x27 for more information.".toList
  if ["diff", "cmp"].contains (String.ofList name) then name ++ ": ".toList ++ hint else hint

/-- Complains about arguments, and says where help is to be found. -/
def misusedFor (i : Invocation) (status : Nat) (reason : List Char) : Completion :=
  failing i status (reason ++ '\n' :: helpHint i.name)

/-- Complains that an operand lacks after those that there are; `kind` says
which. -/
def lacking (i : Invocation) (status : Nat) (kind : String) (operands : List (List Char)) :
    Completion :=
  misusedFor i status ("missing ".toList ++ kind.toList ++ match operands.getLast? with
    | some last => " after ".toList ++ ticked last
    | none => [])

/-- Complains that there is an operand too many. -/
def excessive (i : Invocation) (status : Nat) (operand : List Char) : Completion :=
  misusedFor i status ("extra operand ".toList ++ ticked operand)

/-- Complains about arguments that are not understood. -/
def misused (i : Invocation) (status : Nat) : Completion :=
  failing i status "invalid arguments".toList

end Completion

/-- The complaint about a file that a tool cannot read. -/
def fileComplaint (name path : List Char) (fault : FileFault) : List Char :=
  let told (what : List Char) : List Char :=
    name ++ [':', ' '] ++ what ++ [':', ' '] ++ fault.words.toList ++ ['\n']
  let isDirectory := fault = .isADirectory
  match String.ofList name with
  | "sed" =>
    told ((if isDirectory then "read error on " else "can\x27t read ").toList ++ path)
  | "sort" => told ((if isDirectory then "read failed: " else "cannot read: ").toList ++ path)
  | "head" | "tail" =>
    if isDirectory then told ("error reading ".toList ++ ticked path)
    else told ("cannot open ".toList ++ ticked path ++ " for reading".toList)
  | "tac" =>
    if isDirectory then name ++ ": ".toList ++ path ++ ": read error: Invalid argument\n".toList
    else told ("failed to open ".toList ++ ticked path ++ " for reading".toList)
  | "rev" => told (if isDirectory then path else "cannot open ".toList ++ path)
  | "uniq" => told (if isDirectory then "error reading ".toList ++ ticked path else path)
  | "base64" | "base32" | "join" => told (if isDirectory then "read error".toList else path)
  | "tsort" => told (if isDirectory then path ++ ": read error".toList else path)
  | "fmt" | "split" =>
    told (if isDirectory then path
      else "cannot open ".toList ++ ticked path ++ " for reading".toList)
  | _ => told path

-- ============================================================== options

/-- The options of a tool: letters that stand alone, letters with a value,
letters with a value only if it follows at once, and long names with the
letters that they stand for. -/
structure Options where
  plain : String
  valued : String
  optional : String
  long : List (String × Char)

/-- Options of which none has a value only at times. -/
def Options.of (plain valued : String) (long : List (String × Char)) : Options :=
  ⟨plain, valued, "", long⟩

/-- Options that were given, and the other arguments. -/
structure Parsed where
  given : List (Char × List Char)
  operands : List (List Char)
  deriving DecidableEq, Repr, Inhabited

namespace Parsed

/-- Whether an option is given. -/
def has (p : Parsed) (letter : Char) : Bool := p.given.any fun g => g.1 = letter

/-- The value that an option is last given. -/
def value? (p : Parsed) (letter : Char) : Option (List Char) :=
  (p.given.filter fun g => g.1 = letter).getLast?.map Prod.snd

/-- The values of an option. -/
def values (p : Parsed) (letter : Char) : List (List Char) :=
  (p.given.filter fun g => g.1 = letter).map Prod.snd

/-- The same with an option more. -/
def adding (p : Parsed) (letter : Char) (value : List Char) : Parsed :=
  { p with given := (letter, value) :: p.given }

end Parsed

/-- Why options are not understood. -/
inductive OptionFault where
  | unknown (letter : Char)
  | unknownName (name : List Char)
  | ambiguous (name : List Char) (names : List String)
  | lacksValue (letter : Char)
  | lacksValueOf (name : String)
  | takesNoValue (name : String)
  deriving DecidableEq, Repr, Inhabited

/-- How a fault is told. -/
def OptionFault.message : OptionFault → List Char
  | unknown letter => "invalid option -- ".toList ++ ticked [letter]
  | unknownName name => "unrecognized option ".toList ++ ticked ('-' :: '-' :: name)
  | ambiguous name names =>
    "option ".toList ++ ticked ('-' :: '-' :: name) ++ " is ambiguous; possibilities:".toList ++
      names.flatMap fun name => ' ' :: ticked ('-' :: '-' :: name.toList)
  | lacksValue letter => "option requires an argument -- ".toList ++ ticked [letter]
  | lacksValueOf name =>
    "option ".toList ++ ticked ('-' :: '-' :: name.toList) ++ " requires an argument".toList
  | takesNoValue name =>
    "option ".toList ++ ticked ('-' :: '-' :: name.toList) ++
      " doesn\x27t allow an argument".toList

namespace Options

/-- What a group of letters gives: the options, and whether the last of
them is still to get a value. -/
def letters (o : Options) :
    List Char → Except OptionFault (List (Char × List Char) × Option Char)
  | [] => .ok ([], none)
  | c :: rest =>
    if o.valued.toList.contains c then
      if rest.isEmpty then .ok ([], some c) else .ok ([(c, rest)], none)
    else if o.optional.toList.contains c then .ok ([(c, rest)], none)
    else if o.plain.toList.contains c then
      (o.letters rest).map fun r => ((c, []) :: r.1, r.2)
    else .error (.unknown c)

/-- The long name and the letter that a name, which may be cut short, stands
for. -/
def named (o : Options) (name : List Char) : Except OptionFault (String × Char) :=
  match o.long.find? fun entry => entry.1.toList = name with
  | some entry => .ok entry
  | none =>
    match o.long.filter fun entry => name.isPrefixOf entry.1.toList with
    | [] => .error (.unknownName name)
    | entry :: others =>
      if others.all fun other => other.2 = entry.2 then .ok entry
      else .error (.ambiguous name ((entry :: others).map Prod.fst))

/-- Tells options and other arguments apart; these may be mixed, unless
`stops` holds. Two dashes end the options. -/
def parse (o : Options) (stops : Bool) : List (List Char) → Except OptionFault Parsed
  | [] => .ok ⟨[], []⟩
  | argument :: rest =>
    match argument with
    | ['-', '-'] => .ok ⟨[], rest⟩
    | '-' :: '-' :: text =>
      let (name, value) := match splitOnce ['='] text with
        | some (name, value) => (name, some value)
        | none => (text, none)
      match o.named name with
      | .error (.unknownName _) => .error (.unknownName text)
      | .error fault => .error fault
      | .ok (name, letter) =>
        if o.valued.toList.contains letter then
          match value with
          | some value => (o.parse stops rest).map fun p => p.adding letter value
          | none =>
            match rest with
            | value :: rest => (o.parse stops rest).map fun p => p.adding letter value
            | [] => .error (.lacksValueOf name)
        else if value.isSome && !o.optional.toList.contains letter then
          .error (.takesNoValue name)
        else (o.parse stops rest).map fun p => p.adding letter (value.getD [])
    | '-' :: c :: more =>
      match o.letters (c :: more) with
      | .error fault => .error fault
      | .ok (given, none) =>
        (o.parse stops rest).map fun p => { p with given := given ++ p.given }
      | .ok (given, some letter) =>
        match rest with
        | value :: rest =>
          (o.parse stops rest).map fun p =>
            { p with given := given ++ (letter, value) :: p.given }
        | [] => .error (.lacksValue letter)
    | operand =>
      if stops then .ok ⟨[], operand :: rest⟩
      else (o.parse stops rest).map fun p => { p with operands := operand :: p.operands }

end Options

-- ================================================================ usage

/-- How `sed` is used. -/
def editUsage : List String :=
  ["Usage: sed [OPTION]... \x7bscript-only-if-no-other-script\x7d [input-file]...",
    "",
    "  -n, --quiet, --silent",
    "                 suppress automatic printing of pattern space",
    "      --debug",
    "                 annotate program execution",
    "  -e script, --expression=script",
    "                 add the script to the commands to be executed",
    "  -f script-file, --file=script-file",
    "                 add the contents of script-file to the commands to be executed",
    "  --follow-symlinks",
    "                 follow symlinks when processing in place",
    "  -i[SUFFIX], --in-place[=SUFFIX]",
    "                 edit files in place (makes backup if SUFFIX supplied)",
    "  -l N, --line-length=N",
    "                 specify the desired line-wrap length for the \x60l\x27 command",
    "  --posix",
    "                 disable all GNU extensions.",
    "  -E, -r, --regexp-extended",
    "                 use extended regular expressions in the script",
    "                 (for portability use POSIX -E).",
    "  -s, --separate",
    "                 consider files as separate rather than as a single,",
    "                 continuous long stream.",
    "      --sandbox",
    "                 operate in sandbox mode (disable e/r/w commands).",
    "  -u, --unbuffered",
    "                 load minimal amounts of data from the input files and flush",
    "                 the output buffers more often",
    "  -z, --null-data",
    "                 separate lines by NUL characters",
    "      --help     display this help and exit",
    "      --version  output version information and exit",
    "",
    "If no -e, --expression, -f, or --file option is given, then the first",
    "non-option argument is taken as the sed script to interpret.  All",
    "remaining arguments are names of input files; if no input files are",
    "specified, then the standard input is read.",
    ""]

namespace Completion

/-- Tells how `grep` is used after complaints. -/
def refusedBriefly (i : Invocation) (status : Nat) (complaints : List (List Char)) : Completion :=
  complaining i status (unlines (complaints ++ ["Usage: grep [OPTION]... PATTERNS [FILE]...".toList,
    "Try \x27grep --help\x27 for more information.".toList]))

/-- Complains about options, and says where help is to be found. -/
def refused (i : Invocation) (status : Nat) (fault : OptionFault) : Completion :=
  match String.ofList i.name with
  | "grep" | "egrep" | "fgrep" => refusedBriefly i status ["grep: ".toList ++ fault.message]
  | "sed" => complaining i status (unlines (
    ("sed: ".toList ++ fault.message) :: editUsage.map String.toList))
  | _ => misusedFor i status fault.message

end Completion

-- ================================================================ input

/-- What the files hold that a tool reads, each with its path, or the
complaint about it. -/
structure Gathered where
  parts : List (List Char × Except (List Char) (List Char))
  /-- Whether the input was read. -/
  usesInput : Bool
  deriving Inhabited

/-- Whether a path stands for the input. -/
def isInput (path : List Char) : Bool :=
  path = ['-'] || path = "/dev/stdin".toList || path = "/dev/fd/0".toList

/-- What there is of an endless file. -/
def zeros : List Char := List.replicate 0x10000 '\x00'

/-- What files hold; the input is read only once. -/
def gather (i : Invocation) : List (List Char) → Gathered
  | [] => ⟨[], false⟩
  | path :: rest =>
    let later := gather (if isInput path then { i with input := [] } else i) rest
    let content : Except (List Char) (List Char) :=
      if isInput path then .ok i.input
      else if path = "/dev/zero".toList then .ok zeros
      else match i.disk.read i.here path with
        | .ok bytes => .ok (Octets.ofBytes bytes)
        | .error fault => .error (fileComplaint i.name path fault)
    ⟨(path, content) :: later.parts, isInput path || later.usesInput⟩

/-- What files hold, or the input if none is named. -/
def gatherOrInput (i : Invocation) (paths : List (List Char)) : Gathered :=
  gather i (if paths.isEmpty then [['-']] else paths)

namespace Gathered

/-- What the files hold that can be read. -/
def contents (g : Gathered) : List (List Char × List Char) :=
  g.parts.filterMap fun part => part.2.toOption.map fun text => (part.1, text)

/-- The complaints about the files that cannot be read. -/
def complaints (g : Gathered) : List (List Char) :=
  g.parts.filterMap fun part => match part.2 with
    | .error reason => some reason
    | .ok _ => none

/-- The complaints about the files that cannot be read, one after the
other. -/
def errors (g : Gathered) : List Char := g.complaints.flatten

/-- What files hold, one after the other. -/
def text (g : Gathered) : List Char := g.contents.flatMap Prod.snd

/-- Tells texts, with a status if some files could not be read. -/
def telling (g : Gathered) (i : Invocation) (failure : Nat) (told : List Telling) :
    Completion :=
  ⟨told, if g.complaints.isEmpty then 0 else failure, i.disk, if g.usesInput then [] else i.input⟩

/-- Prints what was made of all files, after the complaints about them. -/
def complete (g : Gathered) (i : Invocation) (failure : Nat) (output : List Char) : Completion :=
  g.telling i failure [(2, g.errors), (1, output)]

/-- Prints what is made of each file, with the complaints where they come
up. -/
def completeEach (g : Gathered) (i : Invocation) (failure : Nat)
    (make : List Char → List Char → List Char) : Completion :=
  g.telling i failure (g.parts.map fun part => match part.2 with
    | .ok text => (1, make part.1 text)
    | .error reason => (2, reason))

/-- Prints what is made of all files in one go: what is made of those before
a complaint is printed before it. -/
def completeFlow (g : Gathered) (i : Invocation) (failure : Nat)
    (make : List Char → List Char) : Completion :=
  let output := make g.text
  let (told, _, printed) := g.parts.foldl (fun (told, text, printed) part => match part.2 with
    | .ok more => (told, text ++ more, printed)
    | .error reason =>
      let length := max printed (make text).length
      (told ++ [(1, (output.take length).drop printed), (2, reason)], text, length))
    (([] : List Telling), ([] : List Char), 0)
  g.telling i failure (told ++ [(1, output.drop printed)])

/-- Complains of the first file that cannot be read, or makes something of
all. -/
def orRefuse (g : Gathered) (i : Invocation) (failure : Nat) (make : Gathered → Completion) :
    Completion :=
  match g.complaints with
  | [] => make g
  | first :: _ => .complaining i failure first

end Gathered

-- ================================================================ lines

/-- The lines of a text, each with whether a mark ends it; only the last may
lack it. -/
def markedLines (mark : Char) (s : List Char) : List (List Char × Bool) :=
  let pieces := splitAll mark s
  let whole := pieces.dropLast.map fun line => (line, true)
  match pieces.getLast? with
  | some (c :: rest) => whole ++ [(c :: rest, false)]
  | _ => whole

/-- The lines of a text, each with whether a line feed ends it. -/
def linesOf (s : List Char) : List (List Char × Bool) := markedLines '\n' s

/-- The lines of a text without what ends them. -/
def plainLines (s : List Char) : List (List Char) := (linesOf s).map Prod.fst

/-- A text of lines, of which the last may lack its line feed. -/
def rejoin (lines : List (List Char × Bool)) : List Char :=
  lines.flatMap fun l => if l.2 then l.1 ++ ['\n'] else l.1

/-- Texts with blanks between them. -/
def spaced (texts : List (List Char)) : List Char := [' '].intercalate texts

/-- A text filled with blanks at its start up to a width. -/
def padStart (width : Nat) (s : List Char) : List Char :=
  List.replicate (width - s.length) ' ' ++ s

/-- A text filled with blanks at its end up to a width. -/
def padEnd (width : Nat) (s : List Char) : List Char :=
  s ++ List.replicate (width - s.length) ' '

/-- An octet in signs that can be seen. -/
def visibleOctet (c : Char) : List Char :=
  let n := c.toNat
  let plain (n : Nat) : List Char :=
    if n < 32 then ['^', Char.ofNat (n + 64)] else if n = 127 then ['^', '?'] else [Char.ofNat n]
  if n ≥ 128 then ['M', '-'] ++ plain (n - 128) else plain n

/-- A list in pieces of so many items. -/
def piecesOf (size : Nat) : (fuel : Nat) → List α → List (List α)
  | 0, _ => []
  | fuel + 1, items =>
    if items.isEmpty then []
    else items.take size :: piecesOf size fuel (items.drop size)

/-- The runs of a text without blanks. -/
def blankWords (s : List Char) : List (List Char) :=
  let marked := s.map fun c => if isSpace c then ' ' else c
  (splitAll ' ' marked).filter fun w => !w.isEmpty

-- ================================================================= work

/-- What a tool has done so far. -/
structure Work where
  disk : Disk
  told : List Telling
  hasFailed : Bool
  deriving DecidableEq, Repr, Inhabited

/-- Something done on a disk: the disk then and what is printed, or a
complaint. -/
abbrev Deed := Disk → Except (List Char) (Disk × List Char)

namespace Work

/-- The work before anything is done. -/
def start (i : Invocation) : Work := ⟨i.disk, [], false⟩

/-- Goes on with something. -/
def doing (w : Work) (name : List Char) (deed : Deed) : Work :=
  match deed w.disk with
  | .ok (disk, output) => { w with disk := disk, told := w.told ++ [(1, output)] }
  | .error reason =>
    { w with told := w.told ++ [(2, name ++ [':', ' '] ++ reason ++ ['\n'])], hasFailed := true }

/-- Ends, with a status if there were complaints. -/
def complete (w : Work) (i : Invocation) (failure : Nat) : Completion :=
  ⟨w.told, if w.hasFailed then failure else 0, w.disk, i.input⟩

end Work

/-- Does the same with each path. -/
def withEach (i : Invocation) (failure : Nat) (paths : List (List Char))
    (deed : List Char → Deed) : Completion :=
  (paths.foldl (fun w path => w.doing i.name (deed path)) (Work.start i)).complete i failure

/-- The complaint that something cannot be done with a path. -/
def cannot (what : String) (path : List Char) (fault : FileFault) : List Char :=
  what.toList ++ [' '] ++ ticked path ++ [':', ' '] ++ fault.words.toList

/-- A change of the disk, where a fault is complained about. -/
def changing (what : String) (path : List Char) (result : Except FileFault Disk) :
    Except (List Char) (Disk × List Char) :=
  match result with
  | .ok disk => .ok (disk, [])
  | .error fault => .error (cannot what path fault)

end ClrListing.Script
