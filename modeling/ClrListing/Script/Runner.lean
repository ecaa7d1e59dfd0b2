/-
The tools by their names, how programs stand on a disk, and what the
programs need that run others: the options before the program that they
run, the words that they make commands of, and the start of a new shell.
-/
import ClrListing.Script.Builtin
import ClrListing.Script.Records.Run
import ClrListing.Script.Tool.Columns
import ClrListing.Script.Tool.Date
import ClrListing.Script.Tool.Difference
import ClrListing.Script.Tool.Digest
import ClrListing.Script.Tool.Dump
import ClrListing.Script.Tool.Edit
import ClrListing.Script.Tool.Files
import ClrListing.Script.Tool.Finding
import ClrListing.Script.Tool.Lines
import ClrListing.Script.Tool.Listing
import ClrListing.Script.Tool.Numbers
import ClrListing.Script.Tool.Search
import ClrListing.Script.Tool.Sorting
import ClrListing.Script.Tool.Surroundings
import ClrListing.Script.Tool.Test
import ClrListing.Script.Tool.Translation

namespace ClrListing.Script

open Text

-- ================================================================== tools

/-- The time at which tools are run: a clock that stands still. -/
def startTime : Int := 1767225600

/-- The tools by their names. -/
def toolTable : List (String × Tool) :=
  [("[", bracketTest false), ("arch", fixedText "x86_64\n"), ("base32", digitTool .base32),
    ("base64", digitTool .base64), ("basename", basename), ("cat", cat),
    ("chgrp", giveTo "group" ','), ("chmod", chmod), ("chown", giveTo "user" ':'),
    ("cksum", cksum), ("cmp", cmp), ("comm", comm), ("cp", cp), ("cut", cut),
    ("date", date startTime), ("dd", dd), ("diff", diff), ("dir", ls), ("dirname", dirname),
    ("echo", plainEcho), ("egrep", grep), ("expand", expand), ("expr", expr),
    ("factor", factor), ("false", fixedStatus 1), ("fgrep", grep), ("fold", fold),
    ("grep", grep), ("groups", groups), ("head", head), ("id", identity), ("install", install), ("join", join), ("link", link),
    ("ln", ln), ("logname", logname), ("ls", ls), ("md5sum", digestToolOf "MD5"),
    ("mkdir", mkdir), ("mktemp", mktemp), ("mv", mv), ("nl", nl), ("nproc", fixedText "1\n"),
    ("od", od), ("paste", paste), ("printenv", printenv), ("printf", plainPrintf),
    ("pwd", printHere), ("readlink", readlink), ("realpath", realpath), ("rev", rev), ("rm", rm),
    ("rmdir", rmdir), ("sed", sed), ("seq", seq), ("sha1sum", digestToolOf "SHA1"),
    ("sha224sum", digestToolOf "SHA224"), ("sha256sum", digestToolOf "SHA256"),
    ("sha384sum", digestToolOf "SHA384"), ("sha512sum", digestToolOf "SHA512"), ("shuf", shuf),
    ("sort", sort), ("stat", stat), ("sum", sum), ("sync", sync), ("tac", tac), ("tail", tail),
    ("tee", tee), ("test", test false), ("touch", touch), ("tr", tr), ("true", fixedStatus 0),
    ("truncate", truncate), ("tsort", tsort), ("tty", tty), ("uname", uname),
    ("unexpand", unexpand), ("uniq", uniq), ("unlink", unlink), ("wc", wc),
    ("whoami", fixedText "root\n"), ("yes", yes)]

/-- The programs that are there but serve no script, and the status with
which each refuses what it is given. -/
def refusals : List (String × Nat) :=
  [("b2sum", 1), ("csplit", 1), ("df", 1), ("dircolors", 1), ("du", 1),
    ("fmt", 1), ("gunzip", 1), ("gzip", 1), ("hostname", 255), ("mkfifo", 1), ("mknod", 1),
    ("numfmt", 1), ("pathchk", 1), ("perl", 25), ("split", 1), ("tar", 2), ("uptime", 1),
    ("users", 1), ("vdir", 2), ("who", 1), ("zcat", 1)]

/-- The tool of a name. -/
def tool? (name : String) : Option Tool :=
  toolTable.lookup name <|>
    (refusals.lookup name).map fun status i => .misused i status

/-- The programs that run other programs. -/
def runnerNames : List String :=
  ["sh", "dash", "bash", "awk", "mawk", "nawk", "env", "find", "xargs", "timeout", "nohup", "nice",
    "setsid", "stdbuf", "sleep", "which", "kill"]

-- =============================================================== programs

/-- What the file of a program starts with. -/
def programMark : List Char := "\x7fELF".toList

/-- What the file of a program holds. -/
def programContent (name : String) : List UInt8 := Octets.toBytes (programMark ++ name.toList)

/-- What a file is to those who run it. -/
inductive Executable where
  /-- A program that is known by its name. -/
  | program (name : String)
  /-- A text that another program runs. -/
  | interpreted (interpreter : List Char) (argument : Option (List Char))
  /-- A text that a shell runs. -/
  | script (text : List Char)
  deriving DecidableEq, Repr, Inhabited

/-- What a file that holds these bytes is to those who run it. -/
def executableOf (content : List UInt8) : Executable :=
  let text := Octets.ofBytes content
  if programMark.isPrefixOf text then .program (String.ofList (text.drop programMark.length))
  else match text with
    | '#' :: '!' :: rest =>
      let line := (rest.takeWhile (· ≠ '\n')).dropWhile isSpace
      let path := line.takeWhile fun c => !isSpace c
      let argument := ((line.drop path.length).dropWhile isSpace).reverse.dropWhile isSpace
      .interpreted path (if argument.isEmpty then none else some argument.reverse)
    | _ => .script text

namespace Shell

-- =================================================================== runs

/-- Brings what a tool wrote to the files that stand for channels where
these channels lead. -/
def drainDevices : Shell Unit := do
  [(1, "stdout"), (2, "stderr")].forM fun device => do
    let place := ["dev".toList, device.2.toList]
    match (← get).disk.at? place with
    | some (.file (b :: bytes) _) =>
      modify fun w => { w with disk := w.disk.setContent place fun _ => [] }
      let _ ← write device.1 (Octets.ofBytes (b :: bytes))
    | _ => return ()

/-- What a program is given. -/
def invocation (name : List Char) (arguments : List (List Char)) : Shell Invocation := do
  let text ← input
  let environment ← environment
  let w ← get
  return ⟨name, arguments, text, w.disk, w.scope.here, environment, w.scope.mask⟩

/-- Runs a tool. -/
def runTool (name : List Char) (tool : Tool) (arguments : List (List Char)) :
    Shell ExitStatus := do
  let done := tool (← invocation name arguments)
  modify fun w => { w with disk := done.disk }
  leaveInput done.left
  let isWritten ← done.told.allM fun t => do return (← write t.1 t.2) || t.1 ≠ 1
  drainDevices
  return .code (if isWritten then done.status else 1)

/-- The options of the programs that run another, and the status that they
end with where these are not understood. -/
def runnerOptions : List (String × Options × Nat) :=
  [("timeout", ⟨"vfp", "sk", "", [("foreground", 'f'), ("preserve-status", 'p'),
      ("signal", 's'), ("kill-after", 'k'), ("verbose", 'v')]⟩, 125),
    ("nice", ⟨"", "n", "", [("adjustment", 'n')]⟩, 125), ("nohup", ⟨"", "", "", []⟩, 125),
    ("setsid", ⟨"cfw", "", "", [("wait", 'w'), ("fork", 'f'), ("ctty", 'c')]⟩, 1),
    ("stdbuf", ⟨"", "ioe", "", [("input", 'i'), ("output", 'o'), ("error", 'e')]⟩, 125),
    ("sleep", ⟨"", "", "", []⟩, 1), ("which", ⟨"as", "", "", []⟩, 2)]

/-- The options of the program that changes the environment of another. -/
def environmentOptions : Options :=
  ⟨"i0v", "uCS", "", [("ignore-environment", 'i'), ("unset", 'u'), ("chdir", 'C'), ("null", '0'),
    ("split-string", 'S'), ("debug", 'v')]⟩

/-- The options of the program that makes commands of words. -/
def wordsOptions : Options :=
  ⟨"r0tx", "nILdPsaE", "", [("no-run-if-empty", 'r'), ("null", '0'), ("max-args", 'n'),
    ("delimiter", 'd'), ("max-lines", 'L'), ("max-procs", 'P'), ("max-chars", 's'),
    ("arg-file", 'a'), ("replace", 'I'), ("verbose", 't'), ("exit", 'x')]⟩

/-- The number of seconds in the text of a time. -/
def timeOf? (text : List Char) : Option Numeral := do
  let (number, size) : List Char × Int := match text.getLast? with
    | some 's' => (text.dropLast, 1)
    | some 'm' => (text.dropLast, 60)
    | some 'h' => (text.dropLast, 3600)
    | some 'd' => (text.dropLast, 86400)
    | _ => (text, 1)
  let n ← Numeral.read? number
  if n.units < 0 then none else some { n with units := n.units * size }

/-- Whether a time is over before another. -/
def endsBefore (limit time : List Char) : Bool :=
  match timeOf? limit, timeOf? time with
  | some a, some b =>
    let scale := max a.scale b.scale
    a.units ≠ 0 && a.unitsAt scale < b.unitsAt scale
  | _, _ => false

/-- What is wrong with the arguments of one of the programs that run
others. -/
def runnerFaults? (tool : String) (p : Parsed) : Option (List (List Char)) :=
  let isTimed := tool = "timeout"
  let badSignal := if isTimed then (p.value? 's').filter fun s => (signal? s).isNone else none
  let times := match tool with
    | "sleep" => p.operands
    | "timeout" => p.values 'k' ++ p.operands.take 1
    | _ => []
  let badTimes := times.filter fun s => (timeOf? s).isNone
  let badNumber := if tool = "nice" then (p.value? 'n').filter fun n => (decimal? n).isNone else none
  match badSignal, badNumber with
  | some s, _ => some [ticked s ++ ": invalid signal".toList]
  | _, some n => some ["invalid adjustment ".toList ++ ticked n]
  | none, none =>
    if isTimed && p.operands.length < 2 then some []
    else if !badTimes.isEmpty then
      some (badTimes.map fun s => "invalid time interval ".toList ++ ticked s)
    else if p.operands.isEmpty then match tool with
      | "nohup" | "stdbuf" | "sleep" => some ["missing operand".toList]
      | "setsid" => some ["no command specified".toList]
      | _ => none
    else if tool = "stdbuf" && p.given.isEmpty then
      some ["you must specify a buffering mode option".toList]
    else none

/-- Complaints of a program, and where help is to be found. -/
def withHint (name : List Char) (reasons : List (List Char)) : List Char :=
  unlines (reasons.map (name ++ [':', ' '] ++ ·) ++ [Completion.helpHint name])

/-- The complaint of a program that cannot run another. -/
def runComplaint (name program : List Char) (fault : FileFault) : List Char :=
  let what := match String.ofList name with
    | "timeout" | "nohup" | "stdbuf" => "failed to run command ".toList ++ ticked program
    | "setsid" => "failed to execute ".toList ++ program
    | "xargs" => program
    | _ => ticked program
  name ++ [':', ' '] ++ what ++ [':', ' '] ++ fault.words.toList ++ ['\n']

/-- What is wrong with the numbers that options for words give. -/
def wordsFault? (p : Parsed) : Option (List Char) :=
  (p.given.filter fun o => "nLPs".toList.contains o.1).findSome? fun o =>
    match decimal? o.2 with
    | none => some ("invalid number \x22".toList ++ o.2 ++ "\x22 for -".toList ++ o.1 ::
        " option".toList)
    | some n =>
      let least := if o.1 = 'P' then 0 else 1
      if n < least then
        some ("value ".toList ++ o.2 ++ " for -".toList ++ o.1 :: " option should be >= ".toList ++
          digitsOf least)
      else none

/-- Options of a shell: whether its first argument is the script, whether
it reads the script, and what is left of the arguments. -/
def takeShellOptions : List (List Char) → Shell (Bool × Bool × List (List Char))
  | [] => return (false, false, [])
  | ['-', '-'] :: rest | ['-'] :: rest => return (false, false, rest)
  | (sign :: c :: letters) :: rest => do
    if sign ≠ '-' && sign ≠ '+' then return (false, false, (sign :: c :: letters) :: rest)
    let letters := c :: letters
    (letters.filter fun c => !"cslo".toList.contains c).forM fun c => do
      if !(← setOption (sign = '-') c) then abort ("Illegal option ".toList ++ [sign, c])
    if letters.contains 'o' then
      match rest with
      | name :: rest => do
        let _ ← setNamedOption (sign = '-') name
        let (isCommand, reads, rest) ← takeShellOptions rest
        return (isCommand || letters.contains 'c', reads || letters.contains 's', rest)
      | [] => return (letters.contains 'c', letters.contains 's', [])
    else
      let (isCommand, reads, rest) ← takeShellOptions rest
      return (isCommand || letters.contains 'c', reads || letters.contains 's', rest)
  | rest => return (false, false, rest)

/-- The directories for programs, unless a shell is told of others. -/
def standardPath : String := "/usr/local/sbin:/usr/local/bin:/usr/sbin:/usr/bin:/sbin:/bin"

/-- The parameters that a script starts with, by what it is told. A path of
the directory is kept if it leads there. -/
def startParameters (w : World) : Parameters :=
  let plain (name : String) (value : List Char) : List Char × Parameter :=
    (name.toList, ⟨some value, false, false⟩)
  let isOwn (name : List Char) : Bool := ["IFS".toList, "OPTIND".toList].contains name
  let firsts := [plain "IFS" [' ', '\t', '\n'], plain "PATH" standardPath.toList,
    plain "PS1" ['#', ' '], plain "PS2" ['>', ' '], plain "PS4" ['+', ' '], plain "OPTIND" ['1']]
  let path := (value? w "PWD".toList).getD []
  let isHere := path.head? = some '/' && match w.disk.find w.scope.here path true with
    | .ok (place, _) => place = w.scope.here
    | .error _ => false
  let here := if isHere then path else Disk.pathOf w.scope.here
  ((Parameters.setAll [] firsts).setAll
    (w.scope.parameters.filter fun p => !isOwn p.1)).set "PWD".toList ⟨some here, true, false⟩

/-- What a new program keeps to itself, by what the one that runs it
does. -/
def freshScope (s : Scope) (process : Nat) : Scope :=
  { s with
    parameters := Parameters.ofEnvironment s.parameters.environment ++
      [("PPID".toList, ⟨some s.process.repr.toList, false, false⟩)]
    functions := []
    status := 0
    printed := none
    line := 0
    options := []
    aliases := []
    traps := s.traps.filter fun t => t.2.isEmpty
    process := process
    depth := 0
    loops := 0
    locals := []
    isTested := false
    lastJob := none
    optionOffset := 0 }

/-- The words that a text is taken apart to, between blanks; quotes keep
blanks. -/
def quotedWords (word : Option (List Char)) (quote : Option Char) : List Char → List (List Char)
  | [] => word.toList
  | '\\' :: c :: rest =>
    if quote.isNone then quotedWords (some (word.getD [] ++ [c])) quote rest
    else quotedWords (some (word.getD [] ++ ['\\'])) quote (c :: rest)
  | c :: rest =>
    match quote with
    | some q =>
      if c = q then quotedWords word none rest
      else quotedWords (some (word.getD [] ++ [c])) quote rest
    | none =>
      if c = '\x22' || c = '\x27' then quotedWords (some (word.getD [])) (some c) rest
      else if isSpace c then word.toList ++ quotedWords none none rest
      else quotedWords (some (word.getD [] ++ [c])) none rest

/-- A text with every occurrence of another replaced. -/
def replaceAll (find replacement : List Char) : (skip : Nat) → List Char → List Char
  | _, [] => []
  | skip + 1, _ :: rest => replaceAll find replacement skip rest
  | 0, c :: rest =>
    if !find.isEmpty && find.isPrefixOf (c :: rest) then
      replacement ++ replaceAll find replacement (find.length - 1) rest
    else c :: replaceAll find replacement 0 rest

/-- The commands that a list of words is made to: a command with some of
the words at its end, or with one of them in the places of a mark. -/
def commandsFor (p : Parsed) (text : List Char) : List (List (List Char)) :=
  let command := if p.operands.isEmpty then ["echo".toList] else p.operands
  match p.value? 'I' with
  | some mark =>
    let lines := (plainLines text).map fun line => line.dropWhile isSpace
    (lines.filter fun line => !line.isEmpty).map fun line => command.map (replaceAll mark line 0)
  | none =>
    let delimiter := if p.has '0' then some '\x00' else (p.value? 'd').bind fun d =>
      if d = ['\\', 'n'] then some '\n' else if d = ['\\', '0'] then some '\x00' else d.head?
    let words := match delimiter with
      | some d =>
        let parts := splitAll d text
        if parts.getLast? = some [] then parts.dropLast else parts
      | none => quotedWords none none text
    if words.isEmpty then if p.has 'r' then [] else [command]
    else
      let pieces := match (p.value? 'n').bind natural?, (p.value? 'L').bind natural? with
        | some (n + 1), _ => piecesOf (n + 1) words.length words
        | _, some (n + 1) =>
          let lines := (plainLines text).filter fun line => !(blankWords line).isEmpty
          (piecesOf (n + 1) lines.length lines).map fun (ls : List (List Char)) =>
            ls.flatMap (quotedWords none none)
        | _, _ => [words]
      pieces.map (command ++ ·)

end Shell

end ClrListing.Script
