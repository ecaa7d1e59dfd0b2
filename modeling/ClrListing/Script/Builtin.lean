/-
The commands that change the shell that runs them.

They come in two kinds. A fault in one of the first kind ends the script;
a fault in any other is only noted as its status.
-/
import ClrListing.Script.Expansion
import ClrListing.Script.FileMode
import ClrListing.Script.Reader
import ClrListing.Script.Tool.Printing
import ClrListing.Script.Tool.Test
import ClrListing.Script.World

namespace ClrListing.Script

open Text

/-- A command that changes the shell that runs it. -/
abbrev Builtin := List (List Char) → Shell Unit

namespace Shell

-- ================================================================ numbers

/-- The largest number that an argument may be. -/
def countLimit : Nat := 0x80000000

/-- The number that an argument of a command is; anything else is a fault
that ends the script. -/
def countOf (command : String) (argument : List Char) : Shell Nat := do
  match ((decimal? argument).bind Int.toNat?).filter (· < countLimit) with
  | some n => return n
  | none => abort (command.toList ++ ": Illegal number: ".toList ++ argument)

/-- The option letters that arguments start with and the arguments after
them, or the first letter that is none of some. -/
def optionLetters (letters : List Char) :
    List (List Char) → Except Char (List Char × List (List Char))
  | ['-', '-'] :: rest => .ok ([], rest)
  | ('-' :: c :: more) :: rest =>
    match (c :: more).find? fun c => !letters.contains c with
    | some bad => .error bad
    | none => (optionLetters letters rest).map fun r => (c :: more ++ r.1, r.2)
  | rest => .ok ([], rest)

/-- Runs a command with the option letters that it is given. -/
def withOptions (command letters : String) (run : List Char → Builtin) : Builtin :=
  fun arguments => do
    match optionLetters letters.toList arguments with
    | .ok (given, rest) => run given rest
    | .error c =>
      let reason := command.toList ++ ": Illegal option -".toList ++ [c]
      if specialNames.contains command then abort reason else reject 2 reason

-- ================================================================= ending

/-- The status that a command is to end with. -/
def statusFor (command : String) (arguments : List (List Char)) : Shell Nat := do
  match arguments with
  | [] => return (← scope).status
  | argument :: _ => countOf command argument

/-- Ends the script. -/
def exit : Builtin := fun arguments => do throw (.exited (← statusFor "exit" arguments))

/-- Ends a function. -/
def return_ : Builtin := fun arguments => do throw (.returned (← statusFor "return" arguments))

/-- Ends a turn of loops, or the loops. -/
def leaveLoops (command : String) (leave : Nat → Leave) : Builtin := fun arguments => do
  let count ← match arguments with
    | [] => pure 1
    | argument :: _ => countOf command argument
  if count = 0 then abort (command.toList ++ ": Illegal number: 0".toList)
  let loops := (← scope).loops
  setStatus 0
  if loops ≠ 0 then throw (leave (min count loops))

-- ============================================================= parameters

/-- Takes arguments away. -/
def shift : Builtin := fun arguments => do
  let count ← match arguments with
    | [] => pure 1
    | argument :: _ => countOf "shift" argument
  if count > (← scope).arguments.length then abort "shift: can\x27t shift that many".toList
  modifyScope fun s =>
    { s with arguments := s.arguments.drop count, status := 0, optionOffset := 0 }

/-- A value in quotes, as a script may hold it. -/
def quoted (value : List Char) : List Char :=
  let pieces := splitAll '\x27' value
  let inQuotes (piece : List Char) : List Char :=
    if piece.isEmpty && pieces.length > 1 then [] else '\x27' :: piece ++ ['\x27']
  ("\x22\x27\x22".toList).intercalate (pieces.map inQuotes)

/-- Prints parameters with their values in quotes. -/
def listParameters (start : String) (chosen : Parameter → Bool) : Shell Unit := do
  let shown := (← scope).parameters.filter fun p => chosen p.2
  let sorted := shown.mergeSort fun p q => textOrder p.1 q.1 ≠ .gt
  let line (p : List Char × Parameter) : List Char :=
    start.toList ++ p.1 ++ match p.2.value with
      | some value => '=' :: quoted value ++ ['\n']
      | none => ['\n']
  let _ ← write 1 (sorted.flatMap line)
  setStatus 0

/-- A name and the value after it, if one is given. -/
def namedValue (argument : List Char) : List Char × Option (List Char) :=
  match splitOnce ['='] argument with
  | some (name, value) => (name, some value)
  | none => (argument, none)

/-- Marks parameters, which may be given values too. -/
def declare (command : String) (mark : Parameter → Parameter) : Builtin :=
    withOptions command "p" fun _ names => do
  if names.isEmpty then
    let isMarked (p : Parameter) : Bool := mark p = p
    listParameters (command ++ " ") isMarked
  else
    names.forM fun argument => do
      let (name, value) := namedValue argument
      if !isName name then
        abort (command.toList ++ ": ".toList ++ name ++ ": bad variable name".toList)
      match value with
      | some value => assign (command ++ ": ") name value
      | none => pure ()
      modifyScope fun s => { s with
        parameters := s.parameters.set name (mark (s.parameters.get name)) }
    setStatus 0

/-- Tells programs of parameters. -/
def export_ : Builtin := declare "export" fun p => { p with isExported := true }

/-- Keeps parameters from being changed. -/
def readonly : Builtin := declare "readonly" fun p => { p with isReadOnly := true }

/-- Takes parameters or functions away. -/
def unset : Builtin := withOptions "unset" "vf" fun given names => do
  names.forM fun name => do
    if given.getLast? = some 'f' then
      modifyScope fun s => { s with functions := s.functions.filter fun f => f.1 ≠ name }
    else if !isName name then abort ("unset: ".toList ++ name ++ ": bad variable name".toList)
    else if ((← scope).parameters.get name).isReadOnly then
      abort ("unset: ".toList ++ name ++ ": is read only".toList)
    else modifyScope fun s => { s with parameters := s.parameters.filter fun p => p.1 ≠ name }
  setStatus 0

/-- Notes what a parameter is before a function changes it. -/
def saveLocal (name : List Char) : Shell Unit := modifyScope fun s =>
  match s.locals with
  | frame :: frames =>
    if (frame.lookup name).isSome then s
    else { s with locals := ((name, s.parameters.get name) :: frame) :: frames }
  | [] => s

/-- Gives back what parameters were before a function changed them. -/
def restoreLocals : Shell Unit := modifyScope fun s =>
  match s.locals with
  | frame :: frames =>
    { s with locals := frames, parameters := s.parameters.setAll frame }
  | [] => s

/-- Makes parameters that only a function changes. -/
def local_ : Builtin := fun arguments => do
  if (← scope).locals.isEmpty then abort "local: not in a function".toList
  arguments.forM fun argument => do
    let (name, value) := namedValue argument
    if !isName name then abort ("local: ".toList ++ name ++ ": bad variable name".toList)
    saveLocal name
    match value with
    | some value => assign "local: " name value
    | none => pure ()
  setStatus 0

-- ================================================================ options

/-- Turns the first option that is asked for on or off, and tells whether
there is one. -/
def setOptionThat (isAsked : Option Char × String → Bool) (isOn : Bool) : Shell Bool := do
  match optionTable.find? isAsked with
  | none => return false
  | some (_, name) =>
    modifyScope fun s =>
      let others := s.options.filter (· ≠ name)
      { s with options := if isOn then name :: others else others }
    return true

/-- Turns the option of a letter on or off, and tells whether there is
one. -/
def setOption (isOn : Bool) (letter : Char) : Shell Bool :=
  setOptionThat (fun o => o.1 = some letter) isOn

/-- Turns the option of a name on or off, and tells whether there is
one. -/
def setNamedOption (isOn : Bool) (name : List Char) : Shell Bool :=
  setOptionThat (fun o => o.2.toList = name) isOn

/-- Prints how the options are set, or the commands that set them so. -/
def listOptions (asCommands : Bool) : Shell Unit := do
  let s ← scope
  let line (o : Option Char × String) : List Char :=
    let isOn := s.options.contains o.2
    if asCommands then (if isOn then "set -o " else "set +o ").toList ++ o.2.toList ++ ['\n']
    else padEnd 16 o.2.toList ++ (if isOn then "on\n" else "off\n").toList
  let start := if asCommands then [] else "Current option settings\n".toList
  let _ ← write 1 (start ++ optionTable.flatMap line)

/-- Takes options off arguments and sets them: the arguments that are left,
if there were any or two dashes asked for them. -/
def takeOptions (fault : String) : List (List Char) → Shell (Option (List (List Char)))
  | [] => return none
  | ['-', '-'] :: rest => return some rest
  | ['-'] :: rest => do
    let _ ← setOption false 'x'
    let _ ← setOption false 'v'
    return if rest.isEmpty then none else some rest
  | (sign :: letters) :: rest => do
    if sign ≠ '-' && sign ≠ '+' then return some ((sign :: letters) :: rest)
    let isOn := sign = '-'
    if letters = ['o'] then
      match rest with
      | [] =>
        listOptions !isOn
        return none
      | name :: rest => do
        if !(← setNamedOption isOn name) then
          abort (fault.toList ++ "Illegal option ".toList ++ [sign, 'o', ' '] ++ name)
        takeOptions fault rest
    else
      letters.forM fun letter => do
        if !(← setOption isOn letter) then
          abort (fault.toList ++ "Illegal option ".toList ++ [sign, letter])
      takeOptions fault rest
  | [] :: rest => return some ([] :: rest)

/-- Sets options and arguments. -/
def set_ : Builtin := fun arguments => do
  if arguments.isEmpty then listParameters "" fun p => p.value.isSome
  else
    match ← takeOptions "set: " arguments with
    | some given => modifyScope fun s => { s with arguments := given, optionOffset := 0 }
    | none => pure ()
    setStatus 0

/-- Takes the next option off the arguments of a script. -/
def getopts : Builtin := fun arguments => do
  match arguments with
  | shape :: name :: given => do
    let s ← scope
    let words := if given.isEmpty then s.arguments else given
    let isQuiet := shape.head? = some ':'
    let offset := s.optionOffset
    let shown := ((value? (← get) "OPTIND".toList).bind natural?).getD 1
    let index := shown - 1 - (if offset = 0 then 0 else 1)
    let set (option argument : List Char) (isGiven : Bool) (index offset : Nat) : Shell Unit := do
      assign "" "OPTIND".toList (index + 1 + (if offset = 0 then 0 else 1)).repr.toList
      modifyScope fun s => { s with optionOffset := offset }
      assign "" name option
      if isGiven then assign "" "OPTARG".toList argument
      else modifyScope fun s => { s with
        parameters := s.parameters.filter fun p => p.1 ≠ "OPTARG".toList }
    let finish (index : Nat) : Shell Unit := do
      set ['?'] [] false index 0
      setStatus 1
    match words[index]? with
    | some ('-' :: letter :: more) =>
      if letter = '-' && more.isEmpty then finish (index + 1)
      else
        let rest := (letter :: more).drop offset
        match rest with
        | [] => finish (index + 1)
        | c :: after =>
          let next := if after.isEmpty then (index + 1, 0) else (index, offset + 1)
          let known := shape.dropWhile fun d => d ≠ c
          if c = ':' || known.isEmpty then
            if isQuiet then set ['?'] [c] true next.1 next.2
            else
              tell ("Illegal option -".toList ++ [c, '\n'])
              set ['?'] [] false next.1 next.2
          else if known.drop 1 |>.head? |>.any (· = ':') then
            if !after.isEmpty then set [c] after true (index + 1) 0
            else match words[index + 1]? with
              | some value => set [c] value true (index + 2) 0
              | none =>
                if isQuiet then set [':'] [c] true (index + 1) 0
                else
                  tell ("No arg for -".toList ++ [c] ++ " option\n".toList)
                  set ['?'] [] false (index + 1) 0
          else set [c] [] true next.1 next.2
          setStatus 0
    | _ => finish index
  | _ => reject 2 "getopts: Usage: getopts optstring var [arg]".toList

-- ============================================================ directories

/-- A path from the root without steps that stay or go back. -/
def plainPath (path : List Char) : List Char :=
  let step (names : Trail) (name : List Char) : Trail :=
    if name = ['.'] then names
    else if name = ['.', '.'] then names.dropLast
    else names ++ [name]
  Disk.pathOf ((Disk.steps path).foldl step [])

/-- The path of the directory, as it was reached. -/
def herePath (w : World) : List Char :=
  (value? w "PWD".toList).getD (Disk.pathOf w.scope.here)

/-- Changes the directory. -/
def cd : Builtin := withOptions "cd" "LP" fun given operands => do
  let w ← get
  let home := (value? w "HOME".toList).getD []
  let back := (value? w "OLDPWD".toList).getD []
  let goal := match operands with
    | [] => home
    | ['-'] :: _ => back
    | path :: _ => path
  let current := herePath w
  let path := plainPath (Disk.join current goal)
  match w.disk.find w.scope.here path true with
  | .ok (place, .directory _) =>
    let shown := if given.getLast? = some 'P' then Disk.pathOf place else path
    modifyScope fun s => { s with here := place }
    assignTold "cd: " "OLDPWD".toList current
    assignTold "cd: " "PWD".toList shown
    if operands.head? = some ['-'] then
      let _ ← write 1 (shown ++ ['\n'])
    setStatus 0
  | _ => reject 2 ("cd: can\x27t cd to ".toList ++ goal)

/-- Prints the directory. -/
def pwd : Builtin := withOptions "pwd" "LP" fun given _ => do
  let w ← get
  let shown := if given.getLast? = some 'P' then Disk.pathOf w.scope.here else herePath w
  let _ ← write 1 (shown ++ ['\n'])
  setStatus 0

-- ================================================================ reading

/-- Takes a line off the input, with those that a backslash joins to
it. -/
def takeJoined (isRaw : Bool) : (fuel : Nat) → Shell (List Char × Bool)
  | 0 => takeLine
  | fuel + 1 => do
    let (line, isEnded) ← takeLine
    let slashes := (line.reverse.takeWhile (· = '\\')).length
    if !isRaw && isEnded && slashes % 2 = 1 then
      let (more, isEnded) ← takeJoined isRaw fuel
      return (line.dropLast ++ more, isEnded)
    else return (line, isEnded)

/-- Reads a line into parameters. -/
def read : Builtin := fun arguments => do
  match (Options.of "r" "p" []).parse true arguments with
  | .error (.unknown c) => reject 2 ("read: Illegal option -".toList ++ [c])
  | .error (.lacksValue _) => reject 2 "read: No arg for -p option".toList
  | .error _ => reject 2 "read: Illegal option --".toList
  | .ok p =>
    match p.value? 'p' with
    | some prompt => tell prompt
    | none => pure ()
    if p.operands.isEmpty then reject 2 "read: arg count".toList
    else
      let isRaw := p.has 'r'
      let (line, isEnded) ← takeJoined isRaw (← input).length
      let marks := lineMarks isRaw (line.filter (· ≠ '\x00'))
      let values := readFields (separators (← get)) p.operands.length marks
      (p.operands.zip values).forM fun v => do
        if !isName v.1 then abort ("read: ".toList ++ v.1 ++ ": bad variable name".toList)
        assign "read: " v.1 v.2
      setStatus (if isEnded then 0 else 1)

-- ================================================================ signals

/-- Whether a text is the number of a process that a signal can reach, and
what is done to reach it. -/
def sendTo (signal : Nat) (target : List Char) : Shell Unit := do
  let w ← get
  let number? := match target with
    | '%' :: rest =>
      ((natural? rest).bind fun n => w.jobs[n - 1]?).map Job.number
    | _ => natural? target
  match number? with
  | none =>
    if target.head? = some '%' then reject 2 ("kill: No such job: ".toList ++ target)
    else reject 2 ("kill: Illegal number: ".toList ++ target)
  | some n =>
    if w.living.contains n then
      if signal ≠ 0 then set { w with pending := w.pending ++ [(n, signal)] }
    else if w.jobs.any fun (j : Job) => j.number = n && j.status.isNone then
      if signal ≠ 0 && !quietSignals.contains signal then
        set { w with jobs := w.jobs.map fun (j : Job) =>
          if j.number = n then { j with status := some (128 + signal) } else j }
    else reject 1 "kill: No such process\n".toList

/-- The usage of the command that sends signals. -/
def killUsage : List Char :=
  ("kill: Usage: kill [-s sigspec | -signum | -sigspec] [pid | job]... or\n"
    ++ "kill -l [exitstatus]").toList

/-- Prints the names of signals. -/
def listSignals : List (List Char) → Shell Unit
  | [] => do
    let name (n : Nat) : List Char := if n = 0 then ['0'] else signalName n
    let _ ← write 1 (unlines ((List.range signalCount).map name))
    setStatus 0
  | argument :: _ => do
    match natural? argument with
    | none => reject 2 ("kill: Illegal number: ".toList ++ argument)
    | some n =>
      let n := if n > 128 then n - 128 else n
      let _ ← write 1 (signalName n ++ ['\n'])
      setStatus 0

/-- Sends signals to processes. -/
def kill : Builtin := fun arguments => do
  let send (signal : Nat) (targets : List (List Char)) : Shell Unit := do
    let targets := if targets.head? = some ['-', '-'] then targets.tail else targets
    if targets.isEmpty then reject 2 killUsage
    else
      setStatus 0
      targets.forM (sendTo signal)
  match arguments with
  | ['-', 'l'] :: rest => listSignals rest
  | ['-', 's'] :: name :: rest =>
    match (signal? name).filter fun n => n ≠ 0 || name = ['0'] with
    | some n => send n rest
    | none => reject 2 ("kill: invalid signal number or name: ".toList ++ name)
  | ['-', '-'] :: rest => send 15 rest
  | ('-' :: c :: name) :: rest =>
    match (signal? (c :: name)).filter fun n => n ≠ 0 || c = '0' with
    | some n => send n rest
    | none => reject 2 ("kill: Illegal option -".toList ++ [c])
  | rest => send 15 rest

/-- Sets what is done at signals. -/
def trap : Builtin := withOptions "trap" "" fun _ arguments => do
  match arguments with
  | [] =>
    let traps := (← scope).traps.mergeSort fun a b => a.1 ≤ b.1
    let _ ← write 1 (traps.flatMap fun t =>
      "trap -- ".toList ++ quoted t.2 ++ [' '] ++ signalName t.1 ++ ['\n'])
    setStatus 0
  | first :: rest =>
    let (action, names) :=
      if rest.isEmpty || (natural? first).isSome then (none, first :: rest)
      else if first = ['-'] then (none, rest)
      else (some first, rest)
    setStatus 0
    names.forM fun name => do
      match signal? name with
      | none =>
        tell ("trap: ".toList ++ name ++ ": bad trap\n".toList)
        setStatus 1
      | some n => modifyScope fun s =>
        let others := s.traps.filter fun t => t.1 ≠ n
        { s with traps := match action with
          | some action => (n, action) :: others
          | none => others }

-- ================================================================= masks

/-- The mask of the files that are made, which can be shown and set. -/
def umask : Builtin := withOptions "umask" "S" fun given arguments => do
  let mask := (← scope).mask
  let set (changed : Option Nat) (fault : String) (text : List Char) : Shell Unit := do
    match changed with
    | some n =>
      modifyScope fun s => { s with mask := n }
      setStatus 0
    | none => reject 2 (fault.toList ++ text)
  match arguments with
  | [] =>
    let shown := if given.isEmpty then Mask.digits mask else Mask.letters mask
    let _ ← write 1 (shown ++ ['\n'])
    setStatus 0
  | text :: _ =>
    if text.head?.any Char.isDigit then set (Mask.ofDigits? text) "umask: Illegal number: " text
    else set (Mask.changed? mask text) "umask: Illegal mode: " text

-- =============================================================== aliases

/-- An alias as a script may hold it. -/
def aliasText (name meaning : List Char) : List Char := name ++ '=' :: quoted meaning

/-- What aliases are listed by before all else. -/
def aliasKey (name : List Char) : Nat :=
  let codes := name.map Char.toNat
  (16 * codes.headD 0 + codes.foldl (· + ·) 0) % 39

/-- Sets aliases and shows them. -/
def alias_ : Builtin := fun arguments => do
  setStatus 0
  if arguments.isEmpty then
    let sorted := (← scope).aliases.mergeSort fun a b => aliasKey a.1 ≤ aliasKey b.1
    let _ ← write 1 (unlines (sorted.map fun a => aliasText a.1 a.2))
  else
    arguments.forM fun argument => do
      match splitOnce ['='] (argument.drop 1) with
      | some (start, meaning) =>
        let name := argument.take 1 ++ start
        modifyScope fun s =>
          if (s.aliases.lookup name).isSome then
            { s with aliases := s.aliases.map fun a => if a.1 = name then (name, meaning) else a }
          else { s with aliases := s.aliases ++ [(name, meaning)] }
      | none =>
        match (← scope).aliases.lookup argument with
        | some meaning =>
          let _ ← write 1 (aliasText argument meaning ++ ['\n'])
        | none =>
          tell ("alias: ".toList ++ argument ++ " not found\n".toList)
          setStatus 1

/-- Takes aliases away. -/
def unalias : Builtin := withOptions "unalias" "a" fun given names => do
  setStatus 0
  if given.isEmpty then
    names.forM fun name => do
      if ((← scope).aliases.lookup name).isNone then
        tell ("unalias: ".toList ++ name ++ " not found\n".toList)
        setStatus 1
      else modifyScope fun s => { s with aliases := s.aliases.filter fun a => a.1 ≠ name }
  else modifyScope fun s => { s with aliases := [] }

-- =============================================================== programs

/-- The place of a program that is named by its path, or is in one of the
directories for programs; `standard` are these if none are named. -/
def locate (standard name : List Char) : Shell (Except FileFault Trail) := do
  let w ← get
  let at_ (path : List Char) : Except FileFault Trail := do
    let (place, entry) ← w.disk.find w.scope.here path true
    if entry.isProgram then return place else throw .permissionDenied
  if name.contains '/' then return at_ name
  else if name.isEmpty then return .error .notFound
  else if name.length > Disk.nameLimit then return .error .invalidFilename
  else
    let directories := splitAll ':' ((value? w "PATH".toList).getD standard)
    let found := directories.map fun directory =>
      at_ (if directory.isEmpty then name else Disk.join directory name)
    match found.find? Except.isOk with
    | some place => return place
    | none => return .error (if found.any fun f => f matches .error .permissionDenied then
        .permissionDenied else .notFound)

/-- Looks programs up. -/
def hash : Builtin := withOptions "hash" "r" fun _ names => do
  setStatus 0
  names.forM fun name => do
    if !(← locate [] name).isOk then reject 1 ("hash: ".toList ++ name ++ ": not found".toList)

/-- The path that a program is found by. -/
def pathFor? (name : List Char) : Shell (Option (List Char)) := do
  let w ← get
  let runs (path : List Char) : Bool :=
    (w.disk.found? w.scope.here path).any Entry.isProgram
  if name.contains '/' then return if runs name then some name else none
  else
    let paths := (splitAll ':' ((value? w "PATH".toList).getD [])).map fun directory =>
      Disk.join directory name
    return paths.find? runs

/-- The names of the other commands that shells have. -/
def commonNames : List String :=
  ["[", "alias", "bg", "cd", "command", "echo", "false", "fg", "getopts", "hash", "jobs", "kill",
    "printf", "pwd", "read", "test", "true", "type", "ulimit", "umask", "unalias", "wait"]

/-- Tells what names stand for, in full or by the shortest text that runs
it. -/
def describe (isShort : Bool) (names : List (List Char)) : Shell Unit := do
  setStatus 0
  names.forM fun name => do
    let text := String.ofList name
    let say (long : String) : Shell Unit := do
      let _ ← write 1 (name ++ (if isShort then [] else long.toList) ++ ['\n'])
    if keywords.contains text then say " is a shell keyword"
    else if let some meaning := (← scope).aliases.lookup name then
      let _ ← write 1 (if isShort then "alias ".toList ++ aliasText name meaning ++ ['\n']
        else name ++ " is an alias for ".toList ++ meaning ++ ['\n'])
    else if specialNames.contains text then say " is a special shell builtin"
    else if ((← scope).functions.lookup name).isSome then say " is a shell function"
    else if commonNames.contains text then say " is a shell builtin"
    else match ← pathFor? name with
      | some path =>
        let _ ← write 1 (if isShort then path ++ ['\n']
          else name ++ " is ".toList ++ path ++ ['\n'])
      | none =>
        if !isShort then
          let _ ← write 1 (name ++ ": not found\n".toList)
        setStatus 127

/-- Runs a tool as a command of the shell itself. -/
def asBuiltin (name : String) (tool : Tool) : Builtin := fun arguments => do
  let w ← get
  let done := tool ⟨(← complaintStart) ++ name.toList, arguments, [], w.disk, w.scope.here, [],
    w.scope.mask⟩
  if ← done.told.allM fun t => do return (← write t.1 t.2) || t.1 ≠ 1 then setStatus done.status
  else
    complain (name.toList ++ ": ".toList ++ name.toList ++ ": I/O error".toList)
    setStatus 1

/-- The commands that change the shell, or print without a program. -/
def builtin? (name : String) : Option Builtin :=
  match name with
  | ":" | "true" | "ulimit" | "times" => some fun _ => setStatus 0
  | "jobs" => some (withOptions "jobs" "lp" fun _ _ => setStatus 0)
  | "bg" | "fg" => some (withOptions name "" fun _ _ => setStatus 0)
  | "hash" => some hash
  | "alias" => some alias_
  | "unalias" => some unalias
  | "false" => some fun _ => setStatus 1
  | "exit" => some exit
  | "return" => some return_
  | "break" => some (leaveLoops "break" .broke)
  | "continue" => some (leaveLoops "continue" .continued)
  | "shift" => some shift
  | "set" => some set_
  | "export" => some export_
  | "readonly" => some readonly
  | "unset" => some unset
  | "local" => some local_
  | "getopts" => some getopts
  | "cd" => some cd
  | "pwd" => some pwd
  | "read" => some read
  | "kill" => some kill
  | "trap" => some trap
  | "umask" => some umask
  | "type" => some (describe false)
  | "echo" => some (asBuiltin "echo" echo)
  | "printf" => some (asBuiltin "printf" printf)
  | "test" => some (asBuiltin "test" (test true))
  | "[" => some (asBuiltin "[" (bracketTest true))
  | _ => none

end Shell

end ClrListing.Script
