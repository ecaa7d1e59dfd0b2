/-
Running scripts.

The functions that expand words and run commands need each other. A unit
of `fuel` is used up wherever one of them goes a level deeper: into the
parts of a command, into a function or into another script.
-/
import ClrListing.Script.Channels
import ClrListing.Script.Runner

namespace ClrListing.Script

open Text

namespace Shell

-- ============================================================ conditions

/-- Whether a step is run. -/
def isDue (status : Nat) : Condition → Bool
  | .always => true
  | .ifOk => status = 0
  | .ifFailed => status ≠ 0

/-- Runs commands whose failure does not end the script, or may end it. -/
def tested (isTested : Bool) (run : Shell Unit) : Shell Unit := do
  let before := (← scope).isTested
  modifyScope fun s => { s with isTested := isTested }
  finally_ run (modifyScope fun s => { s with isTested := before })

/-- Ends the script after a command that failed, if it is to end then. -/
def checkStatus : Shell Unit := do
  let s ← scope
  if s.options.contains "errexit" && !s.isTested && s.status ≠ 0 then throw (.exited s.status)

/-- Complains of a text that is not well formed, and ends the script;
`source` is what the text is a part of. -/
def abortBroken (source : List Char) (b : Broken) : Shell α := do
  modifyScope fun s => { s with line := b.line }
  abort (source ++ "Syntax error: ".toList ++ b.fault.message.toList)

mutual

-- ============================================================== expansion

/-- The marks of pieces. -/
def expandMarks : (fuel : Nat) → List Piece → Shell (List Mark)
  | 0, _ => return []
  | fuel + 1, pieces => do return (← pieces.mapM (expandPiece fuel)).flatten

/-- The marks of a piece. -/
def expandPiece : (fuel : Nat) → Piece → Shell (List Mark)
  | 0, _ => return []
  | fuel + 1, piece => do
    match piece with
    | .char c => return [.char c]
    | .nothing => return [.field]
    | .home => return valueMarks true ((value? (← get) "HOME".toList).getD ['~'])
    | .parameter query word isQuoted => expandParameter fuel query word isQuoted
    | .printed steps isQuoted => return valueMarks isQuoted (← printed fuel steps)
    | .result expression isQuoted =>
      let n ← arithmetic (← expandText fuel expression)
      return valueMarks isQuoted (digitsOf n)

/-- The marks of what is shown of a parameter. -/
def expandParameter : (fuel : Nat) → Query → List Piece → (isQuoted : Bool) →
    Shell (List Mark)
  | 0, _, _, _ => return []
  | fuel + 1, query, word, isQuoted => do
    let w ← get
    let arguments := w.scope.arguments
    let isArguments := query.name = ['@'] || query.name = ['*']
    let value := if isArguments then
        if arguments.isEmpty then none else some (spaced arguments)
      else value? w query.name
    let marks := if isArguments && !(isQuoted && query.name = ['*']) then
        valuesMarks isQuoted arguments
      else if isArguments then valueMarks isQuoted ((joinMark w).intercalate arguments)
      else valueMarks isQuoted (value.getD [])
    let isGiven := value.any fun v => !(query.skipsEmpty && v.isEmpty)
    let check : Shell Unit := do
      if value.isNone && !isArguments && w.scope.options.contains "nounset" then
        abort (query.name ++ ": parameter not set".toList)
    let inner : Shell (List Mark) := do
      let marks ← expandMarks fuel word
      return if isQuoted then .field :: marks else splitting marks
    match query.request with
    | .value => do
      check
      return marks
    | .length => do
      check
      return valueMarks isQuoted (value.getD []).length.repr.toList
    | .orElse => if isGiven then return marks else inner
    | .ifGiven => if isGiven then inner else return if isQuoted then [.field] else []
    | .orAssign =>
      if isGiven then return marks
      else
        let text ← expandText fuel word
        if !isName query.name then abort (query.name ++ ": bad variable name".toList)
        assign "" query.name text
        return valueMarks isQuoted text
    | .orFail =>
      if isGiven then return marks
      else
        let text ← expandText fuel word
        let reason := if !word.isEmpty then text
          else if query.skipsEmpty then "parameter not set or null".toList
          else "parameter not set".toList
        abort (query.name ++ [':', ' '] ++ reason)
    | .cut cut => do
      check
      let pattern ← expandPattern fuel word
      return valueMarks isQuoted (cutBy cut (glob pattern) (value.getD []))
    | .unknown => abort "Bad substitution".toList

/-- The text of pieces. -/
def expandText : (fuel : Nat) → List Piece → Shell (List Char)
  | 0, _ => return []
  | fuel + 1, pieces => do
    let marks ← expandMarks fuel pieces
    return textOf (charsOf (joinMark (← get)) marks)

/-- The characters of pieces that are a pattern. -/
def expandPattern : (fuel : Nat) → List Piece → Shell (List Marked)
  | 0, _ => return []
  | fuel + 1, pieces => do return charsOf [' '] (← expandMarks fuel pieces)

/-- The fields of a word. -/
def expandWord : (fuel : Nat) → List Piece → Shell (List (List Char))
  | 0, _ => return []
  | fuel + 1, word => do
    let marks ← expandMarks fuel word
    let w ← get
    let fields := fieldsOf (separators w) marks
    return if w.scope.options.contains "noglob" then fields.map textOf
      else fields.flatMap (pathsOf w.disk w.scope.here)

/-- The fields of words. -/
def expandWords : (fuel : Nat) → List (List Piece) → Shell (List (List Char))
  | 0, _ => return []
  | fuel + 1, words => do return (← words.mapM (expandWord fuel)).flatten

/-- What commands print, without the line ends after it. -/
def printed : (fuel : Nat) → List Step → Shell (List Char)
  | 0, _ => return []
  | fuel + 1, steps => do
    let number ← newOutput
    let run : Shell Unit := do
      setChannel 1 (some (.stream number))
      tested false (runSteps fuel steps)
    let status ← apart fuel run
    modifyScope fun s => { s with printed := some status }
    return dropEndWhile (· = '\n') ((← outputAt number).filter (· ≠ '\x00'))

-- =========================================================== redirections

/-- Lets a channel lead elsewhere, and tells whether it can. -/
def redirect : (fuel : Nat) → Redirection → Shell Bool
  | 0, _ => return false
  | fuel + 1, redirection => do
    match redirection with
    | .toFile channel path appends forces =>
      openOutput channel (← expandText fuel path) appends forces
    | .fromFile channel path creates => openInput channel (← expandText fuel path) creates
    | .toChannel channel other => copyChannel channel (← expandText fuel other)
    | .fromText channel text =>
      setChannel channel (some (.source (← newSource (← expandText fuel text))))
      return true

/-- Lets channels lead elsewhere, up to the first that cannot, and tells
whether all of them can. -/
def redirectAll : (fuel : Nat) → List Redirection → Shell Bool
  | 0, _ => return false
  | fuel + 1, redirections => do
    match redirections with
    | [] => return true
    | first :: rest => if ← redirect fuel first then redirectAll fuel rest else return false

/-- Runs commands with channels that lead elsewhere, and tells whether
they can. -/
def redirected : (fuel : Nat) → List Redirection → Shell Unit → Shell Bool
  | 0, _, _ => return false
  | fuel + 1, redirections, run => do
    if redirections.isEmpty then
      run
      return true
    let before := (← scope).channels
    let restore : Shell Unit := modifyScope fun s => { s with channels := before }
    if ← redirectAll fuel redirections then
      finally_ run restore
      return true
    else
      restore
      return false

-- ================================================================== parts

/-- Runs commands to the end of a script, what is done at its end and what
is run beside it: how the script ends. -/
def closing : (fuel : Nat) → Shell Unit → Shell ExitStatus
  | 0, _ => return .code 2
  | fuel + 1, run => do
    let ended ← attempt run
    let statusFor (ended : Option Leave) : Shell ExitStatus := do
      match ended with
      | none | some (.broke _) | some (.continued _) => return .code ((← scope).status % 256)
      | some (.exited n) | some (.returned n) => return .code (n % 256)
      | some (.killed n) => return .signal n
      | some (.replaced status) => return status
    let status ← statusFor ended
    let skips := match ended with
      | some (.killed _) | some (.replaced _) => true
      | _ => false
    let action := (← scope).traps.lookup 0
    modifyScope fun s => { s with traps := s.traps.filter fun t => t.1 ≠ 0 }
    let status ← match action with
      | some text =>
        if skips then pure status
        else do
          setStatus (statusOf status)
          match ← attempt (runText fuel [] text) with
          | some (.exited n) => pure (ExitStatus.code (n % 256))
          | some (.killed n) => pure (ExitStatus.signal n)
          | some (.replaced status) => pure status
          | _ => pure status
      | none => pure status
    let _ ← attempt (runJobs fuel)
    return status

/-- Runs commands that keep what they change to themselves: the status. -/
def apart : (fuel : Nat) → Shell Unit → Shell Nat
  | 0, _ => return 2
  | fuel + 1, run => do
    let before ← get
    modify fun w => { w with
      jobs := []
      scope := { w.scope with
        depth := w.scope.depth + 1
        traps := w.scope.traps.filter fun t => t.2.isEmpty } }
    let ended ← closing fuel run
    modify fun w => { w with jobs := before.jobs, scope := before.scope }
    match ended with
    | .signal _ => settle ended
    | .code _ => pure ()
    deliver fuel
    return statusOf ended

/-- Lets the signals that were sent to the shell reach it. -/
def deliver : (fuel : Nat) → Shell Unit
  | 0 => return ()
  | fuel + 1 => do
    let w ← get
    let s := w.scope
    if s.depth = 0 && !w.pending.isEmpty then
      set { w with pending := w.pending.filter fun p => p.1 ≠ s.process }
      (w.pending.filter fun p => p.1 = s.process).forM fun p => do
        match (← scope).traps.lookup p.2 with
        | none => if !quietSignals.contains p.2 then throw (.killed p.2)
        | some action =>
          if p.2 = 9 then throw (.killed p.2)
          else if !action.isEmpty then
            let status := (← scope).status
            runText fuel [] action
            setStatus status

/-- Runs what is run beside the script and did not end yet. -/
def runJobs : (fuel : Nat) → Shell Unit
  | 0 => return ()
  | fuel + 1 => do (← get).jobs.forM fun job => do if job.status.isNone then runJob fuel job.number

/-- Runs what is run beside the script under a number, if it did not end
yet. -/
def runJob : (fuel : Nat) → (number : Nat) → Shell Unit
  | 0, _ => return ()
  | fuel + 1, number => do
    let before ← get
    match before.jobs.find? fun (j : Job) => j.number = number && j.status.isNone with
    | none => return ()
    | some job =>
      set { before with scope := job.scope, jobs := [] }
      let ended ← closing fuel (runSteps fuel job.steps)
      modify fun w => { w with
        scope := before.scope
        jobs := before.jobs.map fun (j : Job) =>
          if j.number = number then { j with status := some (statusOf ended) } else j }

/-- Runs a new shell: how it ends. -/
def spawn : (fuel : Nat) → Shell Unit → Shell ExitStatus
  | 0, _ => return .code 2
  | fuel + 1, run => do
    let before ← get
    let number := before.nextProcess
    set { before with
      nextProcess := number + 1
      living := number :: before.living
      jobs := []
      scope := freshScope before.scope number }
    let ended ← closing fuel run
    modify fun w => { w with
      living := w.living.filter (· ≠ number)
      pending := w.pending.filter fun p => p.1 ≠ number
      jobs := before.jobs
      scope := before.scope }
    return ended

-- ================================================================== texts

/-- Runs a text of commands, line by line; `source` is what it is a part
of, for complaints. -/
def runText : (fuel : Nat) → (source text : List Char) → Shell Unit
  | 0, _, _ => return ()
  | fuel + 1, source, text => do
    let step (u : Unread) : Shell (Option Unread) := do
      match Opening.of { u with aliases := (← scope).aliases } with
      | .ended => return none
      | .broken b => abortBroken source b
      | .line steps rest =>
        runSteps fuel steps
        return some rest
    let start := Unread.ofText text 1 (← scope).aliases
    match Opening.of start with
    | .ended => setStatus 0
    | _ => following step (text.length + 1) start

/-- Runs a file of commands as a shell of its own. -/
def runScript : (fuel : Nat) → (text name : List Char) → (arguments : List (List Char)) →
    Shell Unit
  | 0, _, _, _ => return ()
  | fuel + 1, text, name, arguments => do
    let w ← get
    modifyScope fun s => { s with
      parameters := startParameters w, name := name, arguments := arguments, line := 1 }
    runText fuel [] text

/-- Runs the script among the arguments of a shell. -/
def runShell : (fuel : Nat) → (name : List Char) → (arguments : List (List Char)) → Shell Unit
  | 0, _, _ => return ()
  | fuel + 1, name, arguments => do
    modifyScope fun s => { s with name := name }
    let (isCommand, reads, rest) ← takeShellOptions arguments
    if isCommand then
      match rest with
      | [] => abort "-c requires an argument".toList
      | text :: rest => runScript fuel text (rest.headD name) rest.tail
    else
      match rest with
      | path :: more =>
        if reads then
          let text ← input
          leaveInput []
          runScript fuel text name rest
        else
          let w ← get
          match w.disk.read w.scope.here path with
          | .ok bytes => runScript fuel (Octets.ofBytes bytes) path more
          | .error fault => abort (openComplaint path fault)
      | [] =>
        let text ← input
        leaveInput []
        runScript fuel text name []

-- =============================================================== programs

/-- Runs a program that stands at a place. -/
def execute : (fuel : Nat) → (place : Trail) → (name : List Char) →
    (arguments : List (List Char)) → Shell ExitStatus
  | 0, _, _, _ => return .code 126
  | fuel + 1, place, name, arguments => do
    match (← get).disk.at? place with
    | some (.file content _) =>
      match executableOf content with
      | .program tool =>
        match tool? tool with
        | some run => runTool name run arguments
        | none => runRunner fuel tool name arguments
      | .interpreted path argument =>
        let w ← get
        match w.disk.find w.scope.here path true with
        | .ok (place, entry) =>
          if entry.isProgram then execute fuel place path (argument.toList ++ name :: arguments)
          else return .code 126
        | .error _ =>
          complain (name ++ ": not found".toList)
          return .code 127
      | .script text => spawn fuel (runScript fuel text name arguments)
    | _ => return .code 126

/-- Runs one of the programs that run others. -/
def runRunner : (fuel : Nat) → (tool : String) → (name : List Char) →
    (arguments : List (List Char)) → Shell ExitStatus
  | 0, _, _, _ => return .code 126
  | fuel + 1, tool, name, arguments => do
    match tool with
    | "sh" | "dash" | "bash" => spawn fuel (runShell fuel name arguments)
    | "awk" | "mawk" | "nawk" => runRecords fuel (← invocation name arguments)
    | "env" => spawn fuel (runWithEnvironment fuel name arguments)
    | "find" => runSearch fuel (← invocation name arguments)
    | "xargs" => runWithWords fuel name arguments
    | "kill" =>
      kill arguments
      return .code (min (← scope).status 1)
    | _ =>
      match runnerOptions.lookup tool with
      | none => return .code 126
      | some (options, failure) =>
        match options.parse (tool ≠ "sleep") arguments with
        | .error fault =>
          if tool = "which" then
            let letter := match fault with
              | .unknown letter => letter
              | _ => '-'
            tell ("Illegal option -".toList ++ [letter, '\n'])
            let _ ← write 1 "Usage: /usr/bin/which [-as] args\n".toList
          else tell (withHint name [fault.message])
          return .code failure
        | .ok p =>
          match runnerFaults? tool p with
          | some reasons =>
            tell (if tool = "nice" then unlines (reasons.map (name ++ [':', ' '] ++ ·))
              else withHint name reasons)
            return .code failure
          | none => runWrapped fuel tool name p

/-- Runs a program for records. Each time it needs the result of a command,
that is run and the program is started again with it; only what it did not
write before is written. -/
def runRecords : (fuel : Nat) → Invocation → Shell ExitStatus
  | 0, _ => return .code 126
  | fuel + 1, i => do
    let turn (known : List Records.Response × Nat) :
        Shell (Option (List Records.Response × Nat)) := do
      let (responses, written) := known
      let done := Records.Run.ofInvocation i responses
      modify fun w => { w with disk := done.disk }
      leaveInput done.left
      (done.told.drop written).forM fun t => do
        let _ ← write t.1 t.2
      drainDevices
      match done.request with
      | some request => return some (responses ++ [← respond fuel request], done.told.length)
      | none =>
        setStatus done.status
        return none
    let before := (← scope).status
    following turn turnLimit ([], 0)
    let status := (← scope).status
    setStatus before
    return .code status

/-- Makes a search for files. Each time it needs the result of a command,
that is run and the search is made again with it. -/
def runSearch : (fuel : Nat) → Invocation → Shell ExitStatus
  | 0, _ => return .code 126
  | fuel + 1, i => do
    let turn (known : List FindingAnswer × Nat) :
        Shell (Option (List FindingAnswer × Nat)) := do
      let (answers, written) := known
      let done := Search.ofInvocation i answers
      modify fun w => { w with disk := done.disk }
      (done.told.reverse.drop written).forM fun t => do
        let _ ← write t.1 t.2
      drainDevices
      match done.request with
      | some request =>
        let here := (← scope).here
        modifyScope fun s => { s with here := request.here }
        let ended ← runOther fuel i.name request.command
        modifyScope fun s => { s with here := here }
        return some (answers ++ [⟨ended.isOk, (← get).disk⟩], done.told.length)
      | none =>
        setStatus (if done.hasFailed then 1 else 0)
        return none
    let before := (← scope).status
    following turn turnLimit ([], 0)
    let status := (← scope).status
    setStatus before
    return .code status

/-- Runs a command for a program. -/
def respond : (fuel : Nat) → Records.Request → Shell Records.Response
  | 0, _ => return default
  | fuel + 1, request => do
    let before := (← scope).channels
    match request.input with
    | some text => setChannel 0 (some (.source (← newSource text)))
    | none => pure ()
    let number ← newOutput
    if request.isWanted then setChannel 1 (some (.stream number))
    let ended ← runOther fuel "awk".toList ["sh".toList, ['-', 'c'], request.command]
    modifyScope fun s => { s with channels := before }
    let status : Int := match ended with
      | .code n => n
      | .signal n => 256 + n
    return ⟨status, ← outputAt number, (← get).disk, ← input⟩

/-- Runs what is left of the arguments of one of the programs that run
others. -/
def runWrapped : (fuel : Nat) → (tool : String) → (name : List Char) → Parsed → Shell ExitStatus
  | 0, _, _, _ => return .code 126
  | fuel + 1, tool, name, p => do
    match tool, p.operands with
    | "which", names =>
      let paths ← names.filterMapM pathFor?
      if !p.has 's' then
        let _ ← write 1 (unlines paths)
      return .code (if paths.length = names.length && !names.isEmpty then 0 else 1)
    | "nice", [] =>
      let _ ← write 1 "0\n".toList
      return .code 0
    | "sleep", _ =>
      runJobs fuel
      return .code 0
    | "timeout", limit :: command =>
      let waits := match command with
        | [program, time] => program = "sleep".toList && endsBefore limit time
        | _ => false
      if !waits then runOther fuel name command
      else
        let sent := ((p.value? 's').bind signal?).getD 15
        return .code (if p.has 'p' || sent = 9 then 128 + sent else 124)
    | _, command => runOther fuel name command

/-- Runs the program that arguments name for another program. -/
def runOther : (fuel : Nat) → (name : List Char) → List (List Char) → Shell ExitStatus
  | 0, _, _ => return .code 126
  | fuel + 1, name, command => do
    match command with
    | [] => return .code 125
    | program :: arguments =>
      match ← locate "/bin:/usr/bin".toList program with
      | .ok place => execute fuel place program arguments
      | .error fault =>
        tell (runComplaint name program fault)
        return .code (if fault = .permissionDenied then 126 else 127)

/-- Runs a program with a changed environment, or prints it. -/
def runWithEnvironment : (fuel : Nat) → (name : List Char) → List (List Char) → Shell Unit
  | 0, _, _ => return ()
  | fuel + 1, name, arguments => do
    let change (f : Parameters → Parameters) : Shell Unit :=
      modifyScope fun s => { s with parameters := f s.parameters }
    match environmentOptions.parse true arguments with
    | .error fault =>
      tell (withHint name [fault.message])
      setStatus 125
    | .ok p =>
      let clears := p.operands.head? = some ['-']
      let operands := if clears then p.operands.tail else p.operands
      if clears || p.has 'i' then change fun ps => ps.filter fun p => !p.2.isExported
      (p.values 'u').forM fun unwanted => change fun ps => ps.filter fun p => p.1 ≠ unwanted
      match p.value? 'S' with
      | some text => runWithEnvironment fuel name (quotedWords none none text ++ operands)
      | none =>
        let values := (operands.map namedValue).takeWhile fun v => v.2.isSome
        values.forM fun v => change fun ps => ps.setLast v.1 ⟨v.2, true, false⟩
        match operands.drop values.length with
        | [] =>
          let mark := if p.has '0' then '\x00' else '\n'
          let _ ← write 1 ((← environment).flatMap fun v => v.1 ++ '=' :: v.2 ++ [mark])
          setStatus 0
        | command =>
          let w ← get
          let place := (p.value? 'C').mapM fun path => w.disk.find w.scope.here path true
          match place with
          | .error fault =>
            tell (name ++ ": cannot change directory to ".toList ++
              ticked ((p.value? 'C').getD []) ++ [':', ' '] ++ fault.words.toList ++ ['\n'])
            setStatus 125
          | .ok place =>
            if p.has '0' then
              tell (withHint name ["cannot specify --null (-0) with command".toList])
              setStatus 125
            else
              modifyScope fun s => { s with here := (place.map Prod.fst).getD s.here }
              let ended ← runOther fuel name command
              throw (.replaced ended)

/-- Runs a program with the words of the input as its arguments. It is run
no more once it cannot be run, ends with the highest status, or is ended by
a signal. -/
def runWithWords : (fuel : Nat) → (name : List Char) → List (List Char) → Shell ExitStatus
  | 0, _, _ => return .code 126
  | fuel + 1, name, arguments => do
    match wordsOptions.parse true arguments with
    | .error fault =>
      tell (withHint name [fault.message])
      return .code 1
    | .ok p =>
      match wordsFault? p with
      | some reason =>
        tell (withHint name [reason])
        return .code 1
      | none =>
        let own ← input
        let w ← get
        let text := match p.value? 'a' with
          | some path => (w.disk.read w.scope.here path).toOption.map Octets.ofBytes
          | none => some own
        if !p.has 'a' then leaveInput []
        match text with
        | none =>
          tell (name ++ ": Cannot open input file ".toList ++
            ticked ((p.value? 'a').getD []) ++ ": No such file or directory\n".toList)
          return .code 1
        | some text =>
          let run (before : ExitStatus) (command : List (List Char)) : Shell ExitStatus := do
            if !(before matches .code 0 | .code 123) then return before
            if p.has 't' then tell (spaced command ++ ['\n'])
            let say (reason : List Char) : Shell Unit :=
              tell (name ++ [':', ' '] ++ command.headD [] ++ ": ".toList ++ reason ++ ['\n'])
            let isThere := (← locate "/bin:/usr/bin".toList (command.headD [])).isOk
            match ← runOther fuel name command with
            | .code 0 => return before
            | .code 255 =>
              say "exited with status 255; aborting".toList
              return .code 124
            | .code n => return .code (if isThere then 123 else n)
            | .signal n =>
              say ("terminated by signal ".toList ++ n.repr.toList)
              return .code 125
          (commandsFor p text).foldlM run (.code 0)

/-- Runs a program for the script. -/
def runProgram : (fuel : Nat) → (name : List Char) → (arguments : List (List Char)) →
    Shell Unit
  | 0, _, _ => return ()
  | fuel + 1, name, arguments => do
    match ← locate [] name with
    | .error .permissionDenied => reject 126 (name ++ ": Permission denied".toList)
    | .error _ =>
      let reason := if name.isEmpty then ": Permission denied" else ": not found"
      reject 127 (name ++ reason.toList)
    | .ok place =>
      settle (← execute fuel place name arguments)
      deliver fuel

/-- Runs a program instead of the rest of the script. -/
def become : (fuel : Nat) → List (List Char) → Shell Unit
  | 0, _ => return ()
  | fuel + 1, command => do
    match command with
    | [] => setStatus 0
    | name :: arguments =>
      match ← locate [] name with
      | .error fault =>
        let isDenied := fault = .permissionDenied || name.isEmpty
        complain ("exec: ".toList ++ name ++ (if isDenied then ": Permission denied"
          else ": not found").toList)
        throw (.exited (if isDenied then 126 else 127))
      | .ok place =>
        let ended ← execute fuel place name arguments
        deliver fuel
        throw (.replaced ended)

-- =============================================================== commands

/-- Shows what is run, if that is asked for, where complaints led before the
command led them elsewhere. -/
def trace : (fuel : Nat) → Channels → List (List Char) → Shell Unit
  | 0, _, _ => return ()
  | fuel + 1, channels, fields => do
    if ← hasOption "xtrace" then
      let _ ← setOption false 'x'
      let s ← scope
      let mark := textPieces ((value? (← get) "PS4".toList).getD []) s.line
      let start ← expandText fuel mark
      modifyScope fun s => { s with channels := channels }
      tell (start ++ spaced fields ++ ['\n'])
      modifyScope fun now => { now with channels := s.channels }
      let _ ← setOption true 'x'

/-- Gives parameters values, and gives the assignments as they are shown;
the programs that are run may get the values too. -/
def assignAll : (fuel : Nat) → (exports : Bool) → List Assignment → Shell (List (List Char))
  | 0, _, _ => return []
  | fuel + 1, exports, values => values.mapM fun assignment => do
    match assignment with
    | .mk name pieces =>
      let value ← expandText fuel pieces
      if exports then assignTold "" name value else assign "" name value
      return name ++ '=' :: value

/-- Runs a command with values for parameters that only it gets; it is given
the assignments as they are shown. -/
def withValues : (fuel : Nat) → List Assignment → (List (List Char) → Shell Unit) → Shell Unit
  | 0, _, _ => return ()
  | fuel + 1, values, run => do
    if values.isEmpty then run []
    else
      modifyScope fun s => { s with locals := [] :: s.locals }
      let all : Shell Unit := do
        values.forM fun assignment => match assignment with
          | .mk name _ => saveLocal name
        run (← assignAll fuel true values)
      finally_ all restoreLocals

/-- Runs a function. -/
def callFunction : (fuel : Nat) → Command → List (List Char) → Shell Unit
  | 0, _, _ => return ()
  | fuel + 1, body, arguments => do
    let before ← scope
    modifyScope fun s => { s with arguments := arguments, loops := 0, locals := [] :: s.locals }
    let ended ← attempt (runCommand fuel body)
    restoreLocals
    modifyScope fun s => { s with arguments := before.arguments, loops := before.loops }
    match ended with
    | none => return ()
    | some (.returned n) => setStatus n
    | some leave => throw leave

/-- Runs a file of commands as a part of the script. -/
def runFile : (fuel : Nat) → List (List Char) → Shell Unit
  | 0, _ => return ()
  | fuel + 1, arguments => do
    match arguments with
    | [] => setStatus 0
    | name :: _ =>
      let w ← get
      let directories := splitAll ':' ((value? w "PATH".toList).getD [])
      let paths := if name.contains '/' then [name]
        else directories.map fun directory => Disk.join directory name
      let read := (paths.map fun path => w.disk.read w.scope.here path).find? Except.isOk
      match read with
      | some (.ok bytes) =>
        match ← attempt (runText fuel (name ++ [':', ' ']) (Octets.ofBytes bytes)) with
        | none => return ()
        | some (.returned n) => setStatus n
        | some leave => throw leave
      | _ =>
        if name.contains '/' then
          abort (".: ".toList ++ openComplaint name .notFound)
        else abort (".: ".toList ++ name ++ ": not found".toList)

/-- Waits for what is run beside the script. -/
def waitFor : (fuel : Nat) → List (List Char) → Shell Unit
  | 0, _ => return ()
  | fuel + 1, arguments => do
    setStatus 0
    if arguments.isEmpty then
      runJobs fuel
      modify fun w => { w with jobs := [] }
    else arguments.forM fun argument => do
      let jobs := (← get).jobs
      let number := match argument with
        | '%' :: rest => (natural? rest).bind fun n => (jobs[n - 1]?).map Job.number
        | _ => natural? argument
      match number with
      | none => reject 2 ("wait: Illegal number: ".toList ++ argument)
      | some n =>
        runJob fuel n
        match (← get).jobs.find? fun (j : Job) => j.number = n with
        | some job =>
          let status := job.status.getD 127
          settle (if status > 128 then .signal (status - 128) else .code status)
        | none => setStatus 127

/-- Runs a command of the shell. -/
def runBuiltin : (fuel : Nat) → (name : List Char) → (arguments : List (List Char)) →
    Shell Unit
  | 0, _, _ => return ()
  | fuel + 1, name, arguments => do
    match String.ofList name with
    | "eval" => runText fuel "eval: ".toList (spaced arguments)
    | "." => runFile fuel arguments
    | "exec" => withOptions "exec" "" (fun _ command => become fuel command) arguments
    | "wait" => withOptions "wait" "" (fun _ numbers => waitFor fuel numbers) arguments
    | "command" =>
      let run (given : List Char) : Builtin := fun command => do
        match (given.filter fun c => c ≠ 'p').getLast?, command with
        | some c, names => describe (c = 'v') (names.take 1)
        | none, name :: rest =>
          let text := String.ofList name
          if specialNames.contains text || commonNames.contains text then
            runBuiltin fuel name rest
          else runProgram fuel name rest
        | none, [] => setStatus 0
      withOptions "command" "pvV" run arguments
    | text =>
      match builtin? text with
      | some run =>
        run arguments
        deliver fuel
      | none => runProgram fuel name arguments

/-- Runs what the first of some fields names. -/
def runNamed : (fuel : Nat) → List Assignment → List Redirection → (name : List Char) →
    (arguments : List (List Char)) → Shell Unit
  | 0, _, _, _, _ => return ()
  | fuel + 1, values, redirections, name, arguments => do
    let text := String.ofList name
    let channels := (← scope).channels
    if specialNames.contains text then
      let run : Shell Unit := do
        let told ← assignAll fuel (text = "exec") values
        trace fuel channels (told ++ name :: arguments)
        runBuiltin fuel name arguments
      if text = "exec" then
        if ← redirectAll fuel redirections then run else throw (.exited 2)
      else if !(← redirected fuel redirections run) then throw (.exited 2)
    else
      let run : Shell Unit := withValues fuel values fun told => do
        trace fuel channels (told ++ name :: arguments)
        match (← scope).functions.lookup name with
        | some body => callFunction fuel body arguments
        | none =>
          if commonNames.contains text then runBuiltin fuel name arguments
          else runProgram fuel name arguments
      if !(← redirected fuel redirections run) then setStatus 2

/-- Runs commands of which each reads what the one before prints. -/
def runPipe : (fuel : Nat) → (before : Option (List Char)) → List Command → Shell Unit
  | 0, _, _ => return ()
  | fuel + 1, before, commands => do
    let source ← before.mapM newSource
    let run (output : Option Nat) (command : Command) : Shell Unit := do
      match source with
      | some n => setChannel 0 (some (.source n))
      | none => pure ()
      match output with
      | some n => setChannel 1 (some (.stream n))
      | none => pure ()
      runCommand fuel command
    match commands with
    | [] => return ()
    | [command] => setStatus (← apart fuel (run none command))
    | command :: rest =>
      let number ← newOutput
      let _ ← apart fuel (run (some number) command)
      runPipe fuel (some (← outputAt number)) rest

/-- Runs a turn of a loop, and tells whether another may follow. -/
def runTurn : (fuel : Nat) → Shell Bool → Shell Bool
  | 0, _ => return false
  | _ + 1, turn => do
    modifyScope fun s => { s with loops := s.loops + 1 }
    let ended : Except Leave Bool ← tryCatch (Except.ok <$> turn) fun leave => pure (.error leave)
    modifyScope fun s => { s with loops := s.loops - 1 }
    match ended with
    | .ok goesOn => return goesOn
    | .error (.broke (n + 2)) => throw (.broke (n + 1))
    | .error (.broke _) => return false
    | .error (.continued (n + 2)) => throw (.continued (n + 1))
    | .error (.continued _) => return true
    | .error leave => throw leave

/-- Runs steps once for each field. -/
def runEach : (fuel : Nat) → (name : List Char) → List (List Char) → List Step → Shell Unit
  | 0, _, _, _ => return ()
  | fuel + 1, name, fields, body => do
    let turn (rest : List (List Char)) : Shell (Option (List (List Char))) := do
      match rest with
      | [] => return none
      | field :: rest =>
        let goesOn ← runTurn fuel do
          assign "" name field
          runSteps fuel body
          return true
        return if goesOn then some rest else none
    setStatus 0
    following turn (fields.length + 1) fields

/-- Runs steps as long as others succeed, or fail. -/
def runWhile : (fuel : Nat) → (untilOk : Bool) → (test body : List Step) → Shell Unit
  | 0, _, _, _ => return ()
  | fuel + 1, untilOk, test, body => do
    let turn (status : Nat) : Shell (Option Nat) := do
      let goesOn ← runTurn fuel do
        tested true (runSteps fuel test)
        let isOk := (← scope).status = 0
        if isOk = untilOk then
          setStatus status
          return false
        else
          runSteps fuel body
          return true
      let status := (← scope).status
      return if goesOn then some status else none
    following turn turnLimit 0

/-- Runs the first arm that a text belongs to. -/
def runArms : (fuel : Nat) → (subject : List Char) → List Arm → Shell Unit
  | 0, _, _ => return ()
  | fuel + 1, subject, arms => do
    match arms with
    | [] => setStatus 0
    | .mk patterns body :: rest =>
      let fits ← patterns.anyM fun pattern => do
        return globMatches (glob (← expandPattern fuel pattern)) subject
      if fits then
        setStatus 0
        runSteps fuel body
      else runArms fuel subject rest

/-- Runs steps. -/
def runSteps : (fuel : Nat) → List Step → Shell Unit
  | 0, _ => return ()
  | fuel + 1, steps => steps.forM fun step => do
    match step with
    | .mk condition isTested command =>
      if isDue (← scope).status condition then
        if isTested then tested true (runCommand fuel command) else runCommand fuel command

/-- Runs a command that has no parts. -/
def runSimple : (fuel : Nat) → List Assignment → List (List Piece) → List Redirection →
    Shell Unit
  | 0, _, _, _ => return ()
  | fuel + 1, values, words, redirections => do
    let channels := (← scope).channels
    match ← expandWords fuel words with
    | [] =>
      let run : Shell Unit := do
        trace fuel channels (← assignAll fuel false values)
        setStatus ((← scope).printed.getD 0)
      if !(← redirected fuel redirections run) then setStatus 2
    | name :: arguments => runNamed fuel values redirections name arguments

/-- Runs a command. -/
def runCommand : (fuel : Nat) → Command → Shell Unit
  | 0, _ => return ()
  | fuel + 1, command => do
    if ← hasOption "noexec" then return ()
    match command with
    | .simple line values words redirections =>
      modifyScope fun s => { s with line := line, printed := none }
      runSimple fuel values words redirections
      checkStatus
    | .forEach name words body => runEach fuel name (← expandWords fuel words) body
    | .repeated untilOk test body => runWhile fuel untilOk test body
    | .choose subject arms => runArms fuel (← expandText fuel subject) arms
    | .conditional test yes no =>
      tested true (runSteps fuel test)
      if (← scope).status = 0 then runSteps fuel yes
      else
        setStatus 0
        runSteps fuel no
    | .group body => runSteps fuel body
    | .apart body =>
      setStatus (← apart fuel (runSteps fuel body))
      checkStatus
    | .beside body =>
      let w ← get
      let number := w.nextProcess
      let beside : Scope := { w.scope with
        depth := w.scope.depth + 1
        traps := w.scope.traps.filter fun t => t.2.isEmpty
        channels := w.scope.channels.set 0 (some .void)
        isTested := false }
      let job : Job := ⟨number, beside, body, none⟩
      set { w with
        nextProcess := number + 1
        jobs := w.jobs ++ [job]
        scope := { w.scope with lastJob := some number, status := 0 } }
    | .define name body => modifyScope fun s => { s with
        functions := (name, body) :: s.functions.filter fun f => f.1 ≠ name
        status := 0 }
    | .pipe commands =>
      runPipe fuel none commands
      checkStatus
    | .negate command =>
      tested true (runCommand fuel command)
      setStatus (if (← scope).status = 0 then 1 else 0)
    | .redirected redirections command =>
      if !(← redirected fuel redirections (runCommand fuel command)) then setStatus 2

end

end Shell

end ClrListing.Script
