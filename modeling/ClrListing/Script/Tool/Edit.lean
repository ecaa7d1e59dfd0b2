/-
The tool that edits lines by a script of commands, `sed`.

The lines are gone through in cycles: a line is read into the space that
commands change, and printed when they are done.
-/
import ClrListing.Script.Tool.EditScript

namespace ClrListing.Script

open Text

-- ================================================================= running

/-- How lines are edited. -/
structure EditSetup where
  /-- Lines are printed only when commands print them. -/
  isQuiet : Bool
  /-- What ends a line. -/
  mark : Char
  /-- How wide the lines are that show what cannot be seen. -/
  width : Nat
  /-- What the file is called. -/
  title : List Char
  deriving DecidableEq, Repr, Inhabited

/-- What editing has got to. -/
structure Editing where
  commands : List EditCommand
  /-- The command that comes next; none between the cycles. -/
  place : Option Nat
  /-- The next cycle goes on with what is left of the space. -/
  keepsSpace : Bool
  space : List Char
  /-- Whether a line feed ends the line of the space. -/
  isEnded : Bool
  held : List Char
  number : Nat
  rest : List (List Char × Bool)
  /-- What is printed after the cycle. -/
  queue : List Char
  output : List Char
  /-- Something was replaced since the line was read. -/
  hasChanged : Bool
  /-- The commands in whose ranges the line is, with the lines that these
  end with if they are known. -/
  ranges : List (Nat × Option Nat)
  written : List (List Char × List Char)
  /-- What is left of files that are read line by line. -/
  partRead : List (List Char × List (List Char × Bool))
  /-- The pattern that was last searched for. -/
  lastUsed : Option EditPattern
  setup : EditSetup
  /-- Why editing could not go on. -/
  complaint : List Char
  isDone : Bool
  status : Nat

namespace Editing

/-- Prints a text; a line before it that was not ended is ended first. -/
def put (e : Editing) (s : List Char) : Editing :=
  if s.isEmpty then e
  else
    let isOpen := !e.output.isEmpty && e.output.getLast? ≠ some e.setup.mark
    { e with output := e.output ++ (if isOpen then [e.setup.mark] else []) ++ s }

/-- A text as a line, ended like the line of the space. -/
def asLine (e : Editing) (s : List Char) : List Char :=
  if e.isEnded then s ++ [e.setup.mark] else s

/-- The pattern to search for: the one given, or the one last used. -/
def recalled (e : Editing) (p : Option EditPattern) : Option EditPattern := p <|> e.lastUsed

/-- Ends all editing since no pattern was used before. -/
def lackPattern (e : Editing) : Editing :=
  { e with isDone := true, status := 1,
           complaint := "-e expression #1, char 0: no previous regular expression".toList }

/-- Writes to a file, which may be the output. -/
def writeTo (e : Editing) (path s : List Char) : Editing :=
  if path = "/dev/stdout".toList then e.put s
  else match e.written.lookup path with
    | some before =>
      { e with written := (path, before ++ s) :: e.written.filter fun w => w.1 ≠ path }
    | none => { e with written := (path, s) :: e.written }

/-- Ends a cycle: prints the space unless that is not wanted, and what was
to come after it. -/
def endCycle (e : Editing) (prints : Bool) : Editing :=
  let e := if prints && !e.setup.isQuiet then e.put (e.asLine e.space) else e
  { e.put e.queue with place := none, queue := [], keepsSpace := false }

/-- Ends the cycle and all editing. -/
def finish (e : Editing) (prints : Bool) (status : Nat) : Editing :=
  { e.endCycle prints with isDone := true, status := status }

/-- Goes on with the next command. -/
def advance (e : Editing) : Editing := { e with place := e.place.map (· + 1) }

/-- Whether the line meets an address. -/
def meets (e : Editing) : Address → Bool × Editing
  | .line n => (e.number = n, e)
  | .last => (e.rest.isEmpty, e)
  | .pattern p =>
    match e.recalled p with
    | some p => (p.regex.isIn p.folds e.space, { e with lastUsed := some p })
    | none => (false, e.lackPattern)
  | .every first step =>
    (if step = 0 then e.number = first
      else e.number ≥ first && (e.number - first) % step = 0, e)

/-- Leaves or enters the range of a command. -/
def setRange (e : Editing) (place : Nat) (last : Option (Option Nat)) : Editing :=
  let others := e.ranges.filter fun r => r.1 ≠ place
  { e with ranges := match last with
    | some n => (place, n) :: others
    | none => others }

/-- Whether a line starts a range: the line itself meets its start. Where
it ends with a line that is not after it, it has only that line. -/
def enters (e : Editing) (place : Nat) (last : RangeEnd) : Editing :=
  match last with
  | .later 0 => e
  | .later n => e.setRange place (some (some (e.number + n)))
  | .address (.line n) => if n > e.number then e.setRange place (some (some n)) else e
  | .address (.every _ step) =>
    if step = 0 || e.number % step = 0 then e
    else e.setRange place (some (some (e.number + (step - e.number % step))))
  | .address _ => e.setRange place (some none)

/-- Whether a command is for the line, and what is known of its range
then. -/
def selects (e : Editing) (place : Nat) (c : EditCommand) : Bool × Editing :=
  match c.first, c.last with
  | none, _ => (true, e)
  | some a, none => e.meets a
  | some a, some last =>
    let inside := match e.ranges.lookup place with
      | some r => some r
      | none => if a = .line 0 && e.number = 1 then some none else none
    let begin_ (e : Editing) : Bool × Editing :=
      let (isMet, e) := e.meets a
      (isMet, if isMet then e.enters place last else e)
    match inside with
    | some (some n) =>
      if e.number > n then begin_ (e.setRange place none)
      else (true, if e.number = n then e.setRange place none else e)
    | some none =>
      match last with
      | .address b =>
        let (isMet, e) := e.meets b
        (true, if isMet then e.setRange place none else e.setRange place (some none))
      | .later _ => (true, e)
    | none => begin_ e

/-- The place after the end of the block that starts before a place. -/
def blockEnd (commands : List EditCommand) : (depth place : Nat) → List EditCommand → Nat
  | _, _, [] => commands.length
  | depth, place, c :: rest =>
    match c.action with
    | .openBlock => blockEnd commands (depth + 1) (place + 1) rest
    | .closeBlock => if depth = 0 then place + 1 else blockEnd commands (depth - 1) (place + 1) rest
    | _ => blockEnd commands depth (place + 1) rest

/-- Goes on after a label, or with the end of the cycle for an empty
name. -/
def jump (e : Editing) (name : List Char) : Editing :=
  if name.isEmpty then { e with place := some e.commands.length }
  else match e.commands.findIdx? fun c => c.action = .label name with
    | some n => { e with place := some n }
    | none => { e with isDone := true, status := 1 }

/-- The first line of a text, and the rest if there is one. -/
def firstLine (s : List Char) : List Char × Option (List Char) :=
  match splitOnce ['\n'] s with
  | some (line, rest) => (line, some rest)
  | none => (s, none)

/-- A character with what cannot be seen written out. -/
def shownChar (c : Char) : List Char :=
  match c with
  | '\\' => ['\\', '\\']
  | '\x07' => ['\\', 'a']
  | '\x08' => ['\\', 'b']
  | '\x0c' => ['\\', 'f']
  | '\n' => ['\\', 'n']
  | '\x0d' => ['\\', 'r']
  | '\t' => ['\\', 't']
  | '\x0b' => ['\\', 'v']
  | c =>
    if ' ' ≤ c && c ≤ '~' then [c]
    else
      let digits := Nat.toDigits 8 c.toNat
      '\\' :: List.replicate (3 - digits.length) '0' ++ digits

/-- A text with what cannot be seen written out, in lines of at most so many
characters with the backslash that ends them; zero sets no bound. -/
def shown (width used : Nat) : List Char → List Char
  | [] => ['$', '\n']
  | c :: rest =>
    let text := shownChar c
    if width > 0 && used + text.length > width - 1 then
      '\\' :: '\n' :: text ++ shown width text.length rest
    else text ++ shown width (used + text.length) rest

/-- The next line of a file that is read line by line. -/
def nextLine (files : List Char → List Char) (e : Editing) (path : List Char) :
    List Char × Editing :=
  match (e.partRead.lookup path).getD (linesOf (files path)) with
  | [] => ([], { e with partRead := (path, []) :: e.partRead })
  | line :: rest =>
    (line.1 ++ ['\n'],
      { e with partRead := (path, rest) :: e.partRead.filter fun r => r.1 ≠ path })

/-- Does what a command does. -/
def act (files : List Char → List Char) (e : Editing) : EditAction → Editing
  | .openBlock | .closeBlock | .label _ => e.advance
  | .branch name => e.jump name
  | .branchIf changed name =>
    if e.hasChanged = changed then { e with hasChanged := false }.jump name
    else { e with hasChanged := false }.advance
  | .substitute s =>
    match e.recalled s.pattern with
    | none => e.lackPattern
    | some p =>
      let (text, changed) := s.apply p e.space
      let e := { e with space := text, hasChanged := e.hasChanged || changed, lastUsed := some p }
      let e := if changed && s.prints then e.put (e.asLine e.space) else e
      match s.file, changed with
      | some path, true => (e.writeTo path (e.space ++ ['\n'])).advance
      | _, _ => e.advance
  | .mapping pairs =>
    { e with space := e.space.map fun c => (pairs.lookup c).getD c }.advance
  | .delete => e.endCycle false
  | .deleteLine =>
    match firstLine e.space with
    | (_, some rest) => { e.endCycle false with space := rest, keepsSpace := true }
    | (_, none) => e.endCycle false
  | .print => (e.put (e.asLine e.space)).advance
  | .printLine => (e.put ((firstLine e.space).1 ++ ['\n'])).advance
  | .next =>
    match e.rest with
    | [] => e.finish true e.status
    | line :: rest =>
      let e := if e.setup.isQuiet then e else e.put (e.asLine e.space)
      let e := { e.put e.queue with queue := [] }
      { e with space := line.1, isEnded := line.2, rest := rest, number := e.number + 1 }.advance
  | .append =>
    match e.rest with
    | [] => e.finish true e.status
    | line :: rest =>
      let e := { e.put e.queue with queue := [] }
      { e with space := e.space ++ '\n' :: line.1, isEnded := line.2, rest := rest,
               number := e.number + 1 }.advance
  | .hold adds =>
    { e with held := if adds then e.held ++ '\n' :: e.space else e.space }.advance
  | .fetch adds =>
    { e with space := if adds then e.space ++ '\n' :: e.held else e.held }.advance
  | .exchange => { e with space := e.held, held := e.space }.advance
  | .quit prints status => e.finish prints status
  | .insertText text => (e.put text).advance
  | .appendText text => { e with queue := e.queue ++ text }.advance
  | .changeText text =>
    let inRange := match e.place with
      | some place => (e.ranges.any fun r => r.1 = place)
      | none => false
    (if inRange then e else e.put text).endCycle false
  | .lineNumber => (e.put (e.number.repr.toList ++ ['\n'])).advance
  | .title => (e.put (e.setup.title ++ ['\n'])).advance
  | .empty => { e with space := [] }.advance
  | .nothing => e.advance
  | .show width => (e.put (shown (width.getD e.setup.width) 0 e.space)).advance
  | .readFile path => { e with queue := e.queue ++ files path }.advance
  | .readLine path =>
    let (line, e) := nextLine files e path
    { e with queue := e.queue ++ line }.advance
  | .writeFile path => (e.writeTo path (e.space ++ ['\n'])).advance
  | .writeLine path => (e.writeTo path ((firstLine e.space).1 ++ ['\n'])).advance

/-- Takes one step: reads a line, runs a command, or ends a cycle. -/
def step (files : List Char → List Char) (e : Editing) : Editing :=
  match e.place with
  | none =>
    if e.keepsSpace then { e with place := some 0, keepsSpace := false }
    else match e.rest with
      | [] => { e with isDone := true }
      | line :: rest =>
        { e with place := some 0, space := line.1, isEnded := line.2, rest := rest,
                 number := e.number + 1, hasChanged := false }
  | some place =>
    match e.commands[place]? with
    | none => e.endCycle true
    | some c =>
      let (isFor, e) := e.selects place c
      if e.isDone then e
      else if isFor != c.isNegated then e.act files c.action
      else if c.action = .openBlock then
        { e with place := some (blockEnd e.commands 0 (place + 1) (e.commands.drop (place + 1))) }
      else e.advance

/-- Takes steps until all is done, at most so many. -/
def run (files : List Char → List Char) : (bound : Nat) → Editing → Editing
  | 0, e => e
  | bound + 1, e => if e.isDone then e else run files bound (e.step files)

/-- Edits lines by commands. -/
def all (files : List Char → List Char) (setup : EditSetup) (commands : List EditCommand)
    (lines : List (List Char × Bool)) : Editing :=
  let start : Editing :=
    { commands := commands, place := none, keepsSpace := false, space := [], isEnded := true
      held := [], number := 0, rest := lines, queue := [], output := [], hasChanged := false
      ranges := [], written := [], partRead := [], lastUsed := none, setup := setup
      complaint := [], isDone := false, status := 0 }
  run files (1000 * (lines.length + 10) * (commands.length + 2)) start

end Editing

-- =============================================================== scripts

/-- A part of a script: the text of an option, or what a file holds. -/
structure ScriptPart where
  file : Option (List Char)
  text : List Char
  deriving DecidableEq, Repr, Inhabited

/-- Where in a script of parts a place is, after so many characters. -/
def scriptPlace : (number : Nat) → List ScriptPart → (count : Nat) → List Char
  | _, [], _ => []
  | number, part :: rest, count =>
    if count > part.text.length && !rest.isEmpty then
      scriptPlace (number + if part.file.isSome then 0 else 1) rest (count - part.text.length - 1)
    else match part.file with
      | some file =>
        let line := ((part.text.take count).filter (· = '\n')).length + 1
        "file ".toList ++ file ++ " line ".toList ++ line.repr.toList
      | none =>
        "-e expression #".toList ++ number.repr.toList ++ ", char ".toList ++ count.repr.toList

-- ==================================================================== sed

/-- Writes files, as far as that can be done. -/
def writeAll (disk : Disk) (here : Trail) (files : List (List Char × List Char)) : Disk :=
  files.foldl (fun d f =>
    match d.write here f.1 (Octets.toBytes f.2) with
    | .ok after => after
    | .error _ => d) disk

/-- The options of `sed`. -/
def editOptions : Options :=
  { plain := "nErsuz0", valued := "efl", optional := "i"
    long := [("quiet", 'n'), ("silent", 'n'), ("regexp-extended", 'E'), ("expression", 'e'),
      ("file", 'f'), ("in-place", 'i'), ("line-length", 'l'), ("null-data", 'z'), ("posix", '0'),
      ("separate", 's'), ("sandbox", '0'), ("unbuffered", 'u'), ("zero-terminated", 'z')] }

/-- The script that options give, or the path of a file of it that cannot be
read. -/
def givenScript (i : Invocation) : List (Char × List Char) →
    Except (List Char × FileFault) (List ScriptPart)
  | [] => .ok []
  | (letter, value) :: rest => do
    let later ← givenScript i rest
    if letter = 'e' then return ⟨none, value⟩ :: later
    else if letter = 'f' then
      if isInput value then return ⟨some value, i.input⟩ :: later
      else match i.disk.read i.here value with
        | .ok bytes =>
          let text := Octets.ofBytes bytes
          return ⟨some value, if text.getLast? = some '\n' then text.dropLast else text⟩ :: later
        | .error fault => throw (value, fault)
    else return later

/-- Edits what files hold by commands. -/
def editFiles (i : Invocation) (p : Parsed) (isQuiet : Bool) (commands : List EditCommand)
    (paths : List (List Char)) : Completion :=
  let files (path : List Char) : List Char :=
    if isInput path then (if paths.isEmpty || paths.any isInput then [] else i.input)
    else match i.disk.read i.here path with
      | .ok bytes => Octets.ofBytes bytes
      | .error _ => []
  let mark := if p.has 'z' then '\x00' else '\n'
  let width := ((p.value? 'l').map fun s => (natural? s).getD 0).getD 70
  let edit (f : List Char × List Char) : Editing :=
    Editing.all files ⟨isQuiet, mark, width, f.1⟩ commands (markedLines mark f.2)
  let isDirectory (path : List Char) : Bool :=
    !isInput path && (i.disk.found? i.here path).any Entry.isDirectory
  let before := paths.takeWhile fun path => !isDirectory path
  let directory := (paths.drop before.length).head?
  let g := if paths.isEmpty then gatherOrInput i [] else gather i before
  if p.has 'i' then
    let done := g.contents.map fun f => (f, edit f)
    let suffix := (p.value? 'i').getD []
    let texts := done.flatMap fun d =>
      (if suffix.isEmpty then [] else [(d.1.1 ++ suffix, d.1.2)]) ++
        (d.1.1, d.2.output) :: d.2.written
    let after := { g.complete i 2 [] with disk := writeAll i.disk i.here texts }
    match directory with
    | some path =>
      (after.withStatus 4).followedBy 2 ("sed: couldn\x27t edit ".toList ++ path ++
        ": not a regular file\n".toList)
    | none => after
  else
    let groups := if p.has 's' then g.contents
      else [((g.contents.head?.map Prod.fst).getD ['-'], g.text)]
    let done := groups.map edit
    let status := (done.getLast?.map fun e => e.status).getD 0
    let complaints := (done.map fun e => e.complaint).filter fun s => !s.isEmpty
    let stop := match directory with
      | some path => fileComplaint i.name path .isADirectory
      | none => []
    let texts := [(2, g.errors ++ stop), (1, done.flatMap fun e => e.output),
      (2, unlines (complaints.map fun s => "sed: ".toList ++ s))]
    { g.telling i 2 texts with
      disk := writeAll i.disk i.here (done.flatMap fun e => e.written)
      status := if directory.isSome then 4 else if g.errors.isEmpty then status else 2 }

/-- Edits the lines of files by a script. -/
def sed : Tool := fun i =>
  match editOptions.parse false i.arguments with
  | .error fault => .refused i 1 fault
  | .ok p =>
    match givenScript i p.given with
    | .error (path, fault) =>
      .failing i 4 ("couldn\x27t open file ".toList ++ path ++ ": ".toList ++ fault.words.toList)
    | .ok given =>
      let hasScript := p.has 'e' || p.has 'f'
      if !hasScript && p.operands.isEmpty then
        .complaining i 1 (unlines (editUsage.map String.toList))
      else
        let (parts, paths) := if hasScript then (given, p.operands)
          else ([⟨none, p.operands.headD []⟩], p.operands.tail)
        let script := ['\n'].intercalate (parts.map fun part => part.text)
        let isQuiet := p.has 'n' || "#n".toList.isPrefixOf script
        match editCommands (p.has 'E' || p.has 'r') script with
        | .error (.regex .classSyntax, _) =>
          .failing i 1 RegexFault.classSyntax.message.toList
        | .error (fault, count) =>
          .failing i 1 (scriptPlace 1 parts count ++ ": ".toList ++ fault.message)
        | .ok commands =>
          match missingLabel? commands with
          | some name =>
            .failing i 4 ("can\x27t find label for jump to \x60".toList ++ name ++ ['\x27'])
          | none => editFiles i p isQuiet commands paths

end ClrListing.Script
