/-
Searches for files: an expression is asked of all that stands below some
paths, and tells what is to be done with it.

An expression may run commands. A search is therefore made with the answers
that are known, and waits at the first command whose answer is not; once
that is known the search is made again from its start.
-/
import ClrListing.Script.Regex
import ClrListing.Script.Tool.Listing

namespace ClrListing.Script

open Text

-- ============================================================ expressions

/-- How an amount is compared: it is more, less, or the same. -/
inductive Bound where
  | more (n : Nat)
  | less (n : Nat)
  | same (n : Nat)
  deriving DecidableEq, Repr, Inhabited

/-- Whether an amount is in a bound. -/
def Bound.allows (amount : Nat) : Bound → Bool
  | more n => amount > n
  | less n => amount < n
  | same n => amount = n

/-- A bound in the form that arguments have, and what is left of the
text. -/
def Bound.read? (s : List Char) : Option (Bound × List Char) :=
  match s with
  | '+' :: rest => (readDigits? 10 rest).map fun r => (.more r.1, r.2)
  | '-' :: rest => (readDigits? 10 rest).map fun r => (.less r.1, r.2)
  | rest => (readDigits? 10 rest).map fun r => (.same r.1, r.2)

/-- The part of a path that is looked at. -/
inductive PathPart where
  | name
  | whole
  | target
  deriving DecidableEq, Repr, Inhabited

/-- What bits of a mode are asked for: just these, at least these, or one of
these. -/
inductive ModeTest where
  | exactly
  | all
  | any
  deriving DecidableEq, Repr, Inhabited

/-- An expression that is asked of what is found. -/
inductive Finding where
  | always (holds : Bool)
  | matching (part : PathPart) (folds : Bool) (pattern : List Char)
  | inRegex (folds : Bool) (r : Regex)
  | ofType (follows : Bool) (letters : List Char)
  | empty
  | runnable
  | sized (unit : Nat) (bound : Bound)
  | linked (bound : Bound)
  | aged (bound : Bound)
  | moded (test : ModeTest) (mode : Mode)
  | sameAs (place : Trail)
  | print (mark : Char)
  | printForm (format : List Char)
  | printLong
  | delete
  | prune
  | quit
  | run (isNear : Bool) (command : List (List Char))
  | runAll (number : Nat)
  | not (test : Finding)
  | both (first second : Finding)
  | either (first second : Finding)
  | after (first second : Finding)
  deriving Repr, Inhabited

namespace Finding

/-- Whether an expression says what is to be done; otherwise, what it holds
of is printed. -/
def hasAction : Finding → Bool
  | print _ | printForm _ | printLong | delete | run _ _ | runAll _ => true
  | not test => test.hasAction
  | both a b | either a b | after a b => a.hasAction || b.hasAction
  | _ => false

end Finding

/-- How all is gone through. -/
structure FindingPlan where
  paths : List (List Char)
  follows : Bool
  deepest : Option Nat
  shallowest : Nat
  /-- Whether directories come after what is in them. -/
  isDeepFirst : Bool
  expression : Finding
  /-- The commands that are run with all that is found. -/
  commands : List (List (List Char))
  deriving Repr, Inhabited

-- ================================================================ reading

/-- A word of an expression. -/
inductive FindingWord where
  | test (test : Finding)
  | negation (sign : List Char)
  | conjunction (sign : List Char)
  | alternative (sign : List Char)
  | sequence
  | opening
  | closing
  deriving Repr, Inhabited

/-- What has been read of the arguments. -/
structure FindingReader where
  plan : FindingPlan
  isExtended : Bool
  disk : Disk
  here : Trail
  mask : Nat
  words : List FindingWord
  /-- The last word that was understood. -/
  last : List Char

/-- A text in the quotes that words of arguments are shown in. -/
def backticked (s : List Char) : List Char := '\x60' :: s ++ ['\x27']

namespace FindingReader

/-- Adds a word. -/
def adding (r : FindingReader) (word : FindingWord) : FindingReader :=
  { r with words := r.words ++ [word] }

/-- Adds a test. -/
def testing (r : FindingReader) (test : Finding) : FindingReader := r.adding (.test test)

/-- Changes the way that all is gone through. -/
def planning (r : FindingReader) (f : FindingPlan → FindingPlan) : FindingReader :=
  { r with plan := f r.plan }.testing (.always true)

/-- What a word stands for that needs no value. -/
def plainWord? (r : FindingReader) (word : List Char) : Option FindingReader :=
  match String.ofList word with
  | "(" => some (r.adding .opening)
  | ")" => some (r.adding .closing)
  | "!" | "-not" => some (r.adding (.negation word))
  | "-a" | "-and" => some (r.adding (.conjunction word))
  | "-o" | "-or" => some (r.adding (.alternative word))
  | "," => some (r.adding .sequence)
  | "-print" => some (r.testing (.print '\n'))
  | "-print0" => some (r.testing (.print '\x00'))
  | "-ls" => some (r.testing .printLong)
  | "-delete" => some ((r.planning fun p => { p with isDeepFirst := true }).testing .delete)
  | "-prune" => some (r.testing .prune)
  | "-quit" => some (r.testing .quit)
  | "-empty" => some (r.testing .empty)
  | "-executable" => some (r.testing .runnable)
  | "-readable" | "-writable" | "-true" => some (r.testing (.always true))
  | "-false" | "-nouser" | "-nogroup" => some (r.testing (.always false))
  | "-depth" | "-d" => some (r.planning fun p => { p with isDeepFirst := true })
  | "-follow" => some (r.planning fun p => { p with follows := true })
  | "-xdev" | "-mount" | "-noleaf" | "-daystart" | "-warn" | "-nowarn"
  | "-ignore_readdir_race" | "-noignore_readdir_race" => some (r.testing (.always true))
  | _ => none

/-- How many bytes the unit of a size is. -/
def sizeUnit? : List Char → Option Nat
  | [] | ['b'] => some 512
  | ['c'] => some 1
  | ['w'] => some 2
  | ['k'] => some 1024
  | ['M'] => some 1048576
  | ['G'] => some 1073741824
  | _ => none

/-- The words that take a value. -/
def valuedNames : List String :=
  ["-name", "-iname", "-path", "-wholename", "-ipath", "-iwholename", "-lname", "-ilname",
    "-regex", "-iregex", "-regextype", "-type", "-xtype", "-size", "-perm", "-links", "-maxdepth",
    "-mindepth", "-mtime", "-atime", "-ctime", "-mmin", "-amin", "-cmin", "-user", "-group",
    "-uid", "-gid", "-newer", "-anewer", "-cnewer", "-samefile", "-printf", "-inum"]

/-- An expression that a pattern is to match. -/
def regexTest (r : FindingReader) (folds : Bool) (value : List Char) :
    Except (List Char) FindingReader :=
  match Regex.ofText ⟨r.isExtended, false, true, false⟩ value with
  | .ok regex => .ok (r.testing (.inRegex folds (.both .textStart (.both regex .textEnd))))
  | .error fault =>
    .error ("failed to compile regular expression ".toList ++ ticked value ++ ": ".toList
      ++ fault.message.toList)

/-- What a word with a value stands for. -/
def valuedWord (r : FindingReader) (word value : List Char) : Except (List Char) FindingReader :=
  let bounded (make : Bound → Finding) : Except (List Char) FindingReader :=
    match Bound.read? value with
    | some (bound, []) => .ok (r.testing (make bound))
    | _ => .error ("invalid argument ".toList ++ backticked value ++ " to ".toList
        ++ backticked word)
  let depth (change : Nat → FindingPlan → FindingPlan) : Except (List Char) FindingReader :=
    match readDigits? 10 value with
    | some (n, []) => .ok (r.planning (change n))
    | _ => .error ("Expected a positive decimal integer argument to ".toList ++ word
        ++ ", but got ".toList ++ ticked value)
  let typed (follows : Bool) : Except (List Char) FindingReader :=
    let letters := value.filter (· ≠ ',')
    match letters.find? fun c => !"bcdpfls".toList.contains c with
    | some c => .error ("Unknown argument to ".toList ++ word ++ ": ".toList ++ [c])
    | none =>
      if letters.isEmpty then
        .error ("Arguments to ".toList ++ word ++ " should contain at least one letter".toList)
      else .ok (r.testing (.ofType follows letters))
  let glob (part : PathPart) (folds : Bool) : Except (List Char) FindingReader :=
    .ok (r.testing (.matching part folds value))
  let found : Except (List Char) Trail :=
    match r.disk.find r.here value r.plan.follows with
    | .ok (place, _) => .ok place
    | .error fault => .error (ticked value ++ ": ".toList ++ fault.words.toList)
  match String.ofList word with
  | "-name" => glob .name false
  | "-iname" => glob .name true
  | "-path" | "-wholename" => glob .whole false
  | "-ipath" | "-iwholename" => glob .whole true
  | "-lname" => glob .target false
  | "-ilname" => glob .target true
  | "-regex" => r.regexTest false value
  | "-iregex" => r.regexTest true value
  | "-regextype" =>
    let isExtended := ["posix-extended", "posix-egrep", "egrep", "awk", "posix-awk",
      "gnu-awk"].contains (String.ofList value)
    .ok ({ r with isExtended := isExtended }.testing (.always true))
  | "-type" => typed false
  | "-xtype" => typed true
  | "-maxdepth" => depth fun n p => { p with deepest := some n }
  | "-mindepth" => depth fun n p => { p with shallowest := n }
  | "-links" => bounded .linked
  | "-uid" | "-gid" => bounded fun bound => .always (bound.allows 0)
  | "-inum" => bounded fun _ => .always false
  | "-mtime" | "-atime" | "-ctime" | "-mmin" | "-amin" | "-cmin" => bounded .aged
  | "-user" =>
    if value = "root".toList || value = ['0'] then .ok (r.testing (.always true))
    else .error (ticked value ++ " is not the name of a known user".toList)
  | "-group" =>
    if value = "root".toList || value = ['0'] then .ok (r.testing (.always true))
    else .error (ticked value ++ " is not the name of an existing group".toList)
  | "-newer" | "-anewer" | "-cnewer" => found.map fun _ => r.testing (.always false)
  | "-samefile" => found.map fun place => r.testing (.sameAs place)
  | "-printf" => .ok (r.testing (.printForm value))
  | "-size" =>
    match Bound.read? value with
    | none => .error ("invalid -size type ".toList ++ backticked (value.drop (value.length - 1)))
    | some (bound, unit) =>
      match sizeUnit? unit with
      | some unit => .ok (r.testing (.sized unit bound))
      | none => .error ("invalid -size type ".toList ++ backticked (unit.drop (unit.length - 1)))
  | _ =>
    let (test, text) := match value with
      | '-' :: rest => (ModeTest.all, rest)
      | '/' :: rest => (.any, rest)
      | rest => (.exactly, rest)
    match Mode.changed? 0 false text 0 with
    | some mode => .ok (r.testing (.moded test mode))
    | none => .error ("invalid mode ".toList ++ ticked value)

/-- What stands for a path in a command. -/
def braces : List Char := ['\x7b', '\x7d']

/-- The arguments of a command and what comes after its end. A command that
is run with all that is found ends with braces and a plus sign. -/
def commandArguments? : (last : List Char) → List (List Char) →
    Option (List (List Char) × Bool × List (List Char))
  | _, [] => none
  | last, argument :: rest =>
    if argument = [';'] then some ([], false, rest)
    else if argument = ['+'] && last = braces then some ([], true, rest)
    else (commandArguments? argument rest).map fun r => (argument :: r.1, r.2)

/-- A command that is run. -/
def commandWord (r : FindingReader) (word : List Char) (arguments : List (List Char)) :
    Except (List Char) (FindingReader × List (List Char)) :=
  let isNear := word = "-execdir".toList
  match commandArguments? [] arguments with
  | none => .error ("missing argument to ".toList ++ backticked word)
  | some ([], _, _) => .error ("invalid argument ".toList ++ backticked [';'] ++ " to ".toList
      ++ backticked word)
  | some (command, false, rest) => .ok (r.testing (.run isNear command), rest)
  | some (command, true, rest) =>
    if (command.filter (· = braces)).length > 1 then
      .error ("Only one instance of ".toList ++ braces ++ " is supported with ".toList ++ word
        ++ " ... +".toList)
    else
      let number := r.plan.commands.length
      let r := { r with plan := { r.plan with commands := r.plan.commands ++ [command.dropLast] } }
      .ok (r.testing (.runAll number), rest)

/-- Reads the words of an expression. -/
def readWords : (bound : Nat) → FindingReader → List (List Char) →
    Except (List Char) FindingReader
  | 0, r, _ | _, r, [] => .ok r
  | bound + 1, r, word :: rest => do
    let name := String.ofList word
    match r.plainWord? word with
    | some r => readWords bound { r with last := word } rest
    | none =>
      if ["-exec", "-execdir"].contains name then
        let (r, rest) ← r.commandWord word rest
        readWords bound { r with last := word } rest
      else if valuedNames.contains name then
        match rest with
        | [] => throw ("missing argument to ".toList ++ backticked word)
        | value :: rest =>
          let r ← r.valuedWord word value
          readWords bound { r with last := word } rest
      else if word.head? = some '-' then
        throw ("unknown predicate ".toList ++ backticked word)
      else
        let isFile := (r.disk.found? r.here word).isSome
        let hint := if isFile && r.last = "-name".toList then
            "\nfind: possible unquoted pattern after predicate ".toList ++ backticked r.last ++ ['?']
          else []
        throw ("paths must precede expression: ".toList ++ backticked word ++ hint)

end FindingReader

namespace FindingWord

/-- How a word is written that needs an expression before it. -/
def sign : FindingWord → List Char
  | conjunction sign | alternative sign | negation sign => sign
  | sequence => [',']
  | opening => ['(']
  | closing => [')']
  | test _ => []

/-- The complaint that an expression lacks after a word. -/
def lackingAfter (sign : List Char) : List Char :=
  "expected an expression after ".toList ++ ticked sign

/-- The complaint that an expression lacks before a word. -/
def lackingBefore (sign : List Char) : List Char :=
  "invalid expression; you have used a binary operator ".toList ++ ticked sign
    ++ " with nothing before it.".toList

/-- Reads a single expression, after the word that asks for it. -/
def readSingle : (fuel : Nat) → (before : List Char) → List FindingWord →
    Except (List Char) (Finding × List FindingWord)
  | 0, _, _ => .error []
  | fuel + 1, before, words =>
    match words with
    | [] => .error (lackingAfter before)
    | .test t :: rest => .ok (t, rest)
    | .negation sign :: rest => do
      let (t, rest) ← readSingle fuel sign rest
      return (.not t, rest)
    | .opening :: .closing :: _ =>
      .error "invalid expression; empty parentheses are not allowed.".toList
    | .opening :: rest => do
      let (t, rest) ← readAll fuel ['('] rest
      match rest with
      | .closing :: rest => return (t, rest)
      | _ =>
        throw ("invalid expression; I was expecting to find a \x27)\x27 somewhere but did not "
          ++ "see one.").toList
    | .closing :: _ =>
      if before = ['('] then .error "invalid expression; empty parentheses are not allowed.".toList
      else .error (lackingAfter before)
    | word :: _ => .error (lackingBefore word.sign)
where
  /-- Reads what may follow an expression that has to hold too. -/
  moreBoth : (fuel : Nat) → Finding → List FindingWord →
      Except (List Char) (Finding × List FindingWord)
    | 0, first, words => .ok (first, words)
    | fuel + 1, first, words =>
      match words with
      | .conjunction sign :: rest => do
        let (second, rest) ← readSingle fuel sign rest
        moreBoth fuel (.both first second) rest
      | .test _ :: _ | .negation _ :: _ | .opening :: _ => do
        let (second, rest) ← readSingle fuel [] words
        moreBoth fuel (.both first second) rest
      | _ => .ok (first, words)
  /-- Reads what may follow an expression in the place of it. -/
  moreEither : (fuel : Nat) → Finding → List FindingWord →
      Except (List Char) (Finding × List FindingWord)
    | 0, first, words => .ok (first, words)
    | fuel + 1, first, words =>
      match words with
      | .alternative sign :: rest => do
        let (second, rest) ← readSingle fuel sign rest
        let (second, rest) ← moreBoth fuel second rest
        moreEither fuel (.either first second) rest
      | _ => .ok (first, words)
  /-- Reads what may follow an expression whatever it comes to. -/
  moreAfter : (fuel : Nat) → Finding → List FindingWord →
      Except (List Char) (Finding × List FindingWord)
    | 0, first, words => .ok (first, words)
    | fuel + 1, first, words =>
      match words with
      | .sequence :: rest => do
        let (second, rest) ← readSingle fuel [','] rest
        let (second, rest) ← moreBoth fuel second rest
        let (second, rest) ← moreEither fuel second rest
        moreAfter fuel (.after first second) rest
      | _ => .ok (first, words)
  /-- Reads a whole expression. -/
  readAll : (fuel : Nat) → (before : List Char) → List FindingWord →
      Except (List Char) (Finding × List FindingWord)
    | 0, _, _ => .error []
    | fuel + 1, before, words => do
      let (first, rest) ← readSingle fuel before words
      let (first, rest) ← moreBoth fuel first rest
      let (first, rest) ← moreEither fuel first rest
      moreAfter fuel first rest

/-- The expression that words make up. -/
def expression (words : List FindingWord) : Except (List Char) Finding := do
  match words with
  | [] => return .print '\n'
  | _ =>
    let (found, rest) ← readSingle.readAll (2 * words.length + 2) [] words
    match rest with
    | [] => return if found.hasAction then found else .both found (.print '\n')
    | _ => throw "you have too many \x27)\x27".toList

end FindingWord

/-- Whether an argument starts an expression. -/
def startsExpression (isFirst : Bool) (argument : List Char) : Bool :=
  match argument with
  | ['('] | ['!'] => true
  | [')'] | [','] => !isFirst
  | '-' :: _ :: _ => true
  | _ => false

/-- The options before the paths: whether links are followed. -/
def linkChoice (follows : Bool) : List (List Char) → Bool × List (List Char)
  | ['-', 'L'] :: rest => linkChoice true rest
  | ['-', 'P'] :: rest | ['-', 'H'] :: rest => linkChoice false rest
  | ('-' :: 'O' :: _) :: rest => linkChoice follows rest
  | ['-', '-'] :: rest => (follows, rest)
  | rest => (follows, rest)

/-- The plan that arguments ask for. -/
def FindingPlan.ofInvocation (i : Invocation) : Except (List Char) FindingPlan := do
  let (follows, arguments) := linkChoice false i.arguments
  let first := arguments.takeWhile fun a => !startsExpression true a
  let paths := first.takeWhile fun a => !startsExpression false a
  let start : FindingPlan :=
    ⟨if paths.isEmpty then [['.']] else paths, follows, none, 0, false, .always true, []⟩
  let words := arguments.drop paths.length
  let r ← FindingReader.readWords (words.length + 1)
    ⟨start, false, i.disk, i.here, i.mask, [], []⟩ words
  return { r.plan with expression := ← FindingWord.expression r.words }

-- ============================================================== searching

/-- A command that a search waits for. -/
structure FindingRequest where
  command : List (List Char)
  /-- The directory that it is run in. -/
  here : Trail
  deriving DecidableEq, Repr, Inhabited

/-- What came of a command. -/
structure FindingAnswer where
  isOk : Bool
  disk : Disk
  deriving DecidableEq, Repr, Inhabited

/-- What a search has come to. -/
structure Search where
  disk : Disk
  here : Trail
  /-- What was told, the last first, each with its channel. -/
  told : List (Nat × List Char)
  answers : List FindingAnswer
  request : Option FindingRequest
  /-- Whether nothing more is looked for. -/
  isOver : Bool
  /-- Whether what stands in the directory is left out. -/
  isPruned : Bool
  hasFailed : Bool
  /-- What was found for commands that are run with all, the last first. -/
  kept : List (Nat × List Char)
  deriving Repr, Inhabited

/-- Something that is found. -/
structure Found where
  /-- The path that the search started with. -/
  top : List Char
  path : List Char
  depth : Nat
  place : Trail
  entry : Entry
  deriving DecidableEq, Repr, Inhabited

namespace Found

/-- What is found as something that is listed. -/
def listed (f : Found) : Listed := ⟨f.path, f.place, f.entry⟩

/-- The last name of the path. -/
def name (f : Found) : List Char := baseName f.path

/-- The letter for the kind of something. -/
def kindLetter : Entry → Char
  | .file _ _ => 'f'
  | .directory _ => 'd'
  | .link _ => 'l'
  | .void => 'c'

/-- Where what is found leads to. -/
def leadsTo (f : Found) (disk : Disk) : Entry :=
  (disk.found? [] (Disk.pathOf f.place)).getD f.entry

/-- The path after the one that the search started with. -/
def below (f : Found) : List Char :=
  let rest := f.path.drop f.top.length
  if rest.head? = some '/' then rest.drop 1 else rest

/-- The path without its last name. -/
def directory (f : Found) : List Char :=
  let kept := withoutSlashes f.path
  if f.depth = 0 then if f.path.contains '/' then
      let before := kept.take (kept.length - (baseName kept).length)
      if kept.length < f.path.length then kept
      else if before.isEmpty then ['.'] else withoutSlashes before
    else ['.']
  else withoutSlashes (kept.take (kept.length - (baseName kept).length))

/-- What a letter of a format stands for. -/
def field? (f : Found) (disk : Disk) : Char → Option (List Char)
  | 'p' => some f.path
  | 'f' => some (if f.depth = 0 then f.path else f.name)
  | 'h' => some f.directory
  | 'P' => some f.below
  | 'H' => some f.top
  | 'd' => some f.depth.repr.toList
  | 's' => some f.listed.size.repr.toList
  | 'y' => some [kindLetter f.entry]
  | 'Y' => some [kindLetter (f.leadsTo disk)]
  | 'm' => some (f.listed.mode.octal 0)
  | 'M' => some f.listed.letters
  | 'n' => some (f.listed.names disk).repr.toList
  | 'k' => some (f.listed.blocks * 4).repr.toList
  | 'b' => some (f.listed.blocks * 8).repr.toList
  | 'l' => some (match f.entry with
    | .link path => path
    | _ => [])
  | 'u' | 'g' => some "root".toList
  | 'U' | 'G' => some ['0']
  | 'i' => some ['1']
  | 'F' => some "ext4".toList
  | 'S' => some ['1']
  | _ => none

/-- What a format makes of what is found. -/
def formatted (f : Found) (disk : Disk) : (bound : Nat) → List Char → List Char
  | 0, _ | _, [] => []
  | bound + 1, '%' :: rest =>
    let isLeft := rest.head? = some '-'
    let rest := if isLeft then rest.drop 1 else rest
    let width := rest.takeWhile Char.isDigit
    match rest.drop width.length with
    | [] => ['%']
    | '%' :: rest => '%' :: formatted f disk bound rest
    | letter :: rest =>
      let text := (f.field? disk letter).getD ['%', letter]
      let width := (natural? width).getD 0
      (if isLeft then padEnd width text else padStart width text) ++ formatted f disk bound rest
  | bound + 1, '\\' :: c :: rest =>
    match readDigits? 8 (c :: (rest.take 2)) with
    | some (n, tail) =>
      Char.ofNat (n % 256) :: formatted f disk bound (rest.drop (2 - tail.length))
    | none =>
      let made := match c with
        | 'n' => ['\n']
        | 't' => ['\t']
        | 'r' => ['\r']
        | 'a' => ['\x07']
        | '\\' => ['\\']
        | _ => ['\\', c]
      if c = 'c' then [] else made ++ formatted f disk bound rest
  | bound + 1, c :: rest => c :: formatted f disk bound rest

/-- What is found in a line. -/
def longLine (f : Found) (disk : Disk) : List Char :=
  let l := f.listed
  let target := match f.entry with
    | .link path => " -> ".toList ++ path
    | _ => []
  spaced [padStart 9 ['1'], padStart 6 (l.blocks * 4).repr.toList, l.letters,
    padStart 3 (l.names disk).repr.toList, padEnd 8 "root".toList, padEnd 8 "root".toList,
    padStart 8 l.size.repr.toList, listedTime, f.path ++ target]

end Found

namespace Search

/-- Tells something. -/
def telling (s : Search) (channel : Nat) (text : List Char) : Search :=
  { s with told := (channel, text) :: s.told }

/-- Complains. -/
def failing (s : Search) (reason : List Char) : Search :=
  { s.telling 2 ("find: ".toList ++ reason ++ ['\n']) with hasFailed := true }

/-- Runs a command, or waits for it. -/
def running (s : Search) (request : FindingRequest) : Bool × Search :=
  match s.answers with
  | answer :: answers => (answer.isOk, { s with disk := answer.disk, answers := answers })
  | [] => (false, { s with request := some request, isOver := true })

/-- A path as commands get it that are run where it is. -/
def nearPath (f : Found) : List Char :=
  if f.name = ['/'] then f.name else Disk.join ['.'] f.name

/-- A text with a path in each place that is meant for it. -/
def withPath (path : List Char) : List Char → List Char
  | '\x7b' :: '\x7d' :: rest => path ++ withPath path rest
  | c :: rest => c :: withPath path rest
  | [] => []

/-- Takes away what is found. -/
def deleting (s : Search) (f : Found) : Bool × Search :=
  if f.path = ['.'] then (true, s)
  else
    let left := if f.entry.isDirectory then s.disk.removeDirectory [] (Disk.pathOf f.place)
      else .ok (s.disk.erase f.place)
    match left with
    | .ok disk => (true, { s with disk := disk })
    | .error fault => (false, s.failing (cannot "cannot delete" f.path fault))

/-- Asks an expression of what is found. -/
def asking (f : Found) : Finding → Search → Bool × Search
  | .not test, s =>
    let (holds, s) := asking f test s
    (!holds, s)
  | .both a b, s =>
    let (holds, s) := asking f a s
    if holds && !s.isOver then asking f b s else (false, s)
  | .either a b, s =>
    let (holds, s) := asking f a s
    if holds || s.isOver then (true, s) else asking f b s
  | .after a b, s =>
    let (_, s) := asking f a s
    if s.isOver then (false, s) else asking f b s
  | .always holds, s => (holds, s)
  | .matching part folds pattern, s =>
    let fold (c : Char) : Char := if folds then c.toLower else c
    let subject : Option (List Char) := match part, f.entry with
      | .name, _ => some f.name
      | .whole, _ => some f.path
      | .target, .link path => some path
      | .target, _ => none
    (subject.any fun text => globMatches (glob (bare (pattern.map fold))) (text.map fold), s)
  | .inRegex folds r, s => (r.isIn folds f.path, s)
  | .ofType follows letters, s =>
    (letters.contains (Found.kindLetter (if follows then f.leadsTo s.disk else f.entry)), s)
  | .empty, s =>
    (match f.entry with
      | .directory _ => (s.disk.names f.place).isEmpty
      | .file content _ => content.isEmpty
      | _ => false, s)
  | .runnable, s =>
    (match f.leadsTo s.disk with
      | .directory _ => true
      | e => e.isProgram, s)
  | .sized unit bound, s => (bound.allows ((f.listed.size + unit - 1) / unit), s)
  | .linked bound, s => (bound.allows (f.listed.names s.disk), s)
  | .aged bound, s => (bound.allows 0, s)
  | .moded test mode, s =>
    let own := f.listed.mode
    (match test with
      | .exactly => own = mode
      | .all => own &&& mode = mode
      | .any => mode = 0 || own &&& mode ≠ 0, s)
  | .sameAs place, s => (f.place = place, s)
  | .print mark, s => (true, s.telling 1 (f.path ++ [mark]))
  | .printForm format, s => (true, s.telling 1 (f.formatted s.disk (format.length + 1) format))
  | .printLong, s => (true, s.telling 1 (f.longLine s.disk ++ ['\n']))
  | .delete, s => s.deleting f
  | .prune, s => (true, { s with isPruned := true })
  | .quit, s => (true, { s with isOver := true })
  | .run isNear command, s =>
    let path := if isNear then nearPath f else f.path
    s.running ⟨command.map (withPath path), if isNear then f.place.dropLast else s.here⟩
  | .runAll number, s => (true, { s with kept := (number, f.path) :: s.kept })

/-- Looks at what stands at a place, and at all below it. -/
def below (p : FindingPlan) (top : List Char) : (bound : Nat) → (depth : Nat) →
    (path : List Char) → Trail → Search → Search
  | 0, _, _, _, s => s
  | bound + 1, depth, path, place, s =>
    if s.isOver then s
    else match s.disk.at? place with
    | none => s
    | some entry =>
      let led := if p.follows && entry.isLink then
          match s.disk.find [] (Disk.pathOf place) true with
          | .ok led => led
          | .error _ => (place, entry)
        else (place, entry)
      let f : Found := ⟨top, path, depth, led.1, led.2⟩
      let isAsked := depth ≥ p.shallowest
      let asked (s : Search) : Search :=
        if isAsked && !s.isOver then (asking f p.expression { s with isPruned := false }).2
        else { s with isPruned := false }
      let goesOn := f.entry.isDirectory && p.deepest.all fun deepest => depth < deepest
      let inside (s : Search) : Search :=
        (sortedTexts (s.disk.names f.place)).foldl (fun s name =>
          below p top bound (depth + 1) (Disk.join path name) (f.place ++ [name]) s) s
      if p.isDeepFirst then asked (if goesOn then inside s else s)
      else
        let s := asked s
        if s.isOver || s.isPruned || !goesOn then s
        else if (s.disk.at? f.place).isNone then
          s.failing (ticked path ++ ": ".toList ++ FileFault.notFound.words.toList)
        else inside s

/-- Runs a command with all that was found for it. -/
def runningAll (s : Search) (command : Nat × List (List Char)) : Search :=
  let paths := (s.kept.reverse.filter fun k => k.1 = command.1).map Prod.snd
  if s.request.isSome || paths.isEmpty then s
  else
    let (isOk, s) := s.running ⟨command.2 ++ paths, s.here⟩
    if isOk || s.request.isSome then s else { s with hasFailed := true }

/-- Makes a search, with the answers that are known. -/
def ofPlan (i : Invocation) (p : FindingPlan) (answers : List FindingAnswer) : Search :=
  let start : Search := ⟨i.disk, i.here, [], answers, none, false, false, false, []⟩
  let s := p.paths.foldl (fun s path =>
    if s.isOver then s
    else match s.disk.find s.here path p.follows with
      | .ok (place, _) => below p path treeDepth 0 path place s
      | .error fault =>
        match s.disk.find s.here path false with
        | .ok (place, _) => below p path treeDepth 0 path place s
        | .error _ => s.failing (ticked path ++ ": ".toList ++ fault.words.toList)) start
  (p.commands.zipIdx.map fun c => (c.2, c.1)).foldl runningAll s
where
  /-- How deep directories are gone through. -/
  treeDepth : Nat := 256

/-- Makes the search that arguments ask for, with the answers that are
known. -/
def ofInvocation (i : Invocation) (answers : List FindingAnswer) : Search :=
  match FindingPlan.ofInvocation i with
  | .ok p => ofPlan i p answers
  | .error reason =>
    ({ disk := i.disk, here := i.here, told := [], answers := [], request := none, isOver := true,
       isPruned := false, hasFailed := false, kept := [] } : Search).failing reason

end Search

end ClrListing.Script
