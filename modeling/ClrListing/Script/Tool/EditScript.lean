/-
Scripts of commands that edit lines: what they are made of, and how they
are written.

A script is a list of commands, each for the lines that its addresses are
for. A fault in it is told with its place.
-/
import ClrListing.Script.Regex
import ClrListing.Script.Tool.Basic

namespace ClrListing.Script

open Text

-- ========================================================= substitution

/-- How the letters of a replacement are changed. -/
inductive CaseSwitch where
  | upper
  | lower
  | nextUpper
  | nextLower
  | none
  deriving DecidableEq, Repr, Inhabited

/-- A part of a replacement. -/
inductive ReplacementPart where
  | char (c : Char)
  /-- The text of a group; the whole text for zero. -/
  | group (number : Nat)
  | switch (s : CaseSwitch)
  deriving DecidableEq, Repr, Inhabited

/-- An expression that lines are searched for. -/
structure EditPattern where
  regex : Regex
  /-- Capital and small letters count as the same. -/
  folds : Bool
  deriving DecidableEq, Repr, Inhabited

/-- A substitution. -/
structure Substitution where
  /-- What is replaced; nothing stands for the pattern last used. -/
  pattern : Option EditPattern
  replacement : List ReplacementPart
  /-- The number of the first place that counts. -/
  first : Nat
  /-- All places from the first on count, not only that. -/
  isGlobal : Bool
  prints : Bool
  file : Option (List Char)
  deriving DecidableEq, Repr, Inhabited

/-- A text in the case that is asked for: for all of it, and for its first
letter. -/
def inCase (all first : CaseSwitch) (s : List Char) : List Char :=
  let changed := match all with
    | .upper => s.map Char.toUpper
    | .lower => s.map Char.toLower
    | _ => s
  match first, changed with
  | .nextUpper, c :: rest => c.toUpper :: rest
  | .nextLower, c :: rest => c.toLower :: rest
  | _, s => s

/-- The text of a replacement, where `group` gives the texts of groups. -/
def replacementText (group : Nat → List Char) (all first : CaseSwitch) :
    List ReplacementPart → List Char
  | [] => []
  | .switch s :: rest =>
    match s with
    | .upper | .lower => replacementText group s .none rest
    | .none => replacementText group .none .none rest
    | s => replacementText group all s rest
  | part :: rest =>
    let text := match part with
      | .char c => [c]
      | .group n => group n
      | .switch _ => []
    let kept := if text.isEmpty then first else .none
    inCase all first text ++ replacementText group all kept rest

namespace Substitution

/-- A text from a place on after a substitution for a pattern, and whether
anything was replaced; `number` counts the places found, and `isAfter`
tells that a text was found that ends here. -/
def applyFrom (s : Substitution) (p : EditPattern) :
    (bound number : Nat) → (isAfter : Bool) → Option Char → List Char → List Char × Bool
  | 0, _, _, _, text => (text, false)
  | bound + 1, number, isAfter, before, text =>
    let leave (_ : Unit) : List Char × Bool :=
      match text with
      | [] => ([], false)
      | c :: rest =>
        let (later, changed) := applyFrom s p bound number false (some c) rest
        (c :: later, changed)
    match p.regex.matchAt p.folds before text with
    | some spot =>
      if spot.taken = 0 && isAfter then leave ()
      else
        let group (n : Nat) : List Char :=
          if n = 0 then text.take spot.taken else (spot.groups.lookup n).getD []
        let counts := number ≥ s.first
        let put := if counts then replacementText group .none .none s.replacement
          else text.take spot.taken
        if counts && !s.isGlobal then (put ++ spot.rest, true)
        else if spot.taken = 0 then
          match text with
          | [] => (put, counts)
          | c :: rest =>
            let (later, changed) := applyFrom s p bound (number + 1) false (some c) rest
            (put ++ c :: later, counts || changed)
        else
          let (later, changed) := applyFrom s p bound (number + 1) true spot.before spot.rest
          (put ++ later, counts || changed)
    | none => leave ()

/-- A text after a substitution for a pattern, and whether anything was
replaced. -/
def apply (s : Substitution) (p : EditPattern) (text : List Char) : List Char × Bool :=
  s.applyFrom p (2 * text.length + 2) 1 false none text

end Substitution

-- =============================================================== commands

/-- What a line is asked to be. -/
inductive Address where
  | line (number : Nat)
  | last
  /-- A line with a pattern in it; nothing stands for the one last used. -/
  | pattern (p : Option EditPattern)
  /-- Every so many lines from one on. -/
  | every (first step : Nat)
  deriving DecidableEq, Repr, Inhabited

/-- Where a range of lines ends. -/
inductive RangeEnd where
  | address (a : Address)
  /-- So many lines later. -/
  | later (count : Nat)
  deriving DecidableEq, Repr, Inhabited

/-- What a command does. -/
inductive EditAction where
  | openBlock
  | closeBlock
  | label (name : List Char)
  | branch (name : List Char)
  | branchIf (changed : Bool) (name : List Char)
  | substitute (s : Substitution)
  | mapping (pairs : List (Char × Char))
  | delete
  | deleteLine
  | print
  | printLine
  | next
  | append
  | hold (adds : Bool)
  | fetch (adds : Bool)
  | exchange
  | quit (prints : Bool) (status : Nat)
  | insertText (text : List Char)
  | appendText (text : List Char)
  | changeText (text : List Char)
  | lineNumber
  | title
  | empty
  | nothing
  /-- Shows what cannot be seen, in lines of a width. -/
  | show (width : Option Nat)
  | readFile (path : List Char)
  | readLine (path : List Char)
  | writeFile (path : List Char)
  | writeLine (path : List Char)
  deriving DecidableEq, Repr, Inhabited

/-- A command. -/
structure EditCommand where
  first : Option Address
  last : Option RangeEnd
  isNegated : Bool
  action : EditAction
  deriving DecidableEq, Repr, Inhabited

-- ================================================================= faults

/-- Why a script is not well formed. -/
inductive EditFault where
  | unknownCommand (c : Char)
  | noCommand
  | extraText
  | badComma
  | badLineZero
  | manyNegations
  | addressOfComment
  | addressOfLabel
  | addressOfEnd
  | secondAddress
  | openBlock
  | closedBlock
  | noLabel
  | noText
  | noFile
  | openAddress
  | openCommand (letter : Char)
  | unknownFlag
  | manyFlags (letter : Char)
  | manyNumbers
  | numberZero
  | noGroup (number : Nat)
  | unevenMapping
  | flagsOfNothing
  | newVersion
  | regex (fault : RegexFault)
  deriving DecidableEq, Repr, Inhabited

/-- How a fault is told. -/
def EditFault.message : EditFault → List Char
  | unknownCommand c => "unknown command: \x60".toList ++ [c, '\x27']
  | noCommand => "missing command".toList
  | extraText => "extra characters after command".toList
  | badComma => "unexpected \x60,\x27".toList
  | badLineZero => "invalid usage of line address 0".toList
  | manyNegations => "multiple \x60!\x27s".toList
  | addressOfComment => "comments don\x27t accept any addresses".toList
  | addressOfLabel => ": doesn\x27t want any addresses".toList
  | addressOfEnd => "\x7d doesn\x27t want any addresses".toList
  | secondAddress => "command only uses one address".toList
  | openBlock => "unmatched \x60\x7b\x27".toList
  | closedBlock => "unexpected \x60\x7d\x27".toList
  | noLabel => "\":\" lacks a label".toList
  | noText => "expected \\ after \x60a\x27, \x60c\x27 or \x60i\x27".toList
  | noFile => "missing filename in r/R/w/W commands".toList
  | openAddress => "unterminated address regex".toList
  | openCommand letter => "unterminated \x60".toList ++ [letter] ++ "\x27 command".toList
  | unknownFlag => "unknown option to \x60s\x27".toList
  | manyFlags letter =>
    "multiple \x60".toList ++ [letter] ++ "\x27 options to \x60s\x27 command".toList
  | manyNumbers => "multiple number options to \x60s\x27 command".toList
  | numberZero => "number option to \x60s\x27 command may not be zero".toList
  | noGroup number =>
    "invalid reference \\".toList ++ number.repr.toList ++ " on \x60s\x27 command\x27s RHS".toList
  | unevenMapping => "strings for \x60y\x27 command are different lengths".toList
  | flagsOfNothing => "cannot specify modifiers on empty regexp".toList
  | newVersion => "expected newer version of sed".toList
  | regex fault => fault.message.toList

-- ================================================================ escapes

/-- The character that a text after a backslash stands for by its name or
its number, and the rest. -/
def escapedChar? : List Char → Option (Char × List Char)
  | 'a' :: rest => some ('\x07', rest)
  | 'f' :: rest => some ('\x0c', rest)
  | 'n' :: rest => some ('\n', rest)
  | 'r' :: rest => some ('\x0d', rest)
  | 't' :: rest => some ('\t', rest)
  | 'v' :: rest => some ('\x0b', rest)
  | 'c' :: c :: rest => some (Char.ofNat ((c.toUpper.toNat ^^^ 0x40) % 0x100), rest)
  | 'd' :: rest => numbered 10 3 rest
  | 'o' :: rest => numbered 8 3 rest
  | 'x' :: rest => numbered 16 2 rest
  | _ => none
where
  numbered (base width : Nat) (s : List Char) : Option (Char × List Char) :=
    (readDigits? base (s.take width)).map fun r =>
      (Char.ofNat (r.1 % 0x100), r.2 ++ s.drop width)

/-- A pattern with the characters that it names put in; `\n` is left where
it stands for itself anyway. -/
def plainPattern : (bound : Nat) → List Char → List Char
  | bound + 1, '\\' :: c :: rest =>
    match if "acfdortvx".toList.contains c then escapedChar? (c :: rest) else none with
    | some (d, rest) => d :: plainPattern bound rest
    | none => '\\' :: c :: plainPattern bound rest
  | bound + 1, c :: rest => c :: plainPattern bound rest
  | _, s => s

/-- The parts of a replacement. -/
def replacementParts : (bound : Nat) → List Char → List ReplacementPart
  | bound + 1, '\\' :: c :: rest =>
    match c with
    | 'U' => .switch .upper :: replacementParts bound rest
    | 'L' => .switch .lower :: replacementParts bound rest
    | 'u' => .switch .nextUpper :: replacementParts bound rest
    | 'l' => .switch .nextLower :: replacementParts bound rest
    | 'E' => .switch .none :: replacementParts bound rest
    | c =>
      if c.isDigit then .group (c.toNat - '0'.toNat) :: replacementParts bound rest
      else match escapedChar? (c :: rest) with
        | some (d, rest) => .char d :: replacementParts bound rest
        | none => .char c :: replacementParts bound rest
  | bound + 1, '&' :: rest => .group 0 :: replacementParts bound rest
  | bound + 1, c :: rest => .char c :: replacementParts bound rest
  | _, _ => []

/-- The characters of a mapping, with escapes replaced. -/
def mappingChars : (bound : Nat) → List Char → List Char
  | bound + 1, '\\' :: c :: rest =>
    match escapedChar? (c :: rest) with
    | some (d, rest) => d :: mappingChars bound rest
    | none => c :: mappingChars bound rest
  | bound + 1, c :: rest => c :: mappingChars bound rest
  | _, _ => []

/-- The lines of a text for a command up to the end of a line, with escapes
replaced, and the rest; a line that ends in a backslash goes on. -/
def textLines : (bound : Nat) → List Char → List Char × List Char
  | bound + 1, '\\' :: c :: rest =>
    match escapedChar? (c :: rest) with
    | some (d, rest) =>
      let (text, after) := textLines bound rest
      (d :: text, after)
    | none =>
      let (text, after) := textLines bound rest
      (c :: text, after)
  | _, ['\\'] => ([], [])
  | _, '\n' :: rest => ([], rest)
  | bound + 1, c :: rest =>
    let (text, after) := textLines bound rest
    (c :: text, after)
  | _, _ => ([], [])

/-- A text up to a delimiter on its line, and the rest that begins with the
delimiter, or where there is none with what ends the line. After a
backslash the delimiter does not count, and in a pattern it does not count
in brackets. -/
def delimited (delimiter : Char) (isPattern : Bool) :
    (bound : Nat) → List Char → List Char × List Char
  | bound + 1, '\\' :: c :: rest =>
    let (text, after) := delimited delimiter isPattern bound rest
    if c = delimiter && (isPattern || c ≠ '&') then (c :: text, after)
    else if isPattern && c = 'n' then ('\n' :: text, after)
    else if isPattern && c = '\n' then (c :: text, after)
    else ('\\' :: c :: text, after)
  | bound + 1, c :: rest =>
    if c = delimiter || c = '\n' then ([], c :: rest)
    else if isPattern && c = '[' then
      match charSet? '^' (bare rest) with
      | some (_, after) =>
        let set := c :: rest.take (rest.length - after.length)
        let (text, after) := delimited delimiter isPattern bound (after.map Marked.char)
        (escapedLines set ++ text, after)
      | none => (c :: rest, [])
    else
      let (text, after) := delimited delimiter isPattern bound rest
      (c :: text, after)
  | _, s => (s, [])
where
  escapedLines : List Char → List Char
    | '\\' :: 'n' :: rest => '\n' :: escapedLines rest
    | c :: rest => c :: escapedLines rest
    | [] => []

-- ================================================================ reading

/-- A script that is being read. -/
structure EditSource where
  text : List Char
  /-- How many characters the whole script has. -/
  size : Nat
  isExtended : Bool
  /-- How many blocks are open. -/
  depth : Nat

/-- A step that reads from the front of a script. A fault comes with how
many characters were read. -/
abbrev EditReader := StateT EditSource (Except (EditFault × Nat))

/-- Flags of a substitution. -/
structure EditFlags where
  number : Option Nat
  isGlobal : Bool
  prints : Bool
  folds : Bool
  isByLine : Bool
  file : Option (List Char)

namespace EditReader

/-- The script is not well formed. -/
def fail (fault : EditFault) : EditReader α := do
  let source ← get
  throw (fault, source.size - source.text.length)

/-- What is left. -/
def rest : EditReader (List Char) := do return (← get).text

/-- Leaves a text. -/
def setRest (s : List Char) : EditReader Unit := modify fun x => { x with text := s }

/-- Takes the longest run of such characters off. -/
def takeWhile (p : Char → Bool) : EditReader (List Char) := do
  let s ← rest
  setRest (s.dropWhile p)
  return s.takeWhile p

/-- Passes over blanks in a line. -/
def skipBlanks : EditReader Unit := do
  let _ ← takeWhile fun c => c = ' ' || c = '\t'

/-- Takes a character off if it comes next, and tells whether it did. -/
def take (c : Char) : EditReader Bool := do
  let s ← rest
  if s.head? = some c then
    setRest s.tail
    return true
  else return false

/-- Takes the next character off, if there is one. -/
def next? : EditReader (Option Char) := do
  match ← rest with
  | c :: s =>
    setRest s
    return some c
  | [] => return none

/-- Takes a number off, if one comes next. -/
def number? : EditReader (Option Nat) := do
  match readDigits? 10 (← rest) with
  | some (n, s) =>
    setRest s
    return some n
  | none => return none

/-- Takes a text off up to its delimiter, if that ends it. -/
def upTo? (delimiter : Option Char) (isPattern : Bool) : EditReader (Option (List Char)) := do
  match delimiter with
  | none => return none
  | some d =>
    let s ← rest
    let (text, after) := delimited d isPattern (s.length + 1) s
    setRest after
    if (← take d) then return some text else return none

/-- The pattern of a text; the empty text is for the one last used. -/
def pattern (s : List Char) (folds isByLine : Bool) : EditReader (Option EditPattern) := do
  if s.isEmpty then
    if folds || isByLine then fail .flagsOfNothing else return none
  else
    match Regex.ofText ⟨(← get).isExtended, true, true, false⟩ (plainPattern (s.length + 1) s) with
    | .ok r => return some ⟨if isByLine then r.byLine else r, folds⟩
    | .error fault => fail (.regex fault)

/-- Takes the flags of an address off, of which there are at most so
many: whether letters are folded, and whether lines count on their own. -/
def addressFlags : (bound : Nat) → Bool × Bool → EditReader (Bool × Bool)
  | 0, flags => return flags
  | bound + 1, flags => do
    skipBlanks
    if ← take 'I' then addressFlags bound (true, flags.2)
    else if ← take 'M' then addressFlags bound (flags.1, true)
    else return flags

/-- Takes an address with a pattern off up to its delimiter. -/
def patternAddress (delimiter : Option Char) : EditReader Address := do
  match ← upTo? delimiter true with
  | some text =>
    let (folds, isByLine) ← addressFlags (← rest).length (false, false)
    return .pattern (← pattern text folds isByLine)
  | none => fail .openAddress

/-- Takes an address off, if one comes next. -/
def address? : EditReader (Option Address) := do
  match ← rest with
  | '$' :: s =>
    setRest s
    return some .last
  | '/' :: s =>
    setRest s
    return some (← patternAddress (some '/'))
  | '\\' :: s =>
    setRest s
    return some (← patternAddress (← next?))
  | _ =>
    match ← number? with
    | none => return none
    | some n =>
      skipBlanks
      if ← take '~' then
        skipBlanks
        return some (.every n ((← number?).getD 0))
      else return some (.line n)

/-- Takes the end of a range off, if one comes next. -/
def rangeEnd? : EditReader (Option RangeEnd) := do
  skipBlanks
  if ← take ',' then
    skipBlanks
    if ← take '+' then return some (.later ((← number?).getD 0))
    else if ← take '~' then return some (.address (.every 0 ((← number?).getD 0)))
    else
      match ← address? with
      | some a => return some (.address a)
      | none =>
        let _ ← next?
        fail .badComma
  else return none

/-- Takes a label off. -/
def label : EditReader (List Char) := do
  skipBlanks
  takeWhile fun c => !isSpace c && c ≠ ';' && c ≠ '\x7d'

/-- Takes the rest of the line off as a path. -/
def path : EditReader (List Char) := do
  skipBlanks
  let path ← takeWhile (· ≠ '\n')
  if path.isEmpty then fail .noFile else return path

/-- Takes the text of a command off. -/
def text : EditReader (List Char) := do
  skipBlanks
  if (← rest).isEmpty || (← rest).head? = some '\n' then fail .noText
  if ← take '\\' then
    let s ← rest
    let blanks := s.takeWhile fun c => c = ' ' || c = '\t'
    match s.drop blanks.length with
    | '\n' :: more => setRest more
    | _ => pure ()
  let s ← rest
  if s.isEmpty then return []
  let (text, after) := textLines (s.length + 1) s
  setRest after
  return text ++ ['\n']

/-- Takes the flags of a substitution off with what ends them; `bound`
bounds their number. -/
def flags : (bound : Nat) → EditFlags → EditReader EditFlags
  | 0, f => return f
  | bound + 1, f => do
    match ← number? with
    | some n =>
      if f.number.isSome then fail .manyNumbers
      if n = 0 then fail .numberZero
      flags bound { f with number := some n }
    | none =>
      match ← rest with
      | '\x7d' :: _ | '#' :: _ => return f
      | _ =>
        match ← next? with
        | none | some '\n' | some ';' => return f
        | some ' ' | some '\t' => flags bound f
        | some 'i' | some 'I' => flags bound { f with folds := true }
        | some 'm' | some 'M' => flags bound { f with isByLine := true }
        | some 'g' =>
          if f.isGlobal then fail (.manyFlags 'g') else flags bound { f with isGlobal := true }
        | some 'p' =>
          if f.prints then fail (.manyFlags 'p') else flags bound { f with prints := true }
        | some 'w' => return { f with file := some (← path) }
        | some _ => fail .unknownFlag

/-- Takes a substitution off after its letter. -/
def substitution : EditReader Substitution := do
  let delimiter ← next?
  match ← upTo? delimiter true with
  | none => fail (.openCommand 's')
  | some text =>
    match ← upTo? delimiter false with
    | none => fail (.openCommand 's')
    | some replacement =>
      let f ← flags ((← rest).length + 1) ⟨none, false, false, false, false, none⟩
      let parts := replacementParts (replacement.length + 1) replacement
      let pattern ← pattern text f.folds f.isByLine
      let last := parts.foldl (fun n part => match part with
        | .group number => max n number
        | _ => n) 0
      if pattern.any fun p => p.regex.groups < last then fail (.noGroup last)
      return ⟨pattern, parts, f.number.getD 1, f.isGlobal, f.prints, f.file⟩

/-- Takes a mapping off after its letter. -/
def mapping : EditReader (List (Char × Char)) := do
  let delimiter ← next?
  match ← upTo? delimiter false with
  | none => fail (.openCommand 'y')
  | some old =>
    match ← upTo? delimiter false with
    | none => fail (.openCommand 'y')
    | some new =>
      let old := mappingChars (old.length + 1) old
      let new := mappingChars (new.length + 1) new
      if old.length = new.length then return old.zip new else fail .unevenMapping

/-- Takes a status off. -/
def status : EditReader Nat := do
  skipBlanks
  return (← number?).getD 0

/-- Takes what a command does off. -/
def action (first : Option Address) (last : Option RangeEnd) : EditReader EditAction := do
  match ← next? with
  | none => fail .noCommand
  | some '#' => fail .addressOfComment
  | some '\x7b' =>
    modify fun x => { x with depth := x.depth + 1 }
    return .openBlock
  | some '\x7d' =>
    let depth := (← get).depth
    if depth = 0 then fail .closedBlock
    if first.isSome then fail .addressOfEnd
    modify fun x => { x with depth := depth - 1 }
    return .closeBlock
  | some ':' =>
    if first.isSome then fail .addressOfLabel
    let name ← label
    if name.isEmpty then fail .noLabel
    return .label name
  | some 'b' => return .branch (← label)
  | some 't' => return .branchIf true (← label)
  | some 'T' => return .branchIf false (← label)
  | some 's' => return .substitute (← substitution)
  | some 'y' => return .mapping (← mapping)
  | some 'd' => return .delete
  | some 'D' => return .deleteLine
  | some 'p' => return .print
  | some 'P' => return .printLine
  | some 'n' => return .next
  | some 'N' => return .append
  | some 'h' => return .hold false
  | some 'H' => return .hold true
  | some 'g' => return .fetch false
  | some 'G' => return .fetch true
  | some 'x' => return .exchange
  | some 'z' => return .empty
  | some 'q' =>
    if last.isSome then fail .secondAddress
    return .quit true (← status)
  | some 'Q' =>
    if last.isSome then fail .secondAddress
    return .quit false (← status)
  | some 'i' => return .insertText (← text)
  | some 'a' => return .appendText (← text)
  | some 'c' => return .changeText (← text)
  | some '=' => return .lineNumber
  | some 'F' => return .title
  | some 'l' =>
    skipBlanks
    return .show (← number?)
  | some 'r' => return .readFile (← path)
  | some 'R' => return .readLine (← path)
  | some 'w' => return .writeFile (← path)
  | some 'W' => return .writeLine (← path)
  | some 'v' =>
    skipBlanks
    let version ← takeWhile fun c => !isSpace c && c ≠ ';'
    if (readDigits? 10 version).any fun r => r.1 > 4 then fail .newVersion
    return .nothing
  | some c => fail (.unknownCommand c)

/-- Whether a command ends with what it takes, so that nothing separates it
from the next. -/
def endsItself : EditAction → Bool
  | .openBlock | .insertText _ | .appendText _ | .changeText _ | .substitute _ | .label _
  | .branch _ | .branchIf _ _ => true
  | _ => false

/-- Takes off what separates a command from the next. -/
def separator : EditReader Unit := do
  skipBlanks
  match ← rest with
  | '\x7d' :: _ | '#' :: _ => return
  | _ =>
    match ← next? with
    | none | some ';' | some '\n' => return
    | some _ => fail .extraText

/-- Whether addresses use line zero where no line has that number. -/
def usesZero (first : Option Address) (last : Option RangeEnd) : Bool :=
  first = some (.line 0) && match last with
    | some (.address (.pattern _)) => false
    | _ => true

/-- Reads the commands of a script of at most so many characters. -/
def commands : (bound : Nat) → EditReader (List EditCommand)
  | 0 => return []
  | bound + 1 => do
    let _ ← takeWhile fun c => isSpace c || c = ';'
    let s ← rest
    if s.isEmpty then return []
    else if s.head? = some '#' then
      let _ ← takeWhile (· ≠ '\n')
      commands bound
    else
      let first ← address?
      let last ← if first.isSome then rangeEnd? else pure none
      skipBlanks
      if usesZero first last then
        let _ ← next?
        fail .badLineZero
      let isNegated ← take '!'
      skipBlanks
      if isNegated && (← take '!') then fail .manyNegations
      let action ← action first last
      if !endsItself action then separator
      return ⟨first, last, isNegated, action⟩ :: (← commands bound)

end EditReader

/-- The commands of a script, or its fault with how many characters are
read before it is seen; that a block is open is seen without reading. -/
def editCommands (isExtended : Bool) (s : List Char) :
    Except (EditFault × Nat) (List EditCommand) :=
  match (EditReader.commands (s.length + 1)).run ⟨s, s.length, isExtended, 0⟩ with
  | .ok (commands, source) => if source.depth = 0 then .ok commands else .error (.openBlock, 0)
  | .error fault => .error fault

/-- The label that a script goes to but does not have, if there is one. -/
def missingLabel? (commands : List EditCommand) : Option (List Char) :=
  let targets := commands.filterMap fun c => match c.action with
    | .branch name | .branchIf _ name => if name.isEmpty then none else some name
    | _ => none
  targets.find? fun name => commands.all fun c => c.action ≠ .label name

end ClrListing.Script
