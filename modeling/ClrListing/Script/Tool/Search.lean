/-
The search for lines that a regular expression is in: `grep`.
-/
import ClrListing.Script.Regex
import ClrListing.Script.Tool.Basic

namespace ClrListing.Script

open Text

-- ============================================================== patterns

/-- An expression for a text that stands for itself. -/
def literalRegex (s : List Char) : Regex :=
  s.foldr (fun c r => .both (.one (.char c)) r) .nothing

/-- An expression for whole words, or for whole lines. -/
def bounded (wholeWord wholeLine : Bool) (r : Regex) : Regex :=
  if wholeLine then .both .lineStart (.both r .lineEnd)
  else if wholeWord then .both .wordEdge (.both r .wordEdge)
  else r

/-- An expression for what one of some is for; for nothing if there are
none. -/
def anyOf : List Regex → Regex
  | [] => .nothing
  | [r] => r
  | r :: rest => .either r (anyOf rest)

/-- The order of two texts, character by character. -/
def textOrder (s t : List Char) : Ordering :=
  match s, t with
  | [], [] => .eq
  | [], _ :: _ => .lt
  | _ :: _, [] => .gt
  | a :: s, b :: t => if a < b then .lt else if b < a then .gt else textOrder s t

-- ================================================================= grep

/-- The options of `grep`; those that have a long name alone are signs. -/
def grepOptions : Options :=
  .mk "vicnoqEFGwxlLhHszrRaIPbTZyUVu\x02\x07" "emABCfdD\x01\x03\x04\x05\x06" "\x08"
    [("invert-match", 'v'), ("ignore-case", 'i'), ("count", 'c'), ("line-number", 'n'),
      ("only-matching", 'o'), ("quiet", 'q'), ("silent", 'q'), ("extended-regexp", 'E'),
      ("fixed-strings", 'F'), ("basic-regexp", 'G'), ("perl-regexp", 'P'), ("word-regexp", 'w'),
      ("line-regexp", 'x'), ("max-count", 'm'), ("files-with-matches", 'l'),
      ("files-without-match", 'L'), ("no-filename", 'h'), ("with-filename", 'H'),
      ("no-messages", 's'), ("regexp", 'e'), ("file", 'f'), ("after-context", 'A'),
      ("before-context", 'B'), ("context", 'C'), ("null-data", 'z'), ("null", 'Z'),
      ("initial-tab", 'T'), ("recursive", 'r'), ("dereference-recursive", 'R'), ("text", 'a'),
      ("binary", 'U'), ("byte-offset", 'b'), ("directories", 'd'), ("devices", 'D'),
      ("include", '\x01'), ("line-buffered", '\x02'), ("exclude", '\x03'),
      ("exclude-dir", '\x04'), ("label", '\x05'), ("group-separator", '\x06'),
      ("no-group-separator", '\x07'), ("color", '\x08'), ("colour", '\x08')]

/-- A pattern of another dialect as an extended one: the names of sets of
characters after backslashes are written out. -/
def extendedPattern (inSet : Bool) : List Char → List Char
  | '\\' :: c :: rest =>
    let shown := match c, inSet with
      | 'd', false => "[0-9]".toList
      | 'D', false => "[^0-9]".toList
      | 'h', false => "[ \t]".toList
      | 'd', true => "0-9".toList
      | 'w', true => "[:alnum:]_".toList
      | 's', true => "[:space:]".toList
      | 't', _ => ['\t']
      | c, true => [c]
      | c, false => ['\\', c]
    shown ++ extendedPattern inSet rest
  | '(' :: '?' :: ':' :: rest => '(' :: extendedPattern inSet rest
  | '[' :: rest => '[' :: extendedPattern true rest
  | ']' :: rest => ']' :: extendedPattern false rest
  | c :: rest => c :: extendedPattern inSet rest
  | [] => []

/-- Numbered lines that are printed with `before` lines before each and
`after` lines after it; the others are left out. Each comes with whether
it was searched for. -/
def withContext (before after : Nat) (found : List Nat) (lines : List (Nat × List Char)) :
    List (Nat × List Char × Bool) :=
  lines.filterMap fun l =>
    if found.contains l.1 then some (l.1, l.2, true)
    else if found.any fun n => (n ≤ l.1 && l.1 ≤ n + after) || (l.1 ≤ n && n ≤ l.1 + before) then
      some (l.1, l.2, false)
    else none

/-- Lines of which those that do not follow each other have a line between
them. -/
def separated (separator : Option (List Char)) (text : Nat × List Char × Bool → List Char) :
    List (Nat × List Char × Bool) → List Char
  | a :: b :: rest =>
    let between := if b.1 = a.1 + 1 then [] else match separator with
      | some line => line ++ ['\n']
      | none => []
    text a ++ between ++ separated separator text (b :: rest)
  | [a] => text a
  | [] => []

/-- The places of what an expression matches, one after the other, with the
text. -/
def occurrencePlaces (r : Regex) (folds : Bool) : (bound : Nat) → (place : Nat) → Option Char →
    List Char → List (Nat × List Char)
  | 0, _, _, _ => []
  | bound + 1, place, before, s =>
    match r.search folds before s with
    | none => []
    | some (skip, spot) =>
      let next := place + skip + spot.taken
      if spot.taken = 0 then
        match s.drop skip with
        | [] => []
        | c :: rest => occurrencePlaces r folds bound (next + 1) (some c) rest
      else (place + skip, (s.drop skip).take spot.taken) ::
        occurrencePlaces r folds bound next spot.before spot.rest

/-- The paths of the files below directories, in the order of their names;
`keeps` tells which names are looked at. -/
def filesBelow (i : Invocation) (keeps : (isDirectory : Bool) → List Char → Bool) :
    (bound : Nat) → (path : List Char) → Trail → List (List Char)
  | 0, _, _ => []
  | bound + 1, path, place =>
    let names := (i.disk.names place).mergeSort fun a b => textOrder a b ≠ .gt
    names.flatMap fun name =>
      let next := if path.isEmpty then name else Disk.join path name
      match i.disk.at? (place ++ [name]) with
      | some (.directory _) =>
        if keeps true name then filesBelow i keeps bound next (place ++ [name]) else []
      | some (.file _ _) => if keeps false name then [next] else []
      | _ => []

/-- Why a search cannot be made. -/
inductive SearchFault where
  | regex (fault : RegexFault)
  | plain (reason : List Char)
  | usage
  deriving Repr, Inhabited

/-- How lines are searched for. -/
structure SearchStyle where
  regex : Regex
  warnings : List (List Char)
  most : Option Nat
  before : Nat
  after : Nat
  deriving Repr, Inhabited

/-- The patterns that options and arguments give, and the other
arguments. -/
def searchPatterns (i : Invocation) (p : Parsed) :
    Except SearchFault (List (List Char) × List (List Char)) := do
  if !p.has 'e' && !p.has 'f' then
    match p.operands with
    | [] => throw .usage
    | pattern :: paths => return (splitAll '\n' pattern, paths)
  else
    let parts ← (p.given.filter fun o => o.1 = 'e' || o.1 = 'f').mapM fun o => do
      if o.1 = 'e' then return splitAll '\n' o.2
      else if isInput o.2 then return plainLines i.input
      else match i.disk.read i.here o.2 with
        | .ok bytes => return plainLines (Octets.ofBytes bytes)
        | .error fault => throw (.plain (o.2 ++ [':', ' '] ++ fault.words.toList))
    return (parts.flatten, p.operands)

/-- The style that options ask for, and the paths. -/
def searchStyle (i : Invocation) (p : Parsed) :
    Except SearchFault (SearchStyle × List (List Char)) := do
  let kinds := (p.given.map Prod.fst).filter fun c => "EFGP".toList.contains c
  let own := match String.ofList i.name with
    | "egrep" => ['E']
    | "fgrep" => ['F']
    | _ => []
  let kinds := own ++ kinds
  if kinds.any fun c => some c ≠ kinds.head? then
    throw (.plain "conflicting matchers specified".toList)
  let kind := kinds.headD 'G'
  let contexts := p.given.filter fun o => "ABC".toList.contains o.1
  match contexts.find? fun o => (natural? o.2).isNone with
  | some o => throw (.plain (o.2 ++ ": invalid context length argument".toList))
  | none => pure ()
  if (p.value? 'm').any fun m => (decimal? m).isNone then
    throw (.plain "invalid max count".toList)
  let (patterns, paths) ← searchPatterns i p
  let read (s : List Char) : Except SearchFault (Regex × List String) :=
    if kind = 'F' then .ok (literalRegex s, [])
    else
      let s := if kind = 'P' then extendedPattern false s else s
      match Regex.read ⟨kind = 'E' || kind = 'P', false, true, false⟩ s with
      | .ok r => .ok r
      | .error fault => .error (.regex fault)
  let parts ← patterns.mapM read
  let number (letter : Char) : Nat :=
    (((p.value? letter).orElse fun _ => p.value? 'C').bind natural?).getD 0
  return (⟨bounded (p.has 'w') (p.has 'x') (anyOf (parts.map Prod.fst)),
    parts.flatMap fun part => part.2.map fun sign =>
      "grep: warning: ".toList ++ sign.toList ++ " at start of expression".toList,
    ((p.value? 'm').bind decimal?).bind fun n => if n < 0 then none else some n.toNat,
    number 'B', number 'A'⟩, paths)

/-- What is printed of a file, and how many lines were found in it. -/
def searchFile (p : Parsed) (style : SearchStyle) (isNamed : Bool) (path text : List Char) :
    Nat × List Char :=
  let mark := if p.has 'z' then '\x00' else '\n'
  let folds := p.has 'i' || p.has 'y'
  let title := if isInput path then (p.value? '\x05').getD "(standard input)".toList else path
  let isBinary := text.contains '\x00' && !p.has 'a' && !p.has 'z'
  let lines := ((markedLines mark text).map Prod.fst).mapIdx fun n l => (n + 1, l)
  let starts := lines.foldl (fun (starts, start) l => (starts.push start, start + l.2.length + 1))
    ((#[] : Array Nat), 0)
  let found := (lines.filter fun l => style.regex.isIn folds l.2 != p.has 'v').map Prod.fst
  let found := if p.has 'I' && isBinary then [] else found
  let all := found
  let found := match style.most with
    | some n => found.take n
    | none => found
  let nameMark := if p.has 'Z' then '\x00' else '\n'
  let ended (s : List Char) : List Char := s ++ [mark]
  let number (width n : Nat) : List Char :=
    if p.has 'T' then padStart width n.repr.toList else n.repr.toList
  let parts (isFound : Bool) (line offset : Nat) (s : List Char) : List Char :=
    let sign := if isFound then ':' else '-'
    let name := if !isNamed then []
      else title ++ [if p.has 'Z' then '\x00' else sign]
    let count := if p.has 'n' then
        let own := if p.has 'T' then number (if isNamed then 2 else 2) line else number 0 line
        own ++ [sign]
      else []
    let place := if p.has 'b' then number 2 offset ++ [sign] else []
    let before := name ++ count ++ place
    ended (if p.has 'T' && !before.isEmpty then before ++ '\t' :: s else before ++ s)
  let line (l : Nat × List Char × Bool) : List Char :=
    parts l.2.2 l.1 ((starts.1[l.1 - 1]?).getD 0) l.2.1
  let separator := if p.has '\x07' then none
    else if p.has 'A' || p.has 'B' || p.has 'C' then some ((p.value? '\x06').getD ['-', '-'])
    else none
  let printed :=
    if p.has 'q' then []
    else if p.has 'l' then if found.isEmpty then [] else title ++ [nameMark]
    else if p.has 'L' then if found.isEmpty then title ++ [nameMark] else []
    else if p.has 'c' then
      (if isNamed then title ++ [if p.has 'Z' then '\x00' else ':'] else [])
        ++ found.length.repr.toList ++ ['\n']
    else if found.isEmpty then []
    else if isBinary then "grep: ".toList ++ title ++ ": binary file matches\n".toList
    else if p.has 'o' then
      if p.has 'v' then []
      else (lines.filter fun l => found.contains l.1).flatMap fun l =>
        let start := (starts.1[l.1 - 1]?).getD 0
        (occurrencePlaces style.regex folds (l.2.length + 1) 0 none l.2).flatMap fun s =>
          parts true l.1 (start + s.1) s.2
    else
      let last := match style.most, all.drop found.length with
        | some _, next :: _ => next - 1
        | _, _ => lines.length
      separated separator line (withContext style.before style.after found (lines.take last))
  (found.length, printed)

/-- Arguments with a number that follows a dash as the value of the option
for context. -/
def withDashContext (arguments : List (List Char)) : List (List Char) :=
  arguments.flatMap fun argument => match argument with
    | '-' :: c :: rest =>
      if !c.isDigit then [argument]
      else
        let digits := (c :: rest).takeWhile Char.isDigit
        let letters := (c :: rest).drop digits.length
        ('-' :: 'C' :: digits) :: if letters.isEmpty then [] else ['-' :: letters]
    | _ => [argument]

/-- Prints the lines that an expression is in. -/
def grep : Tool := fun i =>
  match grepOptions.parse false (withDashContext i.arguments) with
  | .error fault => .refused i 2 fault
  | .ok p =>
    match searchStyle i p with
    | .error .usage => .refusedBriefly i 2 []
    | .error (.regex fault) => .failing { i with name := "grep".toList } 2 fault.message.toList
    | .error (.plain reason) => .failing { i with name := "grep".toList } 2 reason
    | .ok (style, paths) =>
      let i := { i with name := "grep".toList }
      let matchesAny (letter : Char) (name : List Char) : Bool := (p.values letter).any fun pattern =>
        globMatches (glob (bare pattern)) name
      let keeps (isDirectory : Bool) (name : List Char) : Bool :=
        if isDirectory then !matchesAny '\x04' name
        else !matchesAny '\x03' name && (!p.has '\x01' || matchesAny '\x01' name)
      let isDeep := p.has 'r' || p.has 'R' || p.value? 'd' = some "recurse".toList
      let deepened (path : List Char) : List (List Char) :=
        match i.disk.find i.here path true with
        | .ok (place, .directory _) => filesBelow i keeps 256 path place
        | _ => [path]
      let isSkipped (path : List Char) : Bool := p.value? 'd' = some "skip".toList
        && (i.disk.found? i.here path).any Entry.isDirectory
      let paths' := if !isDeep then paths.filter fun path => !isSkipped path
        else if paths.isEmpty then filesBelow i keeps 256 [] i.here
        else paths.flatMap deepened
      let isDirectory (path : List Char) : Bool :=
        (i.disk.found? i.here path).any Entry.isDirectory
      let isNamed := ((paths.length > 1 || (isDeep && (paths.isEmpty || paths.any isDirectory)))
        || p.has 'H') && !((p.given.filter fun o => o.1 = 'h' || o.1 = 'H').getLast?.any fun o =>
          o.1 = 'h')
      let g := if isDeep then gather i paths' else if paths.isEmpty then gatherOrInput i []
        else gather i paths'
      let results := g.parts.map fun part => match part.2 with
        | .ok text =>
          let (count, printed) := searchFile p style isNamed part.1 text
          (count, ((1, printed) : Telling))
        | .error reason => (0, (2, if p.has 's' then [] else reason))
      let isFound := if p.has 'L' then results.any fun r => r.2.1 = 1 && !r.2.2.isEmpty
        else results.any fun r => r.1 > 0
      let warnings := unlines (style.warnings ++ if p.has 'u' then
        ["grep: warning: --unix-byte-offsets (-u) is obsolete".toList] else [])
      let done := g.telling i 2 ((2, warnings) :: results.map Prod.snd)
      done.withStatus (if isFound && (p.has 'q' || done.status = 0) then 0
        else if done.status ≠ 0 then 2 else 1)

end ClrListing.Script
