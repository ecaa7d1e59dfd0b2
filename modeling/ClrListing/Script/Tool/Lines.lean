/-
Tools that print the lines that they read: all of them with something
added, some of them, in another order, broken, or only counted.
-/
import ClrListing.Script.Regex
import ClrListing.Script.Tool.Basic

namespace ClrListing.Script

open Text

-- ==================================================================== all

/-- A number of a line before it, in a width. -/
def numberedLine (n : Nat) (line : List Char) : List Char :=
  padStart 6 n.repr.toList ++ '\t' :: line

/-- Lines without the empty ones that follow an empty one. -/
def squeezeLines : List (List Char × Bool) → List (List Char × Bool)
  | a :: b :: rest =>
    if a.1.isEmpty && b.1.isEmpty then squeezeLines (b :: rest) else a :: squeezeLines (b :: rest)
  | lines => lines

/-- Lines as `cat` shows them. -/
def shownLines (p : Parsed) (lines : List (List Char × Bool)) : List (List Char × Bool) :=
  let has (letters : String) : Bool := letters.toList.any p.has
  let shown (c : Char) : List Char :=
    if c = '\t' then if has "TtA" then ['^', 'I'] else [c]
    else if has "veAt" then visibleOctet c
    else [c]
  let lines := if p.has 's' then squeezeLines lines else lines
  let lines := lines.map fun l =>
    let ended := if !has "EeA" || !l.2 then []
      else ['$']
    let text := if has "EeA" && !has "veAt" && l.2 && l.1.getLast? = some '\r' then
        l.1.dropLast ++ ['^', 'M']
      else l.1.flatMap shown
    (text, ended, l.2, l.1.isEmpty)
  let numbered := p.has 'b' || p.has 'n'
  let (_, done) := lines.foldl (fun (n, done) (text, ended, isWhole, isEmpty) =>
    if numbered && !(p.has 'b' && isEmpty) then
      (n + 1, done ++ [(numberedLine n (text ++ ended), isWhole)])
    else (n, done ++ [(text ++ ended, isWhole)])) (1, ([] : List (List Char × Bool)))
  done

/-- Prints files. -/
def cat : Tool := fun i =>
  match (Options.of "nbsuEeTtAv" "" [("show-all", 'A'), ("number-nonblank", 'b'),
      ("show-ends", 'E'), ("number", 'n'), ("squeeze-blank", 's'), ("show-tabs", 'T'),
      ("show-nonprinting", 'v')]).parse false i.arguments with
  | .error fault => .refused i 1 fault
  | .ok p =>
    let g := gatherOrInput i p.operands
    if p.given.all fun o => o.1 = 'u' then g.completeEach i 1 fun _ text => text
    else g.completeFlow i 1 fun text => rejoin (shownLines p (linesOf text))

-- ============================================================== numbering

/-- The parts of a page, each of which is numbered in its own way. -/
inductive PagePart where
  | header
  | body
  | footer
  deriving DecidableEq, Repr, Inhabited

/-- Which lines get a number. -/
inductive Numbering where
  | all
  | filled
  | none
  | matching (r : Regex)
  deriving Repr, Inhabited

namespace Numbering

/-- The way of numbering that a text is written for. -/
def ofText? : List Char → Except (List Char) (Option Numbering)
  | ['a'] => .ok (some all)
  | ['t'] => .ok (some filled)
  | ['n'] => .ok (some none)
  | 'p' :: pattern =>
    match Regex.ofText ⟨false, false, true, false⟩ pattern with
    | .ok r => .ok (some (matching r))
    | .error fault => .error fault.message.toList
  | _ => .ok Option.none

/-- Whether a line gets a number, where it is the last of so many empty
ones. -/
def takes (n : Numbering) (join blanks : Nat) (line : List Char) : Bool :=
  match n with
  | all => !line.isEmpty || blanks % join = 0
  | filled => !line.isEmpty
  | none => false
  | matching r => r.isIn false line

end Numbering

/-- How lines are numbered. -/
structure NumberingStyle where
  header : Numbering
  body : Numbering
  footer : Numbering
  start : Int
  step : Int
  join : Nat
  width : Nat
  format : List Char
  separator : List Char
  delimiter : List Char
  /-- Whether each page starts with the first number. -/
  restarts : Bool
  deriving Repr, Inhabited

namespace NumberingStyle

/-- A number as it is shown. -/
def shown (s : NumberingStyle) (n : Int) : List Char :=
  let digits := n.natAbs.repr.toList
  let text := if n < 0 then '-' :: digits else digits
  if s.format = "ln".toList then padEnd s.width text
  else if s.format = "rz".toList then
    let sign := if n < 0 then ['-'] else []
    sign ++ List.replicate (s.width - text.length) '0' ++ digits
  else padStart s.width text

/-- The part of a page that a line opens. -/
def opened? (s : NumberingStyle) (line : List Char) : Option PagePart :=
  if s.delimiter.isEmpty then none
  else if line = s.delimiter ++ s.delimiter ++ s.delimiter then some .header
  else if line = s.delimiter ++ s.delimiter then some .body
  else if line = s.delimiter then some .footer
  else none

/-- Numbers lines, from a number on, in a part of a page, after so many empty
lines. -/
def number (s : NumberingStyle) : (n : Int) → PagePart → (blanks : Nat) → List (List Char) →
    List (List Char)
  | _, _, _, [] => []
  | n, part, blanks, line :: rest =>
    match s.opened? line with
    | some part => [] :: number s (if s.restarts then s.start else n) part 0 rest
    | none =>
      let way := match part with
        | .header => s.header
        | .body => s.body
        | .footer => s.footer
      let blanks := if line.isEmpty then blanks + 1 else 0
      if way.takes s.join blanks line then
        (s.shown n ++ s.separator ++ line) :: number s (n + s.step) part
          (if line.isEmpty then 0 else blanks) rest
      else
        (List.replicate (s.width + s.separator.length) ' ' ++ line) :: number s n part blanks rest

end NumberingStyle

/-- The options of `nl`. -/
def numberingOptions : Options :=
  .mk "p" "bhfdilnsvw" "" [("body-numbering", 'b'), ("header-numbering", 'h'),
    ("footer-numbering", 'f'), ("section-delimiter", 'd'), ("line-increment", 'i'),
    ("join-blank-lines", 'l'), ("number-format", 'n'), ("no-renumber", 'p'),
    ("number-separator", 's'), ("starting-line-number", 'v'), ("number-width", 'w')]

/-- The style that options ask for, or the complaint about them. -/
def numberingStyle (i : Invocation) (p : Parsed) : Except Completion NumberingStyle := do
  let way (letter : Char) (name : String) (standard : Numbering) :
      Except Completion Numbering := do
    match p.value? letter with
    | none => return standard
    | some text =>
      match Numbering.ofText? text with
      | .ok (some way) => return way
      | .ok none =>
        throw (.misusedFor i 1 (("invalid " ++ name ++ " numbering style: ").toList ++ ticked text))
      | .error reason => throw (.failing i 1 reason)
  let whole (letter : Char) (name : String) (standard : Int) : Except Completion Int := do
    match p.value? letter with
    | none => return standard
    | some text =>
      match decimal? text with
      | some n => return n
      | none => throw (.failing i 1 (("invalid " ++ name ++ ": ").toList ++ ticked text))
  let positive (letter : Char) (name : String) (standard : Int) : Except Completion Nat := do
    let n ← whole letter name standard
    if n < 1 then
      throw (.failing i 1 (("invalid " ++ name ++ ": ").toList ++ ticked ((p.value? letter).getD [])
        ++ ": Numerical result out of range".toList))
    return n.toNat
  let format := (p.value? 'n').getD "rn".toList
  if !(["ln", "rn", "rz"].contains (String.ofList format)) then
    throw (.misusedFor i 1 ("invalid line numbering format: ".toList ++ ticked format))
  return {
    body := ← way 'b' "body" .filled
    header := ← way 'h' "header" .none
    footer := ← way 'f' "footer" .none
    start := ← whole 'v' "starting line number" 1
    step := ← whole 'i' "line number increment" 1
    join := ← positive 'l' "line number of blank lines" 1
    width := ← positive 'w' "line number field width" 6
    format := format
    separator := (p.value? 's').getD ['\t']
    delimiter := match p.value? 'd' with
      | none => ['\\', ':']
      | some [c] => [c, ':']
      | some text => text
    restarts := !p.has 'p' }

/-- Numbers the lines of files that are not empty, or others. -/
def nl : Tool := fun i =>
  match numberingOptions.parse false i.arguments with
  | .error fault => .refused i 1 fault
  | .ok p =>
    match numberingStyle i p with
    | .error complaint => complaint
    | .ok style =>
      (gatherOrInput i p.operands).completeFlow i 1 fun text =>
        unlines (style.number style.start .body 0 (plainLines text))

-- ============================================================ some of them

/-- An amount of lines or characters, and whether it is written with a
sign. -/
def amount? (s : List Char) : Option (Option Char × Nat) :=
  let (sign, digits) := match s with
    | '+' :: rest => (some '+', rest)
    | '-' :: rest => (some '-', rest)
    | _ => (none, s)
  (readDigits? 10 digits).bind fun (n, rest) =>
    match String.ofList rest with
    | "" => some (sign, n)
    | "b" => some (sign, n * 512)
    | "kB" => some (sign, n * 1000)
    | "k" | "K" | "KiB" => some (sign, n * 1024)
    | "MB" => some (sign, n * 1000000)
    | "m" | "M" | "MiB" => some (sign, n * 1048576)
    | "G" | "GiB" => some (sign, n * 1073741824)
    | _ => none

/-- The options that the first argument stands for where it is an amount
after a sign, or the complaint about it. -/
def withAmount (i : Invocation) (plus : Bool) : Except Completion (List (List Char)) :=
  match i.arguments with
  | (sign :: c :: rest) :: others =>
    if !c.isDigit || !(sign = '-' || (plus && sign = '+')) then .ok i.arguments
    else
      let digits := (c :: rest).takeWhile Char.isDigit
      let letters := (c :: rest).drop digits.length
      let known (c : Char) : Bool := (if plus then "lcbf" else "lcbqvkmz").toList.contains c
      let unit := if letters.any fun c => c = 'c' || c = 'b' then 'c' else 'n'
      let number := (if sign = '+' then ['+'] else []) ++ digits
        ++ (letters.filter fun c => "bkm".toList.contains c)
      match letters.find? fun c => !known c with
      | some c =>
        if plus then .error (.failing i 1 ("option used in invalid context -- ".toList ++ digits))
        else .error (.misusedFor i 1 ("invalid trailing option -- ".toList ++ [c]))
      | none =>
        if plus && sign = '-' && (others.filter fun a => a.head? ≠ some '-').length > 1 then
          .error (.failing i 1 ("option used in invalid context -- ".toList ++ [c]))
        else
          let shown := (letters.filter fun c => "qvz".toList.contains c).map fun c => ['-', c]
          .ok (['-', unit] :: number :: shown ++ others)
  | arguments => .ok arguments

/-- What stands before and between the contents of more files than one. -/
def headed (isShown isFirst : Bool) (path text : List Char) : List Char :=
  let title := if path = ['-'] then "standard input".toList else path
  (if isShown then (if isFirst then [] else ['\n']) ++ "==> ".toList ++ title ++ " <==\n".toList
    else []) ++ text

/-- Prints a part of each file: `lines` and `chars` cut it. -/
def partly (plus : Bool)
    (lines : Option Char → Nat → List (List Char × Bool) → List (List Char × Bool))
    (chars : Option Char → Nat → List Char → List Char) : Tool := fun i =>
  match withAmount i plus with
  | .error complaint => complaint
  | .ok arguments =>
    match (Options.of (if plus then "qvzfF" else "qvz") "ncs" [("lines", 'n'), ("bytes", 'c'),
        ("quiet", 'q'), ("silent", 'q'), ("verbose", 'v'), ("zero-terminated", 'z')]).parse false
        arguments with
    | .error fault => .refused i 1 fault
    | .ok p =>
      let given := (p.given.filter fun g => g.1 = 'n' || g.1 = 'c').getLast?
      let (letter, value) := given.getD ('n', ['1', '0'])
      match amount? value with
      | none =>
        let kind := if letter = 'c' then "bytes" else "lines"
        .failing i 1 (("invalid number of " ++ kind ++ ": ").toList ++ ticked value)
      | some (sign, n) =>
        let g := gatherOrInput i p.operands
        let mark := if p.has 'z' then '\x00' else '\n'
        let ended (lines : List (List Char × Bool)) : List Char :=
          lines.flatMap fun l => if l.2 then l.1 ++ [mark] else l.1
        let cut (s : List Char) : List Char :=
          if letter = 'c' then chars sign n s else ended (lines sign n (markedLines mark s))
        let isShown := (p.operands.length > 1 || p.has 'v') && !p.has 'q'
        let (told, _) := g.parts.foldl (fun (told, isFirst) part => match part.2 with
          | .ok text => (told ++ [(1, headed isShown isFirst part.1 (cut text))], false)
          | .error reason => (told ++ [(2, reason)], isFirst)) (([] : List Telling), true)
        g.telling i 1 told

/-- Takes a number off the front, or all but a number. -/
def takeFront (sign : Option Char) (n : Nat) (xs : List α) : List α :=
  if sign = some '-' then xs.take (xs.length - n) else xs.take n

/-- Takes a number off the end, or all from a number on. -/
def takeBack (sign : Option Char) (n : Nat) (xs : List α) : List α :=
  if sign = some '+' then xs.drop (n - 1) else xs.drop (xs.length - n)

/-- Prints the start of files. -/
def head : Tool := partly false takeFront takeFront

/-- Prints the end of files. -/
def tail : Tool := partly true takeBack takeBack

-- =============================================================== counting

/-- How wide a line is: tabs lead to the next multiple of eight. -/
def lineWidthOf (s : List Char) : Nat :=
  let (most, last) := s.foldl (fun (most, n) c =>
    if c = '\t' then (most, n + 8 - n % 8)
    else if c = '\r' || c = '\x0c' then (max most n, 0)
    else if c.toNat < 32 || c.toNat ≥ 127 then (most, n)
    else (most, n + 1)) (0, 0)
  max most last

/-- How many lines, words, characters and octets a text has, and how long
its longest line is. -/
def counts (s : List Char) : List (Char × Nat) :=
  [('l', s.count '\n'), ('w', (blankWords s).length), ('m', s.length), ('c', s.length),
    ('L', ((plainLines s).map lineWidthOf).foldl max 0)]

/-- Counts the lines, words and octets of files. -/
def wc : Tool := fun i =>
  match (Options.of "lwcmL" "tF" [("lines", 'l'), ("words", 'w'), ("bytes", 'c'),
      ("chars", 'm'), ("max-line-length", 'L'), ("total", 't'), ("files0-from", 'F')]).parse false
      i.arguments with
  | .error fault => .refused i 1 fault
  | .ok p =>
    let g := gatherOrInput i p.operands
    let asked := (p.given.map Prod.fst).filter fun c => "lwcmL".toList.contains c
    let shown := if asked.isEmpty then ['l', 'w', 'c']
      else ['l', 'w', 'm', 'c', 'L'].filter fun c => asked.contains c
    let rowOf (text : List Char) : List (Char × Nat) :=
      (counts text).filter fun n => shown.contains n.1
    let zero := shown.map fun c => (c, 0)
    let sum (a b : Char × Nat) : Char × Nat :=
      (a.1, if a.1 = 'L' then max a.2 b.2 else a.2 + b.2)
    let total := (g.contents.map fun f => rowOf f.2).foldl (List.zipWith sum) zero
    let choice := String.ofList ((p.value? 't').getD "auto".toList)
    let showsTotal := choice = "always" || choice = "only"
      || (choice ≠ "never" && p.operands.length > 1)
    let size := (g.contents.map fun f => f.2.length).foldl (· + ·) 0
    let width := if (shown.length = 1 && p.operands.length ≤ 1) || choice = "only" then 1
      else if g.usesInput then 7 else size.repr.length
    let row (path : List Char) (numbers : List (Char × Nat)) : List Char :=
      spaced (numbers.map fun n => padStart width n.2.repr.toList)
        ++ (if path.isEmpty then [] else ' ' :: path) ++ ['\n']
    let done := if choice = "only" then g.complete i 1 []
      else g.completeEach i 1 fun path text => row (if p.operands.isEmpty then [] else path)
        (rowOf text)
    if showsTotal then
      done.followedBy 1 (row (if choice = "only" then [] else "total".toList) total)
    else done

-- ========================================================== other lines

/-- A width that an option asks for, or the complaint about it. -/
def askedWidth (i : Invocation) (text : Option (List Char)) (standard : Nat) (kind : String) :
    Except Completion Nat :=
  match text with
  | none => .ok standard
  | some text =>
    match natural? text with
    | some 0 =>
      .error (.failing i 1 (("invalid " ++ kind ++ ": ").toList ++ ticked text
        ++ ": Numerical result out of range".toList))
    | some n => .ok n
    | none => .error (.failing i 1 (("invalid " ++ kind ++ ": ").toList ++ ticked text))

/-- The column that a character leads to from another. -/
def columnAfter (countsOctets : Bool) (column : Nat) (c : Char) : Nat :=
  if countsOctets then column + 1
  else if c = '\t' then column + 8 - column % 8
  else if c = '\x08' then column - 1
  else if c = '\r' then 0
  else column + 1

/-- How many characters of a line fit into a width, from a column on; one
always does. -/
def fittingCount (countsOctets : Bool) (width : Nat) : (count column : Nat) → List Char → Nat
  | count, _, [] => count
  | count, column, c :: rest =>
    let next := columnAfter countsOctets column c
    if next > width && count > 0 then count else fittingCount countsOctets width (count + 1) next rest

/-- The piece of a line that fits into a width, and the rest. -/
def fittingPiece (countsOctets atBlanks : Bool) (width : Nat) (s : List Char) :
    List Char × List Char :=
  let piece := s.take (fittingCount countsOctets width 0 0 s)
  let rest := s.drop piece.length
  if rest.isEmpty then (piece, [])
  else
    let upToBlank := (piece.reverse.dropWhile fun c => c ≠ ' ' && c ≠ '\t').reverse
    let kept := if atBlanks && !upToBlank.isEmpty then upToBlank else piece
    (kept, s.drop kept.length)

/-- A line in pieces that fit into a width. -/
def foldedLine (countsOctets atBlanks : Bool) (width : Nat) :
    (bound : Nat) → List Char → List (List Char)
  | 0, s => [s]
  | bound + 1, s =>
    match fittingPiece countsOctets atBlanks width s with
    | (piece, []) => [piece]
    | (piece, rest) => piece :: foldedLine countsOctets atBlanks width bound rest

/-- Arguments with a number that follows a dash as the value of an option. -/
def withDashNumber (letter : Char) (arguments : List (List Char)) : List (List Char) :=
  arguments.map fun argument => match argument with
    | '-' :: c :: rest => if c.isDigit then '-' :: letter :: c :: rest else argument
    | _ => argument

/-- Breaks long lines. -/
def fold : Tool := fun i =>
  match (Options.of "bs" "w" [("bytes", 'b'), ("spaces", 's'), ("width", 'w')]).parse false
      (withDashNumber 'w' i.arguments) with
  | .error fault => .refused i 1 fault
  | .ok p =>
    match askedWidth i (p.value? 'w') 80 "number of columns" with
    | .error complaint => complaint
    | .ok width =>
      (gatherOrInput i p.operands).completeEach i 1 fun _ text =>
        rejoin ((linesOf text).flatMap fun l =>
          let pieces := foldedLine (p.has 'b') (p.has 's') width l.1.length l.1
          pieces.mapIdx fun n piece => (piece, n + 1 < pieces.length || l.2))

/-- The pieces of a text, each of which a separator ends or starts; the
last may lack it. -/
def separatedPieces (r : Regex) (isBefore : Bool) :
    (bound : Nat) → (piece : List Char) → Option Char → List Char → List (List Char)
  | 0, piece, _, s => [piece ++ s]
  | bound + 1, piece, before, s =>
    match s, r.matchAt false before s with
    | [], _ => if piece.isEmpty then [] else [piece]
    | c :: rest, none => separatedPieces r isBefore bound (piece ++ [c]) (some c) rest
    | c :: rest, some spot =>
      if spot.taken = 0 then separatedPieces r isBefore bound (piece ++ [c]) (some c) rest
      else
        let mark := s.take spot.taken
        if isBefore then
          piece :: separatedPieces r isBefore bound mark spot.before spot.rest
        else (piece ++ mark) :: separatedPieces r isBefore bound [] spot.before spot.rest

/-- Prints the lines of files in the opposite order. -/
def tac : Tool := fun i =>
  match (Options.of "br" "s" [("before", 'b'), ("regex", 'r'), ("separator", 's')]).parse false
      i.arguments with
  | .error fault => .refused i 1 fault
  | .ok p =>
    let g := gatherOrInput i p.operands
    let mark := match p.value? 's' with
      | some [] => ['\x00']
      | some text => text
      | none => ['\n']
    let r := if p.has 'r' then Regex.ofText ⟨false, false, true, false⟩ mark
      else .ok (mark.foldr (fun c r => .both (.one (.char c)) r) .nothing)
    match r with
    | .error fault => .failing i 1 fault.message.toList
    | .ok r => g.completeEach i 1 fun _ text =>
      if mark = ['\n'] && !p.has 'b' then rejoin (linesOf text).reverse
      else (separatedPieces r (p.has 'b') (text.length + 1) [] none text).reverse.flatten

/-- Prints every line backwards. -/
def rev : Tool := fun i =>
  match (Options.of "0" "" [("zero", '0')]).parse false i.arguments with
  | .error fault => .refused i 1 fault
  | .ok p =>
    let mark := if p.has '0' then '\x00' else '\n'
    let g := gatherOrInput i p.operands
    g.complete i 1 (g.contents.flatMap fun f => (markedLines mark f.2).flatMap fun l =>
      l.1.reverse ++ if l.2 then [mark] else [])

end ClrListing.Script
