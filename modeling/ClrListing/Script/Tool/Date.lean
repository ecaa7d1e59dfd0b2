/-
The tool that prints moments, `date`: how they are written, and which one
is meant.
-/
import ClrListing.Script.Tool.Basic
import ClrListing.Script.Tool.DateText

namespace ClrListing.Script

open Text

-- =============================================================== writing

/-- A moment as it is to be written. -/
structure Stamp where
  moment : Moment
  /-- The seconds since day zero began where clocks are not ahead. -/
  seconds : Int
  /-- Parts of a milliard of a second. -/
  parts : Nat
  setting : Setting
  deriving DecidableEq, Repr, Inhabited

/-- The stamp of a time in a zone. -/
def Stamp.of (zone : Zone) (time : Int × Nat) : Stamp :=
  ⟨zone.momentAt time.1, time.1, time.2, zone.settingAt time.1⟩

/-- How a field of a stamp is filled and spelled. -/
structure StampStyle where
  /-- What it is filled with; nothing stands for what is usual. -/
  fill : Option Char
  isCapital : Bool
  /-- Large and small letters change places. -/
  isSwapped : Bool
  width : Option Nat
  colons : Nat
  deriving DecidableEq, Repr, Inhabited

namespace StampStyle

/-- The usual style. -/
def usual : StampStyle := ⟨none, false, false, none, 0⟩

/-- The style with the flags that a text opens with, and the rest. -/
def withFlags (style : StampStyle) : List Char → StampStyle × List Char
  | '^' :: rest => withFlags { style with isCapital := true } rest
  | '#' :: rest => withFlags { style with isSwapped := true } rest
  | c :: rest =>
    if c = '-' || c = '_' || c = '0' || c = '+' then withFlags { style with fill := some c } rest
    else (style, c :: rest)
  | [] => (style, [])

/-- The text of a number in a field that is usually so wide and filled with
a character. -/
def number (style : StampStyle) (fill : Char) (width : Nat) (n : Int) : List Char :=
  let fill := match style.fill with
    | some '_' => ' '
    | some '0' | some '+' => '0'
    | _ => fill
  let digits := digitsOf (if n < 0 then -n else n)
  let width := match style.width with
    | some width => width
    | none => if style.fill = some '-' then 0 else width
  let isMinus := n < 0
  let lacking := width - digits.length - (if isMinus then 1 else 0)
  if style.fill = some '-' then (if isMinus then ['-'] else []) ++ digits
  else if fill = '0' then
    (if isMinus then ['-'] else []) ++ List.replicate lacking '0' ++ digits
  else List.replicate lacking ' ' ++ (if isMinus then ['-'] else []) ++ digits

/-- A text in a field. -/
def text (style : StampStyle) (s : List Char) : List Char :=
  let s := if style.isCapital then s.map Char.toUpper else s
  let fill := if style.fill = some '0' || style.fill = some '+' then '0' else ' '
  if style.fill = some '-' then s
  else List.replicate (style.width.getD 0 - s.length) fill ++ s

end StampStyle

namespace Stamp

/-- How far clocks are ahead, in hours and minutes with so many colons. -/
def offset (s : Stamp) (colons : Nat) : List Char :=
  let ahead := s.setting.ahead
  let total := ahead.natAbs
  let two (n : Nat) : List Char := padDigits 2 n
  let hours := two (total / 3600)
  let minutes := two (total / 60 % 60)
  let seconds := two (total % 60)
  (if ahead < 0 then '-' else '+') :: match colons with
    | 0 => hours ++ minutes
    | 1 => hours ++ ':' :: minutes
    | 2 => hours ++ ':' :: minutes ++ ':' :: seconds
    | _ => hours ++ (if total % 3600 = 0 then [] else ':' :: minutes) ++
        (if total % 60 = 0 then [] else ':' :: seconds)
where
  padDigits (width n : Nat) : List Char :=
    let digits := n.repr.toList
    List.replicate (width - digits.length) '0' ++ digits

/-- The name of a month or a day of the week, with a large letter first, and
cut to so many letters. -/
def nameOf (names : List String) (place : Nat) (length : Nat) : List Char :=
  match (names.getD place "").toList with
  | c :: rest => (c.toUpper :: rest).take length
  | [] => []

/-- The milliardth parts of a second in so many digits, as a style fills
them. -/
def partsText (s : Stamp) (style : StampStyle) : List Char :=
  let width := style.width.getD 9
  let digits := StampStyle.usual.number '0' 9 s.parts
  let digits := digits.take width ++ List.replicate (width - 9) '0'
  if style.fill = some '_' then
    let kept := ((digits.reverse.dropWhile (· = '0')).reverse)
    let kept := if kept.isEmpty then digits.take 1 else kept
    kept ++ List.replicate (digits.length - kept.length) ' '
  else digits

/-- A format that stands for others. -/
def longForm? (c : Char) : Option String :=
  match c with
  | 'D' | 'x' => some "%m/%d/%y"
  | 'F' => some "%+4Y-%m-%d"
  | 'R' => some "%H:%M"
  | 'r' => some "%I:%M:%S %p"
  | 'T' | 'X' => some "%H:%M:%S"
  | 'c' => some "%a %b %e %H:%M:%S %Y"
  | _ => none

/-- A field of a stamp, by its letter. -/
def field? (s : Stamp) (style : StampStyle) (c : Char) : Option (List Char) :=
  let m := s.moment
  let d := m.date
  let text (t : List Char) : Option (List Char) :=
    some (style.text (if style.isSwapped then t.map Char.toUpper else t))
  let number (fill : Char) (width : Nat) (n : Int) : Option (List Char) :=
    some (style.number fill width n)
  let hour := (m.hour + 11).fmod 12 + 1
  match c with
  | '%' => text ['%']
  | 'n' => text ['\n']
  | 't' => text ['\t']
  | 'a' => text (nameOf weekdayNames d.weekday 3)
  | 'A' => text (nameOf weekdayNames d.weekday 9)
  | 'b' | 'h' => text (nameOf monthNames (d.month - 1).toNat 3)
  | 'B' => text (nameOf monthNames (d.month - 1).toNat 9)
  | 'C' => number '0' 2 (d.year.fdiv 100)
  | 'd' => number '0' 2 d.day
  | 'e' => number ' ' 2 d.day
  | 'g' => number '0' 2 (d.week.1.fmod 100)
  | 'G' => number '0' 4 d.week.1
  | 'H' => number '0' 2 m.hour
  | 'I' => number '0' 2 hour
  | 'j' => number '0' 3 (d.yearDay + 1 : Nat)
  | 'k' => number ' ' 2 m.hour
  | 'l' => number ' ' 2 hour
  | 'm' => number '0' 2 d.month
  | 'M' => number '0' 2 m.minute
  | 'N' => some (s.partsText style)
  | 'p' =>
    let half := if m.hour < 12 then "AM" else "PM"
    some (style.text (if style.isSwapped then half.toList.map Char.toLower else half.toList))
  | 'P' => some (style.text (if m.hour < 12 then "am".toList else "pm".toList))
  | 'q' => number '0' 1 ((d.month - 1).fdiv 3 + 1)
  | 's' => number '0' 1 s.seconds
  | 'S' => number '0' 2 m.second
  | 'u' => number '0' 1 ((d.weekday + 6) % 7 + 1 : Nat)
  | 'U' => number '0' 2 ((d.yearDay + 7 - d.weekday) / 7 : Nat)
  | 'V' => number '0' 2 d.week.2
  | 'w' => number '0' 1 d.weekday
  | 'W' => number '0' 2 ((d.yearDay + 7 - (d.weekday + 6) % 7) / 7 : Nat)
  | 'y' => number '0' 2 (d.year.fmod 100)
  | 'Y' =>
    let sign := if style.fill = some '+' && d.year > 9999 then ['+'] else []
    some (sign ++ style.number '0' 4 d.year)
  | 'z' => some (style.text (s.offset style.colons))
  | 'Z' =>
    let name := s.setting.name
    some (style.text (if style.isSwapped then name.map Char.toLower else name))
  | _ => none

/-- A stamp by a format; formats stand for others at most so deep. -/
def format (s : Stamp) : (depth bound : Nat) → List Char → List Char
  | depth, bound + 1, '%' :: rest =>
    let (style, after) := StampStyle.usual.withFlags rest
    let (width, after) := match readDigits? 10 after with
      | some (width, after) => (some width, after)
      | none => (none, after)
    let colons := after.takeWhile (· = ':')
    let after := after.drop colons.length
    let after := match colons, after with
      | [], 'E' :: c :: after =>
        if "cCxXyY".toList.contains c then c :: after else 'E' :: c :: after
      | [], 'O' :: c :: after =>
        if "deHImMSuUVwWy".toList.contains c then c :: after else 'O' :: c :: after
      | _, after => after
    let style := { style with width := width, colons := colons.length }
    match after with
    | [] => '%' :: rest
    | c :: after =>
      match if colons.isEmpty || c = 'z' then s.field? style c else none with
      | some text => text ++ s.format depth bound after
      | none =>
        match longForm? c, depth with
        | some form, depth + 1 =>
          let text := s.format depth form.length form.toList
          style.text (if style.isSwapped then text.map Char.toUpper else text) ++
            s.format (depth + 1) bound after
        | _, depth =>
          let skipped := rest.take (rest.length - after.length)
          '%' :: skipped ++ s.format depth bound after
  | depth, bound + 1, c :: rest => c :: s.format depth bound rest
  | _, _, _ => []

end Stamp

-- ================================================================== date

/-- The formats that are asked for by the names of their precision. -/
def precisionFormat? (letter : Char) (precision : List Char) : Option String :=
  match letter, String.ofList precision with
  | 'I', "" | 'I', "date" => some "%Y-%m-%d"
  | 'I', "hours" => some "%Y-%m-%dT%H%:z"
  | 'I', "minutes" => some "%Y-%m-%dT%H:%M%:z"
  | 'I', "seconds" => some "%Y-%m-%dT%H:%M:%S%:z"
  | 'I', "ns" => some "%Y-%m-%dT%H:%M:%S,%N%:z"
  | 'F', "date" => some "%Y-%m-%d"
  | 'F', "seconds" => some "%Y-%m-%d %H:%M:%S%:z"
  | 'F', "ns" => some "%Y-%m-%d %H:%M:%S.%N%:z"
  | _, _ => none

/-- The options of `date`. -/
def dateOptions : Options :=
  { plain := "uR", valued := "dfrsF", optional := "I"
    long := [("date", 'd'), ("file", 'f'), ("iso-8601", 'I'), ("reference", 'r'),
      ("rfc-2822", 'R'), ("rfc-822", 'R'), ("rfc-email", 'R'), ("rfc-3339", 'F'), ("set", 's'),
      ("uct", 'u'), ("utc", 'u'), ("universal", 'u')] }

/-- The format that options and arguments ask for, or the complaint about
what they ask for. -/
def dateFormat (i : Invocation) (p : Parsed) : Except Completion (List Char) :=
  let misused (reason : List Char) : Except Completion (List Char) :=
    .error (.misusedFor i 1 reason)
  let many : Except Completion (List Char) :=
    .error (.failing i 1 "multiple output formats specified".toList)
  let asked := p.given.filter fun g => g.1 = 'I' || g.1 = 'F' || g.1 = 'R'
  match asked, p.operands with
  | _, _ :: extra :: _ => misused ("extra operand ".toList ++ ticked extra)
  | [], [] => .ok "%a %b %e %H:%M:%S %Z %Y".toList
  | [], ('+' :: format) :: _ => .ok format
  | _ :: _ :: _, _ => many
  | _ :: _, ('+' :: _) :: _ => many
  | [('R', _)], _ => .ok "%a, %d %b %Y %H:%M:%S %z".toList
  | [(letter, precision)], _ =>
    match precisionFormat? letter precision with
    | some format => .ok format.toList
    | none =>
      let (name, valid) := if letter = 'I' then
          ("--iso-8601", ["hours", "minutes", "date", "seconds", "ns"])
        else ("--rfc-3339", ["date", "seconds", "ns"])
      misused (['\n'].intercalate
        (("invalid argument ".toList ++ ticked precision ++ " for ".toList ++ ticked name.toList) ::
          "Valid arguments are:".toList ::
          valid.map fun v => "  - ".toList ++ ticked v.toList))
  | [], operand :: _ =>
    if p.has 'd' || p.has 'f' || p.has 'r' || p.has 's' then
      misused ("the argument ".toList ++ ticked operand ++ " lacks a leading \x27+\x27;\n".toList ++
        "when using an option to specify date(s), any non-option\n".toList ++
        "argument must be a format string beginning with \x27+\x27".toList)
    else .ok []

/-- Prints a moment: that which is told, or the one at which it is run. -/
def date (now : Int) : Tool := fun i =>
  match dateOptions.parse false i.arguments with
  | .error fault => .refused i 1 fault
  | .ok p =>
    match dateFormat i p with
    | .error completion => completion
    | .ok format =>
      let here := if p.has 'u' then Zone.universal
        else ((i.environment.lookup "TZ".toList).map Zone.ofText).getD Zone.universal
      let line (time : Int × Nat) : List Char :=
        (Stamp.of here time).format 2 (format.length + 1) format ++ ['\n']
      let invalid (s : List Char) : List Char :=
        "date: invalid date ".toList ++
          ticked (s.flatMap fun c => if c = '\x27' then ['\\', c] else [c]) ++ ['\n']
      let told (s : List Char) : Except (List Char) (List Char) :=
        match dateSeconds? here now s with
        | some time => .ok (line time)
        | none => .error (invalid s)
      match p.operands.head? with
      | some ('+' :: _) | none =>
        match p.value? 's', p.value? 'f', p.value? 'd', p.value? 'r' with
        | some s, _, _, _ =>
          match dateSeconds? here now s with
          | some time =>
            ((Completion.printing i (line time)).precededBy 2
              "date: cannot set date: Operation not permitted\n".toList).withStatus 1
          | none => .complaining i 1 (invalid s)
        | none, some path, _, _ =>
          let g := gather i [path]
          let results := (plainLines g.text).map told
          let done := g.telling i 1 ((2, g.errors) :: results.map fun r => match r with
            | .ok output => (1, output)
            | .error reason => (2, reason))
          if results.all Except.isOk then done else done.withStatus 1
        | none, none, some s, _ =>
          match told s with
          | .ok output => .printing i output
          | .error reason => .complaining i 1 reason
        | none, none, none, some path =>
          match i.disk.find i.here path true with
          | .ok _ => .printing i (line (now, 0))
          | .error fault =>
            .failing i 1 (path ++ ": ".toList ++ fault.words.toList)
        | none, none, none, none => .printing i (line (now, 0))
      | some operand => .complaining i 1 (invalid operand)

end ClrListing.Script
