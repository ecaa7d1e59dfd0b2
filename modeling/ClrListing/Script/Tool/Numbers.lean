/-
Tools about numbers: runs of numbers with a step between them (`seq`), and
numbers as products (`factor`).

A run is exact: its numbers are counted in units of the smallest decimal
place that an argument names, and only their text is rounded.
-/
import ClrListing.Script.Tool.Printing

namespace ClrListing.Script

-- ============================================================== numerals

/-- A number as it was written. -/
structure Numeral where
  /-- The number in units of a decimal place. -/
  units : Int
  /-- The decimal place of the units. -/
  scale : Nat
  /-- The places after the point that the text shows. -/
  places : Nat
  /-- The width of the text, without its power of ten. -/
  width : Int
  deriving DecidableEq, Repr, Inhabited

namespace Numeral

/-- The number one, which stands for a start or a step that is left out. -/
def one : Numeral := ⟨1, 0, 0, 1⟩

/-- The number in units of a lower place. -/
def unitsAt (n : Numeral) (scale : Nat) : Int :=
  n.units * Int.ofNat (Nat.pow 10 (scale - n.scale))

/-- The power of ten after a number, which may be left out. -/
def power? : List Char → Option Int
  | [] => some 0
  | 'e' :: rest | 'E' :: rest =>
    let (isNegative, digits) := readSign rest
    (natural? digits).map fun n => if isNegative then -(n : Int) else n
  | _ => none

/-- The number that a text stands for. -/
def read? (s : List Char) : Option Numeral := do
  let s := s.dropWhile isSpace
  let text := s.dropWhile (· = '+')
  if text.length + 1 < s.length then none
  let (isNegative, body) := readSign text
  if text.length < s.length && isNegative then none
  let whole := body.takeWhile Char.isDigit
  let rest := body.drop whole.length
  let hasPoint := rest.head? = some '.'
  let part := if hasPoint then (rest.drop 1).takeWhile Char.isDigit else []
  let after := if hasPoint then rest.drop (part.length + 1) else rest
  let n ← natural? (whole ++ part)
  let power ← power? after
  let sign : Int := if isNegative then -1 else 1
  let lift := power.toNat - part.length
  let body : Int := text.length - after.length + if !hasPoint then 0
    else if part.isEmpty then -1 else if whole.isEmpty then 1 else 0
  let shown := part.length - power.toNat
  return {
    units := sign * n * Int.ofNat (Nat.pow 10 lift)
    scale := part.length - power.toNat + (-power).toNat
    places := shown + (-power).toNat
    width := if power < 0 then
        body + (-power) + if hasPoint && !part.isEmpty then 0 else 1
      else body + lift - if hasPoint && shown = 0 && !part.isEmpty then 1 else 0 }

/-- The width of the text with other places after the point. -/
def widthAt (n : Numeral) (places : Nat) : Int :=
  n.width + ((places : Int) - n.places) +
    if n.places = 0 && places ≠ 0 then 1 else if n.places ≠ 0 && places = 0 then -1 else 0

end Numeral

-- ============================================================= templates

/-- How the numbers of a run are printed: a directive with texts around
it. -/
structure Template where
  before : List Char
  layout : Layout
  letter : Char
  after : List Char
  deriving DecidableEq, Repr, Inhabited

namespace Template

/-- A text up to a sign that is not doubled, with doubled signs made
single, and what follows that sign. -/
def plainPart : List Char → List Char × Option (List Char)
  | '%' :: '%' :: rest =>
    let (text, directive) := plainPart rest
    ('%' :: text, directive)
  | '%' :: rest => ([], some rest)
  | c :: rest =>
    let (text, directive) := plainPart rest
    (c :: text, directive)
  | [] => ([], none)

/-- The template that a format gives, or what is wrong with it. -/
def read (format : List Char) : Except (List Char) Template :=
  let fail (what : List Char) : Except (List Char) Template :=
    .error ("format ".toList ++ ticked format ++ what)
  match plainPart format with
  | (_, none) => fail " has no % directive".toList
  | (before, some directive) =>
    let flags := directive.takeWhile fun c => "-+#0 \x27".toList.contains c
    let rest := directive.drop flags.length
    let width := rest.takeWhile Char.isDigit
    let rest := rest.drop width.length
    let (places, rest) := match rest with
      | '.' :: rest =>
        let digits := rest.takeWhile Char.isDigit
        (some ((natural? digits).getD 0), rest.drop digits.length)
      | _ => (none, rest)
    match if rest.head? = some 'L' then rest.drop 1 else rest with
    | [] => fail " ends in %".toList
    | letter :: rest =>
      if !"efgaEFGA".toList.contains letter then
        fail (" has unknown %".toList ++ letter :: " directive".toList)
      else match plainPart rest with
        | (_, some _) => fail " has too many % directives".toList
        | (after, none) =>
          .ok ⟨before, ⟨flags, (natural? width).getD 0, places⟩, letter, after⟩

/-- The text of a number in units of a decimal place. -/
def text (t : Template) (scale : Nat) (n : Int) : List Char :=
  t.before ++ t.layout.fraction t.letter (n < 0) ⟨n.natAbs, Nat.pow 10 scale⟩ ++ t.after

/-- The template for numbers of a run that all get the same places after the
point, and the same width if `isEven` holds. -/
def ofRun (isEven : Bool) (first step last : Numeral) : Template :=
  let places := max first.places step.places
  let width := if isEven then max (first.widthAt places) (last.widthAt places) else 0
  ⟨[], ⟨['0'], width.toNat, some places⟩, 'f', []⟩

end Template

-- =================================================================== seq

/-- The numbers from one to another, by a step. -/
def numberRun (first step last : Int) : List Int :=
  let isEmpty := if step < 0 then first < last else last < first
  if isEmpty then []
  else (List.range ((last - first).natAbs / step.natAbs + 1)).map fun n =>
    first + Int.ofNat n * step

/-- Arguments of which the first negative number starts those that are not
options. -/
def withNegatives : List (List Char) → List (List Char)
  | [] => []
  | argument :: rest =>
    match argument with
    | '-' :: c :: more =>
      if c.isDigit || c = '.' then ['-', '-'] :: argument :: rest
      else if argument = ['-', '-'] then argument :: rest
      else if more.isEmpty && (c = 's' || c = 'f') then match rest with
        | value :: rest => argument :: value :: withNegatives rest
        | [] => [argument]
      else argument :: withNegatives rest
    | _ => argument :: rest

/-- Why there is no run of numbers. -/
inductive RunFault where
  | number (s : List Char)
  | step (s : List Char)

/-- How a fault is told. -/
def RunFault.message : RunFault → List Char
  | number s => "invalid floating point argument: ".toList ++ ticked s
  | step s => "invalid Zero increment value: ".toList ++ ticked s

/-- The start, the step and the end of a run. -/
def runOf (operands : List (List Char)) : Except RunFault (Numeral × Numeral × Numeral) := do
  let number (s : List Char) : Except RunFault Numeral := match Numeral.read? s with
    | some n => .ok n
    | none => .error (.number s)
  match operands with
  | [last] => return (.one, .one, ← number last)
  | [first, last] => return (← number first, .one, ← number last)
  | first :: step :: rest =>
    let start ← number first
    let by_ ← number step
    if by_.units = 0 then throw (.step step)
    return (start, by_, ← number (rest.headD []))
  | [] => throw (.number [])

/-- Prints numbers on lines of their own. -/
def seq : Tool := fun i =>
  match (Options.of "w" "sf" [("equal-width", 'w'), ("separator", 's'), ("format", 'f')]).parse
      true (withNegatives i.arguments) with
  | .error fault => .refused i 1 fault
  | .ok p =>
    match p.operands with
    | [] => .lacking i 1 "operand" []
    | _ :: _ :: _ :: extra :: _ => .excessive i 1 extra
    | operands =>
      match (p.value? 'f').mapM Template.read with
      | .error reason => .failing i 1 reason
      | .ok given =>
        if given.isSome && p.has 'w' then
          .misusedFor i 1
            "format string may not be specified when printing equal width strings".toList
        else match runOf operands with
          | .error fault => .misusedFor i 1 fault.message
          | .ok (first, step, last) =>
            let scale := max first.scale (max step.scale last.scale)
            let template := given.getD (.ofRun (p.has 'w') first step last)
            let texts := (numberRun (first.unitsAt scale) (step.unitsAt scale)
              (last.unitsAt scale)).map (template.text scale)
            let separator := (p.value? 's').getD ['\n']
            .printing i (if texts.isEmpty then [] else separator.intercalate texts ++ ['\n'])

-- ================================================================ factor

/-- The prime factors of a number, of which none is smaller than the one
given; there are at most `bound` steps. -/
def primeFactors : (bound : Nat) → (divisor : Nat) → Nat → List Nat
  | 0, _, n => [n]
  | bound + 1, divisor, n =>
    if n < 2 then []
    else if n < divisor * divisor then [n]
    else if n % divisor = 0 then divisor :: primeFactors bound divisor (n / divisor)
    else primeFactors bound (divisor + 1) n

/-- Factors as powers: each with how often it stands there. -/
def powersOf (factors : List Nat) : List (Nat × Nat) :=
  factors.eraseDups.map fun p => (p, factors.count p)

/-- Prints numbers with their prime factors. -/
def factor : Tool := fun i =>
  match (Options.of "h" "" [("exponents", 'h')]).parse false i.arguments with
  | .error fault => .refused i 1 fault
  | .ok p =>
    let power (f : Nat × Nat) : List Char :=
      if f.2 = 1 then f.1.repr.toList else f.1.repr.toList ++ '^' :: f.2.repr.toList
    let line (s : List Char) : Telling :=
      match natural? (if s.head? = some '+' then s.drop 1 else s) with
      | some n =>
        let factors := primeFactors (n + 2) 2 n
        let texts := if p.has 'h' then (powersOf factors).map power
          else factors.map fun f => f.repr.toList
        (1, n.repr.toList ++ ':' :: texts.flatMap (' ' :: ·) ++ ['\n'])
      | none =>
        (2, "factor: ".toList ++ ticked s ++ " is not a valid positive integer\n".toList)
    let lines := (if p.operands.isEmpty then blankWords i.input else p.operands).map line
    { Completion.ofStatus i (if lines.any fun t => t.1 = 2 then 1 else 0) with
      told := (lines.filter fun t => t.1 = 2) ++ lines.filter fun t => t.1 = 1
      left := if p.operands.isEmpty then [] else i.input }

end ClrListing.Script
