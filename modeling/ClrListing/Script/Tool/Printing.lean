/-
Tools that print what they are told to: texts with escapes, and texts by a
format.
-/
import ClrListing.Script.Number
import ClrListing.Script.Tool.Basic

namespace ClrListing.Script

open Text

-- ============================================================== escapes

/-- The value of an octal digit. -/
def octal? (c : Char) : Option Nat := digit? 8 c

/-- The longest run of at most `bound` octal digits, as its length and its
value. -/
def octalRun (bound : Nat) (s : List Char) : Nat × Nat :=
  let digits := (s.take bound).takeWhile fun c => (octal? c).isSome
  (digits.length, digits.foldl (fun n c => 8 * n + (octal? c).getD 0) 0)

/-- What a letter after a backslash stands for. -/
def control? : Char → Option Char
  | 'a' => some '\x07'
  | 'b' => some '\x08'
  | 'e' => some '\x1b'
  | 't' => some '\t'
  | 'n' => some '\n'
  | 'v' => some '\x0b'
  | 'f' => some '\x0c'
  | 'r' => some '\r'
  | '\\' => some '\\'
  | _ => none

/-- The octet of a number, of which the low bits count. -/
def octet (n : Nat) : Char := Char.ofNat (n % 256)

/-- What stands after a backslash, and how many characters that is. After
a zero `zeroDigits` more digits count. -/
def escaped (zeroDigits : Nat) : List Char → List Char × Nat
  | [] => (['\\'], 0)
  | c :: rest =>
    match control? c with
    | some d => ([d], 1)
    | none =>
      if c = '0' then
        let (size, value) := octalRun zeroDigits rest
        ([octet value], size + 1)
      else if (octal? c).isSome then
        let (size, value) := octalRun 3 (c :: rest)
        ([octet value], size)
      else (['\\', c], 1)

/-- The longest run of at most `bound` hexadecimal digits, as its length and
its value. -/
def hexRun (bound : Nat) (s : List Char) : Nat × Nat :=
  let digits := (s.take bound).takeWhile fun c => (digit? 16 c).isSome
  (digits.length, digits.foldl (fun n c => 16 * n + (digit? 16 c).getD 0) 0)

/-- A character by its number of `size` hexadecimal digits, as far as the
tools know it; others are left as they are. -/
def characterText (letter : Char) (size n : Nat) : List Char :=
  if n < 0x80 then [Char.ofNat n]
  else '\\' :: letter :: (Hex.padded size n).map Char.toUpper

/-- What stands after a backslash where characters may be given in
hexadecimal digits, and how many characters that is; nothing if there are
too few digits. -/
def numberedEscape? (zeroDigits : Nat) : List Char → Option (List Char × Nat)
  | 'x' :: rest =>
    let (size, value) := hexRun 2 rest
    if size = 0 then none else some ([octet value], size + 1)
  | 'u' :: rest => character? 'u' 4 rest
  | 'U' :: rest => character? 'U' 8 rest
  | '\x22' :: _ => some (['\x22'], 1)
  | rest => some (escaped zeroDigits rest)
where
  character? (letter : Char) (size : Nat) (rest : List Char) : Option (List Char × Nat) :=
    let (found, value) := hexRun size rest
    if found < size then none else some (characterText letter size value, size + 1)

/-- What stands after a backslash where only octets may be given in
hexadecimal digits. -/
def octetEscape (s : List Char) : List Char × Nat :=
  if s.head? = some 'x' then (numberedEscape? 3 s).getD (['\\'], 0) else escaped 3 s

/-- A text with its escapes replaced as `escape` says, after `skip`
characters that are read already, and whether a stop escape ended it. -/
def unescapeAfter (escape : List Char → List Char × Nat) :
    (skip : Nat) → List Char → List Char × Bool
  | _, [] => ([], false)
  | skip + 1, _ :: rest => unescapeAfter escape skip rest
  | 0, '\\' :: rest =>
    if rest.head? = some 'c' then ([], true)
    else
      let (text, size) := escape rest
      let (later, stopped) := unescapeAfter escape size rest
      (text ++ later, stopped)
  | 0, c :: rest =>
    let (later, stopped) := unescapeAfter escape 0 rest
    (c :: later, stopped)

/-- A text with its escapes replaced, and whether a stop escape ended
it. -/
def unescape (s : List Char) : List Char × Bool := unescapeAfter (escaped 3) 0 s

-- ================================================================= echo

/-- Prints its arguments on a line, or without ending the line; escapes
are replaced. -/
def echo : Tool := fun i =>
  match i.arguments with
  | ['-', 'n'] :: rest => .printing i (unescape (spaced rest)).1
  | arguments =>
    let (text, stopped) := unescape (spaced arguments)
    .printing i (if stopped then text else text ++ ['\n'])

/-- Whether an argument consists of options for printing. -/
def isEchoOption (s : List Char) : Bool :=
  match s with
  | '-' :: c :: rest => (c :: rest).all fun c => c = 'n' || c = 'e' || c = 'E'
  | _ => false

/-- Prints its arguments on a line; escapes are replaced if that is asked
for. -/
def plainEcho : Tool := fun i =>
  let options := i.arguments.takeWhile isEchoOption
  let letters := options.flatMap fun s => s.drop 1
  let text := spaced (i.arguments.drop options.length)
  let replaces := (letters.filter fun c => c ≠ 'n').getLast? = some 'e'
  let (text, stopped) := if replaces then unescapeAfter octetEscape 0 text else (text, false)
  .printing i (if letters.contains 'n' || stopped then text else text ++ ['\n'])

-- =============================================================== formats

/-- What a directive of a format asks for beside its letter. -/
structure Layout where
  flags : List Char
  width : Nat
  places : Option Nat
  deriving DecidableEq, Repr, Inhabited

namespace Layout

/-- A text in a width, filled with blanks. -/
def fill (l : Layout) (s : List Char) : List Char :=
  if l.flags.contains '-' then padEnd l.width s else padStart l.width s

/-- A sign and digits in a width, filled with zeros or blanks. -/
def fillNumber (l : Layout) (zeros : Bool) (sign digits : List Char) : List Char :=
  if zeros && l.flags.contains '0' && !l.flags.contains '-' then
    sign ++ List.replicate (l.width - sign.length - digits.length) '0' ++ digits
  else l.fill (sign ++ digits)

/-- The sign of a number. -/
def signOf (l : Layout) (isNegative : Bool) : List Char :=
  if isNegative then ['-']
  else if l.flags.contains '+' then ['+']
  else if l.flags.contains ' ' then [' ']
  else []

/-- Digits filled with zeros up to the places that are asked for. -/
def fillPlaces (l : Layout) (n : Nat) (digits : List Char) : List Char :=
  match l.places with
  | none => digits
  | some places =>
    if places = 0 && n = 0 then [] else List.replicate (places - digits.length) '0' ++ digits

/-- A whole number with a sign. -/
def signed (l : Layout) (n : Int) : List Char :=
  l.fillNumber l.places.isNone (l.signOf (n < 0)) (l.fillPlaces n.natAbs n.natAbs.repr.toList)

/-- A whole number without a sign in the digits of a base. -/
def unsigned (l : Layout) (letter : Char) (n : Nat) : List Char :=
  let digits := match letter with
    | 'o' => Nat.toDigits 8 n
    | 'x' => Hex.digits n
    | 'X' => (Hex.digits n).map Char.toUpper
    | _ => n.repr.toList
  let mark := if l.flags.contains '#' && n ≠ 0 then
      (if letter = 'o' then ['0'] else if letter = 'u' then [] else ['0', letter])
    else []
  l.fillNumber l.places.isNone mark (l.fillPlaces n digits)

/-- A fraction with a point. -/
def fraction (l : Layout) (letter : Char) (isNegative : Bool) (f : Fraction) : List Char :=
  let places := l.places.getD 6
  let digits := match letter with
    | 'f' | 'F' => f.fixed places
    | 'e' | 'E' => f.scientific places letter
    | 'g' => f.general places 'e'
    | _ => f.general places 'E'
  l.fillNumber true (l.signOf isNegative) digits

/-- A number with a point. -/
def pointed (l : Layout) (letter : Char) (isNegative : Bool) (x : Float) : List Char :=
  l.fraction letter isNegative (Fraction.ofFloat x)

end Layout

/-- What a pass over a format has got to. -/
structure Formatting where
  /-- What complaints start with. -/
  name : List Char
  /-- A program prints, which knows more escapes than a shell. -/
  isProgram : Bool
  output : List Char
  errors : List Char
  /-- The arguments that are left. -/
  arguments : List (List Char)
  /-- Nothing more is printed. -/
  isDone : Bool
  status : Nat
  deriving DecidableEq, Repr, Inhabited

namespace Formatting

/-- The same with more output. -/
def print (f : Formatting) (s : List Char) : Formatting := { f with output := f.output ++ s }

/-- The same with the next argument taken. -/
def next (f : Formatting) : Formatting := { f with arguments := f.arguments.tail }

/-- The same with a complaint. -/
def complain (f : Formatting) (reason : List Char) : Formatting :=
  { f with errors := f.errors ++ f.name ++ [':', ' '] ++ reason ++ ['\n'], status := 1 }

/-- The same, ended by a complaint. -/
def fail (f : Formatting) (reason : List Char) : Formatting :=
  { f.complain reason with isDone := true, status := if f.isProgram then 1 else 2 }

/-- The same with a complaint about an argument, in the words of a shell or
of a program. -/
def object (f : Formatting) (argument : List Char) (shell program : String) : Formatting :=
  if f.isProgram then f.complain (ticked argument ++ ": ".toList ++ program.toList)
  else f.complain (argument ++ ": ".toList ++ shell.toList)

/-- The complaint about an argument that is a number only so far. -/
def check (f : Formatting) (argument rest : List Char) (hasNumber : Bool) : Formatting :=
  if !hasNumber && !argument.isEmpty then
    f.object argument "expected numeric value" "expected a numeric value"
  else if !rest.isEmpty then
    f.object argument "not completely converted" "value not completely converted"
  else f

/-- The whole number of the next argument; the number of a character
stands behind a quote. -/
def wholeNumber (f : Formatting) : Int × Formatting :=
  match f.arguments with
  | [] => (0, f)
  | argument :: _ =>
    match argument with
    | '\x22' :: c :: _ | '\x27' :: c :: _ => ((c.toNat : Int), f.next)
    | _ =>
      match readSigned? readPlain? argument with
      | some (n, rest) =>
        let checked := f.next.check argument rest true
        if isWord n then (n, checked)
        else
          let reason := "Numerical result out of range"
          (clamped n, checked.object argument reason reason)
      | none => (0, f.next.check argument [] false)

/-- The number with a point of the next argument. -/
def decimalNumber (f : Formatting) : Bool × Float × Formatting :=
  match f.arguments with
  | [] => (false, 0, f)
  | argument :: _ =>
    match readDecimal? argument with
    | some (isNegative, x, rest) => (isNegative, x, f.next.check argument rest true)
    | none => (false, 0, f.next.check argument [] false)

/-- Prints the next argument as a directive asks. -/
def directive (f : Formatting) (l : Layout) (letter : Char) : Formatting :=
  let argument := f.arguments.headD []
  let cut (s : List Char) : List Char := match l.places with
    | some places => s.take places
    | none => s
  match letter with
  | 's' => f.next.print (l.fill (cut argument))
  | 'c' => f.next.print (l.fill (if argument.isEmpty then ['\x00'] else argument.take 1))
  | 'b' =>
    let escape (s : List Char) : List Char × Nat :=
      if f.isProgram then (numberedEscape? 3 s).getD (['\\'], 0) else escaped 3 s
    let (text, stopped) := unescapeAfter escape 0 argument
    { f.next.print (l.fill (cut text)) with isDone := stopped }
  | 'q' => f.next.print (shellQuoted argument)
  | 'd' | 'i' =>
    let (n, f) := f.wholeNumber
    f.print (l.signed n)
  | 'u' | 'o' | 'x' | 'X' =>
    let (n, f) := f.wholeNumber
    f.print (l.unsigned letter (n % wordCount).toNat)
  | 'e' | 'E' | 'f' | 'F' | 'g' | 'G' =>
    let (isNegative, x, f) := f.decimalNumber
    f.print (l.pointed letter isNegative x)
  | _ => f

/-- The letters of directives. -/
def letters (f : Formatting) : List Char :=
  "scbdiuoxXeEfFgG".toList ++ if f.isProgram then ['q'] else []

/-- A number in a directive, which an argument may stand for: the number,
the rest, and what is left of the arguments. -/
def measure (f : Formatting) (s : List Char) : Option Int × List Char × Formatting :=
  match s with
  | '*' :: rest =>
    let (n, f) := f.wholeNumber
    (some n, rest, f)
  | _ =>
    match readDigits? 10 s with
    | some (n, rest) => (some n, rest, f)
    | none => (none, s, f)

/-- Prints by the directive that a text opens with after its sign, and
gives the rest. -/
def readDirective (f : Formatting) (s : List Char) : Formatting × List Char :=
  let flags := s.takeWhile fun c => "#-+ 0".toList.contains c
  let (width, rest, f) := f.measure (s.drop flags.length)
  let (places, rest, f) := match rest with
    | '.' :: rest =>
      let (places, rest, f) := f.measure rest
      (some (places.getD 0), rest, f)
    | _ => (none, rest, f)
  let width := width.getD 0
  let layout : Layout := ⟨if width < 0 then '-' :: flags else flags, width.natAbs,
    places.bind fun n => if n < 0 then none else some n.toNat⟩
  let rest := if f.isProgram then rest.dropWhile fun c => "hlLjtz".toList.contains c else rest
  let written := '%' :: s.take (s.length - rest.length)
  match rest with
  | [] =>
    (f.fail (if f.isProgram then written ++ ": invalid conversion specification".toList
      else "missing format character".toList), [])
  | letter :: after =>
    if f.letters.contains letter then (f.directive layout letter, after)
    else
      let reason := if f.isProgram then ": invalid conversion specification"
        else ": invalid directive"
      (f.fail (written ++ letter :: reason.toList), after)

/-- Prints an escape after its backslash, and gives the rest. -/
def readEscape (f : Formatting) (s : List Char) : Formatting × List Char :=
  if f.isProgram then
    if s.head? = some 'c' then ({ f with isDone := true }, [])
    else match numberedEscape? 2 s with
      | some (text, size) => (f.print text, s.drop size)
      | none => (f.fail "missing hexadecimal number in escape".toList, [])
  else
    let (text, size) := escaped 2 s
    (f.print text, s.drop size)

/-- One pass over a format of at most so many characters. -/
def pass : (bound : Nat) → List Char → Formatting → Formatting
  | 0, _, f => f
  | bound + 1, s, f =>
    if f.isDone then f
    else match s with
      | [] => f
      | '\\' :: rest =>
        let (f, rest) := f.readEscape rest
        pass bound rest f
      | '%' :: '%' :: rest => pass bound rest (f.print ['%'])
      | '%' :: rest =>
        let (f, rest) := f.readDirective rest
        pass bound rest f
      | c :: rest => pass bound rest (f.print [c])

/-- Passes over a format while arguments are left and used; there are at
most `bound` passes. -/
def passes (format : List Char) : (bound : Nat) → Formatting → Formatting
  | 0, f => f
  | bound + 1, f =>
    let after := pass (format.length + 1) format f
    if after.isDone || after.arguments.isEmpty || after.arguments.length = f.arguments.length then
      after
    else passes format bound after

end Formatting

/-- Prints its arguments by a format, in a shell. -/
def printf : Tool := fun i =>
  let arguments := match i.arguments with
    | ['-', '-'] :: rest => rest
    | arguments => arguments
  match arguments with
  | [] => .failing i 2 "usage: printf format [arg ...]".toList
  | format :: rest =>
    if i.arguments.head? = some format && format.head? = some '-' && format.length > 1 then
      .failing i 2 ("Illegal option ".toList ++ format.take 2)
    else
      let f := Formatting.passes format (rest.length + 1)
        ⟨i.name, false, [], [], rest, false, 0⟩
      ((Completion.printing i f.output).precededBy 2 f.errors).withStatus f.status

/-- Prints its arguments by a format, as a program. -/
def plainPrintf : Tool := fun i =>
  let arguments := match i.arguments with
    | ['-', '-'] :: rest => rest
    | arguments => arguments
  match arguments with
  | [] => .misusedFor i 1 "missing operand".toList
  | format :: rest =>
    let f := Formatting.passes format (rest.length + 1) ⟨i.name, true, [], [], rest, false, 0⟩
    let warning := match f.arguments with
      | argument :: _ =>
        if f.isDone then []
        else i.name ++ ": warning: ignoring excess arguments, starting with ".toList ++
          ticked argument ++ ['\n']
      | [] => []
    ((Completion.printing i f.output).precededBy 2 (f.errors ++ warning)).withStatus f.status

-- =================================================================== yes

/-- The most lines that are printed without an end. -/
def lineBound : Nat := 0x4000

/-- Prints a line over and over; it is read only so often. -/
def yes : Tool := fun i =>
  match (Options.of "" "" []).parse false i.arguments with
  | .error fault => .refused i 1 fault
  | .ok p =>
    let line := if p.operands.isEmpty then ['y'] else spaced p.operands
    .printing i (unlines (List.replicate lineBound line))

end ClrListing.Script
