/-
Numbers as scripts write them.

Whole numbers of 64 bits have a sign, and decimal, octal or hexadecimal
digits. Numbers with a point are read from decimal text, and written with so
many digits. Such a number is kept as the nearest one of 64 bits, and is
written exactly, rounded to the nearest digit; a tie goes to the even digit.
-/
import ClrListing.Text.Hex

namespace ClrListing.Script

open Text

/-- A blank between words, or an end of a line or page. -/
def isSpace (c : Char) : Bool := c = ' ' || (9 ≤ c.toNat && c.toNat ≤ 13)

/-- How many numbers there are of 64 bits. -/
def wordCount : Nat := 0x10000000000000000

/-- A number cut to 64 bits. -/
def wrapped (n : Int) : Int := n.bmod wordCount

/-- Whether a number has 64 bits. -/
def isWord (n : Int) : Bool := wrapped n = n

/-- The nearest number of 64 bits. -/
def clamped (n : Int) : Int := max (-0x8000000000000000) (min 0x7fffffffffffffff n)

/-- The value of a digit in a base. -/
def digit? (base : Nat) (c : Char) : Option Nat :=
  (Hex.value? c).filter fun v => v < base

/-- The longest run of digits in a base that a text opens with, and the
rest, if there are any. -/
def readDigits? (base : Nat) (s : List Char) : Option (Nat × List Char) :=
  let digits := s.takeWhile fun c => (digit? base c).isSome
  if digits.isEmpty then none
  else some (digits.foldl (fun n c => base * n + (digit? base c).getD 0) 0,
    s.drop digits.length)

/-- A number without a sign, in the base that its start tells. -/
def readPlain? (s : List Char) : Option (Nat × List Char) :=
  match s with
  | '0' :: x :: rest =>
    if x = 'x' || x = 'X' then
      match readDigits? 16 rest with
      | some r => some r
      | none => some (0, x :: rest)
    else readDigits? 8 s
  | _ => readDigits? 10 s

/-- The sign that a text opens with, and the rest. -/
def readSign (s : List Char) : Bool × List Char :=
  match s with
  | '-' :: rest => (true, rest)
  | '+' :: rest => (false, rest)
  | _ => (false, s)

/-- A number with blanks and a sign before it, read off the start of a text
by a rule for what has no sign. -/
def readSigned? (plain : List Char → Option (Nat × List Char)) (s : List Char) :
    Option (Int × List Char) :=
  let (isNegative, s) := readSign (s.dropWhile isSpace)
  (plain s).map fun r => (if isNegative then -Int.ofNat r.1 else Int.ofNat r.1, r.2)

/-- The number of 64 bits that a whole text stands for in decimal digits;
blanks around it do not count. -/
def decimal? (s : List Char) : Option Int := do
  let (n, rest) ← readSigned? (readDigits? 10) s
  if rest.all isSpace && isWord n then some n else none

/-- The number of a whole text without a sign. -/
def natural? (s : List Char) : Option Nat := do
  let (n, rest) ← readDigits? 10 s
  if rest.isEmpty then some n else none

/-- The digits of a number. -/
def digitsOf (n : Int) : List Char := (toString n).toList

/-- A number that is not negative, as a fraction. -/
structure Fraction where
  numerator : Nat
  denominator : Nat
  deriving DecidableEq, Repr, Inhabited

namespace Fraction

/-- The fraction that a number is, which is not negative and has an end. -/
def ofFloat (x : Float) : Fraction :=
  let bits := x.toBits.toNat
  let exponent := bits / 0x10000000000000 % 0x800
  let significand := bits % 0x10000000000000
  let mantissa := if exponent = 0 then significand else significand + 0x10000000000000
  let power := max exponent 1
  if power ≥ 1075 then ⟨mantissa * Nat.pow 2 (power - 1075), 1⟩
  else ⟨mantissa, Nat.pow 2 (1075 - power)⟩

/-- A number divided by another, rounded to the nearest; a tie goes to the
even one. -/
def roundDiv (n d : Nat) : Nat :=
  let q := n / d
  let r := n % d
  if 2 * r > d || (2 * r = d && q % 2 = 1) then q + 1 else q

/-- The fraction in units of a power of ten, rounded. -/
def scaled (f : Fraction) (power : Int) : Nat :=
  if power ≥ 0 then roundDiv (f.numerator * Nat.pow 10 power.toNat) f.denominator
  else roundDiv f.numerator (f.denominator * Nat.pow 10 (-power).toNat)

/-- The digits of a number, filled with zeros up to a width. -/
def zeroPadded (width n : Nat) : List Char :=
  let digits := n.repr.toList
  List.replicate (width - digits.length) '0' ++ digits

/-- The fraction with so many digits after the point. -/
def fixed (f : Fraction) (places : Nat) : List Char :=
  let digits := zeroPadded (places + 1) (f.scaled places)
  let whole := digits.take (digits.length - places)
  if places = 0 then whole else whole ++ '.' :: digits.drop (digits.length - places)

/-- The power of ten of the first digit that is not zero. -/
def magnitude (f : Fraction) : Int :=
  if f.numerator = 0 then 0
  else
    let guess : Int := (f.numerator.repr.length : Int) - f.denominator.repr.length
    if f.scaled 0 = 0 || guess ≤ 0 then
      let below := (List.range 400).find? fun (k : Nat) =>
        decide (f.numerator * Nat.pow 10 k ≥ f.denominator)
      match below with
      | some 0 => if f.numerator ≥ f.denominator * 10 then 1 else 0
      | some k => -(k : Int)
      | none => 0
    else if f.numerator ≥ f.denominator * Nat.pow 10 guess.toNat then guess else guess - 1

/-- The digits with so many after the point, and the power of ten. -/
def significant (f : Fraction) (places : Nat) : List Char × Int :=
  let power := f.magnitude
  let digits := zeroPadded (places + 1) (f.scaled (places - power))
  if digits.length > places + 1 then (digits.dropLast, power + 1) else (digits, power)

/-- The text of a power of ten. -/
def exponentText (letter : Char) (power : Int) : List Char :=
  letter :: (if power < 0 then '-' else '+') :: zeroPadded 2 power.natAbs

/-- The fraction with one digit before the point, so many after it, and a
power of ten. -/
def scientific (f : Fraction) (places : Nat) (letter : Char) : List Char :=
  let (digits, power) := f.significant places
  let point := if places = 0 then [] else '.' :: digits.drop 1
  digits.take 1 ++ point ++ exponentText letter power

/-- Digits without the zeros after the point that mean nothing. -/
def withoutZeros (s : List Char) : List Char :=
  if s.contains '.' then
    let kept := (s.reverse.dropWhile (· = '0')).reverse
    if kept.getLast? = some '.' then kept.dropLast else kept
  else s

/-- The fraction with so many digits at most, in the shorter form. -/
def general (f : Fraction) (digits : Nat) (letter : Char) : List Char :=
  let digits := max digits 1
  let (run, power) := f.significant (digits - 1)
  if power < -4 || power ≥ digits then
    let point := withoutZeros (run.take 1 ++ '.' :: run.drop 1)
    point ++ exponentText letter power
  else withoutZeros (f.fixed ((digits : Int) - 1 - power).toNat)

end Fraction

/-- The digits that a text opens with, and the rest. -/
def digitRun (s : List Char) : List Char × List Char :=
  (s.takeWhile Char.isDigit, s.dropWhile Char.isDigit)

/-- The power of ten that a text opens with, and the rest. -/
def readPower (s : List Char) : Int × List Char :=
  match s with
  | e :: rest =>
    if e = 'e' || e = 'E' then
      match readSigned? (readDigits? 10) rest with
      | some r => if rest.head?.any isSpace then (0, s) else r
      | none => (0, s)
    else (0, s)
  | [] => (0, s)

/-- The number with a point that a text opens with: whether it is
negative, its size, and the rest of the text. -/
def readDecimal? (s : List Char) : Option (Bool × Float × List Char) :=
  let (isNegative, s) := readSign (s.dropWhile isSpace)
  let (whole, rest) := digitRun s
  let (part, rest) := match rest with
    | '.' :: after => digitRun after
    | _ => ([], rest)
  if whole.isEmpty && part.isEmpty then none
  else
    let (power, rest) := readPower rest
    let digits := (readDigits? 10 (whole ++ part)).map Prod.fst
    let mantissa := digits.getD 0
    let shift := power - part.length
    let size := if shift ≥ 0 then Float.ofScientific (mantissa * Nat.pow 10 shift.toNat) false 0
      else Float.ofScientific mantissa true (-shift).toNat
    some (isNegative, size, rest)

end ClrListing.Script
