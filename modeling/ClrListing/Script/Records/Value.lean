/-
The values of programs for records, and the tables that they stand in.

A value is a number, a text, or what was read, which counts as a number
where it looks like one. A table has values by their keys, in the order in
which programs go through them.

A key is a whole number or a text. Keys are kept in chains, by the number
and, once one is looked for by its text or the table is gone through, by a
digest of the text; a key that is looked for moves to the front of its
chain. A table made of the parts of a text has no chains until another key
is asked for.
-/
import ClrListing.Script.Tool.Printing
import Std.Data.HashMap

namespace ClrListing.Script.Records

open Text

-- =============================================================== numbers

/-- The whole number that a number is, if it is one. -/
def whole? (x : Float) : Option Int :=
  if x.isNaN || x.isInf then none
  else
    let size := Fraction.ofFloat x.abs
    if size.numerator % size.denominator = 0 then
      let n := size.numerator / size.denominator
      some (if x < 0 then -(n : Int) else n)
    else none

/-- A number without what is behind its point. -/
def truncated (x : Float) : Int :=
  if x.isNaN || x.isInf then 0
  else
    let size := Fraction.ofFloat x.abs
    let n := size.numerator / size.denominator
    if x < 0 then -(n : Int) else n

/-- The number that is a fraction of a power of two, which it holds
exactly. -/
def exactly (f : Fraction) : Float :=
  (Float.ofNat f.numerator).scaleB (-(f.denominator.log2 : Int))

/-- What is left of a number after it is taken off another as often as it
can be; the sign is that of the other. -/
def remainder (x y : Float) : Float :=
  if x.isNaN || y.isNaN || x.isInf || y == 0 then 0 / 0
  else if y.isInf then x
  else
    let a := Fraction.ofFloat x.abs
    let b := Fraction.ofFloat y.abs
    let n := (a.numerator * b.denominator) % (b.numerator * a.denominator)
    let size := exactly ⟨n, a.denominator * b.denominator⟩
    if x < 0 then -size else size

/-- A power of a number. -/
def power (x y : Float) : Float := x.pow y

/-- The number that digits of sixteen with a point open with, and the rest;
its power is one of two. -/
def readHex? (s : List Char) : Option (Float × List Char) :=
  let isHex (c : Char) : Bool := (digit? 16 c).isSome
  let first := s.takeWhile isHex
  let after := s.drop first.length
  let (part, after) := match after with
    | '.' :: rest => (rest.takeWhile isHex, rest.dropWhile isHex)
    | _ => ([], after)
  if first.isEmpty && part.isEmpty then none
  else
    let value := ((readDigits? 16 (first ++ part)).map Prod.fst).getD 0
    let (shift, after) := match after with
      | c :: rest =>
        if c = 'p' || c = 'P' then
          match readSigned? (readDigits? 10) rest with
          | some (n, rest) => (n, rest)
          | none => (0, after)
        else (0, after)
      | [] => (0, after)
    some ((Float.ofNat value).scaleB (shift - 4 * part.length), after)

/-- The number that a text opens with after blanks, and the rest; nothing if
it opens with none. -/
def readNumber? (s : List Char) : Option (Float × List Char) :=
  let (isNegative, rest) := readSign (s.dropWhile isSpace)
  let signed (x : Float) : Float := if isNegative then -x else x
  let small := (rest.take 8).map Char.toLower
  match rest with
  | '0' :: x :: digits =>
    if x = 'x' || x = 'X' then
      match readHex? digits with
      | some (n, rest) => some (signed n, rest)
      | none => some (signed 0, x :: digits)
    else decimal s
  | _ =>
    if "infinity".toList.isPrefixOf small then some (signed (1 / 0), rest.drop 8)
    else if "inf".toList.isPrefixOf small then some (signed (1 / 0), rest.drop 3)
    else if "nan".toList.isPrefixOf small then some (0 / 0, rest.drop 3)
    else decimal s
where
  decimal (s : List Char) : Option (Float × List Char) :=
    (readDecimal? s).map fun r => (if r.1 then -r.2.1 else r.2.1, r.2.2)

-- ================================================================ values

/-- A value. -/
inductive Value where
  /-- Of what was given no value yet. -/
  | unset
  | number (x : Float)
  | text (s : List Char)
  /-- What was read. -/
  | read (s : List Char)
  deriving Repr, Inhabited

/-- What numbers with a point are written by. -/
abbrev NumberFormat := List Char

namespace Value

/-- The number that a text looks like as a whole. -/
def likeness? (s : List Char) : Option Float :=
  match s.dropWhile isSpace with
  | [] => none
  | c :: rest =>
    if c.isDigit || c = '.' || c = '+' || c = '-' then
      match readNumber? (c :: rest) with
      | some (x, after) => if after.all isSpace then some x else none
      | none => none
    else none

/-- The number of a value. -/
def toNumber : Value → Float
  | unset => 0
  | number x => x
  | text s | read s => ((readNumber? s).map Prod.fst).getD 0

/-- Whether a value holds. -/
def holds : Value → Bool
  | unset => false
  | number x => x != 0
  | text s => !s.isEmpty
  | read s =>
    match likeness? s with
    | some x => x != 0
    | none => !s.isEmpty

/-- The number that a value is compared as, if it is compared as one. -/
def compared? : Value → Option Float
  | unset => some 0
  | number x => some x
  | text _ => none
  | read s => likeness? s

/-- A truth as a value. -/
def ofBool (b : Bool) : Value := number (if b then 1 else 0)

/-- A number that has no size of its own as a text. -/
def oddText (x : Float) : List Char :=
  if x.isNaN then "-nan".toList else if x < 0 then "-inf".toList else "inf".toList

end Value

-- =============================================================== formats

/-- The largest whole numbers that are written without a point, with a sign
and without. -/
def signedLimit : Int := 0x7fffffffffffffff

/-- The whole number that a directive writes for a number. -/
def clampedWhole (x : Float) : Int :=
  if x.isNaN then -signedLimit - 1
  else if x.isInf then (if x < 0 then -signedLimit else wordCount - 1)
  else
    let n := truncated x
    if n < -signedLimit then -signedLimit else if n ≥ wordCount then wordCount - 1 else n

/-- A number with a point as a layout asks. -/
def pointedText (l : Layout) (letter : Char) (x : Float) : List Char :=
  if x.isNaN || x.isInf then
    let sign := if x < 0 || x.isNaN then ['-'] else l.signOf false
    l.fill (sign ++ (if x.isNaN then "nan" else "inf").toList)
  else
    let isNegative := x.toBits.toNat ≥ 0x8000000000000000
    l.pointed letter isNegative x.abs

/-- A number as a text: a whole one by its digits, and others by a
format of one directive. -/
def numberText (format : NumberFormat) (x : Float) : List Char :=
  match whole? x with
  | some n => if -signedLimit ≤ n && n < wordCount then digitsOf n else byFormat
  | none => byFormat
where
  byFormat : List Char :=
    match format with
    | '%' :: rest =>
      let flags := rest.takeWhile fun c => "#-+ 0".toList.contains c
      let (width, rest) := (readDigits? 10 (rest.drop flags.length)).getD
        (0, rest.drop flags.length)
      let (places, rest) := match rest with
        | '.' :: rest =>
          let (n, rest) := (readDigits? 10 rest).getD (0, rest)
          (some n, rest)
        | rest => (none, rest)
      match rest with
      | 'd' :: rest | 'i' :: rest =>
        (Layout.mk flags width places).signed (clampedWhole x) ++ rest
      | letter :: rest => pointedText ⟨flags, width, places⟩ letter x ++ rest
      | [] => format
    | format => format

/-- The text of a value, where numbers are written by a format. -/
def Value.toText (format : NumberFormat) : Value → List Char
  | unset => []
  | number x => numberText format x
  | text s | read s => s

/-- What a pass over a format has got to: what it wrote and the values that
are left. -/
structure Writing where
  output : List Char
  values : List Value

/-- The next of the values, if there is one. -/
def Writing.next? (w : Writing) : Option (Value × Writing) :=
  match w.values with
  | v :: rest => some (v, { w with values := rest })
  | [] => none

/-- A measure in a directive, which a value may stand for; nothing if there
are too few values. -/
def Writing.measure? (w : Writing) (s : List Char) : Option (Option Int × List Char × Writing) :=
  match s with
  | '*' :: rest => (w.next?).map fun r => (some (truncated r.1.toNumber), rest, r.2)
  | _ =>
    match readDigits? 10 s with
    | some (n, rest) => some (some n, rest, w)
    | none => some (none, s, w)

/-- Writes a value as a directive asks. -/
def directiveText (numbers : NumberFormat) (l : Layout) (letter : Char) (v : Value) : List Char :=
  let cut (s : List Char) : List Char := match l.places with
    | some places => s.take places
    | none => s
  match letter with
  | 's' => l.fill (cut (v.toText numbers))
  | 'c' =>
    let byNumber (x : Float) : List Char := [Char.ofNat ((truncated x).emod 256).toNat]
    let c := match v with
      | .number x => byNumber x
      | .read s =>
        match Value.likeness? s with
        | some x => byNumber x
        | none => s.take 1
      | .text s => s.take 1
      | .unset => []
    l.fill (if c.isEmpty then ['\x00'] else c)
  | 'd' | 'i' => l.signed (clampedWhole v.toNumber)
  | 'o' | 'x' | 'X' | 'u' =>
    l.unsigned letter ((clampedWhole v.toNumber).emod wordCount).toNat
  | _ => pointedText l letter v.toNumber

/-- Values by a format of at most so many characters. Where there are too few
of them, what is written up to there is the fault. -/
def formatted (numbers : NumberFormat) : (bound : Nat) → Writing → List Char →
    Except (List Char) (List Char)
  | 0, w, _ => .ok w.output
  | _, w, [] => .ok w.output
  | bound + 1, w, '%' :: '%' :: rest =>
    formatted numbers bound { w with output := w.output ++ ['%'] } rest
  | bound + 1, w, '%' :: s =>
    match directive? w s with
    | none => .error w.output
    | some (_, _, w, []) => .ok w.output
    | some (layout, v, w, letter :: rest) =>
      formatted numbers bound
        { w with output := w.output ++ directiveText numbers layout letter v } rest
  | bound + 1, w, c :: rest => formatted numbers bound { w with output := w.output ++ [c] } rest
where
  /-- The layout, the value and the rest of a directive, if there are values
  for all that it asks for. -/
  directive? (w : Writing) (s : List Char) : Option (Layout × Value × Writing × List Char) := do
    let flags := s.takeWhile fun c => "#-+ 0".toList.contains c
    let (width, rest, w) ← w.measure? (s.drop flags.length)
    let (places, rest, w) ← match rest with
      | '.' :: rest => do
        let (places, rest, w) ← w.measure? rest
        some (some (places.getD 0), rest, w)
      | _ => some (none, rest, w)
    let width := width.getD 0
    let layout : Layout := ⟨if width < 0 then '-' :: flags else flags, width.natAbs,
      places.bind fun n => if n < 0 then none else some n.toNat⟩
    let (v, w) ← w.next?
    some (layout, v, w, rest.dropWhile fun c => c = 'l' || c = 'h')

-- ================================================================ tables

/-- A key of a table. -/
inductive Key where
  | number (n : Int)
  | text (s : List Char)
  deriving DecidableEq, Repr, Inhabited

/-- How a key is written. -/
def Key.toText : Key → List Char
  | number n => digitsOf n
  | text s => s

/-- A digest of a text of 32 bits: each octet is mixed in and multiplied. -/
def chainDigest (s : List Char) : Nat :=
  s.foldl (fun h c => ((h ^^^ c.toNat) * 0x1000193) % 0x100000000) 0x811c9dc5

/-- Texts are hashed by their characters, these as the standard library
does it. -/
instance hashableText : Hashable (List Char) := @instHashableList Char instHashableChar

/-- Values by their keys. -/
structure Table where
  /-- How many chains there are; none in a table that is only a list. -/
  count : Nat
  numbers : Array (List Int)
  texts : Array (List (List Char))
  /-- The keys are in chains by their texts. -/
  hasTexts : Bool
  size : Nat
  values : Std.HashMap (List Char) Value

namespace Table

/-- A table without keys. -/
def empty : Table := ⟨0, #[], #[], false, 0, {}⟩

instance : Inhabited Table := ⟨empty⟩

/-- How many chains there are at first. -/
def startCount : Nat := 64

/-- The table of the parts of a text, by their places. -/
def ofParts (parts : List Value) : Table :=
  let values := parts.zipIdx.foldl (fun (m : Std.HashMap (List Char) Value) p =>
    m.insert (p.2 + 1).repr.toList p.1) {}
  ⟨0, #[], #[], false, parts.length, values⟩

/-- The chain of a number. -/
def numberChain (t : Table) (n : Int) : Nat := (n.emod t.count).toNat

/-- The chain of a text. -/
def textChain (t : Table) (s : List Char) : Nat := chainDigest s % t.count

/-- A key moved to the front of a chain. -/
def front [BEq α] (a : α) (chain : List α) : List α := a :: chain.filter fun b => !(b == a)

/-- How many keys there may be for each chain. -/
def chainLimit : Nat := 12

/-- The number of chains for so many keys, doubled at most so often. -/
def countFor (size : Nat) : (fuel count : Nat) → Nat
  | 0, count => count
  | fuel + 1, count => if size > chainLimit * count then countFor size fuel (2 * count) else count

/-- The table with chains. -/
def chained (t : Table) : Table :=
  if t.count > 0 then t
  else
    let count := countFor t.size 64 startCount
    let numbers := (List.range t.size).foldl (fun (chains : Array (List Int)) i =>
      chains.modify ((i + 1) % count) (((i + 1 : Nat) : Int) :: ·)) (.replicate count [])
    { t with count := count, numbers := numbers, texts := .replicate count [] }

/-- The table with its keys in chains by their texts. -/
def withTexts (t : Table) : Table :=
  let t := t.chained
  if t.hasTexts then t
  else
    let keys := t.numbers.toList.flatMap fun chain => chain.map digitsOf
    let texts := keys.foldl (fun (chains : Array (List (List Char))) key =>
      chains.modify (t.textChain key) (key :: ·)) t.texts
    { t with texts := texts, hasTexts := true }

/-- The keys in the order in which they are gone through, and the table
after that. -/
def keys (t : Table) : List (List Char) × Table :=
  if t.size = 0 then ([], t)
  else
    let t := t.withTexts
    (t.texts.toList.flatten, t)

/-- Chains in twice as many: what belongs to a chain of the new half keeps
its order. -/
def doubled (home : α → Nat) (chains : Array (List α)) : Array (List α) :=
  let stay := chains.mapIdx fun i chain => chain.filter fun a => home a = i
  let go := chains.mapIdx fun i chain => chain.filter fun a => home a ≠ i
  stay ++ go

/-- The table with more chains if it has too many keys for them. -/
def grown (t : Table) : Table :=
  if t.size ≤ chainLimit * t.count then t
  else
    let t := { t with count := 2 * t.count }
    { t with
      numbers := doubled (t.numberChain ·) t.numbers
      texts := doubled (t.textChain ·) t.texts }

/-- The table with a text at the front of its chain, which is new or was in
it. -/
def touchText (t : Table) (key : List Char) : Table :=
  let t := t.withTexts
  let isNew := !t.values.contains key
  let t := if isNew then
      { t with size := t.size + 1, values := t.values.insert key .unset }.grown
    else t
  { t with texts := t.texts.modify (t.textChain key) (front key) }

/-- The table with a number at the front of its chain. -/
def touchNumber (t : Table) (n : Int) : Table :=
  let t := t.chained
  let key := digitsOf n
  let isNew := !t.values.contains key
  let t := if t.hasTexts then
      if ((t.numbers[t.numberChain n]?).getD []).contains n then t else t.touchText key
    else if isNew then
      { t with size := t.size + 1, values := t.values.insert key .unset }.grown
    else t
  { t with numbers := t.numbers.modify (t.numberChain n) (front n) }

/-- Whether a number is a place in a table that is only a list. -/
def isPlace (t : Table) (n : Int) : Bool := t.count = 0 && 1 ≤ n && n ≤ t.size

/-- The table after a key was asked for; it has the key then. -/
def touch (t : Table) : Key → Table
  | .number n => if t.isPlace n then t else t.touchNumber n
  | .text s => t.touchText s

/-- Whether a table has a key, and the table after that was asked. -/
def has (t : Table) (key : Key) : Bool × Table :=
  if t.values.contains key.toText then (true, t.touch key)
  else (false, match key with
    | .text _ => if t.size = 0 then t else t.withTexts
    | .number _ => t)

/-- The value of a key. -/
def value (t : Table) (key : Key) : Value := (t.values[key.toText]?).getD .unset

/-- The table with a value for a key that it has. -/
def set (t : Table) (key : Key) (v : Value) : Table :=
  { t with values := t.values.insert key.toText v }

/-- The table without a key. -/
def erase (t : Table) (key : Key) : Table :=
  if !t.values.contains key.toText then t
  else
    let t := t.chained.touch key
    let text := key.toText
    let t := { t with
      size := t.size - 1
      values := t.values.erase text
      texts := if t.hasTexts then t.texts.modify (t.textChain text) (·.filter (· ≠ text))
        else t.texts
      numbers := match decimal? text with
        | some n => t.numbers.modify (t.numberChain n) (·.filter (· ≠ n))
        | none => t.numbers }
    if t.size = 0 then empty else t

end Table

end ClrListing.Script.Records
