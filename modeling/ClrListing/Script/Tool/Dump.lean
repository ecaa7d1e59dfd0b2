/-
Tools that show the octets of files by their numbers, write them as digits of
a large base, or read such digits.
-/
import ClrListing.Script.Tool.Basic

namespace ClrListing.Script

open Text

-- ================================================================= formats

/-- Digits of a base filled with zeros up to a width. -/
def zeroDigits (base width n : Nat) : List Char :=
  let digits := Nat.toDigits base n
  List.replicate (width - digits.length) '0' ++ digits

/-- How an octet is shown as a character. -/
def octetName (c : Char) : List Char :=
  match c with
  | '\x00' => ['\\', '0']
  | '\x07' => ['\\', 'a']
  | '\x08' => ['\\', 'b']
  | '\t' => ['\\', 't']
  | '\n' => ['\\', 'n']
  | '\x0b' => ['\\', 'v']
  | '\x0c' => ['\\', 'f']
  | '\r' => ['\\', 'r']
  | c => if ' ' ≤ c && c ≤ '~' then [c] else zeroDigits 8 3 c.toNat

/-- The names of the octets that are no signs. -/
def octetNames : List String :=
  ["nul", "soh", "stx", "etx", "eot", "enq", "ack", "bel", "bs", "ht", "nl", "vt", "ff", "cr", "so",
    "si", "dle", "dc1", "dc2", "dc3", "dc4", "nak", "syn", "etb", "can", "em", "sub", "esc", "fs",
    "gs", "rs", "us", "sp"]

/-- A way to show a group of octets: how many there are in one, how wide its
text is, the text, and whether the octets stand as signs after the line. -/
structure DumpFormat where
  size : Nat
  width : Nat
  text : List Char → List Char
  showsSigns : Bool

namespace DumpFormat

/-- The number of octets, the first of them the lowest. -/
def value (s : List Char) : Nat := s.foldr (fun c n => c.toNat + 256 * n) 0

/-- Shows octets as characters. -/
def characters : DumpFormat := ⟨1, 3, fun s => s.flatMap octetName, false⟩

/-- Shows octets by their names. -/
def names : DumpFormat :=
  ⟨1, 3, fun s => s.flatMap fun c =>
    let n := c.toNat % 128
    if n = 127 then "del".toList
    else match octetNames[n]? with
      | some name => name.toList
      | none => [Char.ofNat n], false⟩

/-- Shows groups of octets as numbers without a sign. -/
def numbers (base width size : Nat) : DumpFormat :=
  ⟨size, width, fun s => zeroDigits base width (value s), false⟩

/-- Shows groups of octets as decimal numbers. -/
def decimals (isSigned : Bool) (width size : Nat) : DumpFormat :=
  ⟨size, width, fun s =>
    let n : Int := value s
    digitsOf (if isSigned then n.bmod (Nat.pow 256 size) else n), false⟩

/-- The format of a letter for groups of a size. -/
def ofLetter? (letter : Char) (size : Nat) : Option DumpFormat :=
  let digits (widths : List (Nat × Nat)) : Option Nat := widths.lookup size
  match letter with
  | 'o' => (digits [(1, 3), (2, 6), (4, 11), (8, 22)]).map fun width => numbers 8 width size
  | 'x' => (digits [(1, 2), (2, 4), (4, 8), (8, 16)]).map fun width => numbers 16 width size
  | 'u' => (digits [(1, 3), (2, 5), (4, 10), (8, 20)]).map fun width => decimals false width size
  | 'd' => (digits [(1, 4), (2, 6), (4, 11), (8, 20)]).map fun width => decimals true width size
  | _ => none

/-- The size that a type is written with, and the rest. -/
def readSize (s : List Char) : Nat × List Char :=
  match readDigits? 10 s with
  | some r => r
  | none =>
    match s with
    | 'C' :: rest => (1, rest)
    | 'S' :: rest => (2, rest)
    | 'I' :: rest => (4, rest)
    | 'L' :: rest => (8, rest)
    | rest => (4, rest)

/-- The formats of types as options write them, or the complaint about
them. -/
def ofTypes (whole : List Char) : (bound : Nat) → List Char → Except (List Char) (List DumpFormat)
  | 0, _ | _, [] => .ok []
  | bound + 1, letter :: rest => do
    let (format, rest) ← if letter = 'c' then .ok (characters, rest)
      else if letter = 'a' then .ok (names, rest)
      else
        let (size, rest) := readSize rest
        if !"oxud".toList.contains letter then
          .error ("invalid character ".toList ++ ticked [letter] ++ " in type string ".toList
            ++ ticked whole)
        else match ofLetter? letter size with
          | some format => .ok (format, rest)
          | none =>
            .error ("invalid type string ".toList ++ ticked whole
              ++ ";\nthis system doesn\x27t provide a ".toList ++ size.repr.toList
              ++ "-byte integral type".toList)
    match rest with
    | 'z' :: rest => return { format with showsSigns := true } :: (← ofTypes whole bound rest)
    | rest => return format :: (← ofTypes whole bound rest)

/-- A line of octets in a format, in which each of the groups is as wide as
all of the line allows. -/
def line (f : DumpFormat) (blockWidth width : Nat) (s : List Char) : List Char :=
  let fields := width / f.size
  let spare := blockWidth - (f.width + 1) * fields
  let groups := (List.range ((s.length + f.size - 1) / f.size)).map fun n =>
    (s.drop (n * f.size)).take f.size
  let shown := groups.mapIdx fun n group =>
    let before := spare * (fields - n) / fields - spare * (fields - n - 1) / fields
    padStart (before + f.width + 1) (f.text group)
  let text := shown.flatten
  if f.showsSigns then
    let sign (c : Char) : Char := if ' ' ≤ c && c ≤ '~' then c else '.'
    padEnd blockWidth text ++ "  >".toList ++ s.map sign ++ ['<']
  else text

end DumpFormat

/-- How a dump is made. -/
structure DumpStyle where
  address : Nat → List Char
  formats : List DumpFormat
  width : Nat
  /-- Whether lines that are alike are all shown. -/
  showsAll : Bool

/-- The lines of a dump from an offset on, after a line of octets. -/
def DumpStyle.lines (d : DumpStyle) : (bound offset : Nat) → (before : Option (List Char)) →
    (isLeftOut : Bool) → List Char → List (List Char)
  | 0, _, _, _, _ => []
  | bound + 1, offset, before, isLeftOut, s =>
    let address := d.address offset
    if s.isEmpty then if address.isEmpty then [] else [address]
    else
      let octets := s.take d.width
      let rest := lines d bound (offset + octets.length) (some octets)
      if !d.showsAll && before = some octets && octets.length = d.width then
        (if isLeftOut then [] else [['*']]) ++ rest true (s.drop d.width)
      else
        let blockWidth := (d.formats.map fun f => (f.width + 1) * (d.width / f.size)).foldl max 0
        let shown := d.formats.mapIdx fun n f =>
          (if n = 0 then address else List.replicate address.length ' ')
            ++ f.line blockWidth d.width octets
        shown ++ rest false (s.drop d.width)

-- ================================================================== the tool

/-- The types that letters alone stand for. -/
def letterTypes : List (Char × String) :=
  [('a', "a"), ('b', "o1"), ('c', "c"), ('d', "u2"), ('i', "d4"), ('l', "d8"), ('o', "o2"),
    ('s', "d2"), ('x', "x2"), ('D', "u4"), ('X', "x4"), ('B', "o2"), ('H', "x4"), ('O', "o4")]

/-- A number of bytes, which may be octal or hexadecimal, with a unit. -/
def byteCount? (s : List Char) : Option Nat := do
  let (n, rest) ← match s with
    | '0' :: 'x' :: rest => readDigits? 16 rest
    | '0' :: _ => readDigits? 8 s
    | _ => readDigits? 10 s
  match String.ofList rest with
  | "" => some n
  | "b" => some (n * 512)
  | "k" | "K" => some (n * 1024)
  | "m" | "M" => some (n * 1048576)
  | _ => none

/-- Shows the octets of files by their numbers. -/
def od : Tool := fun i =>
  match (Options.mk "abcdilosxvDXBHO" "AtNj" "w" [("address-radix", 'A'), ("format", 't'),
      ("read-bytes", 'N'), ("skip-bytes", 'j'), ("width", 'w'),
      ("output-duplicates", 'v')]).parse false i.arguments with
  | .error fault => .refused i 1 fault
  | .ok p =>
    let types := p.given.filterMap fun g =>
      if g.1 = 't' then some g.2 else (letterTypes.lookup g.1).map String.toList
    let types := if types.isEmpty then ["o2".toList] else types
    let count (letter : Char) : Option (List Char) :=
      (p.value? letter).filter fun s => (byteCount? s).isNone
    let invalid (letter : Char) (s : List Char) : Completion :=
      .failing i 1 ("invalid -".toList ++ letter :: " argument ".toList ++ ticked s)
    let radix := (p.value? 'A').getD ['o']
    match types.mapM fun s => DumpFormat.ofTypes s (s.length + 1) s, count 'j', count 'N' with
    | _, some s, _ => invalid 'j' s
    | _, _, some s => invalid 'N' s
    | .error reason, _, _ => .failing i 1 reason
    | .ok formats, none, none =>
      if !(["o", "d", "x", "n"].contains (String.ofList radix)) then
        .failing i 1 ("invalid output address radix ".toList ++ ticked radix
          ++ "; it must be one character from [doxn]".toList)
      else
        let g := gatherOrInput i p.operands
        let skip := ((p.value? 'j').bind byteCount?).getD 0
        let s := g.text.drop skip
        let s := match (p.value? 'N').bind byteCount? with
          | some n => s.take n
          | none => s
        let width := match p.value? 'w' with
          | none => 16
          | some [] => 32
          | some text => max 1 ((byteCount? text).getD 16)
        let address (n : Nat) : List Char := match String.ofList radix with
          | "n" => []
          | "d" => zeroDigits 10 7 n
          | "x" => zeroDigits 16 6 n
          | _ => zeroDigits 8 7 n
        let d : DumpStyle := ⟨address, formats.flatten, width, p.has 'v'⟩
        if skip > g.text.length && !g.contents.isEmpty then
          .failing i 1 "cannot skip past end of combined input".toList
        else g.complete i 1 (if g.contents.isEmpty then []
          else unlines (d.lines (s.length + 2) skip none false s))

/-- A way to write octets as digits: the digits, how many of them a group
has, and how many octets it is for. -/
structure DigitCode where
  digits : List Char
  digitCount : Nat
  octetCount : Nat
  deriving DecidableEq, Repr, Inhabited

namespace DigitCode

/-- The digits of base 64, in groups of four for three octets. -/
def base64 : DigitCode :=
  ⟨"ABCDEFGHIJKLMNOPQRSTUVWXYZabcdefghijklmnopqrstuvwxyz0123456789+/".toList, 4, 3⟩

/-- The digits of base 32, in groups of eight for five octets. -/
def base32 : DigitCode := ⟨"ABCDEFGHIJKLMNOPQRSTUVWXYZ234567".toList, 8, 5⟩

/-- The digits of a number, the highest first. -/
def digitsOf (c : DigitCode) : (count n : Nat) → List Char
  | 0, _ => []
  | count + 1, n =>
    digitsOf c count (n / c.digits.length) ++ [(c.digits[n % c.digits.length]?).getD '=']

/-- How many digits so many octets of a group need. -/
def digitsFor (c : DigitCode) (octets : Nat) : Nat :=
  (octets * c.digitCount + c.octetCount - 1) / c.octetCount

/-- A group of octets; what there is too few of is filled. -/
def group (c : DigitCode) (octets : List Char) : List Char :=
  let n := (octets ++ List.replicate (c.octetCount - octets.length) '\x00').foldl
    (fun n c => n * 256 + c.toNat) 0
  let used := c.digitsFor octets.length
  (c.digitsOf c.digitCount n).take used ++ List.replicate (c.digitCount - used) '='

/-- Octets as digits. -/
def encode (c : DigitCode) (octets : List Char) : List Char :=
  (piecesOf c.octetCount octets.length octets).flatMap c.group

/-- The octets of a group of digits, and whether it is well formed. -/
def octetsOf (c : DigitCode) (group : List Char) : List Char × Bool :=
  let digits := group.takeWhile c.digits.contains
  let padding := group.drop digits.length
  let octets := digits.length * c.octetCount / c.digitCount
  let n := (digits ++ List.replicate (c.digitCount - digits.length) 'A').foldl
    (fun n d => n * c.digits.length + (c.digits.idxOf? d).getD 0) 0
  let bytes := (List.range c.octetCount).map fun k =>
    Char.ofNat (n / Nat.pow 256 (c.octetCount - 1 - k) % 256)
  let isWhole := group.length = c.digitCount && padding.all (· = '=')
    && c.digitsFor octets = digits.length && !digits.isEmpty
  (bytes.take octets, isWhole)

/-- The octets of digits, as far as they are well formed, and whether they
all are. -/
def decode (c : DigitCode) : (bound : Nat) → List Char → List Char × Bool
  | 0, _ | _, [] => ([], true)
  | bound + 1, s =>
    let (octets, isWhole) := c.octetsOf (s.take c.digitCount)
    if !isWhole then (octets, false)
    else
      let (rest, isFine) := decode c bound (s.drop c.digitCount)
      (octets ++ rest, isFine)

end DigitCode

/-- Writes files as digits, or reads them. -/
def digitTool (c : DigitCode) : Tool := fun i =>
  match (Options.of "di" "w" [("decode", 'd'), ("ignore-garbage", 'i'), ("wrap", 'w')]).parse
      false i.arguments with
  | .error fault => .refused i 1 fault
  | .ok p =>
    match p.operands, (p.value? 'w').filter fun w => (natural? w).isNone with
    | _, some w => .failing i 1 ("invalid wrap size: ".toList ++ ticked w)
    | _ :: extra :: _, _ => .excessive i 1 extra
    | operands, none => (gatherOrInput i operands).orRefuse i 1 fun g =>
      if p.has 'd' then
        let text := g.text.filter fun d =>
          if p.has 'i' then c.digits.contains d || d = '=' else d ≠ '\n'
        let (octets, isFine) := c.decode text.length text
        if isFine then g.complete i 1 octets
        else (g.telling i 1 [(1, octets), (2, i.name ++ ": invalid input\n".toList)]).withStatus 1
      else
        let width := ((p.value? 'w').bind natural?).getD 76
        let text := c.encode g.text
        g.complete i 1 (if width = 0 then text else unlines (piecesOf width text.length text))

end ClrListing.Script
