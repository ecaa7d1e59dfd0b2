/-
JSON values, their text on indented lines, and the reading of such text.

Of the numbers only those are told apart that are written in digits
alone. A string whose escapes do not make up characters has no text.

Nothing is read that the grammar does not allow: no comma after the last
element, no number with a leading zero or plus sign, no control character
in a string, and nothing but blanks around the value. Values may be nested
to any depth.

A string is read in two steps. The first gives its items, characters and
escaped code units; the second makes up the text, for which the units must
pair up.
-/
import ClrListing.Text.Hex

namespace ClrListing.Text

/-- A JSON value. -/
inductive Json where
  | null
  | bool (value : Bool)
  /-- A number that is written in digits alone. -/
  | natural (value : Nat)
  /-- Any other number. -/
  | otherNumber
  /-- A string, if it has a text. -/
  | string (text : Option String)
  | array (elements : List Json)
  /-- Names and values in the order in which they are written; a name may
  come more than once. -/
  | object (members : List (Option String × Json))
  deriving Inhabited

namespace Json

-- ============================================================== strings

/-- A character as it is written in a string. -/
def escape (c : Char) : List Char :=
  match c with
  | '"' => ['\\', '"']
  | '\\' => ['\\', '\\']
  | '\x08' => ['\\', 'b']
  | '\t' => ['\\', 't']
  | '\n' => ['\\', 'n']
  | '\x0c' => ['\\', 'f']
  | '\r' => ['\\', 'r']
  | c => if c.toNat < 0x20 then ['\\', 'u'] ++ Hex.lowDigits 4 c.toNat else [c]

/-- What stands for a string without a text. -/
def noText : List Char := ['\\', 'u', 'd', '8', '0', '0']

/-- A string as it is written. -/
def quote (text : Option String) : List Char :=
  let inner := match text with
    | some s => s.toList.flatMap escape
    | none => noText
  ['"'] ++ inner ++ ['"']

-- =============================================================== values

/-- The start of a line at a depth. -/
def newLine (depth : Nat) : List Char := '\n' :: List.replicate (2 * depth) ' '

mutual

/-- A value as it is written at a depth. -/
def write (depth : Nat) : Json → List Char
  | null => ['n', 'u', 'l', 'l']
  | bool true => ['t', 'r', 'u', 'e']
  | bool false => ['f', 'a', 'l', 's', 'e']
  | natural n => n.repr.toList
  | otherNumber => ['0', '.', '0']
  | string text => quote text
  | array [] => ['[', ']']
  | array (first :: rest) =>
    ['['] ++ newLine (depth + 1) ++ write (depth + 1) first
      ++ writeElements (depth + 1) rest ++ newLine depth ++ [']']
  | object [] => ['{', '}']
  | object ((name, value) :: rest) =>
    ['{'] ++ newLine (depth + 1) ++ quote name ++ [':', ' '] ++ write (depth + 1) value
      ++ writeMembers (depth + 1) rest ++ newLine depth ++ ['}']

/-- The further elements of an array. -/
def writeElements (depth : Nat) : List Json → List Char
  | [] => []
  | value :: rest =>
    [','] ++ newLine depth ++ write depth value ++ writeElements depth rest

/-- The further members of an object. -/
def writeMembers (depth : Nat) : List (Option String × Json) → List Char
  | [] => []
  | (name, value) :: rest =>
    [','] ++ newLine depth ++ quote name ++ [':', ' '] ++ write depth value
      ++ writeMembers depth rest

end

/-- The text of a value: an element or member to a line, with two blanks
before it for each value that it is in. -/
def toText (j : Json) : String := String.ofList (j.write 0)

end Json

end ClrListing.Text

namespace ClrListing.Text.Json

/-- Reads something from the front of a text and gives the rest. -/
abbrev Reader (α : Type) := StateT (List Char) Option α

-- =============================================================== blanks

/-- The blanks between the parts of a value. -/
def isSpace (c : Char) : Bool := c = ' ' || c = '\t' || c = '\n' || c = '\r'

/-- A text without the blanks at its start. -/
def skipSpace (s : List Char) : List Char := s.dropWhile isSpace

-- ============================================================== strings

/-- An item of a string. -/
inductive StringItem where
  | char (c : Char)
  /-- A unit of sixteen bits. -/
  | unit (value : Nat)
  deriving DecidableEq, Repr, Inhabited

/-- What a character after a backslash stands for. -/
def unescape? : Char → Option Char
  | '"' => some '"'
  | '\\' => some '\\'
  | '/' => some '/'
  | 'b' => some '\x08'
  | 'f' => some '\x0c'
  | 'n' => some '\n'
  | 'r' => some '\r'
  | 't' => some '\t'
  | _ => none

/-- The unit that four digits name. -/
def unitOf? (digits : List Char) : Option Nat :=
  digits.foldlM (fun n c => (Hex.value? c).map (16 * n + ·)) 0

/-- Reads the items up to the closing quote. -/
def readItems : Reader (List StringItem)
  | [] => none
  | '"' :: rest => some ([], rest)
  | '\\' :: 'u' :: a :: b :: c :: d :: rest => do
    let u ← unitOf? [a, b, c, d]
    let (items, rest) ← readItems rest
    return (.unit u :: items, rest)
  | '\\' :: c :: rest => do
    let meant ← unescape? c
    let (items, rest) ← readItems rest
    return (.char meant :: items, rest)
  | c :: rest =>
    if c.toNat < 0x20 || c = '\\' then none
    else do
      let (items, rest) ← readItems rest
      return (.char c :: items, rest)

/-- Whether a unit is the first of a pair. -/
def isHigh (u : Nat) : Bool := 0xd800 ≤ u && u < 0xdc00

/-- Whether a unit is the second of a pair. -/
def isLow (u : Nat) : Bool := 0xdc00 ≤ u && u < 0xe000

/-- The character of a pair. -/
def paired (high low : Nat) : Char :=
  Char.ofNat (0x10000 + (high - 0xd800) * 0x400 + (low - 0xdc00))

/-- The text of items, if all units that belong to a pair have one. -/
def textOf? : List StringItem → Option (List Char)
  | [] => some []
  | .char c :: rest => (textOf? rest).map (c :: ·)
  | .unit high :: .unit low :: rest =>
    if isHigh high then
      if isLow low then (textOf? rest).map (paired high low :: ·) else none
    else if isLow high then none
    else (textOf? (.unit low :: rest)).map (Char.ofNat high :: ·)
  | .unit u :: rest =>
    if isHigh u || isLow u then none else (textOf? rest).map (Char.ofNat u :: ·)

/-- Reads a string after its opening quote. -/
def readString : Reader (Option String) := fun s => do
  let (items, rest) ← readItems s
  return ((textOf? items).map String.ofList, rest)

-- ============================================================== numbers

/-- Whether a character is a digit. -/
def isDigit (c : Char) : Bool := '0' ≤ c && c ≤ '9'

/-- The number in digits. -/
def decimal (digits : List Char) : Nat :=
  digits.foldl (fun n c => n * 10 + (c.toNat - '0'.toNat)) 0

/-- Reads one or more digits. -/
def readDigits : Reader (List Char) := fun s =>
  let digits := s.takeWhile isDigit
  if digits.isEmpty then none else some (digits, s.dropWhile isDigit)

/-- Reads the digits before a point: a zero alone, or others. -/
def readWhole : Reader Nat
  | '0' :: rest => some (0, rest)
  | s => (readDigits s).map fun r => (decimal r.1, r.2)

/-- Reads what may follow a point or an exponent's letter; tells whether
it was there. -/
def readFraction : Reader Bool
  | '.' :: rest => (readDigits rest).map fun r => (true, r.2)
  | s => some (false, s)

/-- Reads an exponent if there is one; tells whether it was there. -/
def readExponent : Reader Bool
  | c :: rest =>
    if c = 'e' || c = 'E' then
      let unsigned := match rest with
        | '+' :: digits => digits
        | '-' :: digits => digits
        | digits => digits
      (readDigits unsigned).map fun r => (true, r.2)
    else some (false, c :: rest)
  | [] => some (false, [])

/-- Reads a number. -/
def readNumber : Reader Json := fun s => do
  let (isNegative, s) := match s with
    | '-' :: rest => (true, rest)
    | s => (false, s)
  let (whole, s) ← readWhole s
  let (hasFraction, s) ← readFraction s
  let (hasExponent, s) ← readExponent s
  return (if isNegative || hasFraction || hasExponent then .otherNumber else .natural whole, s)

-- =============================================================== values

/-- Reads a value that is one word, or a number. -/
def readPlain : Reader Json
  | 'n' :: 'u' :: 'l' :: 'l' :: rest => some (.null, rest)
  | 't' :: 'r' :: 'u' :: 'e' :: rest => some (.bool true, rest)
  | 'f' :: 'a' :: 'l' :: 's' :: 'e' :: rest => some (.bool false, rest)
  | s => readNumber s

/-- Reads the name of a member and the colon after it. -/
def readName : Reader (Option String) := fun s =>
  match skipSpace s with
  | '"' :: rest => do
    let (name, rest) ← readString rest
    match skipSpace rest with
    | ':' :: rest => some (name, rest)
    | _ => none
  | _ => none

mutual

/-- Reads a value; each step into or along one takes a unit of `fuel`. -/
def readValue : (fuel : Nat) → Reader Json
  | 0, _ => none
  | fuel + 1, s =>
    match skipSpace s with
    | '"' :: rest => (readString rest).map fun r => (.string r.1, r.2)
    | '[' :: rest =>
      match skipSpace rest with
      | ']' :: rest => some (.array [], rest)
      | rest => (readElements fuel rest).map fun r => (.array r.1, r.2)
    | '{' :: rest =>
      match skipSpace rest with
      | '}' :: rest => some (.object [], rest)
      | rest => (readMembers fuel rest).map fun r => (.object r.1, r.2)
    | rest => readPlain rest

/-- Reads the elements of an array and its end. -/
def readElements : (fuel : Nat) → Reader (List Json)
  | 0, _ => none
  | fuel + 1, s => do
    let (value, rest) ← readValue fuel s
    match skipSpace rest with
    | ',' :: rest =>
      let (values, rest) ← readElements fuel rest
      return (value :: values, rest)
    | ']' :: rest => return ([value], rest)
    | _ => none

/-- Reads the members of an object and its end. -/
def readMembers : (fuel : Nat) → Reader (List (Option String × Json))
  | 0, _ => none
  | fuel + 1, s => do
    let (name, rest) ← readName s
    let (value, rest) ← readValue fuel rest
    match skipSpace rest with
    | ',' :: rest =>
      let (members, rest) ← readMembers fuel rest
      return ((name, value) :: members, rest)
    | '}' :: rest => return ([(name, value)], rest)
    | _ => none

end

/-- The value of a text. Each step takes a character, but for one step
into the first element or member of a value. -/
def ofText? (text : String) : Option Json := do
  let s := text.toList
  let (value, rest) ← readValue (2 * s.length + 2) s
  if (skipSpace rest).isEmpty then some value else none

end ClrListing.Text.Json
