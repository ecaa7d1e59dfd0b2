/-
The words and signs of programs for records.

A stroke divides where a value stands before it, and opens a regular
expression elsewhere. A name with a parenthesis right after it is called.
-/
import ClrListing.Script.Records.Value
import ClrListing.Text.Search

namespace ClrListing.Script.Records

open Text

/-- A word or sign of a program. -/
inductive Token where
  | number (x : Float) (written : List Char)
  | text (s : List Char)
  | pattern (source : List Char)
  | name (s : String)
  | called (s : String)
  /-- A word that the language has a meaning for. -/
  | word (s : String)
  | sign (s : String)
  | lineEnd
  | finish
  deriving Repr, Inhabited

/-- A token with where it stands: its line, and how many parentheses are
open after it. -/
structure Placed where
  token : Token
  line : Nat
  depth : Nat
  deriving Repr, Inhabited

/-- A complaint about a program with its line. -/
structure Complaint where
  line : Nat
  reason : List Char
  deriving DecidableEq, Repr, Inhabited

namespace Token

/-- The words for statements. -/
def statementWords : List String :=
  ["BEGIN", "END", "function", "if", "else", "while", "for", "do", "break", "continue", "next",
    "nextfile", "exit", "return", "delete", "in", "getline", "print", "printf"]

/-- The functions that are always there. -/
def builtinNames : List String :=
  ["length", "substr", "index", "split", "sub", "gsub", "match", "sprintf", "sin", "cos", "atan2",
    "exp", "log", "sqrt", "int", "rand", "srand", "tolower", "toupper", "system", "close",
    "fflush"]

/-- The signs, those with more characters first. -/
def signs : List String :=
  ["&&", "||", "++", "--", "+=", "-=", "*=", "/=", "%=", "^=", "==", "<=", ">=", "!=", "!~", ">>",
    "+", "-", "*", "/", "%", "^", "!", ">", "<", "|", "?", ":", "~", "$", "=", ",", ";", "(", ")",
    "\x7b", "\x7d", "[", "]"]

/-- Whether a value ends with a token. -/
def endsValue : Token → Bool
  | number _ _ | text _ | pattern _ | name _ => true
  | word s => builtinNames.contains s
  | sign s => [")", "]", "$", "++", "--"].contains s
  | _ => false

/-- How a token is told of. -/
def shown : Token → List Char
  | number _ written => written
  | text s => s
  | pattern s => '/' :: s ++ ['/']
  | name s | called s | word s | sign s => s.toList
  | lineEnd => "end of line".toList
  | finish => "end of file".toList

end Token

/-- What a text after a backslash stands for, and the rest. -/
def escapedText : List Char → List Char × List Char
  | '\x22' :: rest => (['\x22'], rest)
  | '\\' :: rest => (['\\'], rest)
  | '\n' :: rest => ([], rest)
  | 'a' :: rest => (['\x07'], rest)
  | 'b' :: rest => (['\x08'], rest)
  | 'f' :: rest => (['\x0c'], rest)
  | 'n' :: rest => (['\n'], rest)
  | 'r' :: rest => (['\x0d'], rest)
  | 't' :: rest => (['\t'], rest)
  | 'v' :: rest => (['\x0b'], rest)
  | 'x' :: rest =>
    match readDigits? 16 (rest.take 2) with
    | some (n, after) => ([Char.ofNat n], after ++ rest.drop 2)
    | none => (['\\', 'x'], rest)
  | s =>
    match readDigits? 8 (s.take 3) with
    | some (n, after) => ([Char.ofNat (n % 0x100)], after ++ s.drop 3)
    | none => ('\\' :: s.take 1, s.drop 1)

/-- A text of at most so many characters with its escapes replaced. -/
def unescapedText : (bound : Nat) → List Char → List Char
  | bound + 1, '\\' :: rest =>
    let (text, rest) := escapedText rest
    text ++ unescapedText bound rest
  | bound + 1, c :: rest => c :: unescapedText bound rest
  | _, s => s

/-- The inside of a text up to its closing quote, and the rest. -/
def quotedInside? : List Char → Option (List Char × List Char)
  | [] => none
  | '\n' :: _ => none
  | '\x22' :: rest => some ([], rest)
  | '\\' :: c :: rest => (quotedInside? rest).map fun r => ('\\' :: c :: r.1, r.2)
  | c :: rest => (quotedInside? rest).map fun r => (c :: r.1, r.2)

/-- The inside of a regular expression up to its closing stroke, and the
rest. In a set a stroke does not close it; `place` counts the characters of
the set. -/
def patternInside? (place : Option Nat) : List Char → Option (List Char × List Char)
  | [] => none
  | '\n' :: _ => none
  | '\\' :: '/' :: rest =>
    (patternInside? (place.map (· + 1)) rest).map fun r => ('/' :: r.1, r.2)
  | '\\' :: c :: rest =>
    (patternInside? (place.map (· + 1)) rest).map fun r => ('\\' :: c :: r.1, r.2)
  | c :: rest =>
    match place with
    | none =>
      if c = '/' then some ([], rest)
      else (patternInside? (if c = '[' then some 0 else none) rest).map fun r => (c :: r.1, r.2)
    | some n =>
      let next := if c = ']' && n > 0 then none
        else if c = '^' && n = 0 then some 0 else some (n + 1)
      (patternInside? next rest).map fun r => (c :: r.1, r.2)

/-- A number that a program opens with, as it is written. -/
def writtenNumber (s : List Char) : List Char :=
  let whole := s.takeWhile Char.isDigit
  let rest := s.drop whole.length
  let part := match rest with
    | '.' :: rest => '.' :: rest.takeWhile Char.isDigit
    | _ => []
  let rest := rest.drop part.length
  let exponent := match rest with
    | e :: rest =>
      if e = 'e' || e = 'E' then
        let sign := rest.takeWhile fun c => c = '+' || c = '-'
        let digits := (rest.drop sign.length).takeWhile Char.isDigit
        if sign.length ≤ 1 && !digits.isEmpty then e :: sign ++ digits else []
      else []
    | [] => []
  whole ++ part ++ exponent

/-- The start of a text that is told of where it has no end: its quote and
ten more characters. -/
def runaway (s : List Char) : List Char := (s.takeWhile (· ≠ '\n')).take 11 ++ " ...".toList

/-- The tokens of a program of at most so many characters. -/
def tokens (line depth : Nat) (before : Token) : (bound : Nat) → List Char →
    Except Complaint (List Placed)
  | 0, _ => .ok [⟨.finish, line, depth⟩]
  | _, [] => .ok [⟨.finish, line, depth⟩]
  | bound + 1, c :: rest =>
    let put (token : Token) (now : Nat) (rest : List Char) : Except Complaint (List Placed) :=
      (tokens line now token bound rest).map fun more => ⟨token, line, now⟩ :: more
    if c = ' ' || c = '\t' || c = '\x0d' then tokens line depth before bound rest
    else if c = '#' then tokens line depth before bound (rest.dropWhile (· ≠ '\n'))
    else if c = '\\' && rest.head? = some '\n' then
      tokens (line + 1) depth before bound rest.tail
    else if c = '\n' then
      (tokens (line + 1) depth .lineEnd bound rest).map fun more =>
        ⟨.lineEnd, line, depth⟩ :: more
    else if c = '\x22' then
      match quotedInside? rest with
      | some (inside, after) =>
        let lines := (inside.filter (· = '\n')).length
        let token := Token.text (unescapedText (inside.length + 1) inside)
        (tokens (line + lines) depth token bound after).map fun more =>
          ⟨token, line, depth⟩ :: more
      | none => .error ⟨line, "runaway string constant ".toList ++ runaway (c :: rest)⟩
    else if c = '/' && !before.endsValue then
      match patternInside? none rest with
      | some (inside, after) => put (.pattern inside) depth after
      | none =>
        .error ⟨line, "runaway regular expression ".toList ++ runaway (c :: rest)⟩
    else if c.isDigit || (c = '.' && rest.head?.any Char.isDigit) then
      let written := writtenNumber (c :: rest)
      let value := ((readNumber? written).map Prod.fst).getD 0
      put (.number value written) depth ((c :: rest).drop written.length)
    else if c.isAlpha || c = '_' then
      let written := (c :: rest).takeWhile fun c => c.isAlphanum || c = '_'
      let after := (c :: rest).drop written.length
      let s := String.ofList written
      let token := if Token.statementWords.contains s || Token.builtinNames.contains s
        then Token.word s
        else if after.head? = some '(' then .called s else .name s
      put token depth after
    else
      match Token.signs.find? fun s => s.toList.isPrefixOf (c :: rest) with
      | some s =>
        let now := if s = "(" then depth + 1 else if s = ")" then depth - 1 else depth
        put (.sign s) now ((c :: rest).drop s.length)
      | none => .error ⟨line, "unexpected character ".toList ++ ['\x27', c, '\x27']⟩

end ClrListing.Script.Records
