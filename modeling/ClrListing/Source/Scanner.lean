/-
Cutting a source text into lexemes, longest match first.

The text is cut into pieces that follow each other without a gap: a
piece is a lexeme, trivia (blanks, comments, directives), or a run of
characters that starts no lexeme. The scanners below measure the piece
that a text opens with; `pieces` walks the text and cuts it. A text with
no such bad run is accepted, and its lexemes, closed by one that marks
the end of the text, are what the parser reads.
-/
import ClrListing.Diagnostic
import ClrListing.Source.Lexeme
import ClrListing.Text.Letter

namespace ClrListing.Source

open Text

-- ============================================================= pieces

/-- What a piece of source text is. -/
inductive PieceKind where
  | lexeme (kind : LexemeKind)
  /-- A blank run, a comment or a directive. -/
  | trivia
  /-- Characters that start no lexeme. -/
  | bad
  deriving DecidableEq, Repr, Inhabited

/-- A measured piece: what it is and how many characters it has. -/
structure Measure where
  kind : PieceKind
  length : Nat
  deriving DecidableEq, Repr, Inhabited

/-- How many characters at the front of `s` satisfy `p`. -/
def runLength (p : Char → Bool) (s : List Char) : Nat := (s.takeWhile p).length

-- ============================================================= trivia

/-- A blank between lexemes. -/
def isSourceBlank (c : Char) : Bool :=
  c = ' ' || c = '\t' || c = '\r' || c = '\n' || c = '\x0c' || c = '\ufeff'

/-- A character that a line comment or directive runs over. -/
def isInLine (c : Char) : Bool := c != '\n'

/-- How far a block comment goes after its opening: past its closing, or
to the end of the text if it has none. -/
def blockCommentLength : List Char → Nat
  | [] => 0
  | '*' :: '/' :: _ => 2
  | _ :: rest => blockCommentLength rest + 1

-- ============================================================ numbers

/-- A digit or a digit separator. -/
def isDigitPart (c : Char) : Bool := isAsciiDigit c || c = '_'

/-- A digit of a hexadecimal number or a digit separator. -/
def isHexPart (c : Char) : Bool :=
  isDigitPart c || ('a' ≤ c && c ≤ 'f') || ('A' ≤ c && c ≤ 'F')

/-- The length of an exponent such as `e-10`, zero if there is none. -/
def exponentLength : List Char → Nat
  | e :: rest =>
    if e = 'e' || e = 'E' then
      match rest with
      | sign :: digits =>
        if sign = '+' || sign = '-' then
          match runLength isAsciiDigit digits with
          | 0 => 0
          | n + 1 => n + 3
        else
          match runLength isAsciiDigit rest with
          | 0 => 0
          | n + 1 => n + 2
      | [] => 0
    else 0
  | [] => 0

/-- The length of a fraction such as `.5`, zero if there is none. -/
def fractionLength : List Char → Nat
  | '.' :: d :: rest => if isAsciiDigit d then 2 + runLength isDigitPart rest else 0
  | _ => 0

/-- The length of what may follow the digits of a number: an exponent,
then letters. -/
def numberTailLength (s : List Char) : Nat :=
  let exponent := exponentLength s
  exponent + runLength isAsciiLetter (s.drop exponent)

/-- The length of a number that starts with a decimal digit. -/
def decimalLength (s : List Char) : Nat :=
  let whole := runLength isDigitPart s
  let fraction := fractionLength (s.drop whole)
  let digits := whole + fraction
  digits + numberTailLength (s.drop digits)

/-- The length of a number such as `0xFFul`, zero if `s` is not one. -/
def hexadecimalLength : List Char → Nat
  | '0' :: x :: rest =>
    if x = 'x' || x = 'X' then
      match runLength isHexPart rest with
      | 0 => 0
      | n + 1 => n + 3 + runLength isAsciiLetter (rest.drop (n + 1))
    else 0
  | _ => 0

-- ============================================================ strings

/-- How far the items of a quoted literal go: characters other than the
quote, a backslash or a line feed, and escapes of one character. -/
def quotedItemsLength (quote : Char) : List Char → Nat
  | [] => 0
  | c :: rest =>
    if c = '\\' then
      match rest with
      | [] => 0
      | d :: rest => if d = '\n' then 0 else quotedItemsLength quote rest + 2
    else if c = quote || c = '\n' then 0
    else quotedItemsLength quote rest + 1

/-- The length of the rest of a verbatim string, closing quote included;
a doubled quote stands for itself. -/
def verbatimLength? : List Char → Option Nat
  | [] => none
  | '"' :: '"' :: rest => (verbatimLength? rest).map (· + 2)
  | '"' :: _ => some 1
  | _ :: rest => (verbatimLength? rest).map (· + 1)

/-- The length of the rest of an interpolated string, closing quote
included.

`literal` is the quote of the string or character literal that is being
skipped, if one is; `depth` counts the open holes; `escaped` says that
the next character stands for itself. A backslash escapes in the text of
a string that is not verbatim and in every literal. Outside the holes a
brace is written twice to stand for itself, and so is the quote of a
verbatim string. -/
def interpolatedLength? (verbatim : Bool) (literal : Option Char) (depth : Nat)
    (escaped : Bool) : List Char → Option Nat
  | [] => none
  | c :: rest =>
    let outside := depth = 0
    let doubled := outside && rest.head? = some c
    if escaped then (interpolatedLength? verbatim literal depth false rest).map (· + 1)
    else match literal with
    | some quote =>
      if c = '\\' then (interpolatedLength? verbatim literal depth true rest).map (· + 1)
      else if c = quote then (interpolatedLength? verbatim none depth false rest).map (· + 1)
      else (interpolatedLength? verbatim literal depth false rest).map (· + 1)
    | none =>
      if c = '"' && outside then
        if verbatim && doubled then
          (interpolatedLength? verbatim none depth true rest).map (· + 1)
        else some 1
      else if c = '\\' && outside && !verbatim then
        (interpolatedLength? verbatim none depth true rest).map (· + 1)
      else if c = '\n' && outside && !verbatim then none
      else if c = leftBrace then
        if doubled then (interpolatedLength? verbatim none depth true rest).map (· + 1)
        else (interpolatedLength? verbatim none (depth + 1) false rest).map (· + 1)
      else if c = rightBrace then
        if doubled then (interpolatedLength? verbatim none depth true rest).map (· + 1)
        else (interpolatedLength? verbatim none (depth - 1) false rest).map (· + 1)
      else if c = '"' || c = '\'' then
        (interpolatedLength? verbatim (some c) depth false rest).map (· + 1)
      else (interpolatedLength? verbatim none depth false rest).map (· + 1)

-- =========================================================== measures

/-- The piece a quote opens: a literal up to its closing quote, or bad
characters up to where the literal got stuck. A character literal must
have an item. -/
def measureQuoted (quote : Char) (kind : LexemeKind) (rest : List Char) : Measure :=
  let items := quotedItemsLength quote rest
  if (rest.drop items).head? = some quote && (quote = '"' || items ≠ 0) then
    ⟨.lexeme kind, items + 2⟩
  else ⟨.bad, items + 1⟩

/-- The piece that an interpolated string's opening of `opened`
characters starts; only the opening is bad if the string does not end. -/
def measureInterpolated (verbatim : Bool) (opened : Nat) (rest : List Char) : Measure :=
  match interpolatedLength? verbatim none 0 false rest with
  | some n => ⟨.lexeme .string, opened + n⟩
  | none => ⟨.bad, opened⟩

/-- The piece of a verbatim string, opened by `@` and a quote; all the
text is bad if the string does not end. -/
def measureVerbatim (rest : List Char) : Measure :=
  match verbatimLength? rest with
  | some n => ⟨.lexeme .string, n + 2⟩
  | none => ⟨.bad, rest.length + 2⟩

/-- The piece of a word whose first `opened` characters open it. -/
def measureWord (opened : Nat) (s : List Char) : Measure :=
  let length := opened + runLength isIdentifierPart (s.drop opened)
  ⟨.lexeme (wordKind (String.ofList (s.take length))), length⟩

/-- The piece that the text `c :: rest` opens with. -/
def measure (c : Char) (rest : List Char) : Measure :=
  if isSourceBlank c then ⟨.trivia, 1 + runLength isSourceBlank rest⟩
  else if c = '#' then ⟨.trivia, 1 + runLength isInLine rest⟩
  else if c = '/' && rest.head? = some '/' then ⟨.trivia, 1 + runLength isInLine rest⟩
  else if c = '/' && rest.head? = some '*' then
    ⟨.trivia, 2 + blockCommentLength rest.tail⟩
  else if isIdentifierStart c then measureWord 1 (c :: rest)
  else if isAsciiDigit c then
    ⟨.lexeme .number, max (decimalLength (c :: rest)) (hexadecimalLength (c :: rest))⟩
  else if c = '"' then measureQuoted '"' .string rest
  else if c = '\'' then measureQuoted '\'' .char rest
  else if c = '@' then
    match rest with
    | '"' :: rest' => measureVerbatim rest'
    | '$' :: '"' :: rest' => measureInterpolated true 3 rest'
    | d :: _ => if isIdentifierStart d then measureWord 2 (c :: rest) else ⟨.bad, 1⟩
    | [] => ⟨.bad, 1⟩
  else if c = '$' then
    match rest with
    | '"' :: rest' => measureInterpolated false 2 rest'
    | '@' :: '"' :: rest' => measureInterpolated true 3 rest'
    | _ => ⟨.bad, 1⟩
  else if fractionLength (c :: rest) ≠ 0 then
    let digits := fractionLength (c :: rest)
    ⟨.lexeme .number, digits + numberTailLength ((c :: rest).drop digits)⟩
  else
    match operatorAt? (c :: rest) with
    | some (spelling, kind) => ⟨.lexeme kind, spelling.length⟩
    | none => ⟨.bad, 1⟩

-- ======================================================= cutting a text

/-- A piece of source text: what it is, its characters, and the byte
offset of the first. -/
structure Piece where
  kind : PieceKind
  text : List Char
  start : Nat
  deriving DecidableEq, Repr, Inhabited

/-- The bytes a piece covers. -/
def Piece.span (p : Piece) : Span := ⟨p.start, p.start + byteSize p.text⟩

/-- Cuts on from byte offset `offset`, where the next `skip` characters
still belong to the piece before. -/
def piecesFrom (skip offset : Nat) : List Char → List Piece
  | [] => []
  | c :: rest =>
    match skip with
    | skip + 1 => piecesFrom skip (offset + c.utf8Size) rest
    | 0 =>
      let m := measure c rest
      ⟨m.kind, (c :: rest).take m.length, offset⟩
        :: piecesFrom (m.length - 1) (offset + c.utf8Size) rest

/-- The pieces of a source text, in order. -/
def pieces (source : String) : List Piece := piecesFrom 0 0 source.toList

/-- The lexeme that a piece is, if it is one. -/
def Piece.lexeme? (p : Piece) : Option Lexeme :=
  match p.kind with
  | .lexeme kind => some ⟨kind, String.ofList p.text, p.span⟩
  | _ => none

/-- The complaint about a piece that starts no lexeme. -/
def Piece.complaint? (source : String) (p : Piece) : Option Diagnostic :=
  match p.kind with
  | .bad =>
    let c := p.text.headD '\x00'
    some ((Diagnostic.error "CS1056"
      ("Unexpected character '" ++ String.singleton c ++ "'")).located
        (Location.ofOffset source p.start))
  | _ => none

/-- The lexeme that marks the end of a text. -/
def endLexeme (source : String) : Lexeme :=
  ⟨.endOfText, "", ⟨source.utf8ByteSize, source.utf8ByteSize⟩⟩

/-- The lexemes of a source text with the end marked, or a complaint
about every piece that starts none. -/
def lexemes (source : String) : Except Diagnostics (List Lexeme) :=
  let cut := pieces source
  match cut.filterMap (Piece.complaint? source) with
  | [] => .ok (cut.filterMap Piece.lexeme? ++ [endLexeme source])
  | complaints => .error complaints

end ClrListing.Source
