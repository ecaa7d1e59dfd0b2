/-
The parser of declarations: a cursor over lexemes, the steps that move
it, and the two ways to repeat a step.

A parser maps a cursor to a value and a later cursor, or to a failure.
The cursor only ever drops lexemes from its front, and it stays at the
lexeme that marks the end of the text. Repetition is bounded by the
number of lexemes left, since every turn drops one at least; a turn
that would drop none ends in `Failure.exhausted`, which no input
reaches.
-/
import ClrListing.Source.Scanner
import ClrListing.Syntax.Declaration

namespace ClrListing.Syntax

open Source

-- ============================================================= cursor

/-- A place between the lexemes of a text. -/
structure Cursor where
  /-- The whole text. -/
  source : String
  /-- The lexemes ahead. -/
  rest : List Lexeme
  /-- Where the last lexeme behind ends, zero at the top. -/
  lastEnd : Nat
  deriving Inhabited

namespace Cursor

/-- The cursor at the top of a text with the given lexemes. -/
def top (source : String) (lexemes : List Lexeme) : Cursor := ⟨source, lexemes, 0⟩

/-- The kind of the lexeme `k` places ahead. -/
def kindAt (c : Cursor) (k : Nat) : LexemeKind :=
  ((c.rest[k]?).map Lexeme.kind).getD .endOfText

/-- The spelling of the lexeme `k` places ahead. -/
def textAt (c : Cursor) (k : Nat) : String :=
  ((c.rest[k]?).map Lexeme.text).getD ""

/-- Where the next lexeme starts. -/
def start (c : Cursor) : Nat :=
  match c.rest with
  | l :: _ => l.span.start
  | [] => c.source.utf8ByteSize

/-- The cursor past the next lexeme, unless that is the end. -/
def next (c : Cursor) : Cursor :=
  match c.rest with
  | l :: rest => if l.kind = .endOfText then c else ⟨c.source, rest, l.span.stop⟩
  | [] => c

/-- The cursor past the next `n` lexemes. -/
def skip (c : Cursor) : Nat → Cursor
  | 0 => c
  | n + 1 => c.next.skip n

end Cursor

-- ============================================================= parsers

/-- Why a parser stopped. -/
inductive Failure where
  /-- The text is not well formed. -/
  | complaint (d : Diagnostic)
  /-- A bound on repetition ran out. -/
  | exhausted
  deriving DecidableEq, Inhabited

/-- A step of parsing. -/
abbrev Parser := StateT Cursor (Except Failure)

namespace Parser

/-- Stops with a complaint about the next lexeme. -/
def fail (code message : String) : Parser α := fun c =>
  .error (.complaint ((Diagnostic.error code message).located
    (Location.ofOffset c.source c.start)))

/-- Stops because a bound ran out. -/
def exhausted : Parser α := fun _ => .error .exhausted

/-- The kind of the lexeme `k` places ahead. -/
def kindAt (k : Nat) : Parser LexemeKind := do return (← get).kindAt k

/-- The kind of the next lexeme. -/
def kind : Parser LexemeKind := kindAt 0

/-- The spelling of the next lexeme. -/
def text : Parser String := do return (← get).textAt 0

/-- Where the next lexeme starts. -/
def start : Parser Nat := do return (← get).start

/-- Where the last lexeme behind ends. -/
def lastEnd : Parser Nat := do return (← get).lastEnd

/-- The span from `start` to the end of the last lexeme behind. -/
def spanFrom (start : Nat) : Parser Span := do return ⟨start, ← lastEnd⟩

/-- Goes past the next lexeme. -/
def advance : Parser Unit := modify Cursor.next

/-- Goes past the next `n` lexemes. -/
def advanceBy (n : Nat) : Parser Unit := modify fun c => c.skip n

/-- Whether the next lexeme is a `k`. -/
def atKind (k : LexemeKind) : Parser Bool := do return (← kind) = k

/-- Whether the next lexeme is the identifier `word`. -/
def atWord (word : String) : Parser Bool := do
  return (← kind) = .identifier && (← text) = word

/-- Goes past the next lexeme if it is a `k`; says whether it was. -/
def eat (k : LexemeKind) : Parser Bool := do
  if ← atKind k then
    advance
    return true
  else
    return false

/-- How complaints spell a lexeme that is missing. -/
def describe : LexemeKind → String
  | .lbrace => "\x7b"
  | .rbrace => "\x7d"
  | .lparen => "("
  | .rparen => ")"
  | .lbracket => "["
  | .rbracket => "]"
  | .lt => "<"
  | .gt => ">"
  | .comma => ","
  | .semicolon => ";"
  | .colon => ":"
  | .dot => "."
  | .assign => "="
  | .arrow => "=>"
  | .kwThis => "this"
  | .kwOperator => "operator"
  | .kwEvent => "event"
  | _ => "token"

/-- Stops because a `k` is missing. -/
def missing (k : LexemeKind) : Parser α :=
  match k with
  | .semicolon => fail "CS1002" "; expected"
  | .rbrace => fail "CS1513" "\x7d expected"
  | .lbrace => fail "CS1514" "\x7b expected"
  | .rparen => fail "CS1026" ") expected"
  | .identifier => fail "CS1001" "Identifier expected"
  | _ => fail "CS1003" ("Syntax error, '" ++ describe k ++ "' expected")

/-- Goes past the next lexeme, which must be a `k`. -/
def expect (k : LexemeKind) : Parser Unit := do
  if ← atKind k then advance else missing k

/-- An identifier's name: its spelling without the `@` that lets it be a
keyword. -/
def nameOf (spelling : String) : String :=
  match spelling.toList with
  | '@' :: rest => String.ofList rest
  | _ => spelling

/-- An identifier. -/
def identifier : Parser String := do
  if ← atKind .identifier then
    let spelling ← text
    advance
    return nameOf spelling
  else
    missing .identifier

-- ========================================================== repetition

/-- What one turn of a repetition gives. -/
inductive Turn (α : Type) where
  /-- An item, with more to come. -/
  | item (a : α)
  /-- The last item. -/
  | last (a : α)
  /-- No item, and no more to come. -/
  | done

/-- The items of at most `bound` turns. -/
def collectWithin (turn : Parser (Turn α)) : Nat → Parser (List α)
  | 0 => exhausted
  | bound + 1 => do
    match ← turn with
    | .item a => return a :: (← collectWithin turn bound)
    | .last a => return [a]
    | .done => return []

/-- The items of a repeated turn. Each turn that promises more drops a
lexeme, so the lexemes ahead bound the repetition. -/
def collect (turn : Parser (Turn α)) : Parser (List α) := do
  collectWithin turn ((← get).rest.length + 1)

/-- One or more items with commas between them. -/
def separated (item : Parser α) : Parser (List α) :=
  collect do
    let a ← item
    if ← eat .comma then return .item a else return .last a

end Parser

end ClrListing.Syntax
