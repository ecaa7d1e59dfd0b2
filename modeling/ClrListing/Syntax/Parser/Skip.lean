/-
Runs of lexemes that the parser goes past without reading them:
balanced brackets, initializers, attributes and constraint clauses.

Each run is measured on the lexemes ahead first, and the cursor then
moves by the measured number.
-/
import ClrListing.Syntax.Parser.Basic

namespace ClrListing.Syntax

open Source

-- =========================================================== measuring

/-- How many lexemes lead up to and include the one that closes `depth`
open brackets; `none` if they are not closed. -/
def balancedLength? (opening closing : LexemeKind) : (depth : Nat) → List Lexeme → Option Nat
  | _, [] => none
  | depth, l :: rest =>
    if l.kind = .endOfText then none
    else if l.kind = opening then (balancedLength? opening closing (depth + 1) rest).map (· + 1)
    else if l.kind = closing then
      if depth ≤ 1 then some 1
      else (balancedLength? opening closing (depth - 1) rest).map (· + 1)
    else (balancedLength? opening closing depth rest).map (· + 1)

/-- A lexeme that may stand inside type arguments. -/
def isTypeShaped : LexemeKind → Bool
  | .identifier | .predefined | .comma | .dot | .doubleColon | .question | .star
  | .lbracket | .rbracket => true
  | _ => false

/-- How many lexemes lead up to and include the `>` that closes `depth`
open angle brackets, if all between may stand inside type arguments. -/
def typeArgumentsLength? : (depth : Nat) → List Lexeme → Option Nat
  | _, [] => none
  | depth, l :: rest =>
    if l.kind = .lt then (typeArgumentsLength? (depth + 1) rest).map (· + 1)
    else if l.kind = .gt then
      if depth ≤ 1 then some 1 else (typeArgumentsLength? (depth - 1) rest).map (· + 1)
    else if isTypeShaped l.kind then (typeArgumentsLength? depth rest).map (· + 1)
    else none

/-- Why a scan over an expression ended. -/
inductive ScanEnd where
  /-- A lexeme it was to stop at is next. -/
  | found
  /-- The text ends. -/
  | endOfText
  /-- A closing bracket without an opening one is next. -/
  | unmatched
  deriving DecidableEq, Repr, Inhabited

/-- A lexeme that opens a bracket. -/
def isOpening : LexemeKind → Bool
  | .lparen | .lbracket | .lbrace => true
  | _ => false

/-- A lexeme that closes a bracket. -/
def isClosing : LexemeKind → Bool
  | .rparen | .rbracket | .rbrace => true
  | _ => false

/-- How many lexemes lead up to the first of `stops` outside brackets,
and how the scan ends. Type arguments count as one lexeme each, so that
their commas do not stop it; `inside` is what is left of some. -/
def scanUntil (stops : List LexemeKind) :
    (inside depth : Nat) → List Lexeme → Nat × ScanEnd
  | _, _, [] => (0, .endOfText)
  | inside + 1, depth, _ :: rest =>
    let (n, e) := scanUntil stops inside depth rest
    (n + 1, e)
  | 0, depth, l :: rest =>
    if depth = 0 && stops.contains l.kind then (0, .found)
    else if l.kind = .endOfText then (0, .endOfText)
    else if l.kind = .lt then
      let inside := ((typeArgumentsLength? 1 rest).getD 0)
      let (n, e) := scanUntil stops inside depth rest
      (n + 1, e)
    else if isOpening l.kind then
      let (n, e) := scanUntil stops 0 (depth + 1) rest
      (n + 1, e)
    else if isClosing l.kind then
      if depth = 0 then (0, .unmatched)
      else
        let (n, e) := scanUntil stops 0 (depth - 1) rest
        (n + 1, e)
    else
      let (n, e) := scanUntil stops 0 depth rest
      (n + 1, e)

/-- How many lexemes lead up to what follows constraint clauses: a
brace, a semicolon or an arrow outside parentheses. -/
def constraintsLength? : (depth : Nat) → List Lexeme → Option Nat
  | _, [] => none
  | depth, l :: rest =>
    if l.kind = .endOfText then none
    else if l.kind = .lparen then (constraintsLength? (depth + 1) rest).map (· + 1)
    else if l.kind = .rparen then (constraintsLength? (depth - 1) rest).map (· + 1)
    else if depth = 0 && (l.kind = .lbrace || l.kind = .semicolon || l.kind = .arrow) then
      some 0
    else (constraintsLength? depth rest).map (· + 1)

-- ============================================================ skipping

namespace Parser

/-- Goes to the end of the text. -/
def toEnd : Parser Unit := do advanceBy (← get).rest.length

/-- Goes past a balanced run of brackets; gives the bytes it covers. -/
def skipBalanced (opening closing : LexemeKind) : Parser Span := do
  let from_ ← start
  expect opening
  match balancedLength? opening closing 1 (← get).rest with
  | some n =>
    advanceBy n
    spanFrom from_
  | none =>
    toEnd
    missing closing

/-- Goes up to the first of `stops` outside brackets. -/
def skipUntil (stops : List LexemeKind) : Parser Unit := do
  let (n, e) := scanUntil stops 0 0 (← get).rest
  advanceBy n
  match e with
  | .found => return ()
  | .endOfText => missing (stops.headD .semicolon)
  | .unmatched => fail "CS1519" ("Invalid token '" ++ (← text) ++ "' in expression")

/-- Goes past attributes. -/
def skipAttributes : Parser Unit := do
  let _ ← collect (α := Unit) do
    if ← atKind .lbracket then
      let _ ← skipBalanced .lbracket .rbracket
      return .item ()
    else
      return .done
  return ()

/-- Goes past constraint clauses. -/
def skipConstraints : Parser Unit := do
  if ← atWord "where" then
    match constraintsLength? 0 (← get).rest with
    | some n => advanceBy n
    | none =>
      toEnd
      fail "CS1514" "\x7b expected"

end Parser

end ClrListing.Syntax
