/-
Parsing types.

A type is a keyword, a dotted name or a tuple, followed by any number of
`?`, `*` and array brackets. At the start of a member a dotted name stops
before the dot of `Interface.Member`; everywhere else it goes on as long
as dots and identifiers alternate.
-/
import ClrListing.Syntax.Parser.Basic

namespace ClrListing.Syntax

open Source

-- ========================================================== lookahead

/-- The lexemes after the `>` that closes `depth` open angle brackets;
`none` if a lexeme that ends a member comes first. -/
def afterAngles? : (depth : Nat) → List Lexeme → Option (List Lexeme)
  | _, [] => none
  | depth, l :: rest =>
    match l.kind with
    | .lt => afterAngles? (depth + 1) rest
    | .gt => if depth ≤ 1 then some rest else afterAngles? (depth - 1) rest
    | .endOfText | .semicolon | .lbrace => none
    | _ => afterAngles? depth rest

/-- Whether what follows a name belongs to a member of that name: its
parameters, accessors, body or initializer, or a dot and `this`. -/
def memberFollows : List Lexeme → Bool
  | [] => false
  | l :: rest =>
    match l.kind with
    | .lparen | .lbrace | .arrow | .semicolon | .assign | .comma => true
    | .dot => (rest.head?.map Lexeme.kind) = some .kwThis
    | _ => false

/-- Whether a dotted name goes on as a type past the dot and identifier
that `ahead` starts with. -/
def continuesTypeName (ahead : List Lexeme) : Bool :=
  match ahead.drop 2 with
  | [] => true
  | l :: rest =>
    if l.kind = .lt then
      match afterAngles? 1 rest with
      | some rest => !memberFollows rest
      | none => false
    else !memberFollows (l :: rest)

-- ============================================================== types

/-- What may follow a type and make another of it. -/
inductive TypeSuffix where
  | nullable
  | pointer
  | array (rank : Nat)

/-- The type that a suffix makes of `t`. -/
def TypeSuffix.apply (t : TypeExpr) : TypeSuffix → TypeExpr
  | .nullable => .nullable t
  | .pointer => .pointer t
  | .array rank => .array t rank

namespace Parser

/-- One suffix of a type, if one is next. -/
def typeSuffix : Parser (Turn TypeSuffix) := do
  match ← kind with
  | .question =>
    advance
    return .item .nullable
  | .star =>
    advance
    return .item .pointer
  | .lbracket =>
    let inner ← kindAt 1
    if inner = .rbracket || inner = .comma then
      advance
      let commas ← collect (α := Unit) do
        if ← eat .comma then return .item () else return .done
      expect .rbracket
      return .item (.array (commas.length + 1))
    else
      return .done
  | _ => return .done

/-- Type arguments in angle brackets, each read by `argument`. -/
def typeArgumentsOf (argument : Parser TypeExpr) : Parser (List TypeExpr) := do
  expect .lt
  let args ← separated argument
  expect .gt
  return args

/-- One segment of a dotted name. -/
def nameSegment (argument : Parser TypeExpr) : Parser NameSegment := do
  let name ← identifier
  if ← atKind .lt then
    return ⟨name, ← typeArgumentsOf argument⟩
  else
    return ⟨name, []⟩

/-- The alias before `::`, if there is one. -/
def typeAlias : Parser (Option String) := do
  if (← kindAt 1) = .doubleColon then
    let name ← identifier
    advance
    return some name
  else
    return none

/-- A type with at most `bound` levels of types inside types. -/
def typeExprWithin : (bound : Nat) → (inHeader : Bool) → Parser TypeExpr
  | 0, _ => exhausted
  | bound + 1, inHeader => do
    let base ← match ← kind with
      | .predefined =>
        let keyword ← text
        advance
        pure (TypeExpr.predefined keyword)
      | .lparen =>
        advance
        let elements ← separated do
          let element ← typeExprWithin bound false
          let _ ← eat .identifier
          return element
        expect .rparen
        pure (TypeExpr.tuple elements)
      | .identifier =>
        let root ← typeAlias
        let segments ← collect do
          let segment ← nameSegment (typeExprWithin bound false)
          let dotted := (← atKind .dot) && (← kindAt 1) = .identifier
          if dotted && (!inHeader || continuesTypeName (← get).rest) then
            advance
            return .item segment
          else
            return .last segment
        pure (TypeExpr.named root segments)
      | _ => fail "CS1031" "Type expected"
    let suffixes ← collect typeSuffix
    return suffixes.foldl TypeSuffix.apply base

/-- A type. Types inside a type take lexemes of their own, so the
lexemes ahead bound their nesting. -/
def typeExprIn (inHeader : Bool) : Parser TypeExpr := do
  typeExprWithin ((← get).rest.length + 1) inHeader

/-- A type whose dotted names go on as far as they can. -/
def typeExpr : Parser TypeExpr := typeExprIn false

/-- The type that starts a member. -/
def headerType : Parser TypeExpr := typeExprIn true

/-- Type arguments in angle brackets. -/
def typeArguments : Parser (List TypeExpr) := typeArgumentsOf typeExpr

end Parser

end ClrListing.Syntax
