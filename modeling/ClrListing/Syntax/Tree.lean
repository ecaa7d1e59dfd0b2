/-
A parsed source file: its aliases, using directives, namespaces and types,
and the text they are read from.
-/
import ClrListing.Log
import ClrListing.Syntax.Parser.Member
import ClrListing.Text.Utf8

namespace ClrListing.Syntax

open Source

-- ================================================================ files

namespace Parser

/-- One using directive, if one is next. Its name is the source from the
first lexeme after its keywords to the last before its semicolon. -/
def usingDirective : Parser (Turn Using) := do
  let isGlobal := (← atWord "global") && (← kindAt 1) = .kwUsing
  if isGlobal then
    advance
  if ← eat .kwUsing then
    let isStatic ← eatModifier "static"
    let aliased := (← kind) = .identifier && (← kindAt 1) = .assign
    let shortName ← if aliased then
        let name ← identifier
        advance
        pure (some name)
      else
        pure none
    let from_ ← start
    skipUntil [.semicolon]
    let span ← spanFrom from_
    expect .semicolon
    return .item ⟨span.textOf (← get).source, shortName, isStatic, isGlobal⟩
  else
    return .done

/-- Using directives. -/
def usings : Parser (List Using) := collect usingDirective

/-- Identifiers joined with dots. -/
def qualifiedName : Parser String := do
  let names ← collect do
    let name ← identifier
    if ← eat .dot then return .item name else return .last name
  return String.intercalate "." names

/-- One member of a file or namespace, if one is next; `members` reads
those of a namespace, up to its closing brace or to the end. -/
def namespaceMember (members : (inBlock : Bool) → Parser (List NamespaceMember))
    (inBlock : Bool) : Parser (Turn NamespaceMember) := do
  skipAttributes
  match ← kind with
  | .endOfText => if inBlock then missing .rbrace else return .done
  | .rbrace => if inBlock then return .done else declaration
  | .kwNamespace =>
    let from_ ← start
    advance
    let name ← qualifiedName
    if ← eat .semicolon then
      let usings ← usings
      let inner ← members inBlock
      return .last (.space ⟨name, true, usings, inner, ← spanFrom from_⟩)
    else
      expect .lbrace
      let usings ← usings
      let inner ← members true
      expect .rbrace
      let _ ← eat .semicolon
      return .item (.space ⟨name, false, usings, inner, ← spanFrom from_⟩)
  | _ => declaration
where
  /-- A type declaration. -/
  declaration : Parser (Turn NamespaceMember) := do
    let from_ ← start
    let mods ← modifiers
    match typeKind? (← kind) with
    | some kind => return .item (.type (← typeDecl from_ mods kind))
    | none => fail "CS1022" "Type or namespace definition, or end-of-file expected"

/-- The members of a file or namespace, with at most `bound` levels of
namespaces inside. -/
def namespaceMembersWithin : (bound : Nat) → (inBlock : Bool) → Parser (List NamespaceMember)
  | 0, _ => exhausted
  | bound + 1, inBlock => collect (namespaceMember (namespaceMembersWithin bound) inBlock)

/-- The members of a file. The namespaces inside a namespace take
lexemes of their own, so the lexemes ahead bound their nesting. -/
def namespaceMembers : Parser (List NamespaceMember) := do
  namespaceMembersWithin ((← get).rest.length + 1) false

/-- The names of the aliases that a file starts with. -/
def aliases : Parser (List String) :=
  collect do
    if (← kind) = .kwExtern && (← kindAt 1) = .identifier && (← get).textAt 1 = "alias" then
      advance
      advance
      let name ← identifier
      expect .semicolon
      return .item name
    else
      return .done

/-- A whole file. -/
def compilationUnit : Parser CompilationUnit := do
  let aliases ← aliases
  let usings ← usings
  let members ← namespaceMembers
  return ⟨aliases, usings, members⟩

end Parser

-- ================================================================ trees

/-- A parsed source file. -/
structure Tree where
  /-- The text. -/
  source : String
  /-- Its declarations. -/
  root : CompilationUnit

namespace Tree

/-- The declarations of a text with the given lexemes. Parsing stops at
the first complaint. -/
def ofLexemes (source : String) (lexemes : List Lexeme) : Except Failure CompilationUnit :=
  ((Parser.compilationUnit.run (Cursor.top source lexemes)).map Prod.fst)

/-- Parses a source text. -/
def parse (source : String) : Action Tree := do
  match lexemes source with
  | .error complaints => throw (.syntaxErrors complaints)
  | .ok lexemes =>
    Run.debug ("Lexed " ++ lexemes.length.repr ++ " tokens")
    match ofLexemes source lexemes with
    | .ok root => return ⟨source, root⟩
    | .error (.complaint d) => throw (.syntaxErrors [d])
    | .error .exhausted => throw (.syntaxErrors [])

/-- Parses the bytes of a source file, if it can be read. -/
def parseFile (content : Except FileFault (List UInt8)) : Action Tree := do
  match Text.Utf8.decode (← Run.orFault content) with
  | none => throw (.file .invalidData)
  | some text => parse (String.ofList text)

end Tree

end ClrListing.Syntax
