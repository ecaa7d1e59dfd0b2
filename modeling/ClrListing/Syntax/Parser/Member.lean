/-
Parsing members, and the type declarations that hold them.

A member is told by what follows its attributes and modifiers: a keyword
for types, events and conversions, a tilde for a destructor, a name and
a parenthesis for a constructor, and otherwise a type, after which a
method, property, indexer, field or operator is told apart by what
follows the name.
-/
import ClrListing.Syntax.Parser.Skip
import ClrListing.Syntax.Parser.TypeExpr

namespace ClrListing.Syntax

open Source

namespace Parser

-- ========================================================== modifiers

/-- Words that act as modifiers where a declaration follows them. -/
def contextualModifiers : List String := ["partial", "async", "required", "file"]

/-- A lexeme that may follow a contextual modifier. -/
def followsContextual : LexemeKind → Bool
  | .identifier | .predefined | .modifier | .kwClass | .kwStruct | .kwInterface | .kwEnum
  | .kwDelegate | .kwEvent | .lparen => true
  | _ => false

/-- The modifiers that the next lexeme stands for, if it is a modifier;
some modifiers leave no trace in the tree. -/
def modifierHere : Parser (Option Modifiers) := do
  let spelling ← text
  match ← kind with
  | .modifier | .kwExtern => return (Modifier.ofKeyword? spelling).map ([·])
  | .passing => return if spelling = "ref" then some [.isRef] else none
  | .identifier =>
    if contextualModifiers.contains spelling && followsContextual (← kindAt 1)
        && (← kindAt 2) ≠ .lparen then
      return some (Modifier.ofKeyword? spelling).toList
    else
      return none
  | _ => return none

/-- The modifiers at the front of a declaration. -/
def modifiers : Parser Modifiers := do
  let sets ← collect do
    match ← modifierHere with
    | some set =>
      advance
      return .item set
    | none => return .done
  return sets.flatten

-- =========================================================== bodies

/-- A body from `=>` to its semicolon. -/
def expressionBody : Parser Body := do
  let from_ ← start
  expect .arrow
  skipUntil [.semicolon]
  expect .semicolon
  return ⟨.expression, ← spanFrom from_⟩

/-- A body, or the semicolon that stands for none. -/
def body : Parser (Option Body) := do
  match ← kind with
  | .semicolon =>
    advance
    return none
  | .lbrace => return some ⟨.block, ← skipBalanced .lbrace .rbrace⟩
  | .arrow => return some (← expressionBody)
  | _ => missing .semicolon

/-- One accessor, unless the list of accessors closes. -/
def accessor : Parser (Turn Accessor) := do
  skipAttributes
  if ← eat .rbrace then
    return .done
  else if ← atKind .endOfText then
    missing .rbrace
  else
    let from_ ← start
    let mods ← modifiers
    let spelling ← text
    let word := if (← kind) = .identifier then spelling else ""
    match AccessorKind.ofKeyword? word with
    | none => fail "CS1014" "A get or set accessor expected"
    | some kind =>
      advance
      let body ← body
      return .item ⟨kind, mods, body, ← spanFrom from_⟩

/-- Accessors in braces. -/
def accessors : Parser (List Accessor) := do
  expect .lbrace
  collect accessor

/-- Accessors, or an expression body in their place. -/
def accessorsOrExpression : Parser (List Accessor × Option Body) := do
  if ← atKind .arrow then
    return ([], some (← expressionBody))
  else
    return (← accessors, none)

-- ========================================================= parameters

/-- How the next parameter is passed, if the next lexeme says so. -/
def passingHere : Parser (Option Passing) := do
  match ← kind with
  | .passing =>
    match ← text with
    | "ref" => return some .byRef
    | "out" => return some .byOut
    | "in" => return some .byIn
    | _ => return some .rest
  | .kwThis => return some .receiver
  | _ => return none

/-- Goes past the next lexeme if it is the modifier `word`. -/
def eatModifier (word : String) : Parser Bool := do
  if (← atKind .modifier) && (← text) = word then
    advance
    return true
  else
    return false

/-- One parameter, in a list that `closing` ends. -/
def parameter (closing : LexemeKind) : Parser Parameter := do
  skipAttributes
  if (← atWord "scoped") && (← kindAt 1) ≠ .identifier then
    advance
  let passing ← passingHere
  if passing.isSome then
    advance
    let _ ← eatModifier "readonly"
  let type ← typeExpr
  let name ← identifier
  let hasDefault ← eat .assign
  if hasDefault then
    skipUntil [closing, .comma]
  return ⟨passing, type, name, hasDefault⟩

/-- Parameters between `opening` and `closing`. -/
def parameters (opening closing : LexemeKind) : Parser (List Parameter) := do
  expect opening
  if ← eat closing then
    return []
  else
    let params ← separated (parameter closing)
    expect closing
    return params

/-- The name of one type parameter. -/
def typeParameter : Parser String := do
  skipAttributes
  if ← atKind .passing then
    let spelling ← text
    if spelling = "in" || spelling = "out" then
      advance
  identifier

/-- The names of the type parameters in angle brackets, none if there
are no brackets. -/
def typeParameters : Parser (List String) := do
  if ← eat .lt then
    let names ← separated typeParameter
    expect .gt
    return names
  else
    return []

-- ============================================================ members

/-- What follows the name of a variable: the size of a buffer and an
initializer, each of which may be missing. -/
def variableAfter (name : String) : Parser Variable := do
  if ← atKind .lbracket then
    let _ ← skipBalanced .lbracket .rbracket
  let hasInitializer ← eat .assign
  if hasInitializer then
    skipUntil [.comma, .semicolon]
  return ⟨name, hasInitializer⟩

/-- The variables of a declaration whose first name is behind. -/
def declarators (first : String) : Parser (List Variable) := do
  let head ← variableAfter first
  let tail ← collect do
    if ← eat .comma then
      let name ← identifier
      return .item (← variableAfter name)
    else
      expect .semicolon
      return .done
  return head :: tail

/-- The constructor that a constructor calls first, if it names one. -/
def chaining : Parser (Option Chaining) := do
  if ← eat .colon then
    let target ← match ← kind with
      | .kwBase => pure Chaining.base
      | .kwThis => pure Chaining.this
      | _ => fail "CS1018" "Keyword 'this' or 'base' expected"
    advance
    let _ ← skipBalanced .lparen .rparen
    return some target
  else
    return none

/-- A constructor. -/
def constructor (from_ : Nat) (mods : Modifiers) : Parser Member := do
  let name ← identifier
  let params ← parameters .lparen .rparen
  let target ← chaining
  let body ← body
  return .constructor ⟨mods, name, params, target, body, ← spanFrom from_⟩

/-- A destructor. -/
def destructor (from_ : Nat) : Parser Member := do
  advance
  let name ← identifier
  expect .lparen
  expect .rparen
  let body ← body
  return .destructor ⟨name, body, ← spanFrom from_⟩

/-- The rest of an operator, from its parameters on. -/
def operatorAfter (from_ : Nat) (mods : Modifiers) (kind : OperatorKind)
    (returnType : TypeExpr) : Parser Member := do
  let params ← parameters .lparen .rparen
  let body ← body
  return .operator ⟨mods, kind, returnType, params, body, ← spanFrom from_⟩

/-- A conversion operator. -/
def conversion (from_ : Nat) (mods : Modifiers) (kind : OperatorKind) : Parser Member := do
  advance
  expect .kwOperator
  let returnType ← typeExpr
  operatorAfter from_ mods kind returnType

/-- The spelling of an operator that is written as several lexemes: they
are joined up to a parenthesis or until four bytes are reached. -/
def operatorSpelling (spelling : String) : List Lexeme → String × Nat
  | [] => (spelling, 0)
  | l :: rest =>
    if l.kind = .lparen || l.kind = .endOfText || 4 ≤ spelling.utf8ByteSize then (spelling, 0)
    else
      let (joined, n) := operatorSpelling (spelling ++ l.text) rest
      (joined, n + 1)

/-- An operator, after its type and the keyword. -/
def symbolOperator (from_ : Nat) (mods : Modifiers) (type : TypeExpr) : Parser Member := do
  let (spelling, n) := operatorSpelling "" (← get).rest
  advanceBy n
  operatorAfter from_ mods (.symbol spelling) type

/-- The rest of an indexer, from `this` on. -/
def indexerAfter (from_ : Nat) (mods : Modifiers) (type : TypeExpr)
    (explicitInterface : Option TypeExpr) : Parser Member := do
  expect .kwThis
  let params ← parameters .lbracket .rbracket
  let (accessors, expression) ← accessorsOrExpression
  return .indexer
    ⟨mods, type, explicitInterface, params, accessors, expression, ← spanFrom from_⟩

/-- The interface that the leading segments of a member's name spell. -/
def interfaceOf (segments : List NameSegment) : Option TypeExpr :=
  if segments.isEmpty then none else some (.named none segments)

/-- One segment of an event's dotted name; type arguments after it are
read and dropped. -/
def eventSegment : Parser String := do
  let name ← identifier
  let _ ← collect (α := Unit) do
    if ← atKind .lt then
      let _ ← typeArguments
      return .item ()
    else
      return .done
  return name

/-- An event. -/
def event (from_ : Nat) (mods : Modifiers) : Parser Member := do
  advance
  let type ← headerType
  let names ← collect do
    let name ← eventSegment
    if ← eat .dot then return .item name else return .last name
  let name := names.getLastD ""
  let explicitInterface := interfaceOf (names.dropLast.map fun n => ⟨n, []⟩)
  if ← atKind .lbrace then
    let accessors ← accessors
    return .event ⟨mods, type, explicitInterface, [name], accessors, ← spanFrom from_⟩
  else
    let vars ← declarators name
    return .event
      ⟨mods, type, explicitInterface, vars.map Variable.name, [], ← spanFrom from_⟩

/-- The type parameter that a type argument after a method's name is. -/
def typeParameterOf? : TypeExpr → Option String
  | .named none [⟨name, []⟩] => some name
  | _ => none

/-- The rest of a method, after its name. -/
def methodAfter (from_ : Nat) (mods : Modifiers) (type : TypeExpr)
    (explicitInterface : Option TypeExpr) (segment : NameSegment) : Parser Member := do
  match segment.args.mapM typeParameterOf? with
  | none => fail "CS0081" "Type parameter declaration must be an identifier not a type"
  | some typeParams =>
    let params ← parameters .lparen .rparen
    skipConstraints
    let body ← body
    return .method
      ⟨mods, type, explicitInterface, segment.name, typeParams, params, body, ← spanFrom from_⟩

/-- The rest of a property, after its name. -/
def propertyAfter (from_ : Nat) (mods : Modifiers) (type : TypeExpr)
    (explicitInterface : Option TypeExpr) (name : String) : Parser Member := do
  let (accessors, expression) ← accessorsOrExpression
  let hasInitializer ← if expression.isNone then eat .assign else pure false
  if hasInitializer then
    skipUntil [.semicolon]
    expect .semicolon
  return .property
    ⟨mods, type, explicitInterface, name, accessors, expression, hasInitializer,
      ← spanFrom from_⟩

/-- The rest of a field, after its first name. -/
def fieldAfter (from_ : Nat) (mods : Modifiers) (type : TypeExpr) (name : String) :
    Parser Member := do
  let vars ← declarators name
  return .field ⟨mods, type, vars, ← spanFrom from_⟩

/-- The segments of a member's name, up to a dot before `this`. -/
def memberSegments : Parser (List NameSegment) :=
  collect do
    let segment ← nameSegment typeExpr
    if (← atKind .dot) && (← kindAt 1) = .identifier then
      advance
      return .item segment
    else
      return .last segment

/-- The rest of a member, after the name that `segments` spells. -/
def namedMember (from_ : Nat) (mods : Modifiers) (type : TypeExpr)
    (segments : List NameSegment) : Parser Member := do
  let segment := segments.getLastD default
  let explicitInterface := interfaceOf segments.dropLast
  let plain := explicitInterface.isNone && segment.args.isEmpty
  match ← kind with
  | .lparen => methodAfter from_ mods type explicitInterface segment
  | .lbrace | .arrow => propertyAfter from_ mods type explicitInterface segment.name
  | .assign | .comma | .semicolon | .lbracket =>
    if plain then fieldAfter from_ mods type segment.name else missing .semicolon
  | _ => missing .semicolon

/-- The rest of a member that starts with a type. -/
def typedMember (from_ : Nat) (mods : Modifiers) (type : TypeExpr) : Parser Member := do
  if ← eat .kwOperator then
    symbolOperator from_ mods type
  else if ← atKind .kwThis then
    indexerAfter from_ mods type none
  else
    let segments ← memberSegments
    if (← atKind .dot) && (← kindAt 1) = .kwThis then
      advance
      indexerAfter from_ mods type (some (.named none segments))
    else
      namedMember from_ mods type segments

/-- A member that declares no type, after its modifiers. -/
def plainMember (from_ : Nat) (mods : Modifiers) : Parser Member := do
  match ← kind with
  | .tilde => destructor from_
  | .kwEvent => event from_ mods
  | .kwImplicit => conversion from_ mods .implicitConversion
  | .kwExplicit => conversion from_ mods .explicitConversion
  | .identifier =>
    if (← kindAt 1) = .lparen then
      constructor from_ mods
    else
      typedMember from_ mods (← headerType)
  | .predefined | .lparen => typedMember from_ mods (← headerType)
  | _ =>
    fail "CS1519" ("Invalid token '" ++ (← text)
      ++ "' in class, record, struct, or interface member declaration")

-- ============================================================== types

/-- The kind of type that a keyword declares. -/
def typeKind? : LexemeKind → Option TypeKind
  | .kwClass => some .classType
  | .kwStruct => some .structType
  | .kwInterface => some .interfaceType
  | .kwEnum => some .enumType
  | .kwDelegate => some .delegateType
  | _ => none

/-- The enumerators of an enum, from the brace on. -/
def enumerators : Parser (List String) := do
  expect .lbrace
  collect do
    skipAttributes
    if ← eat .rbrace then
      return .done
    else
      let name ← identifier
      if ← eat .assign then
        skipUntil [.comma, .rbrace]
      if ← eat .comma then
        return .item name
      else
        expect .rbrace
        return .last name

/-- The rest of a delegate declaration, after its keyword. -/
def delegateAfter (from_ : Nat) (mods : Modifiers) : Parser TypeDecl := do
  let returnType ← typeExpr
  let name ← identifier
  let typeParams ← typeParameters
  let params ← parameters .lparen .rparen
  skipConstraints
  expect .semicolon
  return ⟨.delegateType, name, typeParams, mods, [], [], [], some ⟨returnType, params⟩,
    ← spanFrom from_⟩

/-- The rest of an enum declaration, after its keyword. -/
def enumAfter (from_ : Nat) (mods : Modifiers) : Parser TypeDecl := do
  let name ← identifier
  let bases ← if ← eat .colon then pure [← typeExpr] else pure []
  let names ← enumerators
  let _ ← eat .semicolon
  return ⟨.enumType, name, [], mods, bases, [], names, none, ← spanFrom from_⟩

/-- The rest of a class, struct or interface declaration, after its
keyword; `member` reads one member. -/
def classAfter (member : Parser Member) (from_ : Nat) (mods : Modifiers) (kind : TypeKind) :
    Parser TypeDecl := do
  let name ← identifier
  let typeParams ← typeParameters
  let bases ← if ← eat .colon then separated typeExpr else pure []
  skipConstraints
  expect .lbrace
  let members ← collect do
    if ← atKind .rbrace then
      return .done
    else if ← atKind .endOfText then
      missing .rbrace
    else
      return .item (← member)
  expect .rbrace
  let _ ← eat .semicolon
  return ⟨kind, name, typeParams, mods, bases, members, [], none, ← spanFrom from_⟩

/-- A type declaration, after its modifiers. -/
def typeDeclOf (member : Parser Member) (from_ : Nat) (mods : Modifiers) (kind : TypeKind) :
    Parser TypeDecl := do
  advance
  match kind with
  | .delegateType => delegateAfter from_ mods
  | .enumType => enumAfter from_ mods
  | kind => classAfter member from_ mods kind

/-- A member with at most `bound` levels of types inside it. -/
def memberWithin : (bound : Nat) → Parser Member
  | 0 => exhausted
  | bound + 1 => do
    skipAttributes
    let from_ ← start
    let mods ← modifiers
    match typeKind? (← kind) with
    | some kind => return .type (← typeDeclOf (memberWithin bound) from_ mods kind)
    | none => plainMember from_ mods

/-- A type declaration, after its modifiers. The types inside it take
lexemes of their own, so the lexemes ahead bound their nesting. -/
def typeDecl (from_ : Nat) (mods : Modifiers) (kind : TypeKind) : Parser TypeDecl := do
  typeDeclOf (memberWithin ((← get).rest.length + 1)) from_ mods kind

end Parser

end ClrListing.Syntax
