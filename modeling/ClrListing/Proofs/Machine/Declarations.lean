/-
Declarations of the parser of places.

Each of its parts does what the part of the same name does that the parser of
cursors has, and goes past a lexeme where a loop or a level of types, members
or namespaces needs that. Most parts follow from their own parts. The others
are the ones that know which lexeme is next, and so that it is not the end:
the suffixes of a type, modifiers, bodies, and what a keyword begins.

A recursion has as many levels to go down as there are lexemes, and its first
level begins anywhere. So the levels that are left, and the place, come to no
less than the lexemes, and this holds of the next level too, for that begins
further on.
-/
import ClrListing.Proofs.Machine.Skipping
import ClrListing.Syntax.Tree

namespace ClrListing.Machine

open Source Syntax

-- a parser with many parts makes a large instance
set_option synthInstance.maxSize 4096

variable {α : Type} {t : Tokens} {n : Nat}

-- =============================================================== types

namespace Descent

/-- One suffix of a type, if one is next. -/
def typeSuffix : Descent (Parser.Turn TypeSuffix) := do
  match ← kind with
  | .question =>
    advance
    return .item .nullable
  | .star =>
    advance
    return .item .pointer
  | .lbracket =>
    let inner ← kindAt 1
    if inner = .rbracket || inner = .comma then
      advance
      let commas ← collect (α := Unit) do
        if ← eat .comma then return .item () else return .done
      expect .rbracket
      return .item (.array (commas.length + 1))
    else
      return .done
  | _ => return .done

/-- Type arguments in angle brackets, each read by `argument`. -/
def typeArgumentsOf (argument : Descent TypeExpr) : Descent (List TypeExpr) := do
  expect .lt
  let args ← separated argument
  expect .gt
  return args

/-- One segment of a dotted name. -/
def nameSegment (argument : Descent TypeExpr) : Descent NameSegment := do
  let name ← identifier
  if ← atKind .lt then
    return ⟨name, ← typeArgumentsOf argument⟩
  else
    return ⟨name, []⟩

/-- The alias before `::`, if there is one. -/
def typeAlias : Descent (Option String) := do
  if (← kindAt 1) = .doubleColon then
    let name ← identifier
    advance
    return some name
  else
    return none

/-- One segment of the name of a type, and the dot past which it goes on. -/
def nameTurn (argument : Descent TypeExpr) (inHeader : Bool) :
    Descent (Parser.Turn NameSegment) := do
  let segment ← nameSegment argument
  if ← goesOn inHeader then
    advance
    return .item segment
  else
    return .last segment

/-- A type with less than `levels` levels of types inside types. -/
def typeExprWithin : (levels : Nat) → (inHeader : Bool) → Descent TypeExpr
  | 0, _ => halt .endless
  | levels + 1, inHeader => do
    let from_ ← place
    let inner := below from_ (typeExprWithin levels false)
    let base ← match ← kind with
      | .predefined =>
        let keyword ← text
        advance
        pure (TypeExpr.predefined keyword)
      | .lparen =>
        advance
        let elements ← separated do
          let element ← inner
          let _ ← eat .identifier
          return element
        expect .rparen
        pure (TypeExpr.tuple elements)
      | .identifier =>
        let root ← typeAlias
        pure (TypeExpr.named root (← collect (nameTurn inner inHeader)))
      | _ => fail "CS1031" "Type expected"
    let suffixes ← collect typeSuffix
    return suffixes.foldl TypeSuffix.apply base

/-- A type with less levels than there are lexemes. -/
def typeExprIn (inHeader : Bool) : Descent TypeExpr := do
  typeExprWithin (← read).lexemes.length inHeader

/-- A type whose dotted names go on as far as they can. -/
def typeExpr : Descent TypeExpr := typeExprIn false

/-- The type that starts a member. -/
def headerType : Descent TypeExpr := typeExprIn true

/-- Type arguments in angle brackets. -/
def typeArguments : Descent (List TypeExpr) := typeArgumentsOf typeExpr

end Descent

instance : Accords t n GoesOn Descent.typeSuffix Parser.typeSuffix := by
  unfold Descent.typeSuffix Parser.typeSuffix
  refine .of_kind fun k kind hn hat => ?_
  cases kind
  case question | star => exact Accords.past hat (by decide) inferInstance
  case lbracket =>
    refine Tracks.after_look (Tracks.kindAt_eq t k 1) rfl (.ite (fun _ => ?_) fun _ => ?_)
    · exact Accords.past hat (by decide) inferInstance
    · exact Accords.tracks_at inferInstance hn hat
  all_goals exact Accords.tracks_at inferInstance hn hat

/-- Parsers of types that go the same way further on make parsers of type
arguments that do. -/
theorem accords_typeArgumentsOf {argument : Descent TypeExpr} {argument' : Parser TypeExpr}
    (h : ∀ k, n < k → Accords t k Always argument argument') :
    Accords t n Always (Descent.typeArgumentsOf argument) (Parser.typeArgumentsOf argument') := by
  unfold Descent.typeArgumentsOf Parser.typeArgumentsOf
  refine Accords.bind_later inferInstance fun _ k hk => ?_
  have hargument := h k hk
  infer_instance

theorem accords_nameSegment {argument : Descent TypeExpr} {argument' : Parser TypeExpr}
    (h : ∀ k, n < k → Accords t k Always argument argument') :
    Accords t n Always (Descent.nameSegment argument) (Parser.nameSegment argument') := by
  unfold Descent.nameSegment Parser.nameSegment
  refine Accords.bind_later inferInstance fun _ k hk => ?_
  have harguments := accords_typeArgumentsOf fun k' hk' => h k' (Nat.lt_trans hk hk')
  infer_instance

theorem accords_nameTurn {argument : Descent TypeExpr} {argument' : Parser TypeExpr}
    (inHeader : Bool) (h : ∀ k, n < k → Accords t k Always argument argument') :
    Accords t n Always (Descent.nameTurn argument inHeader) (do
      let segment ← Parser.nameSegment argument'
      let dotted := (← Parser.atKind .dot) && (← Parser.kindAt 1) = .identifier
      if dotted && (!inHeader || continuesTypeName (← get).rest) then
        Parser.advance
        return .item segment
      else
        return .last segment) := by
  refine (accords_nameSegment h).bind_past fun segment => ?_
  show Accords t n Never _ ((do
    let dotted := (← Parser.atKind .dot) && (← Parser.kindAt 1) = .identifier
    return dotted && (!inHeader || continuesTypeName (← get).rest)) >>= fun b =>
      if b then Parser.advance >>= fun _ => pure (Parser.Turn.item segment)
      else pure (Parser.Turn.last segment))
  infer_instance

instance : Accords t n Never Descent.typeAlias Parser.typeAlias := by
  unfold Descent.typeAlias Parser.typeAlias; infer_instance

theorem accords_typeExprWithin {levels bound : Nat} (inHeader : Bool)
    (hlevels : t.lexemes.length ≤ levels + n) (hbound : t.lexemes.length ≤ bound + n) :
    Accords t n Always (Descent.typeExprWithin levels inHeader)
      (Parser.typeExprWithin bound inHeader) := by
  induction levels generalizing bound n inHeader with
  | zero => exact .beyond (by omega)
  | succ levels ih =>
    cases bound with
    | zero => exact .beyond (by omega)
    | succ bound =>
      refine .of_place fun from_ hfrom => ?_
      have inner (k : Nat) (hk : from_ < k) : Accords t k Always
          (Descent.below from_ (Descent.typeExprWithin levels false))
          (Parser.typeExprWithin bound false) :=
        (ih false (by omega) (by omega)).below hk
      refine .of_kind fun k kind hk hat => ?_
      cases kind
      case predefined =>
        obtain ⟨l, hl, hkind⟩ := hat
        exact Tracks.text hl (Accords.past ⟨l, hl, hkind⟩ (by decide) inferInstance)
      case lparen =>
        have helement := inner (k + 1) (Nat.lt_succ_of_le hk)
        exact Accords.past hat (by decide) inferInstance
      case identifier =>
        have hturn := accords_nameTurn inHeader fun k' hk' => inner k' (Nat.lt_of_le_of_lt hk hk')
        exact Accords.tracks_at inferInstance (Nat.le_refl k) hat
      all_goals exact Accords.tracks_at inferInstance hk hat

instance (inHeader : Bool) :
    Accords t n Always (Descent.typeExprIn inHeader) (Parser.typeExprIn inHeader) where
  tracks k _ hk := by
    unfold Tracks Descent.typeExprIn Parser.typeExprIn
    rw [Descent.read_bind, get_bind]
    exact (accords_typeExprWithin inHeader (Nat.le_add_right _ _) (t.length_le_rest k)).tracks k
      (Nat.le_refl k) hk

instance : Accords t n Always Descent.typeExpr Parser.typeExpr :=
  inferInstanceAs (Accords t n Always (Descent.typeExprIn false) (Parser.typeExprIn false))

instance : Accords t n Always Descent.headerType Parser.headerType :=
  inferInstanceAs (Accords t n Always (Descent.typeExprIn true) (Parser.typeExprIn true))

instance : Accords t n Always Descent.typeArguments Parser.typeArguments :=
  accords_typeArgumentsOf inferInstance

-- ======================================================= modifiers, bodies

namespace Descent

/-- The modifiers that the next lexeme stands for, if it is a modifier. -/
def modifierHere : Descent (Option Modifiers) := do
  let spelling ← text
  match ← kind with
  | .modifier | .kwExtern => return (Modifier.ofKeyword? spelling).map ([·])
  | .passing => return if spelling = "ref" then some [.isRef] else none
  | .identifier =>
    if Parser.contextualModifiers.contains spelling && Parser.followsContextual (← kindAt 1)
        && (← kindAt 2) ≠ .lparen then
      return some (Modifier.ofKeyword? spelling).toList
    else
      return none
  | _ => return none

/-- The modifiers at the front of a declaration. -/
def modifiers : Descent Modifiers := do
  let sets ← collect do
    match ← modifierHere with
    | some set =>
      advance
      return .item set
    | none => return .done
  return sets.flatten

/-- A body from `=>` to its semicolon. -/
def expressionBody : Descent Body := do
  let from_ ← start
  expect .arrow
  skipUntil [.semicolon]
  expect .semicolon
  return ⟨.expression, ← spanFrom from_⟩

/-- A body, or the semicolon that stands for none. -/
def body : Descent (Option Body) := do
  match ← kind with
  | .semicolon =>
    advance
    return none
  | .lbrace => return some ⟨.block, ← skipBalanced .lbrace .rbrace⟩
  | .arrow => return some (← expressionBody)
  | _ => missing .semicolon

/-- One accessor, unless the list of accessors closes. -/
def accessor : Descent (Parser.Turn Accessor) := do
  skipAttributes
  if ← eat .rbrace then
    return .done
  else if ← atKind .endOfText then
    missing .rbrace
  else
    let from_ ← start
    let mods ← modifiers
    let spelling ← text
    let word := if (← kind) = .identifier then spelling else ""
    match AccessorKind.ofKeyword? word with
    | none => fail "CS1014" "A get or set accessor expected"
    | some kind =>
      advance
      let body ← body
      return .item ⟨kind, mods, body, ← spanFrom from_⟩

/-- Accessors in braces. -/
def accessors : Descent (List Accessor) := do
  expect .lbrace
  collect accessor

/-- Accessors, or an expression body in their place. -/
def accessorsOrExpression : Descent (List Accessor × Option Body) := do
  if ← atKind .arrow then
    return ([], some (← expressionBody))
  else
    return (← accessors, none)

end Descent

instance : Accords t n Never Descent.modifierHere Parser.modifierHere := by
  unfold Descent.modifierHere Parser.modifierHere
  refine .after inferInstance fun spelling => .after inferInstance fun kind => ?_
  cases kind <;> infer_instance

/-- The end is no modifier. -/
theorem tracks_modifierHere {k : Nat} {kind : LexemeKind} (hat : t.At k kind) :
    Tracks t k Descent.modifierHere Parser.modifierHere
      fun found stop => stop = k ∧ (found.isSome → kind ≠ .endOfText) := by
  obtain ⟨l, hl, rfl⟩ := hat
  have hk := (List.getElem?_eq_some_iff.mp hl).1
  unfold Descent.modifierHere Parser.modifierHere
  refine Tracks.text hl (Tracks.kind hl ?_)
  cases l.kind
  case identifier =>
    refine Tracks.after_look (Tracks.kindAt_eq t k 1) rfl
      (Tracks.after_look (Tracks.kindAt_eq t k 2) rfl (.ite (fun _ => ?_) fun _ => ?_))
    all_goals exact .pure hk ⟨rfl, fun _ => nofun⟩
  case endOfText => exact .pure hk ⟨rfl, nofun⟩
  all_goals exact .pure hk ⟨rfl, fun _ => nofun⟩

instance : Accords t n Never Descent.modifiers Parser.modifiers := by
  have hturn : Accords t n GoesOn (do
      match ← Descent.modifierHere with
      | some set => Descent.advance; return Parser.Turn.item set
      | none => return .done) (do
      match ← Parser.modifierHere with
      | some set => Parser.advance; return .item set
      | none => return .done) := by
    refine ⟨fun k hn hk => ?_⟩
    obtain ⟨l, hl⟩ := t.exists_lexeme hk
    refine (tracks_modifierHere ⟨l, hl, rfl⟩).bind fun found stop _ _ hfound => ?_
    obtain ⟨rfl, hkind⟩ := hfound
    cases found with
    | none => exact .pure hk nofun
    | some set => exact Accords.past ⟨l, hl, rfl⟩ (hkind rfl) inferInstance
  unfold Descent.modifiers Parser.modifiers
  infer_instance

instance : Accords t n Always Descent.expressionBody Parser.expressionBody := by
  unfold Descent.expressionBody Parser.expressionBody; infer_instance

instance : Accords t n Always Descent.body Parser.body := by
  unfold Descent.body Parser.body
  refine .of_kind fun k kind hn hat => ?_
  cases kind
  case semicolon => exact Accords.past hat (by decide) inferInstance
  all_goals exact Accords.tracks_at inferInstance hn hat

instance : Accords t n GoesOn Descent.accessor Parser.accessor := by
  unfold Descent.accessor Parser.accessor
  refine .after inferInstance fun _ => .of_eat inferInstance
    (.after inferInstance fun _ => .ite inferInstance ?_)
  refine .after inferInstance fun from_ => .after inferInstance fun mods =>
    .after inferInstance fun spelling => .after inferInstance fun kind => ?_
  dsimp only
  cases AccessorKind.ofKeyword? (if kind = .identifier then spelling else "") <;> infer_instance

instance : Accords t n Always Descent.accessors Parser.accessors := by
  unfold Descent.accessors Parser.accessors; infer_instance

instance : Accords t n Always Descent.accessorsOrExpression Parser.accessorsOrExpression := by
  unfold Descent.accessorsOrExpression Parser.accessorsOrExpression; infer_instance

-- ========================================================== parameters

namespace Descent

/-- How the next parameter is passed, if the next lexeme says so. -/
def passingHere : Descent (Option Passing) := do
  match ← kind with
  | .passing =>
    match ← text with
    | "ref" => return some .byRef
    | "out" => return some .byOut
    | "in" => return some .byIn
    | _ => return some .rest
  | .kwThis => return some .receiver
  | _ => return none

/-- Goes past the next lexeme if it is the modifier `word`. -/
def eatModifier (word : String) : Descent Bool := do
  if (← atKind .modifier) && (← text) = word then
    advance
    return true
  else
    return false

/-- One parameter, in a list that `closing` ends. -/
def parameter (closing : LexemeKind) : Descent Parameter := do
  skipAttributes
  if (← atWord "scoped") && (← kindAt 1) ≠ .identifier then
    advance
  let passing ← passingHere
  if passing.isSome then
    advance
    let _ ← eatModifier "readonly"
  let type ← typeExpr
  let name ← identifier
  let hasDefault ← eat .assign
  if hasDefault then
    skipUntil [closing, .comma]
  return ⟨passing, type, name, hasDefault⟩

/-- Parameters between `opening` and `closing`. -/
def parameters (opening closing : LexemeKind) : Descent (List Parameter) := do
  expect opening
  if ← eat closing then
    return []
  else
    let params ← separated (parameter closing)
    expect closing
    return params

/-- The name of one type parameter. -/
def typeParameter : Descent String := do
  skipAttributes
  if ← atKind .passing then
    let spelling ← text
    if spelling = "in" || spelling = "out" then
      advance
  identifier

/-- The names of the type parameters in angle brackets, none if there are no
brackets. -/
def typeParameters : Descent (List String) := do
  if ← eat .lt then
    let names ← separated typeParameter
    expect .gt
    return names
  else
    return []

end Descent

instance : Accords t n Never Descent.passingHere Parser.passingHere := by
  unfold Descent.passingHere Parser.passingHere
  refine .after inferInstance fun kind => ?_
  cases kind
  case passing =>
    refine .after inferInstance fun spelling => ?_
    -- Where the two matches are not one, the second is still to be reduced.
    split <;> first | infer_instance | (simp only; infer_instance)
  all_goals infer_instance

instance (word : String) :
    Accords t n Never (Descent.eatModifier word) (Parser.eatModifier word) := by
  unfold Descent.eatModifier Parser.eatModifier; infer_instance

instance (closing : LexemeKind) :
    Accords t n Always (Descent.parameter closing) (Parser.parameter closing) := by
  unfold Descent.parameter Parser.parameter; infer_instance

instance (opening closing : LexemeKind) [NotEnd opening] :
    Accords t n Always (Descent.parameters opening closing)
      (Parser.parameters opening closing) := by
  unfold Descent.parameters Parser.parameters; infer_instance

instance : Accords t n Always Descent.typeParameter Parser.typeParameter := by
  unfold Descent.typeParameter Parser.typeParameter; infer_instance

instance : Accords t n Never Descent.typeParameters Parser.typeParameters := by
  unfold Descent.typeParameters Parser.typeParameters; infer_instance

-- ============================================================= members

namespace Descent

/-- What follows the name of a variable: the size of a buffer and an
initializer, each of which may be missing. -/
def variableAfter (name : String) : Descent Variable := do
  if ← atKind .lbracket then
    let _ ← skipBalanced .lbracket .rbracket
  let hasInitializer ← eat .assign
  if hasInitializer then
    skipUntil [.comma, .semicolon]
  return ⟨name, hasInitializer⟩

/-- The variables of a declaration whose first name is behind. -/
def declarators (first : String) : Descent (List Variable) := do
  let head ← variableAfter first
  let tail ← collect do
    if ← eat .comma then
      let name ← identifier
      return .item (← variableAfter name)
    else
      expect .semicolon
      return .done
  return head :: tail

/-- The constructor that a constructor calls first, if it names one. -/
def chaining : Descent (Option Chaining) := do
  if ← eat .colon then
    let target ← match ← kind with
      | .kwBase => pure Chaining.base
      | .kwThis => pure Chaining.this
      | _ => fail "CS1018" "Keyword 'this' or 'base' expected"
    advance
    let _ ← skipBalanced .lparen .rparen
    return some target
  else
    return none

/-- A constructor. -/
def constructor (from_ : Nat) (mods : Modifiers) : Descent Member := do
  let name ← identifier
  let params ← parameters .lparen .rparen
  let target ← chaining
  let body ← body
  return .constructor ⟨mods, name, params, target, body, ← spanFrom from_⟩

/-- A destructor. -/
def destructor (from_ : Nat) : Descent Member := do
  advance
  let name ← identifier
  expect .lparen
  expect .rparen
  let body ← body
  return .destructor ⟨name, body, ← spanFrom from_⟩

/-- The rest of an operator, from its parameters on. -/
def operatorAfter (from_ : Nat) (mods : Modifiers) (kind : OperatorKind)
    (returnType : TypeExpr) : Descent Member := do
  let params ← parameters .lparen .rparen
  let body ← body
  return .operator ⟨mods, kind, returnType, params, body, ← spanFrom from_⟩

/-- A conversion operator. -/
def conversion (from_ : Nat) (mods : Modifiers) (kind : OperatorKind) : Descent Member := do
  advance
  expect .kwOperator
  let returnType ← typeExpr
  operatorAfter from_ mods kind returnType

/-- An operator, after its type and the keyword. -/
def symbolOperator (from_ : Nat) (mods : Modifiers) (type : TypeExpr) : Descent Member := do
  let spelling ← operatorSpelling
  operatorAfter from_ mods (.symbol spelling) type

/-- The rest of an indexer, from `this` on. -/
def indexerAfter (from_ : Nat) (mods : Modifiers) (type : TypeExpr)
    (explicitInterface : Option TypeExpr) : Descent Member := do
  expect .kwThis
  let params ← parameters .lbracket .rbracket
  let (accessors, expression) ← accessorsOrExpression
  return .indexer
    ⟨mods, type, explicitInterface, params, accessors, expression, ← spanFrom from_⟩

/-- One segment of an event's dotted name; type arguments after it are read and
dropped. -/
def eventSegment : Descent String := do
  let name ← identifier
  let _ ← collect (α := Unit) do
    if ← atKind .lt then
      let _ ← typeArguments
      return .item ()
    else
      return .done
  return name

/-- An event. -/
def event (from_ : Nat) (mods : Modifiers) : Descent Member := do
  advance
  let type ← headerType
  let names ← collect do
    let name ← eventSegment
    if ← eat .dot then return .item name else return .last name
  let name := names.getLastD ""
  let explicitInterface := Parser.interfaceOf (names.dropLast.map fun n => ⟨n, []⟩)
  if ← atKind .lbrace then
    let accessors ← accessors
    return .event ⟨mods, type, explicitInterface, [name], accessors, ← spanFrom from_⟩
  else
    let vars ← declarators name
    return .event
      ⟨mods, type, explicitInterface, vars.map Variable.name, [], ← spanFrom from_⟩

/-- The rest of a method, after its name. -/
def methodAfter (from_ : Nat) (mods : Modifiers) (type : TypeExpr)
    (explicitInterface : Option TypeExpr) (segment : NameSegment) : Descent Member := do
  match segment.args.mapM Parser.typeParameterOf? with
  | none => fail "CS0081" "Type parameter declaration must be an identifier not a type"
  | some typeParams =>
    let params ← parameters .lparen .rparen
    skipConstraints
    let body ← body
    return .method
      ⟨mods, type, explicitInterface, segment.name, typeParams, params, body, ← spanFrom from_⟩

/-- The rest of a property, after its name. -/
def propertyAfter (from_ : Nat) (mods : Modifiers) (type : TypeExpr)
    (explicitInterface : Option TypeExpr) (name : String) : Descent Member := do
  let (accessors, expression) ← accessorsOrExpression
  let hasInitializer ← if expression.isNone then eat .assign else pure false
  if hasInitializer then
    skipUntil [.semicolon]
    expect .semicolon
  return .property
    ⟨mods, type, explicitInterface, name, accessors, expression, hasInitializer,
      ← spanFrom from_⟩

/-- The rest of a field, after its first name. -/
def fieldAfter (from_ : Nat) (mods : Modifiers) (type : TypeExpr) (name : String) :
    Descent Member := do
  let vars ← declarators name
  return .field ⟨mods, type, vars, ← spanFrom from_⟩

/-- The segments of a member's name, up to a dot before `this`. -/
def memberSegments : Descent (List NameSegment) :=
  collect do
    let segment ← nameSegment typeExpr
    if (← atKind .dot) && (← kindAt 1) = .identifier then
      advance
      return .item segment
    else
      return .last segment

/-- The rest of a member, after the name that `segments` spells. -/
def namedMember (from_ : Nat) (mods : Modifiers) (type : TypeExpr)
    (segments : List NameSegment) : Descent Member := do
  let segment := segments.getLastD default
  let explicitInterface := Parser.interfaceOf segments.dropLast
  let plain := explicitInterface.isNone && segment.args.isEmpty
  match ← kind with
  | .lparen => methodAfter from_ mods type explicitInterface segment
  | .lbrace | .arrow => propertyAfter from_ mods type explicitInterface segment.name
  | .assign | .comma | .semicolon | .lbracket =>
    if plain then fieldAfter from_ mods type segment.name else missing .semicolon
  | _ => missing .semicolon

/-- The rest of a member that starts with a type. -/
def typedMember (from_ : Nat) (mods : Modifiers) (type : TypeExpr) : Descent Member := do
  if ← eat .kwOperator then
    symbolOperator from_ mods type
  else if ← atKind .kwThis then
    indexerAfter from_ mods type none
  else
    let segments ← memberSegments
    if (← atKind .dot) && (← kindAt 1) = .kwThis then
      advance
      indexerAfter from_ mods type (some (.named none segments))
    else
      namedMember from_ mods type segments

/-- A member that declares no type, after its modifiers. -/
def plainMember (from_ : Nat) (mods : Modifiers) : Descent Member := do
  match ← kind with
  | .tilde => destructor from_
  | .kwEvent => event from_ mods
  | .kwImplicit => conversion from_ mods .implicitConversion
  | .kwExplicit => conversion from_ mods .explicitConversion
  | .identifier =>
    if (← kindAt 1) = .lparen then
      constructor from_ mods
    else
      typedMember from_ mods (← headerType)
  | .predefined | .lparen => typedMember from_ mods (← headerType)
  | _ =>
    fail "CS1519" ("Invalid token '" ++ (← text)
      ++ "' in class, record, struct, or interface member declaration")

end Descent

section Members

variable (from_ : Nat) (mods : Modifiers) (type : TypeExpr) (explicitInterface : Option TypeExpr)

instance (name : String) :
    Accords t n Never (Descent.variableAfter name) (Parser.variableAfter name) := by
  unfold Descent.variableAfter Parser.variableAfter; infer_instance

instance (name : String) :
    Accords t n Never (Descent.declarators name) (Parser.declarators name) := by
  unfold Descent.declarators Parser.declarators; infer_instance

instance : Accords t n Never Descent.chaining Parser.chaining := by
  unfold Descent.chaining Parser.chaining
  refine .after inferInstance fun colon => .ite (.after inferInstance fun kind => ?_) inferInstance
  cases kind <;> infer_instance

instance : Accords t n Always (Descent.constructor from_ mods) (Parser.constructor from_ mods) := by
  unfold Descent.constructor Parser.constructor; infer_instance

instance : Accords t n Always (Descent.destructor from_) (Parser.destructor from_) := by
  unfold Descent.destructor Parser.destructor; infer_instance

instance (kind : OperatorKind) :
    Accords t n Always (Descent.operatorAfter from_ mods kind type)
      (Parser.operatorAfter from_ mods kind type) := by
  unfold Descent.operatorAfter Parser.operatorAfter; infer_instance

instance (kind : OperatorKind) :
    Accords t n Always (Descent.conversion from_ mods kind)
      (Parser.conversion from_ mods kind) := by
  unfold Descent.conversion Parser.conversion; infer_instance

instance : Accords t n Always (Descent.symbolOperator from_ mods type)
    (Parser.symbolOperator from_ mods type) := by
  have hparser : Parser.symbolOperator from_ mods type
      = operatorRest "" >>= fun spelling =>
        Parser.operatorAfter from_ mods (.symbol spelling) type := rfl
  rw [hparser]
  unfold Descent.symbolOperator
  infer_instance

instance : Accords t n Always (Descent.indexerAfter from_ mods type explicitInterface)
    (Parser.indexerAfter from_ mods type explicitInterface) := by
  unfold Descent.indexerAfter Parser.indexerAfter; infer_instance

instance : Accords t n Always Descent.eventSegment Parser.eventSegment := by
  unfold Descent.eventSegment Parser.eventSegment; infer_instance

instance : Accords t n Always (Descent.event from_ mods) (Parser.event from_ mods) := by
  unfold Descent.event Parser.event; infer_instance

instance (segment : NameSegment) :
    Accords t n Always (Descent.methodAfter from_ mods type explicitInterface segment)
      (Parser.methodAfter from_ mods type explicitInterface segment) := by
  unfold Descent.methodAfter Parser.methodAfter
  cases segment.args.mapM Parser.typeParameterOf? <;> infer_instance

instance (name : String) :
    Accords t n Always (Descent.propertyAfter from_ mods type explicitInterface name)
      (Parser.propertyAfter from_ mods type explicitInterface name) := by
  unfold Descent.propertyAfter Parser.propertyAfter
  infer_instance

instance (name : String) :
    Accords t n Never (Descent.fieldAfter from_ mods type name)
      (Parser.fieldAfter from_ mods type name) := by
  unfold Descent.fieldAfter Parser.fieldAfter; infer_instance

instance : Accords t n Always Descent.memberSegments Parser.memberSegments := by
  have hsegment (n : Nat) : Accords t n Always (Descent.nameSegment Descent.typeExpr)
      (Parser.nameSegment Parser.typeExpr) := accords_nameSegment inferInstance
  unfold Descent.memberSegments Parser.memberSegments
  infer_instance

instance (segments : List NameSegment) :
    Accords t n Never (Descent.namedMember from_ mods type segments)
      (Parser.namedMember from_ mods type segments) := by
  unfold Descent.namedMember Parser.namedMember
  refine .after inferInstance fun kind => ?_
  cases kind <;> infer_instance

instance : Accords t n Always (Descent.typedMember from_ mods type)
    (Parser.typedMember from_ mods type) := by
  unfold Descent.typedMember Parser.typedMember; infer_instance

instance : Accords t n Always (Descent.plainMember from_ mods)
    (Parser.plainMember from_ mods) := by
  unfold Descent.plainMember Parser.plainMember
  refine .after inferInstance fun kind => ?_
  cases kind <;> infer_instance

end Members

-- ========================================================= declarations

namespace Descent

/-- The enumerators of an enum, from the brace on. -/
def enumerators : Descent (List String) := do
  expect .lbrace
  collect do
    skipAttributes
    if ← eat .rbrace then
      return .done
    else
      let name ← identifier
      if ← eat .assign then
        skipUntil [.comma, .rbrace]
      if ← eat .comma then
        return .item name
      else
        expect .rbrace
        return .last name

/-- The rest of a delegate declaration, after its keyword. -/
def delegateAfter (from_ : Nat) (mods : Modifiers) : Descent TypeDecl := do
  let returnType ← typeExpr
  let name ← identifier
  let typeParams ← typeParameters
  let params ← parameters .lparen .rparen
  skipConstraints
  expect .semicolon
  return ⟨.delegateType, name, typeParams, mods, [], [], [], some ⟨returnType, params⟩,
    ← spanFrom from_⟩

/-- The rest of an enum declaration, after its keyword. -/
def enumAfter (from_ : Nat) (mods : Modifiers) : Descent TypeDecl := do
  let name ← identifier
  let bases ← if ← eat .colon then pure [← typeExpr] else pure []
  let names ← enumerators
  let _ ← eat .semicolon
  return ⟨.enumType, name, [], mods, bases, [], names, none, ← spanFrom from_⟩

/-- The rest of a class, struct or interface declaration, after its keyword;
`member` reads one member. -/
def classAfter (member : Descent Member) (from_ : Nat) (mods : Modifiers) (kind : TypeKind) :
    Descent TypeDecl := do
  let name ← identifier
  let typeParams ← typeParameters
  let bases ← if ← eat .colon then separated typeExpr else pure []
  skipConstraints
  expect .lbrace
  let members ← collect do
    if ← atKind .rbrace then
      return .done
    else if ← atKind .endOfText then
      missing .rbrace
    else
      return .item (← member)
  expect .rbrace
  let _ ← eat .semicolon
  return ⟨kind, name, typeParams, mods, bases, members, [], none, ← spanFrom from_⟩

/-- A type declaration, after its modifiers. -/
def typeDeclOf (member : Descent Member) (from_ : Nat) (mods : Modifiers) (kind : TypeKind) :
    Descent TypeDecl := do
  advance
  match kind with
  | .delegateType => delegateAfter from_ mods
  | .enumType => enumAfter from_ mods
  | kind => classAfter member from_ mods kind

/-- A member with less than `levels` levels of types inside it. -/
def memberWithin : (levels : Nat) → Descent Member
  | 0 => halt .endless
  | levels + 1 => do
    let begin_ ← place
    skipAttributes
    let from_ ← start
    let mods ← modifiers
    match Parser.typeKind? (← kind) with
    | some kind =>
      return .type (← typeDeclOf (below begin_ (memberWithin levels)) from_ mods kind)
    | none => plainMember from_ mods

/-- A type declaration, after its modifiers. -/
def typeDecl (from_ : Nat) (mods : Modifiers) (kind : TypeKind) : Descent TypeDecl := do
  let begin_ ← place
  typeDeclOf (below begin_ (memberWithin (← read).lexemes.length)) from_ mods kind

end Descent

instance : Accords t n Always Descent.enumerators Parser.enumerators := by
  unfold Descent.enumerators Parser.enumerators; infer_instance

section Types

variable (from_ : Nat) (mods : Modifiers)

instance : Accords t n Always (Descent.delegateAfter from_ mods)
    (Parser.delegateAfter from_ mods) := by
  unfold Descent.delegateAfter Parser.delegateAfter; infer_instance

instance : Accords t n Always (Descent.enumAfter from_ mods) (Parser.enumAfter from_ mods) := by
  unfold Descent.enumAfter Parser.enumAfter; infer_instance

instance (member : Descent Member) (member' : Parser Member) [Accords t n Always member member']
    (kind : TypeKind) :
    Accords t n Always (Descent.classAfter member from_ mods kind)
      (Parser.classAfter member' from_ mods kind) := by
  unfold Descent.classAfter Parser.classAfter; infer_instance

/-- A type declaration goes past the keyword it begins with, so that its members
begin further on. -/
theorem tracks_typeDeclOf {member : Descent Member} {member' : Parser Member} {k : Nat}
    {keyword : LexemeKind} (hat : t.At k keyword) (hkeyword : keyword ≠ .endOfText)
    (h : Accords t (k + 1) Always member member') (kind : TypeKind) :
    Tracks t k (Descent.typeDeclOf member from_ mods kind)
      (Parser.typeDeclOf member' from_ mods kind) fun _ stop => k < stop := by
  have hpast : Tracks t k (Descent.typeDeclOf member from_ mods kind)
      (Parser.typeDeclOf member' from_ mods kind) fun _ stop => True → k < stop := by
    unfold Descent.typeDeclOf Parser.typeDeclOf
    refine Accords.past hat hkeyword ?_
    cases kind <;> infer_instance
  exact hpast.mono fun _ _ _ hstop => hstop trivial

/-- A keyword that declares a type is not the end. -/
theorem ne_endOfText_of_typeKind? {keyword : LexemeKind} {kind : TypeKind}
    (h : Parser.typeKind? keyword = some kind) : keyword ≠ .endOfText := by
  rintro rfl
  cases h

theorem accords_memberWithin {levels bound : Nat} (hlevels : t.lexemes.length ≤ levels + n)
    (hbound : t.lexemes.length ≤ bound + n) :
    Accords t n Always (Descent.memberWithin levels) (Parser.memberWithin bound) := by
  induction levels generalizing bound n with
  | zero => exact .beyond (by omega)
  | succ levels ih =>
    cases bound with
    | zero => exact .beyond (by omega)
    | succ bound =>
      refine .of_place fun begin_ hbegin => .after inferInstance fun _ =>
        .after inferInstance fun from_ => .after inferInstance fun mods =>
        .of_kind fun k keyword hk hat => ?_
      cases hkind : Parser.typeKind? keyword with
      | none => exact Accords.tracks_at inferInstance hk hat
      | some kind =>
        have hmember : Accords t (k + 1) Always
            (Descent.below begin_ (Descent.memberWithin levels)) (Parser.memberWithin bound) :=
          (ih (by omega) (by omega)).below (Nat.lt_succ_of_le hk)
        refine (tracks_typeDeclOf from_ mods hat (ne_endOfText_of_typeKind? hkind) hmember
          kind).bind fun decl stop _ hlt hpast => ?_
        exact .pure hlt fun _ => hpast

theorem tracks_typeDecl {k : Nat} {keyword : LexemeKind} {kind : TypeKind} (hat : t.At k keyword)
    (hkind : Parser.typeKind? keyword = some kind) :
    Tracks t k (Descent.typeDecl from_ mods kind) (Parser.typeDecl from_ mods kind)
      fun _ stop => k < stop := by
  have hmember : Accords t (k + 1) Always
      (Descent.below k (Descent.memberWithin t.lexemes.length))
      (Parser.memberWithin ((t.cursorAt k).rest.length + 1)) :=
    ((accords_memberWithin (Nat.le_add_right _ _) (t.length_le_rest k)).later
      (Nat.le_succ k)).below (Nat.lt_succ_self k)
  unfold Tracks Descent.typeDecl Parser.typeDecl
  rw [get_bind]
  show Ran t k _ _ ((read >>= fun t => Descent.typeDeclOf _ from_ mods kind : Descent TypeDecl) t k)
  rw [Descent.read_bind]
  exact tracks_typeDeclOf from_ mods hat (ne_endOfText_of_typeKind? hkind) hmember kind

end Types

-- =============================================================== files

namespace Descent

/-- The whole text. -/
def source : Descent String := do return (← read).source

/-- One using directive, if one is next. Its name is the source from the first
lexeme after its keywords to the last before its semicolon. -/
def usingDirective : Descent (Parser.Turn Using) := do
  let isGlobal := (← atWord "global") && (← kindAt 1) = .kwUsing
  if isGlobal then
    advance
  if ← eat .kwUsing then
    let isStatic ← eatModifier "static"
    let aliased := (← kind) = .identifier && (← kindAt 1) = .assign
    let shortName ← if aliased then
        let name ← identifier
        advance
        pure (some name)
      else
        pure none
    let from_ ← start
    skipUntil [.semicolon]
    let span ← spanFrom from_
    expect .semicolon
    return .item ⟨span.textOf (← source), shortName, isStatic, isGlobal⟩
  else
    return .done

/-- Using directives. -/
def usings : Descent (List Using) := collect usingDirective

/-- Identifiers joined with dots. -/
def qualifiedName : Descent String := do
  let names ← collect do
    let name ← identifier
    if ← eat .dot then return .item name else return .last name
  return String.intercalate "." names

/-- A type declaration in a file or namespace. -/
def declaration : Descent (Parser.Turn NamespaceMember) := do
  let from_ ← start
  let mods ← modifiers
  match Parser.typeKind? (← kind) with
  | some kind => return .item (.type (← typeDecl from_ mods kind))
  | none => fail "CS1022" "Type or namespace definition, or end-of-file expected"

/-- One member of a file or namespace, if one is next; `members` reads those of
a namespace, up to its closing brace or to the end. -/
def namespaceMember (members : (inBlock : Bool) → Descent (List NamespaceMember))
    (inBlock : Bool) : Descent (Parser.Turn NamespaceMember) := do
  skipAttributes
  match ← kind with
  | .endOfText => if inBlock then missing .rbrace else return .done
  | .rbrace => if inBlock then return .done else declaration
  | .kwNamespace =>
    let from_ ← start
    advance
    let name ← qualifiedName
    if ← eat .semicolon then
      let usings ← usings
      let inner ← members inBlock
      return .last (.space ⟨name, true, usings, inner, ← spanFrom from_⟩)
    else
      expect .lbrace
      let usings ← usings
      let inner ← members true
      expect .rbrace
      let _ ← eat .semicolon
      return .item (.space ⟨name, false, usings, inner, ← spanFrom from_⟩)
  | _ => declaration

/-- The members of a file or namespace, with less than `levels` levels of
namespaces inside. -/
def namespaceMembersWithin : (levels : Nat) → (inBlock : Bool) → Descent (List NamespaceMember)
  | 0, _ => halt .endless
  | levels + 1, inBlock => do
    let begin_ ← place
    collect (namespaceMember (fun inBlock => below begin_ (namespaceMembersWithin levels inBlock))
      inBlock)

/-- The members of a file. -/
def namespaceMembers : Descent (List NamespaceMember) := do
  namespaceMembersWithin (← read).lexemes.length false

/-- The names of the aliases that a file starts with. -/
def aliases : Descent (List String) :=
  collect do
    if (← kind) = .kwExtern && (← kindAt 1) = .identifier && (← textAt 1) = "alias" then
      advance
      advance
      let name ← identifier
      expect .semicolon
      return .item name
    else
      return .done

/-- A whole file. -/
def compilationUnit : Descent CompilationUnit := do
  let aliases ← aliases
  let usings ← usings
  let members ← namespaceMembers
  return ⟨aliases, usings, members⟩

end Descent

/-- The text that a span covers, in what a turn gives. -/
instance (span : Span) (shortName : Option String) (isStatic isGlobal : Bool) :
    Accords t n Never
      (Descent.source >>= fun source => pure (Parser.Turn.item
        (⟨span.textOf source, shortName, isStatic, isGlobal⟩ : Using)))
      (get >>= fun c => pure (Parser.Turn.item
        (⟨span.textOf c.source, shortName, isStatic, isGlobal⟩ : Using))) where
  tracks _ _ hk := .pure hk False.elim

instance : Accords t n GoesOn Descent.usingDirective Parser.usingDirective := by
  unfold Descent.usingDirective Parser.usingDirective; infer_instance

instance : Accords t n Never Descent.usings Parser.usings := by
  unfold Descent.usings Parser.usings; infer_instance

instance : Accords t n Always Descent.qualifiedName Parser.qualifiedName := by
  unfold Descent.qualifiedName Parser.qualifiedName; infer_instance

instance : Accords t n Always Descent.declaration Parser.namespaceMember.declaration := by
  unfold Descent.declaration Parser.namespaceMember.declaration
  refine .after inferInstance fun from_ => .after inferInstance fun mods =>
    .of_kind fun k keyword hk hat => ?_
  cases hkind : Parser.typeKind? keyword with
  | none => exact Accords.tracks_at inferInstance hk hat
  | some kind =>
    refine (tracks_typeDecl from_ mods hat hkind).bind fun decl stop _ hlt hpast => ?_
    exact .pure hlt fun _ => hpast

theorem accords_namespaceMember {members : Bool → Descent (List NamespaceMember)}
    {members' : Bool → Parser (List NamespaceMember)}
    (h : ∀ k inBlock, n < k → Accords t k Never (members inBlock) (members' inBlock))
    (inBlock : Bool) :
    Accords t n GoesOn (Descent.namespaceMember members inBlock)
      (Parser.namespaceMember members' inBlock) := by
  unfold Descent.namespaceMember Parser.namespaceMember
  refine .after inferInstance fun _ => .of_kind fun k keyword hk hat => ?_
  cases keyword
  case kwNamespace =>
    obtain ⟨l, hl, hkind⟩ := hat
    have hmembers (inBlock : Bool) := h (k + 1) inBlock (Nat.lt_succ_of_le hk)
    refine Tracks.after_look (Descent.start_eq hl) (Tracks.start_eq hl) ?_
    exact Accords.past ⟨l, hl, hkind⟩ (by decide) inferInstance
  all_goals exact Accords.tracks_at inferInstance hk hat

theorem accords_namespaceMembersWithin {levels bound : Nat}
    (hlevels : t.lexemes.length ≤ levels + n) (hbound : t.lexemes.length ≤ bound + n)
    (inBlock : Bool) :
    Accords t n Never (Descent.namespaceMembersWithin levels inBlock)
      (Parser.namespaceMembersWithin bound inBlock) := by
  induction levels generalizing bound n inBlock with
  | zero => exact .beyond (by omega)
  | succ levels ih =>
    cases bound with
    | zero => exact .beyond (by omega)
    | succ bound =>
      refine .of_place fun begin_ hbegin => ?_
      have hmembers (k : Nat) (inBlock : Bool) (hk : begin_ < k) : Accords t k Never
          (Descent.below begin_ (Descent.namespaceMembersWithin levels inBlock))
          (Parser.namespaceMembersWithin bound inBlock) :=
        (ih (by omega) (by omega) inBlock).below hk
      exact (accords_namespaceMember hmembers inBlock).collect

instance : Accords t n Never Descent.namespaceMembers Parser.namespaceMembers where
  tracks k _ hk := by
    unfold Tracks Descent.namespaceMembers Parser.namespaceMembers
    rw [Descent.read_bind, get_bind]
    exact (accords_namespaceMembersWithin (Nat.le_add_right _ _) (t.length_le_rest k) false).tracks
      k (Nat.le_refl k) hk

instance : Accords t n Never Descent.aliases Parser.aliases := by
  have hturn : Accords t n GoesOn (do
      if (← Descent.kind) = .kwExtern && (← Descent.kindAt 1) = .identifier
          && (← Descent.textAt 1) = "alias" then
        Descent.advance
        Descent.advance
        let name ← Descent.identifier
        Descent.expect .semicolon
        return Parser.Turn.item name
      else
        return .done) (do
      if (← Parser.kind) = .kwExtern && (← Parser.kindAt 1) = .identifier
          && (← (do return (← get).textAt 1 : Parser String)) = "alias" then
        Parser.advance
        Parser.advance
        let name ← Parser.identifier
        Parser.expect .semicolon
        return .item name
      else
        return .done) := inferInstance
  exact hturn.collect

instance : Accords t n Never Descent.compilationUnit Parser.compilationUnit := by
  unfold Descent.compilationUnit Parser.compilationUnit; infer_instance

/-- The parser of places never comes to a fault, whatever lexemes it is given in
front of the end: it gives the unit that the parser of cursors gives, stopping
before the same lexeme, or complains of the same. So no loop and no recursion
goes on without going past a lexeme, or for longer than there are lexemes, and
nothing looks past the end. -/
theorem compilationUnit_faultless (t : Tokens) :
    (∃ unit stop, stop < t.lexemes.length
      ∧ Descent.compilationUnit t 0 = .ok (unit, stop)
      ∧ Parser.compilationUnit (.top t.source t.lexemes) = .ok (unit, t.cursorAt stop))
    ∨ ∃ d, Descent.compilationUnit t 0 = .error (.error (.syntaxErrors [d]))
      ∧ Parser.compilationUnit (.top t.source t.lexemes) = .error (.complaint d) := by
  have hran := (inferInstance : Accords t 0 Never Descent.compilationUnit
    Parser.compilationUnit).tracks 0 (Nat.le_refl 0) t.length_pos
  have htop : t.cursorAt 0 = .top t.source t.lexemes := rfl
  unfold Tracks at hran
  rw [htop] at hran
  generalize Parser.compilationUnit (.top t.source t.lexemes) = x,
    Descent.compilationUnit t 0 = y at hran ⊢
  cases hran with
  | ok hle hlt h => exact .inl ⟨_, _, hlt, rfl, rfl⟩
  | complaint d => exact .inr ⟨d, rfl, rfl⟩

end ClrListing.Machine
