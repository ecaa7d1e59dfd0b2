/-
The declarations of a source file, and types as they are written in it.

Declarations are namespaces, types and members, each with what is needed to
name its compiled counterpart. Bodies are kept as spans of the source only.
`TypeExpr.display` writes one space after each comma and none anywhere else;
element names of tuples are not kept.
-/
import ClrListing.Source.Lexeme

namespace ClrListing.Syntax

open Source

mutual

/-- A type as written. -/
inductive TypeExpr where
  /-- A keyword type such as `int`. -/
  | predefined (keyword : String)
  /-- A type name of one or more segments, after `root::` if there is
  an alias that it starts from. -/
  | named (root : Option String) (segments : List NameSegment)
  /-- An array of `rank` dimensions. -/
  | array (element : TypeExpr) (rank : Nat)
  /-- `T?`. -/
  | nullable (inner : TypeExpr)
  /-- `T*`. -/
  | pointer (inner : TypeExpr)
  /-- `(T, U)`. -/
  | tuple (elements : List TypeExpr)

/-- One segment of a dotted type name, with its type arguments. -/
structure NameSegment where
  /-- The identifier. -/
  name : String
  /-- The type arguments, none for a segment that is not generic. -/
  args : List TypeExpr

end

instance : Inhabited TypeExpr := ⟨.predefined ""⟩
instance : Inhabited NameSegment := ⟨⟨"", []⟩⟩

/-- The commas inside the brackets of an array of `rank` dimensions. -/
def rankCommas (rank : Nat) : String := String.ofList (List.replicate (rank - 1) ',')

namespace TypeExpr

mutual

/-- The written form of a type. -/
def display : TypeExpr → String
  | .predefined keyword => keyword
  | .named none segments => displaySegments segments
  | .named (some root) segments => root ++ "::" ++ displaySegments segments
  | .array element rank => element.display ++ "[" ++ rankCommas rank ++ "]"
  | .nullable inner => inner.display ++ "?"
  | .pointer inner => inner.display ++ "*"
  | .tuple elements => "(" ++ displayAll elements ++ ")"

/-- Segments joined with dots. -/
def displaySegments : List NameSegment → String
  | [] => ""
  | [segment] => displaySegment segment
  | segment :: rest => displaySegment segment ++ "." ++ displaySegments rest

/-- A segment with its type arguments. -/
def displaySegment : NameSegment → String
  | ⟨name, []⟩ => name
  | ⟨name, arg :: args⟩ => name ++ "<" ++ displayAll (arg :: args) ++ ">"

/-- Types joined with a comma and a space. -/
def displayAll : List TypeExpr → String
  | [] => ""
  | [t] => t.display
  | t :: rest => t.display ++ ", " ++ displayAll rest

end

/-- Whether the type is the keyword `void`. -/
def isVoid : TypeExpr → Bool
  | .predefined keyword => keyword = "void"
  | _ => false

end TypeExpr

-- ========================================================== modifiers

/-- A modifier of a declaration, in the order in which modifiers are
listed. -/
inductive Modifier where
  | isPublic | isPrivate | isProtected | isInternal | isStatic | isAbstract | isSealed
  | isVirtual | isOverride | isExternal | isReadonly | isUnsafe | isNew | isConst
  | isVolatile | isPartial | isAsync | isRef | isFixed
  deriving DecidableEq, Repr, Inhabited

namespace Modifier

/-- Every modifier with its keyword, in listing order. -/
def keywords : List (Modifier × String) :=
  [(.isPublic, "public"), (.isPrivate, "private"), (.isProtected, "protected"),
    (.isInternal, "internal"), (.isStatic, "static"), (.isAbstract, "abstract"),
    (.isSealed, "sealed"), (.isVirtual, "virtual"), (.isOverride, "override"),
    (.isExternal, "extern"), (.isReadonly, "readonly"), (.isUnsafe, "unsafe"),
    (.isNew, "new"), (.isConst, "const"), (.isVolatile, "volatile"),
    (.isPartial, "partial"), (.isAsync, "async"), (.isRef, "ref"), (.isFixed, "fixed")]

/-- The modifier that a keyword stands for. -/
def ofKeyword? (keyword : String) : Option Modifier :=
  (keywords.find? fun entry => entry.2 = keyword).map Prod.fst

end Modifier

/-- A set of modifiers. -/
abbrev Modifiers := List Modifier

namespace Modifiers

/-- Whether the set holds `m`. -/
def has (ms : Modifiers) (m : Modifier) : Bool := ms.contains m

/-- Whether the set holds one of `others`. -/
def hasAny (ms others : Modifiers) : Bool := others.any ms.has

/-- The members of the set in listing order, each once, by keyword. -/
def listing (ms : Modifiers) : List String :=
  (Modifier.keywords.filter fun entry => ms.has entry.1).map Prod.snd

end Modifiers

-- ================================================== parts of a member

/-- How a body is written. -/
inductive BodyKind where
  /-- Statements in braces. -/
  | block
  /-- An expression between `=>` and a semicolon. -/
  | expression
  deriving DecidableEq, Repr, Inhabited

/-- A body, known by the source it covers, braces or arrow and semicolon
included. -/
structure Body where
  kind : BodyKind
  span : Span
  deriving DecidableEq, Repr, Inhabited

/-- How a parameter is passed. -/
inductive Passing where
  | byRef | byOut | byIn
  /-- `params`: the rest of the arguments. -/
  | rest
  /-- `this`: the receiver of an extension method. -/
  | receiver
  deriving DecidableEq, Repr, Inhabited

/-- The keyword of a way of passing. -/
def Passing.keyword : Passing → String
  | .byRef => "ref"
  | .byOut => "out"
  | .byIn => "in"
  | .rest => "params"
  | .receiver => "this"

/-- A parameter. -/
structure Parameter where
  passing : Option Passing
  type : TypeExpr
  name : String
  hasDefault : Bool
  deriving Inhabited

/-- Whether the parameter is passed as a managed pointer. -/
def Parameter.isByRef (p : Parameter) : Bool :=
  match p.passing with
  | some .byRef | some .byOut | some .byIn => true
  | _ => false

/-- The accessors of properties, indexers and events. -/
inductive AccessorKind where
  | get | set | init | add | remove
  deriving DecidableEq, Repr, Inhabited

namespace AccessorKind

/-- The keyword of an accessor. -/
def keyword : AccessorKind → String
  | .get => "get"
  | .set => "set"
  | .init => "init"
  | .add => "add"
  | .remove => "remove"

/-- The accessor that a keyword stands for. -/
def ofKeyword? (word : String) : Option AccessorKind :=
  [AccessorKind.get, .set, .init, .add, .remove].find? fun k => k.keyword = word

/-- What the name of an accessor's method starts with; an `init`
accessor compiles to a setter. -/
def methodStart : AccessorKind → String
  | .get => "get_"
  | .set => "set_"
  | .init => "set_"
  | .add => "add_"
  | .remove => "remove_"

end AccessorKind

/-- An accessor; an automatic one has no body. -/
structure Accessor where
  kind : AccessorKind
  modifiers : Modifiers
  body : Option Body
  span : Span
  deriving DecidableEq, Repr, Inhabited

-- ============================================================ members

/-- One variable of a field declaration. -/
structure Variable where
  name : String
  hasInitializer : Bool
  deriving DecidableEq, Repr, Inhabited

/-- A field declaration of one or more variables. -/
structure Field where
  modifiers : Modifiers
  type : TypeExpr
  declarators : List Variable
  span : Span
  deriving Inhabited

/-- The constructor that a constructor calls first. -/
inductive Chaining where
  | base
  | this
  deriving DecidableEq, Repr, Inhabited

/-- A constructor; `name` is as written and need not be the type's. -/
structure Constructor where
  modifiers : Modifiers
  name : String
  params : List Parameter
  chaining : Option Chaining
  body : Option Body
  span : Span
  deriving Inhabited

/-- A destructor; `name` is as written after the tilde. -/
structure Destructor where
  name : String
  body : Option Body
  span : Span
  deriving Inhabited

/-- A method. -/
structure Method where
  modifiers : Modifiers
  returnType : TypeExpr
  /-- The interface that the method implements explicitly, if it does. -/
  explicitInterface : Option TypeExpr
  name : String
  typeParams : List String
  params : List Parameter
  body : Option Body
  span : Span
  deriving Inhabited

/-- A property; one with an expression body has no accessors. -/
structure Property where
  modifiers : Modifiers
  type : TypeExpr
  explicitInterface : Option TypeExpr
  name : String
  accessors : List Accessor
  expressionBody : Option Body
  hasInitializer : Bool
  span : Span
  deriving Inhabited

/-- An indexer; one with an expression body has no accessors. -/
structure Indexer where
  modifiers : Modifiers
  type : TypeExpr
  explicitInterface : Option TypeExpr
  params : List Parameter
  accessors : List Accessor
  expressionBody : Option Body
  span : Span
  deriving Inhabited

/-- An event declaration; one like a field may name several events and
has no accessors. -/
structure Event where
  modifiers : Modifiers
  type : TypeExpr
  explicitInterface : Option TypeExpr
  names : List String
  accessors : List Accessor
  span : Span
  deriving Inhabited

/-- What a user-defined operator overloads. -/
inductive OperatorKind where
  /-- An operator, by its spelling. -/
  | symbol (spelling : String)
  | implicitConversion
  | explicitConversion
  deriving DecidableEq, Repr, Inhabited

/-- A user-defined operator or conversion. -/
structure Operator where
  modifiers : Modifiers
  kind : OperatorKind
  returnType : TypeExpr
  params : List Parameter
  body : Option Body
  span : Span
  deriving Inhabited

-- ============================================================== types

/-- The kind of a type declaration. -/
inductive TypeKind where
  | classType | structType | interfaceType | enumType | delegateType
  deriving DecidableEq, Repr, Inhabited

/-- What calling a delegate takes and gives. -/
structure DelegateSignature where
  returnType : TypeExpr
  params : List Parameter
  deriving Inhabited

mutual

/-- A type declaration. -/
structure TypeDecl where
  kind : TypeKind
  /-- The name, without arity. -/
  name : String
  typeParams : List String
  modifiers : Modifiers
  /-- Base class and interfaces, or the underlying type of an enum. -/
  bases : List TypeExpr
  /-- The members, none for an enum or a delegate. -/
  members : List Member
  enumerators : List String
  delegate : Option DelegateSignature
  span : Span

/-- A member of a type. -/
inductive Member where
  | type (decl : TypeDecl)
  | field (decl : Field)
  | constructor (decl : Constructor)
  | destructor (decl : Destructor)
  | method (decl : Method)
  | property (decl : Property)
  | indexer (decl : Indexer)
  | event (decl : Event)
  | operator (decl : Operator)

end

instance : Inhabited TypeDecl :=
  ⟨⟨.classType, "", [], [], [], [], [], none, ⟨0, 0⟩⟩⟩
instance : Inhabited Member := ⟨.type default⟩

/-- How many type parameters a declaration has. -/
def TypeDecl.arity (decl : TypeDecl) : Nat := decl.typeParams.length

/-- The source that a member covers. -/
def Member.span : Member → Span
  | .type decl => decl.span
  | .field decl => decl.span
  | .constructor decl => decl.span
  | .destructor decl => decl.span
  | .method decl => decl.span
  | .property decl => decl.span
  | .indexer decl => decl.span
  | .event decl => decl.span
  | .operator decl => decl.span

-- ============================================================== files

/-- A `using` directive; `name` is what it imports, as written. -/
structure Using where
  name : String
  /-- The alias that it gives to what it imports. -/
  shortName : Option String
  isStatic : Bool
  isGlobal : Bool
  deriving DecidableEq, Repr, Inhabited

mutual

/-- A namespace declaration. -/
structure NamespaceDecl where
  /-- The name, dotted or not. -/
  name : String
  /-- Whether it is written without braces and goes on to the end. -/
  fileScoped : Bool
  usings : List Using
  members : List NamespaceMember
  span : Span

/-- A member of a file or a namespace. -/
inductive NamespaceMember where
  | space (decl : NamespaceDecl)
  | type (decl : TypeDecl)

end

/-- The declarations of one source file. -/
structure CompilationUnit where
  aliases : List String
  usings : List Using
  members : List NamespaceMember

instance : Inhabited CompilationUnit := ⟨⟨[], [], []⟩⟩

end ClrListing.Syntax
