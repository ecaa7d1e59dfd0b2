/-
Declarations whose compiled members can be listed, and the forest of them in
a file, in source order.

Classes and structs are in it, wherever they stand; interfaces, enums and
delegates are left out with everything inside them. Inside a type,
constructors are always in it, methods unless they are the bodiless part
of a partial method, and accessors of properties and indexers if they
have a body; an expression body counts as a getter. Fields, events,
operators and destructors are left out.
-/
import ClrListing.Syntax.Declaration
import ClrListing.Text.Search

namespace ClrListing

open Source Syntax

namespace Declaration

/-- What is declared, with what is needed to name its compiled member. -/
inductive Kind where
  /-- A class or struct; `space` is empty for a nested one. -/
  | type (space name : String) (arity : Nat)
  /-- A constructor of instances, or the type's if `isStatic`. -/
  | constructor (isStatic : Bool) (paramCount : Nat)
  /-- A method; `explicitInterface` is as written. -/
  | method (name : String) (arity : Nat) (explicitInterface : Option String)
      (isStatic : Bool) (paramCount : Nat)
  /-- An accessor of a property, or of an indexer under the name `Item`. -/
  | accessor (property : String) (which : AccessorKind)
      (explicitInterface : Option String) (paramCount : Nat)
  deriving DecidableEq, Repr, Inhabited

end Declaration

/-- A declaration; only types have children, the declarations inside them
in source order. -/
structure Declaration where
  kind : Declaration.Kind
  span : Span
  children : List Declaration

namespace Declaration

instance : Inhabited Declaration := ⟨⟨default, default, []⟩⟩

/-- A declaration without children. -/
def leaf (kind : Kind) (span : Span) : Declaration := ⟨kind, span, []⟩

/-- Whether a type is declared. -/
def isType (d : Declaration) : Bool :=
  match d.kind with
  | .type .. => true
  | _ => false

/-- The name that the compiled member is grouped under. -/
def Kind.canonicalName : Kind → String
  | .type _ name arity => Text.arityName name arity
  | .constructor true _ => ".cctor"
  | .constructor false _ => ".ctor"
  | .method name arity _ _ _ => Text.arityName name arity
  | .accessor property which _ _ => which.methodStart ++ property

/-- The name that the compiled member is grouped under. -/
def canonicalName (d : Declaration) : String := d.kind.canonicalName

/-- How many parameters the compiled member has, if it is a method. -/
def Kind.paramCount? : Kind → Option Nat
  | .type .. => none
  | .constructor _ count => some count
  | .method _ _ _ _ count => some count
  | .accessor _ _ _ count => some count

/-- How many parameters the compiled member has, if it is a method. -/
def paramCount? (d : Declaration) : Option Nat := d.kind.paramCount?

/-- The name for the reader: a type after its namespace, a member after
the interface it implements. -/
def display (d : Declaration) : String :=
  match d.kind with
  | .type space .. => Text.qualify space d.canonicalName
  | .method _ _ (some interface) _ _ => interface ++ "." ++ d.canonicalName
  | .accessor _ _ (some interface) _ => interface ++ "." ++ d.canonicalName
  | _ => d.canonicalName

mutual

/-- How many declarations there are, this one and those inside it. -/
def count : Declaration → Nat
  | ⟨_, _, children⟩ => 1 + countAll children

/-- How many declarations a forest has. -/
def countAll : List Declaration → Nat
  | [] => 0
  | d :: rest => d.count + countAll rest

end

end Declaration

end ClrListing

namespace ClrListing.Declaration

open Source Syntax

/-- How many parameters an accessor of a member with `indexCount` index
parameters has: all but a getter take the new value too. -/
def accessorParamCount (kind : AccessorKind) (indexCount : Nat) : Nat :=
  if kind = .get then indexCount else indexCount + 1

/-- An accessor as a declaration. -/
def ofAccessor (property : String) (explicitInterface : Option String) (indexCount : Nat)
    (kind : AccessorKind) (span : Span) : Declaration :=
  leaf (.accessor property kind explicitInterface (accessorParamCount kind indexCount)) span

/-- Whether an accessor is one of a property or indexer and has a body. -/
def isListed (a : Accessor) : Bool :=
  a.body.isSome && (a.kind = .get || a.kind = .set || a.kind = .init)

/-- The accessors of a property or indexer as declarations. -/
def ofAccessors (property : String) (explicitInterface : Option TypeExpr) (indexCount : Nat)
    (accessors : List Accessor) (expressionBody : Option Body) (span : Span) :
    List Declaration :=
  let interface := explicitInterface.map TypeExpr.display
  if expressionBody.isSome then [ofAccessor property interface indexCount .get span]
  else (accessors.filter isListed).map fun a =>
    ofAccessor property interface indexCount a.kind a.span

/-- A constructor as a declaration. -/
def ofConstructor (c : Constructor) : Declaration :=
  leaf (.constructor (c.modifiers.has .isStatic) c.params.length) c.span

/-- Whether a method is the part of a partial method that has no body. -/
def isPartialPart (m : Method) : Bool := m.body.isNone && m.modifiers.has .isPartial

/-- A method as declarations: none or one. -/
def ofMethod (m : Method) : List Declaration :=
  if isPartialPart m then []
  else [leaf (.method m.name m.typeParams.length (m.explicitInterface.map TypeExpr.display)
    (m.modifiers.has .isStatic) m.params.length) m.span]

/-- Whether declarations of a kind are listed. -/
def isListedKind : TypeKind → Bool
  | .classType | .structType => true
  | _ => false

mutual

/-- A type in a given namespace as declarations: none or one. -/
def ofType (space : String) : TypeDecl → List Declaration
  | ⟨kind, name, typeParams, _, _, members, _, _, span⟩ =>
    if isListedKind kind then
      [⟨.type space name typeParams.length, span, ofMembers members⟩]
    else []

/-- The members of a type as declarations. -/
def ofMembers : List Member → List Declaration
  | [] => []
  | m :: rest => ofMember m ++ ofMembers rest

/-- A member as declarations. -/
def ofMember : Member → List Declaration
  | .type decl => ofType "" decl
  | .constructor c => [ofConstructor c]
  | .method m => ofMethod m
  | .property p =>
    ofAccessors p.name p.explicitInterface 0 p.accessors p.expressionBody p.span
  | .indexer i =>
    ofAccessors "Item" i.explicitInterface i.params.length i.accessors i.expressionBody i.span
  | .field _ => []
  | .destructor _ => []
  | .event _ => []
  | .operator _ => []

end

mutual

/-- The members of a namespace as declarations. -/
def ofSpaceMembers (space : String) : List NamespaceMember → List Declaration
  | [] => []
  | m :: rest => ofSpaceMember space m ++ ofSpaceMembers space rest

/-- A member of a namespace as declarations. -/
def ofSpaceMember (space : String) : NamespaceMember → List Declaration
  | .space ⟨name, _, _, members, _⟩ => ofSpaceMembers (Text.qualify space name) members
  | .type decl => ofType space decl

end

/-- The declarations of a file. -/
def forest (unit : CompilationUnit) : List Declaration := ofSpaceMembers "" unit.members

end ClrListing.Declaration
