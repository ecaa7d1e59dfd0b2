/-
The compiled module of a parsed source file.

Types are emitted in pre-order and their methods in the order of members,
so that a type's row comes before those of the types in it. Partial
declarations of a type share its row; any other second declaration is a
complaint, and nothing inside it is emitted. Constructors that a compiler
adds come last.
-/
import ClrListing.Lowering.Emission
import ClrListing.Syntax.Tree

namespace ClrListing.Lowering

open Assembly Metadata Source Syntax

-- ============================================================== types

/-- The type in which a declaration stands: its row and record, and what
its members see of it. -/
structure Enclosing where
  token : Token
  /-- The index of its record. -/
  record : Nat
  surroundings : Surroundings
  deriving Inhabited

/-- The complaint that a name is taken. -/
def alreadyDefined (scope : Scope) (outer : Option Enclosing) (name : String) : Diagnostic :=
  match outer with
  | some o =>
    .error "CS0102" ("The type '" ++ o.surroundings.display
      ++ "' already contains a definition for '" ++ name ++ "'")
  | none =>
    let space := if scope.space.isEmpty then "<global namespace>" else scope.space
    .error "CS0101" ("The namespace '" ++ space
      ++ "' already contains a definition for '" ++ name ++ "'")

/-- The namespace that a type's row gives. -/
def rowSpace (scope : Scope) (outer : Option Enclosing) : String :=
  if outer.isSome then "" else scope.space

/-- The key of a declared type. -/
def keyOf (scope : Scope) (outer : Option Enclosing) (name : String) (arity : Nat) : TypeKey :=
  ⟨outer.map Enclosing.token, rowSpace scope outer, Text.arityName name arity⟩

/-- The names of the type parameters of the type around a declaration. -/
def outerParams (e : Emission) (outer : Option Enclosing) : List String :=
  ((outer.bind fun o => e.builder.type? o.token).map TypeDef.genericParams).getD []

/-- Adds the row and the record of a type. -/
def addType (e : Emission) (scope : Scope) (outer : Option Enclosing) (decl : TypeDecl) :
    Emission :=
  let key := keyOf scope outer decl.name decl.arity
  let token := e.builder.nextType
  let grown : Emission := { e with
    builder := e.builder.addType ⟨key.space, key.name,
      typeAttributes decl.kind outer.isSome decl.modifiers decl.members, key.enclosing,
      outerParams e outer ++ decl.typeParams⟩
    types := e.types ++ [⟨key, token, decl.kind, decl.modifiers.has .isPartial, false, false,
      false, false, false⟩] }
  grown.note ("Emitted type " ++ key.name ++ " as " ++ token.display)

/-- Where the declaration of a type goes. -/
inductive Destination where
  /-- To a new row. -/
  | fresh
  /-- To the row of the record at an index. -/
  | merged (record : Nat)
  /-- Nowhere: the name is taken. -/
  | refused
  deriving DecidableEq, Repr, Inhabited

/-- Where the declaration of a type goes: partial declarations of one kind
share a row. -/
def destination (e : Emission) (scope : Scope) (outer : Option Enclosing) (decl : TypeDecl) :
    Destination :=
  match e.findRecord? (keyOf scope outer decl.name decl.arity) with
  | none => .fresh
  | some index =>
    match e.types[index]? with
    | some r =>
      if decl.modifiers.has .isPartial && r.isPartial && r.kind = decl.kind then .merged index
      else .refused
    | none => .refused

/-- The name for the reader of a declared type. -/
def displayOf (scope : Scope) (outer : Option Enclosing) (name : String) : String :=
  match outer with
  | some o => o.surroundings.display ++ "." ++ name
  | none => Text.qualify scope.space name

/-- What the members of the type see that is declared at a place and whose
record stands at an index. -/
def enclosingOf (e : Emission) (scope : Scope) (outer : Option Enclosing) (decl : TypeDecl)
    (place record : Nat) : Enclosing :=
  ⟨((e.types[record]?).map TypeRecord.token).getD .null, record,
    ⟨decl.kind, decl.name, displayOf scope outer decl.name,
      scope.inType place decl.typeParams⟩⟩

/-- Goes past the declaration of a type and those inside it. -/
def passOver (e : Emission) (decl : TypeDecl) : Emission :=
  { e with place := e.place + (declaredInMembers "" 0 0 decl.members).length }

/-- Opens the declaration of a type: finds or adds its row. The result has
no type if the name is taken; what is inside is then passed over. -/
def openType (setting : Setting) (scope : Scope) (outer : Option Enclosing) (decl : TypeDecl)
    (before : Emission) : Emission × Option Enclosing :=
  let e := { before with place := before.place + 1 }
  let entered (added : Emission) (record : Nat) :=
    (added.modifyRecord record fun r => r.declaredWith decl.modifiers,
      some (enclosingOf added scope outer decl before.place record))
  match destination e scope outer decl with
  | .fresh => entered (addType e scope outer decl) e.types.length
  | .merged record => entered e record
  | .refused =>
    (passOver (e.complain setting (alreadyDefined scope outer decl.name) decl.span) decl, none)

mutual

/-- Emits a type declaration with all that is inside it. -/
def emitType (setting : Setting) (scope : Scope) (outer : Option Enclosing) :
    TypeDecl → Emission → Emission
  | ⟨kind, name, typeParams, modifiers, bases, members, enumerators, delegate, span⟩, before =>
    let decl : TypeDecl :=
      ⟨kind, name, typeParams, modifiers, bases, members, enumerators, delegate, span⟩
    match openType setting scope outer decl before with
    | (e, none) => e
    | (e, some inside) =>
      match kind with
      | .delegateType =>
        e.applyAll setting inside.surroundings inside.record inside.token
          (delegateEffects inside.surroundings delegate span)
      | .enumType => e
      | .classType | .structType | .interfaceType => emitMembers setting inside members e

/-- Emits the members of a type. -/
def emitMembers (setting : Setting) (inside : Enclosing) :
    List Member → Emission → Emission
  | [], e => e
  | m :: rest, e => emitMembers setting inside rest (emitMember setting inside m e)

/-- Emits a member of a type. -/
def emitMember (setting : Setting) (inside : Enclosing) : Member → Emission → Emission
  | .type decl, e => emitType setting inside.surroundings.scope (some inside) decl e
  | m, e => e.applyAll setting inside.surroundings inside.record inside.token
      (memberEffects inside.surroundings m)

end

mutual

/-- Emits the members of a namespace. -/
def emitSpaceMembers (setting : Setting) (scope : Scope) :
    List NamespaceMember → Emission → Emission
  | [], e => e
  | m :: rest, e => emitSpaceMembers setting scope rest (emitSpaceMember setting scope m e)

/-- Emits a member of a namespace. -/
def emitSpaceMember (setting : Setting) (scope : Scope) :
    NamespaceMember → Emission → Emission
  | .space ⟨name, _, usings, members, _⟩, e =>
    emitSpaceMembers setting ((scope.inSpace name).importing usings) members e
  | .type decl, e => emitType setting scope none decl e

end

-- ============================================================= modules

/-- The scope at the top of a file. -/
def topScope (unit : CompilationUnit) : Scope :=
  (Scope.top (declaredTypes unit)).importing unit.usings

/-- All that a file makes a compiler emit. -/
def emission (module : String) (tree : Tree) (options : CompileOptions) : Emission :=
  let setting : Setting := ⟨tree.source, options⟩
  (emitSpaceMembers setting (topScope tree.root) tree.root.members (.start module)).complete
    setting

/-- Compiles a parsed source file. -/
def compile (module : String) (tree : Tree) (options : CompileOptions) : Action Assembly := do
  Run.debug ("Compiling " ++ (declaredTypes tree.root).length.repr ++ " type declarations")
  let e := emission module tree options
  Run.log e.log
  Run.log ((e.diagnostics.filter fun d => d.severity = .warning).map fun d =>
    ⟨.warn, d.display⟩)
  if e.diagnostics.hasErrors then throw (.compilation e.diagnostics)
  let assembly := e.builder.build
  Run.info ("Compiled module '" ++ module ++ "': " ++ assembly.types.length.repr
    ++ " types, " ++ assembly.methods.length.repr ++ " methods")
  return assembly

end ClrListing.Lowering
