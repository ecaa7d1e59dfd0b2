/-
The compiled module while it grows: rows are added, and what was added is
remembered, so that partial declarations of a type meet and methods with
a signature that is taken are noticed.

Bodies are not compiled. A method with a body gets the next body address,
and addresses are the same distance apart.
-/
import ClrListing.Assembly.Builder
import ClrListing.Log
import ClrListing.Lowering.Effect

namespace ClrListing.Lowering

open Assembly Metadata Source Syntax

-- =========================================================== settings

/-- How a module is compiled. -/
structure CompileOptions where
  /-- Whether every method is marked as not to be optimized. -/
  disableOptimization : Bool
  deriving DecidableEq, Repr, Inhabited

/-- What a compilation reads and never changes. -/
structure Setting where
  /-- The source text, to locate complaints in. -/
  source : String
  options : CompileOptions
  deriving Inhabited

/-- The address of the first body. -/
def firstBody : Nat := 0x2050

/-- The distance between bodies. -/
def bodyDistance : Nat := 0x10

-- =========================================================== emission

/-- What tells types apart. -/
structure TypeKey where
  /-- The type that it is nested in. -/
  enclosing : Option Token
  /-- The namespace, empty for a nested type. -/
  space : String
  /-- The name, with the number of its own type parameters. -/
  name : String
  deriving DecidableEq, Repr, Inhabited

/-- What is remembered about an emitted type. -/
structure TypeRecord where
  key : TypeKey
  token : Token
  kind : TypeKind
  isPartial : Bool
  isStatic : Bool
  isAbstract : Bool
  hasInstanceConstructor : Bool
  hasTypeConstructor : Bool
  hasStaticInitializer : Bool
  deriving DecidableEq, Repr, Inhabited

namespace TypeRecord

/-- The record with a mark. -/
def marked (r : TypeRecord) : Mark → TypeRecord
  | .instanceConstructor => { r with hasInstanceConstructor := true }
  | .typeConstructor => { r with hasTypeConstructor := true }
  | .staticInitializer => { r with hasStaticInitializer := true }

/-- The record after one more declaration of the type. -/
def declaredWith (r : TypeRecord) (ms : Modifiers) : TypeRecord :=
  { r with
    isStatic := r.isStatic || ms.has .isStatic
    isAbstract := r.isAbstract || ms.has .isAbstract }

end TypeRecord

/-- What tells the methods of a type apart. -/
structure MethodKey where
  declaring : Token
  name : String
  genericCount : Nat
  params : List String
  /-- The type that a conversion gives, empty for other methods. -/
  convertsTo : String
  deriving DecidableEq, Repr, Inhabited

/-- The key of a method of a type; only conversions may differ in nothing
but the return type. -/
def MethodKey.of (declaring : Token) (m : MethodDef) : MethodKey :=
  ⟨declaring, m.name, m.signature.genericCount, m.signature.params,
    if m.name = implicitName || m.name = explicitName then m.signature.returnType else ""⟩

/-- A compiled module while it grows. -/
structure Emission where
  builder : Builder
  diagnostics : Diagnostics
  /-- The place in pre-order of the next type declaration. -/
  place : Nat
  /-- The emitted types, in order. -/
  types : List TypeRecord
  /-- The signatures that are taken. -/
  keys : List MethodKey
  /-- The address of the next body. -/
  nextBody : Nat
  log : Log
  deriving Inhabited

namespace Emission

/-- Nothing emitted yet. -/
def start (module : String) : Emission := ⟨.new module, [], 0, [], [], firstBody, []⟩

/-- Notes a complaint about the source at a span. -/
def complain (e : Emission) (setting : Setting) (d : Diagnostic) (span : Span) : Emission :=
  { e with diagnostics :=
      e.diagnostics ++ [d.located (Location.ofOffset setting.source span.start)] }

/-- Leaves a record of detail. -/
def note (e : Emission) (text : String) : Emission :=
  { e with log := e.log ++ [⟨.debug, text⟩] }

/-- The index of the record of an emitted type. -/
def findRecord? (e : Emission) (key : TypeKey) : Option Nat :=
  e.types.findIdx? fun r => r.key = key

/-- Changes the record at an index. -/
def modifyRecord (e : Emission) (index : Nat) (f : TypeRecord → TypeRecord) : Emission :=
  { e with types := e.types.modify index f }

/-- The method as the options want it. -/
def finishMethod (setting : Setting) (m : MethodDef) : MethodDef :=
  if setting.options.disableOptimization then
    { m with implFlags := m.implFlags.insert .noOptimization }
  else m

/-- Adds a method to a type, with an address if it has a body. -/
def pushMethod (e : Emission) (setting : Setting) (declaring : Token) (m : MethodDef)
    (hasBody : Bool) : Emission :=
  let finished := finishMethod setting m
  let placed := if hasBody then { finished with bodyAddress := e.nextBody } else finished
  let grown : Emission := { e with
    builder := e.builder.addMethod declaring placed
    nextBody := if hasBody then e.nextBody + bodyDistance else e.nextBody }
  grown.note ("Emitted method " ++ m.name ++ " as " ++ e.builder.nextMethod.display)

/-- The complaint that a type has a method with the same signature. -/
def repeated (s : Surroundings) (m : MethodDef) : Diagnostic :=
  let name := if m.isConstructor then s.simpleName else m.name
  .error "CS0111" ("Type '" ++ s.display ++ "' already defines a member called '" ++ name
    ++ "' with the same parameter types")

/-- Adds a declared method to a type; a signature that is taken is a
complaint. -/
def declareMethod (e : Emission) (setting : Setting) (s : Surroundings) (declaring : Token)
    (m : MethodDef) (hasBody : Bool) (span : Span) : Emission :=
  let key := MethodKey.of declaring m
  let noticed :=
    if e.keys.contains key then e.complain setting (repeated s m) span
    else { e with keys := e.keys ++ [key] }
  noticed.pushMethod setting declaring m hasBody

/-- Brings about the effect of a member of the type whose record stands
at an index. -/
def apply (setting : Setting) (s : Surroundings) (record : Nat) (declaring : Token)
    (e : Emission) : Effect → Emission
  | .complain d span => e.complain setting d span
  | .mark m => e.modifyRecord record fun r => r.marked m
  | .declare m hasBody span => e.declareMethod setting s declaring m hasBody span

/-- Brings about effects in order. -/
def applyAll (e : Emission) (setting : Setting) (s : Surroundings) (record : Nat)
    (declaring : Token) (effects : List Effect) : Emission :=
  effects.foldl (apply setting s record declaring) e

-- ============================================== added constructors

/-- The constructor of instances that a class gets if it has none. -/
def addedConstructor (r : TypeRecord) : MethodDef :=
  { runtimeNamed ".ctor" (.nothing true) with
    access := if r.isAbstract then .family else .publicAccess }

/-- The constructor of the type that initial values need. -/
def addedTypeConstructor : MethodDef :=
  { runtimeNamed ".cctor" (.nothing false) with access := .privateAccess }

/-- Whether a type gets a constructor of instances. -/
def needsConstructor (r : TypeRecord) : Bool :=
  r.kind = .classType && !r.isStatic && !r.hasInstanceConstructor

/-- Whether a type gets a constructor of the type. -/
def needsTypeConstructor (r : TypeRecord) : Bool :=
  (r.kind = .classType || r.kind = .structType)
    && r.hasStaticInitializer && !r.hasTypeConstructor

/-- Adds the constructors that a type gets. -/
def completeType (setting : Setting) (e : Emission) (r : TypeRecord) : Emission :=
  let first :=
    if needsConstructor r then e.pushMethod setting r.token (addedConstructor r) true else e
  if needsTypeConstructor r then first.pushMethod setting r.token addedTypeConstructor true
  else first

/-- Adds the constructors that types get, type by type. -/
def complete (e : Emission) (setting : Setting) : Emission :=
  e.types.foldl (completeType setting) e

end Emission

end ClrListing.Lowering
