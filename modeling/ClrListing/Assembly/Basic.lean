/-
Compiled modules: their types and methods, found by token or by name.

Rows are numbered by their place: the type with row `i` is the `i`-th of
the module, and so for methods.
-/
import ClrListing.Assembly.Method
import ClrListing.Text.Search

namespace ClrListing

open Metadata

namespace Assembly

-- ============================================================== types

/-- A flag of a type that this library asks for. -/
inductive TypeFlag where
  | sequentialLayout | isInterface | isAbstract | isSealed | beforeFieldInit
  deriving DecidableEq, Repr, Inhabited

instance : Flag TypeFlag where
  position
    | .sequentialLayout => 3
    | .isInterface => 5
    | .isAbstract => 7
    | .isSealed => 8
    | .beforeFieldInit => 20
  all := [.sequentialLayout, .isInterface, .isAbstract, .isSealed, .beforeFieldInit]

/-- A type of a compiled module. -/
structure TypeDef where
  token : Token
  /-- The name, with the number of its own type parameters. -/
  name : String
  /-- The namespace, empty for a nested type. -/
  space : String
  /-- The attributes: the visibility in the low bits, and flags. -/
  flags : FlagSet TypeFlag
  /-- The type that it is nested in, if it is. -/
  enclosing : Option Token
  /-- The names of its type parameters, those of enclosing types first. -/
  genericParams : List String
  /-- Its methods, in the order of their rows. -/
  methods : List Token
  /-- The types directly nested in it, in the order of their rows. -/
  nested : List Token
  /-- Whether the compiler made it up. -/
  isGenerated : Bool
  deriving DecidableEq, Repr, Inhabited

namespace TypeDef

/-- Whether the type is an interface. -/
def isInterface (t : TypeDef) : Bool := t.flags.has .isInterface

/-- Whether the type has type parameters, its own or inherited. -/
def isOpen (t : TypeDef) : Bool := !t.genericParams.isEmpty

end TypeDef

end Assembly

open Assembly

-- ============================================================ modules

/-- A compiled module. -/
structure Assembly where
  name : String
  /-- The types, by row; the first stands for the module itself. -/
  types : List TypeDef
  /-- The methods, by row. -/
  methods : List MethodDef
  deriving DecidableEq, Repr, Inhabited

namespace Assembly

/-- The element of `xs` at row `row`; rows count from one. -/
def atRow? (xs : List α) (row : Nat) : Option α :=
  if row = 0 then none else xs[row - 1]?

/-- The type that a token names. -/
def type? (a : Assembly) (token : Token) : Option TypeDef :=
  if token.isIn .typeDef then atRow? a.types token.row else none

/-- The method that a token names. -/
def method? (a : Assembly) (token : Token) : Option MethodDef :=
  if token.isIn .methodDef then atRow? a.methods token.row else none

/-- The type of a given namespace and name that is not nested. -/
def findType? (a : Assembly) (space name : String) : Option TypeDef :=
  a.types.find? fun t => t.enclosing.isNone && t.space = space && t.name = name

/-- The type of a given name directly nested in another. -/
def nestedType? (a : Assembly) (enclosing : Token) (name : String) : Option TypeDef := do
  let outer ← a.type? enclosing
  (outer.nested.filterMap a.type?).find? fun t => t.name = name

/-- Finds a type by its full name, such as `N.Outer+Inner`. -/
def findByFullName? (a : Assembly) (fullName : String) : Option TypeDef :=
  match Text.splitAll '+' fullName.toList with
  | [] => none
  | top :: nested =>
    let (space, name) := (Text.splitLast '.' top).getD ([], top)
    nested.foldl
      (fun found name => found.bind fun t => a.nestedType? t.token (String.ofList name))
      (a.findType? (String.ofList space) (String.ofList name))

/-- The methods that a type declares, in the order of their rows. -/
def declaredMethods (a : Assembly) (type : Token) : List MethodDef :=
  match a.type? type with
  | some t => t.methods.filterMap a.method?
  | none => []

-- ============================================================== names

/-- The full name of a type that has at most `bound` enclosing types. -/
def fullNameWithin (a : Assembly) : (bound : Nat) → Token → String
  | 0, token => token.display
  | bound + 1, token =>
    match a.type? token with
    | none => token.display
    | some t =>
      match t.enclosing with
      | some outer => a.fullNameWithin bound outer ++ "+" ++ t.name
      | none => Text.qualify t.space t.name

/-- The full name of a type: the names from the outermost enclosing type
to the type itself, joined with plus signs, after the namespace. A chain
of enclosing types that does not run in a circle is at most as long as
the list of types. -/
def fullName (a : Assembly) (type : Token) : String :=
  a.fullNameWithin (a.types.length + 1) type

/-- A method's name after the full name of its type. -/
def displayName (a : Assembly) (method : Token) : String :=
  match a.method? method with
  | some m => a.fullName m.declaringType ++ "." ++ m.name
  | none => method.display

/-- A method's return type, full name and parameter types. -/
def signatureText (a : Assembly) (method : Token) : String :=
  match a.method? method with
  | some m =>
    m.signature.returnType ++ " " ++ a.displayName method
      ++ "(" ++ String.intercalate ", " m.signature.params ++ ")"
  | none => method.display

-- ========================================================= comparison

/-- Rows are numbered by their place, and their numbers fit a token. -/
structure Numbered (a : Assembly) : Prop where
  types : ∀ i t, a.types[i]? = some t → t.token = Token.ofRow .typeDef (i + 1)
  methods : ∀ i m, a.methods[i]? = some m → m.token = Token.ofRow .methodDef (i + 1)
  typesFit : a.types.length < 0x1000000
  methodsFit : a.methods.length < 0x1000000

end Assembly

end ClrListing
