/-
Which declared type a name in source means, and the full names of types
as written.

The types that a file declares are listed in pre-order; a type is known
by its place in that list, and an enclosing type comes before the types
in it. A scope knows the list, the namespace, the imported namespaces,
the type that is being read and the type parameters in effect.
-/
import ClrListing.Assembly.Primitive
import ClrListing.Syntax.Declaration
import ClrListing.Text.Search

namespace ClrListing.Lowering

open Syntax Text

-- ====================================================== declared types

/-- A type that a file declares. -/
structure DeclaredType where
  /-- Its namespace, also if it is nested. -/
  space : String
  /-- Its name, without arity. -/
  name : String
  arity : Nat
  kind : TypeKind
  /-- The place of the type that it is nested in. -/
  enclosing : Option Nat
  deriving DecidableEq, Repr, Inhabited

mutual

/-- A type declaration and those inside it, from place `place` on. -/
def declaredInType (space : String) (enclosing : Option Nat) (place : Nat) :
    TypeDecl → List DeclaredType
  | ⟨kind, name, typeParams, _, _, members, _, _, _⟩ =>
    ⟨space, name, typeParams.length, kind, enclosing⟩
      :: declaredInMembers space place (place + 1) members

/-- The types among the members of the type at `outer`, from place
`place` on. -/
def declaredInMembers (space : String) (outer place : Nat) : List Member → List DeclaredType
  | [] => []
  | m :: rest =>
    let here := declaredInMember space outer place m
    here ++ declaredInMembers space outer (place + here.length) rest

/-- The types that a member of the type at `outer` declares. -/
def declaredInMember (space : String) (outer place : Nat) : Member → List DeclaredType
  | .type decl => declaredInType space (some outer) place decl
  | _ => []

end

mutual

/-- The types among the members of a namespace, from place `place` on. -/
def declaredInSpace (space : String) (place : Nat) : List NamespaceMember → List DeclaredType
  | [] => []
  | m :: rest =>
    let here := declaredInSpaceMember space place m
    here ++ declaredInSpace space (place + here.length) rest

/-- The types that a member of a namespace declares. -/
def declaredInSpaceMember (space : String) (place : Nat) :
    NamespaceMember → List DeclaredType
  | .space ⟨name, _, _, members, _⟩ => declaredInSpace (qualify space name) place members
  | .type decl => declaredInType space none place decl

end

/-- The types that a file declares, in pre-order. -/
def declaredTypes (unit : CompilationUnit) : List DeclaredType :=
  declaredInSpace "" 0 unit.members

-- ============================================================== scopes

/-- The names in effect at one point of a file. -/
structure Scope where
  types : List DeclaredType
  space : String
  /-- The imported namespaces, outermost first. -/
  usings : List String
  /-- The place of the type that is being read. -/
  enclosing : Option Nat
  /-- The type parameters in effect. -/
  typeParams : List String
  deriving Inhabited

namespace Scope

/-- The scope at the top of a file that declares `types`. -/
def top (types : List DeclaredType) : Scope := ⟨types, "", [], none, []⟩

/-- The namespaces that using directives import; aliases and imports of
a type's members import none. -/
def importsOf (usings : List Using) : List String :=
  (usings.filter fun u => u.shortName.isNone && !u.isStatic).map Using.name

/-- The scope after using directives. -/
def importing (sc : Scope) (usings : List Using) : Scope :=
  { sc with usings := sc.usings ++ importsOf usings }

/-- The scope inside a namespace. -/
def inSpace (sc : Scope) (name : String) : Scope :=
  { sc with space := qualify sc.space name }

/-- The scope inside the type at a place. -/
def inType (sc : Scope) (place : Nat) (typeParams : List String) : Scope :=
  { sc with enclosing := some place, typeParams := sc.typeParams ++ typeParams }

/-- The scope inside a method with type parameters. -/
def inMethod (sc : Scope) (typeParams : List String) : Scope :=
  { sc with typeParams := sc.typeParams ++ typeParams }

-- ========================================================= own names

/-- The full name of the type at a place with at most `bound` types
around it. -/
def fullNameWithin (sc : Scope) : (bound place : Nat) → String
  | 0, _ => ""
  | bound + 1, place =>
    match sc.types[place]? with
    | none => ""
    | some t =>
      let name := arityName t.name t.arity
      match t.enclosing with
      | some outer => sc.fullNameWithin bound outer ++ "+" ++ name
      | none => qualify t.space name

/-- The full name of the type at a place, as metadata gives it. -/
def fullName (sc : Scope) (place : Nat) : String := sc.fullNameWithin (place + 1) place

/-- The name for the reader of the type at a place with at most `bound`
types around it. -/
def displayNameWithin (sc : Scope) : (bound place : Nat) → String
  | 0, _ => ""
  | bound + 1, place =>
    match sc.types[place]? with
    | none => ""
    | some t =>
      match t.enclosing with
      | some outer => sc.displayNameWithin bound outer ++ "." ++ t.name
      | none => qualify t.space t.name

/-- The name for the reader of the type at a place: no arities, and dots
between a type and those around it. -/
def displayName (sc : Scope) (place : Nat) : String :=
  sc.displayNameWithin (place + 1) place

-- ============================================================ look-up

/-- The first type in a namespace that a segment names. -/
def findTop? (sc : Scope) (space : String) (segment : NameSegment) : Option Nat :=
  sc.types.findIdx? fun t =>
    t.enclosing.isNone && t.space = space && t.name = segment.name
      && t.arity = segment.args.length

/-- The first type directly inside another that a segment names. -/
def findNested? (sc : Scope) (outer : Nat) (segment : NameSegment) : Option Nat :=
  sc.types.findIdx? fun t =>
    t.enclosing = some outer && t.name = segment.name && t.arity = segment.args.length

/-- The types around a place, innermost first, the place itself
included. -/
def around (sc : Scope) : (bound : Nat) → Option Nat → List Nat
  | 0, _ => []
  | _, none => []
  | bound + 1, some place =>
    place :: sc.around bound ((sc.types[place]?).bind DeclaredType.enclosing)

/-- The types that are being read, innermost first. -/
def enclosingTypes (sc : Scope) : List Nat :=
  sc.around (sc.types.length + 1) sc.enclosing

/-- The namespace and those around it, innermost first, ending with the
one without a name. -/
def enclosingSpaces (sc : Scope) : List String :=
  let segments := (splitAll '.' sc.space.toList).map String.ofList
  let n := segments.length
  let spaces := (List.range n).map fun k => String.intercalate "." (segments.take (n - k))
  if spaces.getLastD "" = "" then spaces else spaces ++ [""]

/-- The type that one segment names: inside one of the types that are
being read, else in one of the namespaces around, else in an imported
one. -/
def lookupSimple? (sc : Scope) (segment : NameSegment) : Option Nat :=
  (sc.enclosingTypes.findSome? fun outer => sc.findNested? outer segment)
    <|> (sc.enclosingSpaces.findSome? fun space => sc.findTop? space segment)
    <|> (sc.usings.findSome? fun space => sc.findTop? space segment)

/-- The type that segments name inside the type at a place. -/
def lookupNested? (sc : Scope) (place : Nat) : List NameSegment → Option Nat
  | [] => some place
  | segment :: rest => do
    let inner ← sc.findNested? place segment
    sc.lookupNested? inner rest

/-- The type that dotted segments name if the first `k` of them spell a
namespace, as it is or inside one of the namespaces around. -/
def lookupInSpace? (sc : Scope) (segments : List NameSegment) (k : Nat) : Option Nat :=
  let written := String.intercalate "." ((segments.take k).map NameSegment.name)
  match segments.drop k with
  | [] => none
  | top :: nested =>
    sc.enclosingSpaces.findSome? fun space => do
      let found ← sc.findTop? (qualify space written) top
      sc.lookupNested? found nested

/-- The declared type that dotted segments name, if they name one. -/
def lookup? (sc : Scope) (segments : List NameSegment) : Option Nat :=
  match segments with
  | [] => none
  | first :: rest =>
    ((sc.lookupSimple? first).bind fun found => sc.lookupNested? found rest)
      <|> ((List.range rest.length).findSome? fun k => sc.lookupInSpace? segments (k + 1))

/-- Whether a type as written is a value type: a keyword or declared type
of that sort, or a tuple. -/
def isValueType (sc : Scope) : TypeExpr → Bool
  | .predefined keyword => Assembly.keywordIsValueType keyword
  | .named _ segments =>
    match (sc.lookup? segments).bind (sc.types[·]?) with
    | some t => t.kind = .structType || t.kind = .enumType
    | none => false
  | .nullable _ => true
  | .tuple _ => true
  | .array _ _ => false
  | .pointer _ => false

-- ==================================================== names as written

/-- A name with its arguments in brackets, if it has any. -/
def withArguments (base : String) (args : List String) : String :=
  if args.isEmpty then base else base ++ "[" ++ String.intercalate "," args ++ "]"

/-- How many elements a tuple type has itself; the rest are a tuple in
its last place. -/
def tupleLimit : Nat := 7

/-- The name of a tuple type with elements of the given names. -/
def tupleName (elements : List String) : String :=
  if tupleLimit < elements.length then
    tuple (elements.take tupleLimit ++ [tupleName (elements.drop tupleLimit)])
  else tuple elements
termination_by elements.length
decreasing_by simp [tupleLimit] at *; omega
where
  /-- The generic type for so many arguments. -/
  tuple (args : List String) : String :=
    "System.ValueTuple`" ++ args.length.repr ++ "[" ++ String.intercalate "," args ++ "]"

/-- Whether segments are the bare name of a type parameter in effect. -/
def typeParameter? (sc : Scope) (segments : List NameSegment) : Option String :=
  match segments with
  | [⟨name, []⟩] => if sc.typeParams.contains name then some name else none
  | _ => none

/-- The base name that dotted segments give, before their arguments: that
of the declared type they name, else as they are written. -/
def baseName (sc : Scope) (segments : List NameSegment) : String :=
  match sc.lookup? segments with
  | some place => sc.fullName place
  | none => String.intercalate "." (segments.map fun s => arityName s.name s.args.length)

mutual

/-- The full name of a type as written. -/
def typeName (sc : Scope) : TypeExpr → String
  | .predefined keyword => (Assembly.keywordFullName? keyword).getD keyword
  | .named _ segments =>
    match sc.typeParameter? segments with
    | some name => name
    | none => withArguments (sc.baseName segments) (sc.segmentArguments segments)
  | .array element rank => sc.typeName element ++ "[" ++ rankCommas rank ++ "]"
  | .nullable inner =>
    if sc.isValueType inner then "System.Nullable`1[" ++ sc.typeName inner ++ "]"
    else sc.typeName inner
  | .pointer inner => sc.typeName inner ++ "*"
  | .tuple elements => tupleName (sc.typeNames elements)

/-- The full names of types as written. -/
def typeNames (sc : Scope) : List TypeExpr → List String
  | [] => []
  | t :: rest => sc.typeName t :: sc.typeNames rest

/-- The full names of all type arguments of dotted segments, in order. -/
def segmentArguments (sc : Scope) : List NameSegment → List String
  | [] => []
  | ⟨_, args⟩ :: rest => sc.typeNames args ++ sc.segmentArguments rest

end

/-- How an explicitly implemented interface is named before a member:
a declared one by its name for the reader with full names of its
arguments, any other as written. -/
def interfaceName (sc : Scope) (t : TypeExpr) : String :=
  match t with
  | .named _ segments =>
    match sc.lookup? segments with
    | some place =>
      let args := sc.segmentArguments segments
      if args.isEmpty then sc.displayName place
      else sc.displayName place ++ "<" ++ String.intercalate "," args ++ ">"
    | none => t.display
  | _ => t.display

/-- The full name of a parameter's type; one passed by reference is a
managed pointer. -/
def parameterType (sc : Scope) (p : Parameter) : String :=
  if p.isByRef then sc.typeName p.type ++ "&" else sc.typeName p.type

/-- The full names of the types of parameters. -/
def parameterTypes (sc : Scope) (ps : List Parameter) : List String := ps.map sc.parameterType

end Scope

end ClrListing.Lowering
