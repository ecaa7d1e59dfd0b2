/-
The module that an image holds.

Types and methods are the rows of their tables. A type's methods are the
rows from its own first one up to the first one of the next type; a
method that several types hold belongs to the last of them, and one that
no type holds belongs to none.
-/
import ClrListing.Assembly.Basic
import ClrListing.Image.Executable
import ClrListing.Log
import ClrListing.Metadata.Root
import ClrListing.Metadata.Signature
import ClrListing.Metadata.Tables
import ClrListing.Text.Search

namespace ClrListing.Image

open Assembly Metadata

-- ============================================================ metadata

/-- The streams that types and methods are read from. -/
structure Streams where
  /-- What the version of the runtime is called. -/
  version : String
  /-- How many streams there are. -/
  count : Nat
  tables : TableStream
  strings : StringHeap
  blobs : BlobHeap
  deriving Inhabited

namespace Streams

/-- Finds the streams in metadata. Tables that are not in their final form
are not read. -/
def ofMetadata (data : List UInt8) : Except Error Streams := do
  let root ← Root.ofBytes data
  if (root.stream? data "#-").isSome then throw .notSupported
  let some tables := root.stream? data "#~" | throw (.damaged .noTablesStream)
  let some strings := root.stream? data "#Strings" | throw (.damaged .noStringsStream)
  let strings ← StringHeap.ofBytes strings
  let blobs ← BlobHeap.ofBytes ((root.stream? data "#Blob").getD [0])
  let tables ← TableStream.ofBytes tables
  return ⟨root.version, root.streams.length, tables, strings, blobs⟩

/-- Finds the streams in an image. -/
def ofImage (x : Executable) : Except Error Streams := do
  let header ← ClrHeader.ofBytes
    (← x.bytesAt x.clr.address (max x.clr.size ClrHeader.expectedSize))
  ofMetadata (← x.bytesAt header.metadataAddress header.metadataSize)

/-- The rows of type `α`. -/
def rows (s : Streams) (α : Type) [TableRow α] : Except Error (List α) := s.tables.rows α

end Streams

-- =============================================================== types

/-- The methods of a type, given its row and the row after it. -/
def methodsOf (methodCount : Nat) (row : TypeDefRow) (next : Option TypeDefRow) : List Token :=
  let start := max row.methods 1
  let stop := min ((next.map TypeDefRow.methods).getD (methodCount + 1)) (methodCount + 1)
  (List.range' start (stop - start)).map (Token.ofRow .methodDef)

/-- The type of a row, not linked to others yet. -/
def readType (s : Streams) (methodCount : Nat) (row : TypeDefRow) (next : Option TypeDefRow) :
    Except Error TypeDef := do
  let name ← s.strings.get row.name
  let space ← s.strings.get row.space
  return ⟨.ofRow .typeDef row.row, name, space, ⟨row.flags⟩, none, [],
    methodsOf methodCount row next, [], false⟩

/-- The types of rows. -/
def readTypes (s : Streams) (methodCount : Nat) :
    List TypeDefRow → Except Error (List TypeDef)
  | [] => return []
  | row :: rest => do
    let type ← readType s methodCount row rest.head?
    let types ← readTypes s methodCount rest
    return type :: types

/-- The type that a method belongs to: the last one that holds it. -/
def ownerOf (types : List TypeDef) (method : Token) : Token :=
  ((types.reverse.find? fun t => t.methods.contains method).map TypeDef.token).getD .null

/-- Links a nested type with the type around it. -/
def linkNested (types : List TypeDef) (row : NestedClassRow) : Except Error (List TypeDef) :=
  if row.nested = 0 || row.enclosing = 0 then .error (.damaged (.nullNestedRow row.row))
  else if types.length < row.nested || types.length < row.enclosing then
    .error (.damaged (.nestedRowOutside row.row))
  else
    let inner := types.modify (row.nested - 1) fun t =>
      { t with enclosing := some (.ofRow .typeDef row.enclosing) }
    .ok (inner.modify (row.enclosing - 1) fun t =>
      { t with nested := t.nested ++ [.ofRow .typeDef row.nested] })

/-- Links nested types in the order of their rows. -/
def linkAll (types : List TypeDef) (rows : List NestedClassRow) : Except Error (List TypeDef) :=
  (rows.mergeSort fun a b => a.nested ≤ b.nested).foldlM linkNested types

-- ======================================================= type parameters

/-- A type parameter with its owner. -/
structure GenericParam where
  owner : Token
  number : Nat
  name : String
  deriving DecidableEq, Repr, Inhabited

/-- Reads the name of a type parameter. -/
def readGenericParam (s : Streams) (row : GenericParamRow) : Except Error GenericParam := do
  return ⟨row.owner.token, row.number, ← s.strings.get row.name⟩

/-- The names of an owner's type parameters, in the order of their
numbers. -/
def genericParamsOf (params : List GenericParam) (owner : Token) : List String :=
  ((params.filter fun p => p.owner = owner).mergeSort fun a b => a.number ≤ b.number).map
    GenericParam.name

-- ==================================================== made by a compiler

/-- The namespace of the attribute that marks what a compiler made up. -/
def generatedSpace : String := "System.Runtime.CompilerServices"

/-- The name of the attribute that marks what a compiler made up. -/
def generatedName : String := "CompilerGeneratedAttribute"

/-- Whether a type of another module is the attribute. -/
def isForeignMark (s : Streams) (refs : List TypeRefRow) (row : Nat) : Except Error Bool := do
  match atRow? refs row with
  | none => return false
  | some ref =>
    if (← s.strings.get ref.name) ≠ generatedName then return false
    return (← s.strings.get ref.space) = generatedSpace

/-- Whether a type of the module is the attribute. -/
def isOwnMark (types : List TypeDef) (token : Token) : Bool :=
  types.any fun t => t.token = token && t.name = generatedName && t.space = generatedSpace

/-- Whether the constructor of an attribute is that of the attribute that
marks what a compiler made up. -/
def isMark (s : Streams) (types : List TypeDef) (refs : List TypeRefRow)
    (members : List MemberRefRow) (constructor : RowRef) : Except Error Bool := do
  match constructor.table with
  | .memberRef =>
    match atRow? members constructor.row with
    | none => return false
    | some member =>
      match member.parent.table with
      | .typeRef => isForeignMark s refs member.parent.row
      | .typeDef => return isOwnMark types member.parent.token
      | _ => return false
  | .methodDef =>
    return types.any fun t => t.methods.contains constructor.token && isOwnMark types t.token
  | _ => return false

/-- What an attribute marks as made up by a compiler: nothing, a type or a
method. -/
def markedBy (s : Streams) (types : List TypeDef) (refs : List TypeRefRow)
    (members : List MemberRefRow) (row : CustomAttributeRow) : Except Error (List Token) := do
  if row.parent.table = .methodDef || row.parent.table = .typeDef then
    return if ← isMark s types refs members row.constructor then [row.parent.token] else []
  else return []

/-- All that is marked as made up by a compiler. -/
def readGenerated (s : Streams) (types : List TypeDef) : Except Error (List Token) := do
  let refs ← s.rows TypeRefRow
  let members ← s.rows MemberRefRow
  let attributes ← s.rows CustomAttributeRow
  return (← attributes.mapM (markedBy s types refs members)).flatten

-- =============================================================== names

/-- How many types may stand around a type. -/
def nestingLimit : Nat := 64

/-- The type around a type. -/
def around? (types : List TypeDef) (t : TypeDef) : Option TypeDef :=
  t.enclosing.bind fun token => atRow? types token.row

/-- The full name of what is named `name` inside `t`, or of `t` itself, if
at most so many types stand around `t`. -/
def fullNameFrom? (types : List TypeDef) : (levels : Nat) → TypeDef → String → Option String
  | levels, t, name =>
    match around? types t with
    | none => some (Text.qualify t.space name)
    | some outer =>
      match levels with
      | 0 => none
      | levels + 1 => fullNameFrom? types levels outer (outer.name ++ "+" ++ name)

/-- The full name of a type of the module. -/
def typeDefName (types : List TypeDef) (t : TypeDef) : Except Error String :=
  match fullNameFrom? types nestingLimit t t.name with
  | some name => .ok name
  | none => .error (.damaged (.nestingTooDeep t.name))

/-- The full name of what is named `name` in a scope and namespace; a scope
that is a type adds its name, for so many types. -/
def foreignNameFrom (s : Streams) (refs : List TypeRefRow) :
    (levels : Nat) → (scope : RowRef) → (space name : String) → Except Error String
  | 0, _, space, name => return Text.qualify space name
  | levels + 1, scope, space, name => do
    match if scope.table = .typeRef then atRow? refs scope.row else none with
    | none => return Text.qualify space name
    | some outer =>
      let outerName ← s.strings.get outer.name
      let outerSpace ← s.strings.get outer.space
      foreignNameFrom s refs levels outer.scope outerSpace (outerName ++ "+" ++ name)

/-- The full name of a type of another module. -/
def typeRefName (s : Streams) (refs : List TypeRefRow) (row : TypeRefRow) :
    Except Error String := do
  let name ← s.strings.get row.name
  let space ← s.strings.get row.space
  foreignNameFrom s refs nestingLimit row.scope space name

/-- The full names of types, by token. -/
abbrev TypeNames := List (Token × String)

/-- The full names of the types of the module and of those it refers to. -/
def readTypeNames (s : Streams) (types : List TypeDef) : Except Error TypeNames := do
  let refs ← s.rows TypeRefRow
  let own ← types.mapM fun t => do return (t.token, ← typeDefName types t)
  let foreign ← refs.mapM fun row => do
    return (Token.ofRow .typeRef row.row, ← typeRefName s refs row)
  return own ++ foreign

/-- The full name of a type; a type without one is named by its token. -/
def TypeNames.get (names : TypeNames) (token : Token) : String :=
  (names.lookup token).getD token.display

-- ============================================================= methods

/-- The method of a row. -/
def readMethod (s : Streams) (types : List TypeDef) (params : List GenericParam)
    (generated : List Token) (names : TypeNames) (row : MethodDefRow) :
    Except Error MethodDef := do
  let token := Token.ofRow .methodDef row.row
  let owner := ownerOf types token
  let genericParams := genericParamsOf params token
  let ownerParams := ((atRow? types owner.row).map TypeDef.genericParams).getD []
  let signature ← Signature.ofBytes (← s.blobs.get row.signature)
  let name ← s.strings.get row.name
  return {
    token := token
    name := name
    access := .ofWord row.flags
    flags := .ofWord row.flags
    codeKind := .ofWord row.implFlags
    implFlags := .ofWord row.implFlags
    bodyAddress := row.address
    signature := signature.named ⟨names.get, ownerParams, genericParams⟩
    genericParams := genericParams
    isGenerated := generated.contains token
    declaringType := owner }

-- ============================================================== modules

/-- Reads the types and methods of a module. -/
def readModule (name : String) (s : Streams) : Except Error Assembly := do
  let typeRows ← s.rows TypeDefRow
  let methodRows ← s.rows MethodDefRow
  let unlinked ← readTypes s methodRows.length typeRows
  let linked ← linkAll unlinked (← s.rows NestedClassRow)
  let params ← (← s.rows GenericParamRow).mapM (readGenericParam s)
  let generated ← readGenerated s linked
  let types := linked.map fun t =>
    { t with
      genericParams := genericParamsOf params t.token
      isGenerated := generated.contains t.token }
  let names ← readTypeNames s types
  let methods ← methodRows.mapM (readMethod s types params generated names)
  return ⟨name, types, methods⟩

/-- The module that the bytes of an image hold. -/
def load (name : String) (bytes : List UInt8) : Action Assembly := do
  let streams ← (do Streams.ofImage (← Executable.ofBytes bytes) : Except Error Streams)
  Run.debug ("Reading metadata of '" ++ name ++ "' (" ++ streams.version ++ ", "
    ++ streams.count.repr ++ " streams)")
  let assembly ← readModule name streams
  Run.debug ("Loaded " ++ assembly.types.length.repr ++ " types and "
    ++ assembly.methods.length.repr ++ " methods from '" ++ name ++ "'")
  return assembly

/-- The module that a file holds, named after the file. A directory can be
opened like a file, but not be mapped. -/
def loadFile (path : String) (content : Except FileFault (List UInt8)) : Action Assembly := do
  match content with
  | .error .isADirectory => throw (.file .uncategorized)
  | .error fault => throw (.file fault)
  | .ok bytes =>
    load (((Text.Path.stem? path.toList).map String.ofList).getD "") bytes

end ClrListing.Image
