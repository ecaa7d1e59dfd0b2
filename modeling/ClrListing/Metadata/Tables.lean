/-
The rows that make up types and methods, read column by column, and the
stream of metadata tables: a header that tells which tables there are and
how many rows they have, then the tables in the order of their numbers.
-/
import ClrListing.Metadata.Bytes
import ClrListing.Metadata.Layout

namespace ClrListing.Metadata

-- ============================================================= columns

namespace Layout

/-- Reads a reference that is large or not. -/
def readReference (large : Bool) : Reader Nat := Reader.number (referenceSize large)

/-- Reads an offset into the heap of strings. -/
def readString (l : Layout) : Reader Nat := readReference l.largeStrings

/-- Reads an offset into the heap of byte strings. -/
def readBlob (l : Layout) : Reader Nat := readReference l.largeBlobs

/-- Reads a reference to a table. -/
def readRowOf (l : Layout) (t : TableId) : Reader Nat := readReference (l.isLarge t)

/-- Reads a coded index. -/
def readCoded (l : Layout) (k : CodedKind) : Reader RowRef := do
  let value ← Reader.number (l.codedSize k)
  k.decode value

end Layout

-- ================================================================ rows

/-- A type whose values are the rows of a table. -/
class TableRow (α : Type) where
  /-- The table. -/
  table : TableId
  /-- Reads the row of a given number. -/
  read : Layout → (row : Nat) → Reader α

/-- A type of another module. -/
structure TypeRefRow where
  row : Nat
  scope : RowRef
  name : Nat
  space : Nat
  deriving DecidableEq, Repr, Inhabited

instance : TableRow TypeRefRow where
  table := .typeRef
  read l row := do
    let scope ← l.readCoded .resolutionScope
    let name ← l.readString
    let space ← l.readString
    return ⟨row, scope, name, space⟩

/-- A type. -/
structure TypeDefRow where
  row : Nat
  flags : Nat
  name : Nat
  space : Nat
  base : RowRef
  /-- The first of its fields. -/
  fields : Nat
  /-- The first of its methods. -/
  methods : Nat
  deriving DecidableEq, Repr, Inhabited

instance : TableRow TypeDefRow where
  table := .typeDef
  read l row := do
    let flags ← Reader.number 4
    let name ← l.readString
    let space ← l.readString
    let base ← l.readCoded .typeDefOrRef
    let fields ← l.readRowOf .field
    let methods ← l.readRowOf .methodDef
    return ⟨row, flags, name, space, base, fields, methods⟩

/-- A method. -/
structure MethodDefRow where
  row : Nat
  address : Nat
  implFlags : Nat
  flags : Nat
  name : Nat
  signature : Nat
  /-- The first of its parameters. -/
  params : Nat
  deriving DecidableEq, Repr, Inhabited

instance : TableRow MethodDefRow where
  table := .methodDef
  read l row := do
    let address ← Reader.number 4
    let implFlags ← Reader.number 2
    let flags ← Reader.number 2
    let name ← l.readString
    let signature ← l.readBlob
    let params ← l.readRowOf .param
    return ⟨row, address, implFlags, flags, name, signature, params⟩

/-- A member of a type that is referred to. -/
structure MemberRefRow where
  row : Nat
  parent : RowRef
  name : Nat
  signature : Nat
  deriving DecidableEq, Repr, Inhabited

instance : TableRow MemberRefRow where
  table := .memberRef
  read l row := do
    let parent ← l.readCoded .memberRefParent
    let name ← l.readString
    let signature ← l.readBlob
    return ⟨row, parent, name, signature⟩

/-- An attribute that something carries. -/
structure CustomAttributeRow where
  row : Nat
  parent : RowRef
  constructor : RowRef
  value : Nat
  deriving DecidableEq, Repr, Inhabited

instance : TableRow CustomAttributeRow where
  table := .customAttribute
  read l row := do
    let parent ← l.readCoded .hasCustomAttribute
    let constructor ← l.readCoded .customAttributeType
    let value ← l.readBlob
    return ⟨row, parent, constructor, value⟩

/-- A type nested in another. -/
structure NestedClassRow where
  row : Nat
  nested : Nat
  enclosing : Nat
  deriving DecidableEq, Repr, Inhabited

instance : TableRow NestedClassRow where
  table := .nestedClass
  read l row := do
    let nested ← l.readRowOf .typeDef
    let enclosing ← l.readRowOf .typeDef
    return ⟨row, nested, enclosing⟩

/-- A type parameter. -/
structure GenericParamRow where
  row : Nat
  /-- Its place among the type parameters of its owner. -/
  number : Nat
  flags : Nat
  owner : RowRef
  name : Nat
  deriving DecidableEq, Repr, Inhabited

instance : TableRow GenericParamRow where
  table := .genericParam
  read l row := do
    let number ← Reader.number 2
    let flags ← Reader.number 2
    let owner ← l.readCoded .typeOrMethodDef
    let name ← l.readString
    return ⟨row, number, flags, owner, name⟩

-- ============================================================== tables

/-- The bytes of a table that holds rows of type `α`. -/
structure Table (α : Type) where
  data : List UInt8
  rowCount : Nat
  layout : Layout

namespace Table

variable {α : Type} [TableRow α]

/-- The size of a row. -/
def rowSize (t : Table α) : Nat := t.layout.rowSize (TableRow.table α)

/-- The size of the table. -/
def size (t : Table α) : Nat := t.rowCount * t.rowSize

/-- The table of so many rows at the front of bytes. -/
def new (data : List UInt8) (rowCount : Nat) (layout : Layout) : Except Error (Table α) :=
  let t : Table α := ⟨data, rowCount, layout⟩
  if t.size ≤ data.length then .ok t else .error .outOfBounds

/-- The row of a given number, if there is one and it can be read. -/
def get? (t : Table α) (row : Nat) : Option α :=
  if row = 0 || t.rowCount < row then none
  else ((TableRow.read t.layout row).value (t.data.drop ((row - 1) * t.rowSize))).toOption

/-- Reads `count` rows, the first of which has the number `first`. -/
def readRows (layout : Layout) (first : Nat) : (count : Nat) → Reader (List α)
  | 0 => return []
  | count + 1 => do
    let row ← TableRow.read layout first
    let rest ← readRows layout (first + 1) count
    return row :: rest

/-- All rows in order; none if one of them cannot be read. -/
def rows (t : Table α) : Except Error (List α) :=
  (readRows t.layout 1 t.rowCount).value t.data

end Table

-- ============================================================== stream

/-- The stream of tables. -/
structure TableStream where
  majorVersion : Nat
  minorVersion : Nat
  /-- A bit for each table that is present. -/
  present : Nat
  /-- A bit for each table that is sorted. -/
  sorted : Nat
  layout : Layout
  data : List UInt8
  /-- Where the first table starts. -/
  start : Nat

instance : Inhabited TableStream := ⟨⟨0, 0, 0, 0, default, [], 0⟩⟩

namespace TableStream

/-- The size of the header before the numbers of rows. -/
def headerSize : Nat := 24

/-- The tables that a word of bits holds, in ascending order. -/
def tablesIn (word : Nat) : List TableId := TableId.all.filter fun t => word.testBit t.code

/-- Reads a number of rows for each of the given tables. -/
def readCounts (ts : List TableId) : Reader (List (TableId × Nat)) := do
  let counts ← Reader.times ts.length (Reader.number 4)
  return ts.zip counts

/-- Reads the header of the stream. A flag among the sizes of heaps says
that four bytes more stand before the tables. -/
def ofBytes (data : List UInt8) : Except Error TableStream := do
  if data.length < headerSize then throw .outOfBounds
  let present ← Reader.numberAt data 8 8
  if present = 0 then throw (.damaged .noRows)
  let sorted ← Reader.numberAt data 16 8
  if present / Nat.pow 2 TableId.count ≠ 0 then throw .notSupported
  let counts ← (readCounts (tablesIn present)).value (data.drop headerSize)
  let major ← Reader.numberAt data 4 1
  let minor ← Reader.numberAt data 5 1
  let heaps ← Reader.numberAt data 6 1
  let layout := Layout.ofCounts counts (heaps.testBit 0) (heaps.testBit 2) (heaps.testBit 1)
  let start := headerSize + 4 * counts.length + if heaps.testBit 6 then 4 else 0
  return ⟨major, minor, present, sorted, layout, data, start⟩

/-- Where a table starts: after the tables with lower numbers. -/
def offsetOf (s : TableStream) (t : TableId) : Nat :=
  (TableId.all.takeWhile (· ≠ t)).foldr
    (fun before offset => s.layout.rowCount before * s.layout.rowSize before + offset) s.start

/-- The table of rows of type `α`, if it has rows. -/
def table? (s : TableStream) (α : Type) [TableRow α] : Except Error (Option (Table α)) :=
  let t := TableRow.table α
  let count := s.layout.rowCount t
  if count = 0 then .ok none
  else if s.data.length < s.offsetOf t then .error .outOfBounds
  else (Table.new (s.data.drop (s.offsetOf t)) count s.layout).map some

/-- The rows of type `α`. -/
def rows (s : TableStream) (α : Type) [TableRow α] : Except Error (List α) := do
  match ← s.table? α with
  | some t => t.rows
  | none => return []

end TableStream

end ClrListing.Metadata
