/-
How the rows of the metadata tables are laid out: the columns of every
table, and the size of every column.

A reference to a row of one of several tables is one number: the low bits
choose the table, the other bits are the row. How many bits choose depends
on how many tables there are to choose from.

The size of a column that refers to something depends on how much there
is to refer to. A reference to one table has its own way to tell a large
table when it is read and another when sizes are added up; both draw the
line after 65535 rows.
-/
import ClrListing.Error

namespace ClrListing.Metadata

-- ======================================================= coded indexes

/-- A reference to a row. -/
structure RowRef where
  table : TableId
  /-- The row, zero if none is meant. -/
  row : Nat
  deriving DecidableEq, Repr, Inhabited

namespace RowRef

/-- The token of the row. -/
def token (r : RowRef) : Token := .ofRow r.table r.row

/-- Whether no row is meant. -/
def isNull (r : RowRef) : Bool := r.row = 0

end RowRef

/-- The kinds of coded indexes, in the order of their numbers. -/
inductive CodedKind where
  | typeDefOrRef | hasConstant | hasCustomAttribute | hasFieldMarshal | hasDeclSecurity
  | memberRefParent | hasSemantics | methodDefOrRef | memberForwarded | implementation
  | customAttributeType | resolutionScope | typeOrMethodDef
  deriving DecidableEq, Repr, Inhabited

namespace CodedKind

/-- Every kind, in the order of numbers. -/
def all : List CodedKind :=
  [.typeDefOrRef, .hasConstant, .hasCustomAttribute, .hasFieldMarshal, .hasDeclSecurity,
    .memberRefParent, .hasSemantics, .methodDefOrRef, .memberForwarded, .implementation,
    .customAttributeType, .resolutionScope, .typeOrMethodDef]

/-- The number of a kind. -/
def code (k : CodedKind) : Nat := k.ctorIdx

/-- The tables to choose from, in the order of tags. -/
def tables : CodedKind → List TableId
  | .typeDefOrRef => [.typeDef, .typeRef, .typeSpec]
  | .hasConstant => [.field, .param, .property]
  | .hasCustomAttribute =>
    [.methodDef, .field, .typeRef, .typeDef, .param, .interfaceImpl, .memberRef, .module,
      .declSecurity, .property, .event, .standAloneSig, .moduleRef, .typeSpec, .assembly,
      .assemblyRef, .file, .exportedType, .manifestResource, .genericParam,
      .genericParamConstraint, .methodSpec]
  | .hasFieldMarshal => [.field, .param]
  | .hasDeclSecurity => [.typeDef, .methodDef, .assembly]
  | .memberRefParent => [.typeDef, .typeRef, .moduleRef, .methodDef, .typeSpec]
  | .hasSemantics => [.event, .property]
  | .methodDefOrRef => [.methodDef, .memberRef]
  | .memberForwarded => [.field, .methodDef]
  | .implementation => [.file, .assemblyRef, .exportedType]
  | .customAttributeType => [.methodDef, .methodDef, .methodDef, .memberRef, .memberRef]
  | .resolutionScope => [.module, .moduleRef, .assemblyRef, .typeRef]
  | .typeOrMethodDef => [.typeDef, .methodDef]

/-- How many low bits choose the table. -/
def tagBits (k : CodedKind) : Nat := (k.tables.length - 1).log2 + 1

/-- What a coded index refers to; a tag past the tables refers to
nothing. -/
def decode (k : CodedKind) (value : Nat) : Except Error RowRef :=
  match k.tables[value % Nat.pow 2 k.tagBits]? with
  | some table => .ok ⟨table, value / Nat.pow 2 k.tagBits⟩
  | none => .error .outOfBounds

end CodedKind

-- ============================================================= columns

/-- A column of a table. -/
inductive Column where
  /-- A number of so many bytes. -/
  | fixed (size : Nat)
  /-- An offset into the heap of strings. -/
  | string
  /-- An index into the heap of GUIDs. -/
  | guid
  /-- An offset into the heap of byte strings. -/
  | blob
  /-- A row of a table. -/
  | rowOf (table : TableId)
  /-- A coded index. -/
  | coded (kind : CodedKind)
  deriving DecidableEq, Repr, Inhabited

/-- The columns of a table. -/
def columns : TableId → List Column
  | .module => [.fixed 2, .string, .guid, .guid, .guid]
  | .typeRef => [.coded .resolutionScope, .string, .string]
  | .typeDef =>
    [.fixed 4, .string, .string, .coded .typeDefOrRef, .rowOf .field, .rowOf .methodDef]
  | .fieldPtr => [.rowOf .field]
  | .field => [.fixed 2, .string, .blob]
  | .methodPtr => [.rowOf .methodDef]
  | .methodDef => [.fixed 4, .fixed 2, .fixed 2, .string, .blob, .rowOf .param]
  | .paramPtr => [.rowOf .param]
  | .param => [.fixed 2, .fixed 2, .string]
  | .interfaceImpl => [.rowOf .typeDef, .coded .typeDefOrRef]
  | .memberRef => [.coded .memberRefParent, .string, .blob]
  | .constant => [.fixed 2, .coded .hasConstant, .blob]
  | .customAttribute => [.coded .hasCustomAttribute, .coded .customAttributeType, .blob]
  | .fieldMarshal => [.coded .hasFieldMarshal, .blob]
  | .declSecurity => [.fixed 2, .coded .hasDeclSecurity, .blob]
  | .classLayout => [.fixed 2, .fixed 4, .rowOf .typeDef]
  | .fieldLayout => [.fixed 4, .rowOf .field]
  | .standAloneSig => [.blob]
  | .eventMap => [.rowOf .typeDef, .rowOf .event]
  | .eventPtr => [.rowOf .event]
  | .event => [.fixed 2, .string, .coded .typeDefOrRef]
  | .propertyMap => [.rowOf .typeDef, .rowOf .property]
  | .propertyPtr => [.rowOf .property]
  | .property => [.fixed 2, .string, .blob]
  | .methodSemantics => [.fixed 2, .rowOf .methodDef, .coded .hasSemantics]
  | .methodImpl => [.rowOf .typeDef, .coded .methodDefOrRef, .coded .methodDefOrRef]
  | .moduleRef => [.string]
  | .typeSpec => [.blob]
  | .implMap => [.fixed 2, .coded .memberForwarded, .string, .rowOf .moduleRef]
  | .fieldRva => [.fixed 4, .rowOf .field]
  | .encLog => [.fixed 4, .fixed 4]
  | .encMap => [.fixed 4]
  | .assembly =>
    [.fixed 4, .fixed 2, .fixed 2, .fixed 2, .fixed 2, .fixed 4, .blob, .string, .string]
  | .assemblyProcessor => [.fixed 4]
  | .assemblyOs => [.fixed 4, .fixed 4, .fixed 4]
  | .assemblyRef =>
    [.fixed 2, .fixed 2, .fixed 2, .fixed 2, .fixed 4, .blob, .string, .string, .blob]
  | .assemblyRefProcessor => [.fixed 4, .rowOf .assemblyRef]
  | .assemblyRefOs => [.fixed 4, .fixed 4, .fixed 4, .rowOf .assemblyRef]
  | .file => [.fixed 4, .string, .blob]
  | .exportedType => [.fixed 4, .fixed 4, .string, .string, .coded .implementation]
  | .manifestResource => [.fixed 4, .fixed 4, .string, .coded .implementation]
  | .nestedClass => [.rowOf .typeDef, .rowOf .typeDef]
  | .genericParam => [.fixed 2, .fixed 2, .coded .typeOrMethodDef, .string]
  | .methodSpec => [.coded .methodDefOrRef, .blob]
  | .genericParamConstraint => [.rowOf .genericParam, .coded .typeDefOrRef]

-- =============================================================== sizes

/-- What the sizes of columns depend on. -/
structure Layout where
  /-- The number of rows of each table that is present. -/
  counts : TableId → Option Nat
  largeStrings : Bool
  largeGuids : Bool
  largeBlobs : Bool

instance : Inhabited Layout := ⟨⟨fun _ => none, false, false, false⟩⟩

namespace Layout

/-- The layout for tables with given numbers of rows; of two numbers for
one table the later counts. -/
def ofCounts (entries : List (TableId × Nat)) (largeStrings largeBlobs largeGuids : Bool) :
    Layout :=
  ⟨fun t => entries.reverse.lookup t, largeStrings, largeGuids, largeBlobs⟩

/-- The number of rows of a table. -/
def rowCount (l : Layout) (t : TableId) : Nat := (l.counts t).getD 0

/-- How many bits the largest row of a table takes: none if the table is
absent, one at least if it is present. -/
def rowBits (l : Layout) (t : TableId) : Nat :=
  match l.counts t with
  | none => 0
  | some 0 => 1
  | some (n + 1) => (n + 1).log2 + 1

/-- The size of a reference that is large or not. -/
def referenceSize (large : Bool) : Nat := if large then 4 else 2

/-- Whether references to a table are read as large. -/
def isLarge (l : Layout) (t : TableId) : Bool := l.rowCount t > 0xffff

/-- The size of an offset into the heap of strings. -/
def stringSize (l : Layout) : Nat := referenceSize l.largeStrings

/-- The size of an index into the heap of GUIDs. -/
def guidSize (l : Layout) : Nat := referenceSize l.largeGuids

/-- The size of an offset into the heap of byte strings. -/
def blobSize (l : Layout) : Nat := referenceSize l.largeBlobs

/-- The size of a reference to a table. -/
def rowRefSize (l : Layout) (t : TableId) : Nat := referenceSize (l.rowBits t > 16)

/-- How many bits the largest reference of a kind takes. -/
def codedBits (l : Layout) (k : CodedKind) : Nat :=
  (k.tables.map l.rowBits).foldl max 0 + k.tagBits

/-- The size of a coded index. -/
def codedSize (l : Layout) (k : CodedKind) : Nat := referenceSize (l.codedBits k > 16)

/-- The size of a column. -/
def columnSize (l : Layout) : Column → Nat
  | .fixed size => size
  | .string => l.stringSize
  | .guid => l.guidSize
  | .blob => l.blobSize
  | .rowOf table => l.rowRefSize table
  | .coded kind => l.codedSize kind

/-- The size of a row of a table. -/
def rowSize (l : Layout) (t : TableId) : Nat :=
  (columns t).foldr (fun c size => l.columnSize c + size) 0

end Layout

end ClrListing.Metadata
