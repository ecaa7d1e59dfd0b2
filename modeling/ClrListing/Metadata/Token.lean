/-
Metadata tables and tokens.

A token is the 32-bit handle of a row: the high byte is the number of a
table, the low three bytes are a row counted from one. A row number that
takes more than three bytes loses its high part.
-/
import ClrListing.Text.Hex

namespace ClrListing.Metadata

-- ============================================================= tables

/-- The metadata tables, in the order of their numbers. -/
inductive TableId where
  | module | typeRef | typeDef | fieldPtr | field | methodPtr | methodDef | paramPtr | param
  | interfaceImpl | memberRef | constant | customAttribute | fieldMarshal | declSecurity
  | classLayout | fieldLayout | standAloneSig | eventMap | eventPtr | event | propertyMap
  | propertyPtr | property | methodSemantics | methodImpl | moduleRef | typeSpec | implMap
  | fieldRva | encLog | encMap | assembly | assemblyProcessor | assemblyOs | assemblyRef
  | assemblyRefProcessor | assemblyRefOs | file | exportedType | manifestResource
  | nestedClass | genericParam | methodSpec | genericParamConstraint
  deriving DecidableEq, Repr, Inhabited

namespace TableId

/-- Every table, in ascending order of numbers. -/
def all : List TableId :=
  [.module, .typeRef, .typeDef, .fieldPtr, .field, .methodPtr, .methodDef, .paramPtr, .param,
    .interfaceImpl, .memberRef, .constant, .customAttribute, .fieldMarshal, .declSecurity,
    .classLayout, .fieldLayout, .standAloneSig, .eventMap, .eventPtr, .event, .propertyMap,
    .propertyPtr, .property, .methodSemantics, .methodImpl, .moduleRef, .typeSpec, .implMap,
    .fieldRva, .encLog, .encMap, .assembly, .assemblyProcessor, .assemblyOs, .assemblyRef,
    .assemblyRefProcessor, .assemblyRefOs, .file, .exportedType, .manifestResource,
    .nestedClass, .genericParam, .methodSpec, .genericParamConstraint]

/-- How many tables there are. -/
def count : Nat := 45

/-- The number of a table. -/
def code (t : TableId) : Nat := t.ctorIdx

/-- The table with a given number. -/
def ofCode? (n : Nat) : Option TableId := all[n]?

end TableId

-- ============================================================= tokens

/-- The handle of a row. -/
structure Token where
  /-- Table number and row in one word. -/
  value : UInt32
  deriving DecidableEq, Repr, Inhabited

namespace Token

/-- The token that names no row. -/
def null : Token := ⟨0⟩

/-- The token of row `row` of the table `t`. -/
def ofRow (t : TableId) (row : Nat) : Token :=
  ⟨UInt32.ofNat (t.code * 0x1000000 + row % 0x1000000)⟩

/-- The number of the token's table. -/
def tableCode (token : Token) : Nat := token.value.toNat / 0x1000000

/-- The token's row. -/
def row (token : Token) : Nat := token.value.toNat % 0x1000000

/-- Whether the token names no row. -/
def isNull (token : Token) : Bool := token.value = 0

/-- Whether the token names a row of `t`. -/
def isIn (token : Token) (t : TableId) : Bool := token.tableCode = t.code

/-- The token in eight hexadecimal digits. -/
def display (token : Token) : String :=
  "0x" ++ String.ofList (Text.Hex.padded 8 token.value.toNat)

/-- The token with its parts. -/
def describe (token : Token) : String :=
  "Token(" ++ token.display ++ ", table: 0x"
    ++ String.ofList (Text.Hex.padded 2 token.tableCode)
    ++ ", row: " ++ token.row.repr ++ ")"

end Token

end ClrListing.Metadata
