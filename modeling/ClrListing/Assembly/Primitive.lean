/-
The built-in types: their codes in signatures, their names in metadata
and the keywords that stand for them in source.
-/

namespace ClrListing.Assembly

/-- A type that a signature names by a code of its own. -/
inductive Primitive where
  | void | boolean | char | int8 | uint8 | int16 | uint16 | int32 | uint32 | int64 | uint64
  | float32 | float64 | string | typedReference | nativeInt | nativeUint | object
  deriving DecidableEq, Repr, Inhabited

namespace Primitive

/-- Every primitive, in ascending order of codes. -/
def all : List Primitive :=
  [.void, .boolean, .char, .int8, .uint8, .int16, .uint16, .int32, .uint32, .int64, .uint64,
    .float32, .float64, .string, .typedReference, .nativeInt, .nativeUint, .object]

/-- The code of a primitive in signatures. -/
def code : Primitive → Nat
  | .void => 0x01
  | .boolean => 0x02
  | .char => 0x03
  | .int8 => 0x04
  | .uint8 => 0x05
  | .int16 => 0x06
  | .uint16 => 0x07
  | .int32 => 0x08
  | .uint32 => 0x09
  | .int64 => 0x0a
  | .uint64 => 0x0b
  | .float32 => 0x0c
  | .float64 => 0x0d
  | .string => 0x0e
  | .typedReference => 0x16
  | .nativeInt => 0x18
  | .nativeUint => 0x19
  | .object => 0x1c

/-- The primitive with a given code. -/
def ofCode? (code : Nat) : Option Primitive := all.find? fun p => p.code = code

/-- The full name of a primitive. -/
def fullName : Primitive → String
  | .void => "System.Void"
  | .boolean => "System.Boolean"
  | .char => "System.Char"
  | .int8 => "System.SByte"
  | .uint8 => "System.Byte"
  | .int16 => "System.Int16"
  | .uint16 => "System.UInt16"
  | .int32 => "System.Int32"
  | .uint32 => "System.UInt32"
  | .int64 => "System.Int64"
  | .uint64 => "System.UInt64"
  | .float32 => "System.Single"
  | .float64 => "System.Double"
  | .string => "System.String"
  | .typedReference => "System.TypedReference"
  | .nativeInt => "System.IntPtr"
  | .nativeUint => "System.UIntPtr"
  | .object => "System.Object"

/-- The keyword that stands for a primitive in source, if one does. -/
def keyword? : Primitive → Option String
  | .void => some "void"
  | .boolean => some "bool"
  | .char => some "char"
  | .int8 => some "sbyte"
  | .uint8 => some "byte"
  | .int16 => some "short"
  | .uint16 => some "ushort"
  | .int32 => some "int"
  | .uint32 => some "uint"
  | .int64 => some "long"
  | .uint64 => some "ulong"
  | .float32 => some "float"
  | .float64 => some "double"
  | .string => some "string"
  | .typedReference => none
  | .nativeInt => some "nint"
  | .nativeUint => some "nuint"
  | .object => some "object"

/-- Whether a primitive is a value type. -/
def isValueType : Primitive → Bool
  | .string | .object | .void => false
  | _ => true

/-- The primitive that a keyword stands for. -/
def ofKeyword? (word : String) : Option Primitive :=
  all.find? fun p => p.keyword? = some word

end Primitive

/-- The full name of the type that a keyword stands for; two keywords
stand for types that are no primitives. -/
def keywordFullName? (word : String) : Option String :=
  if word = "decimal" then some "System.Decimal"
  else if word = "dynamic" then some "System.Object"
  else (Primitive.ofKeyword? word).map Primitive.fullName

/-- Whether a keyword stands for a value type. -/
def keywordIsValueType (word : String) : Bool :=
  word = "decimal"
    || Primitive.all.any fun p => p.keyword? = some word && p.isValueType

end ClrListing.Assembly
