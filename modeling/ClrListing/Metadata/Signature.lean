/-
The signatures of methods, as metadata writes them, and the names of the
types in them.

A type is a code, followed by what the code asks for, other types among
it. Types in types are read to a limited depth; a modifier before a type
counts as one level, and a function pointer as two.
-/
import ClrListing.Assembly.Method
import ClrListing.Assembly.Primitive
import ClrListing.Metadata.Bytes

namespace ClrListing.Metadata

open Assembly (Primitive)

-- =============================================================== types

/-- A type in a signature. -/
inductive TypeSig where
  | primitive (p : Primitive)
  /-- A class or value type. -/
  | named (token : Token)
  /-- A generic type with arguments. -/
  | generic (token : Token) (args : List TypeSig)
  /-- An array of one dimension that starts at zero. -/
  | vector (element : TypeSig)
  | array (element : TypeSig) (rank : Nat)
  | pointer (target : TypeSig)
  /-- A managed pointer. -/
  | byRef (target : TypeSig)
  /-- A type parameter of the type. -/
  | typeParam (index : Nat)
  /-- A type parameter of the method. -/
  | methodParam (index : Nat)
  | functionPointer

instance : Inhabited TypeSig := ⟨.functionPointer⟩

/-- The signature of a method. -/
structure MethodSig where
  /-- Whether it is called on an instance. -/
  hasThis : Bool
  /-- Whether the instance is among the parameters. -/
  explicitThis : Bool
  genericCount : Nat
  returnType : TypeSig
  params : List TypeSig
  deriving Inhabited

-- =============================================================== names

/-- What names in signatures depend on. -/
structure NameContext where
  /-- The full name of a type. -/
  typeName : Token → String
  /-- The names of the type parameters of the type. -/
  typeParams : List String
  /-- The names of the type parameters of the method. -/
  methodParams : List String

namespace TypeSig

mutual

/-- The full name of a type. -/
def name (context : NameContext) : TypeSig → String
  | .primitive p => p.fullName
  | .named token => context.typeName token
  | .generic token args =>
    context.typeName token ++ "[" ++ String.intercalate "," (names context args) ++ "]"
  | .vector element => element.name context ++ "[]"
  | .array element rank =>
    element.name context ++ "[" ++ String.ofList (List.replicate (rank - 1) ',') ++ "]"
  | .pointer target => target.name context ++ "*"
  | .byRef target => target.name context ++ "&"
  | .typeParam index => context.typeParams.getD index ("!" ++ index.repr)
  | .methodParam index => context.methodParams.getD index ("!!" ++ index.repr)
  | .functionPointer => "System.IntPtr"

/-- The full names of types. -/
def names (context : NameContext) : List TypeSig → List String
  | [] => []
  | t :: rest => t.name context :: names context rest

end

end TypeSig

/-- The signature with the names of its types. -/
def MethodSig.named (sig : MethodSig) (context : NameContext) : Assembly.Signature :=
  ⟨sig.hasThis, sig.genericCount, sig.returnType.name context,
    TypeSig.names context sig.params⟩

-- ============================================================= reading

namespace Signature

/-- How deep types may stand in types. -/
def depthLimit : Nat := 64

/-- Stops because types stand too deep. -/
def tooDeep : Reader TypeSig := Reader.damaged (.signatureTooDeep depthLimit)

/-- The code that may stand before a parameter. -/
def sentinel : Nat := 0x41

/-- Reads a parameter, past the code that may stand before it. -/
def readParam (type : Reader TypeSig) : Reader TypeSig := do
  if (← Reader.peek) = sentinel then let _ ← Reader.byte
  type

/-- Reads the signature of a method whose types are read by `type`. -/
def readMethodWith (type : Reader TypeSig) : Reader MethodSig := do
  let convention ← Reader.byte
  let genericCount ← if convention.testBit 4 then Reader.compressed else pure 0
  let paramCount ← Reader.compressed
  let returnType ← type
  let params ← Reader.times paramCount (readParam type)
  return ⟨convention.testBit 5, convention.testBit 6, genericCount, returnType, params⟩

/-- Reads numbers after their count. -/
def readNumbers : Reader (List Nat) := do
  Reader.times (← Reader.compressed) Reader.compressed

/-- Reads a type whose parts are read by `inner`, and a function pointer's
signature by `deeper`. -/
def readTypeWith (inner deeper : Reader TypeSig) : Reader TypeSig := do
  let code ← Reader.byte
  match Primitive.ofCode? code with
  | some p => return .primitive p
  | none =>
    match code with
    | 0x0f => return .pointer (← inner)
    | 0x10 => return .byRef (← inner)
    | 0x11 | 0x12 => return .named (← Reader.compressedToken)
    | 0x13 => return .typeParam (← Reader.compressed)
    | 0x14 =>
      let element ← inner
      let rank ← Reader.compressed
      let _ ← readNumbers
      let _ ← readNumbers
      return .array element rank
    | 0x15 =>
      let _ ← Reader.byte
      let base ← Reader.compressedToken
      let count ← Reader.compressed
      let args ← Reader.times count inner
      return .generic base args
    | 0x1b =>
      let _ ← readMethodWith deeper
      return .functionPointer
    | 0x1d => return .vector (← inner)
    | 0x1e => return .methodParam (← Reader.compressed)
    | 0x1f | 0x20 =>
      let _ ← Reader.compressedToken
      inner
    | 0x45 => inner
    | _ => Reader.damaged (.elementType code)

/-- Reads a type with at most so many levels, its own included. -/
def readType : (levels : Nat) → Reader TypeSig
  | 0 => tooDeep
  | 1 => readTypeWith tooDeep tooDeep
  | levels + 2 => readTypeWith (readType (levels + 1)) (readType levels)

/-- The signature of a method at the front of bytes. -/
def ofBytes (data : List UInt8) : Except Error MethodSig :=
  (readMethodWith (readType depthLimit)).value data

end Signature

end ClrListing.Metadata
