/-
The methods of a compiled module: attributes, signature and name.

A method's attributes and the attributes of its implementation are each
one word in metadata. The low bits of both are a number, the access and
the kind of code; the other bits are flags, a set of named bits.
-/
import ClrListing.Metadata.Token
import ClrListing.Text.Search

namespace ClrListing.Metadata

/-- A type of flags, each the name of one bit. -/
class Flag (α : Type) where
  /-- The number of the flag's bit. -/
  position : α → Nat
  /-- Every flag, in ascending order of positions. -/
  all : List α

/-- A set of flags, as the word in which their bits are set. -/
structure FlagSet (α : Type) where
  bits : Nat
  deriving DecidableEq, Repr, Inhabited

namespace FlagSet

variable {α : Type} [Flag α]

/-- The set without flags. -/
def empty : FlagSet α := ⟨0⟩

/-- Whether the set holds a flag. -/
def has (s : FlagSet α) (f : α) : Bool := s.bits.testBit (Flag.position f)

/-- The set with one flag more. -/
def insert (s : FlagSet α) (f : α) : FlagSet α := ⟨s.bits ||| Nat.pow 2 (Flag.position f)⟩

/-- The set with the given flags more. -/
def insertAll (s : FlagSet α) (fs : List α) : FlagSet α := fs.foldl insert s

/-- The set of the given flags. -/
def ofList (fs : List α) : FlagSet α := empty.insertAll fs

/-- The flags that are set in a word; bits that name no flag are
dropped. -/
def ofWord (word : Nat) : FlagSet α :=
  ofList ((Flag.all : List α).filter fun f => word.testBit (Flag.position f))

/-- The flags of the set, in ascending order of positions. -/
def toList (s : FlagSet α) : List α := (Flag.all : List α).filter s.has

end FlagSet

end ClrListing.Metadata

namespace ClrListing.Assembly

open Metadata

-- ========================================================= attributes

/-- Who may call a method. -/
inductive Access where
  | compilerControlled | privateAccess | familyAndAssembly | assembly | family
  | familyOrAssembly | publicAccess
  /-- The one number that means nothing. -/
  | reserved
  deriving DecidableEq, Repr, Inhabited

namespace Access

/-- The number of an access. -/
def bits (a : Access) : Nat := a.ctorIdx

/-- The access in a word of method attributes. -/
def ofWord (word : Nat) : Access :=
  match word % 8 with
  | 0 => .compilerControlled
  | 1 => .privateAccess
  | 2 => .familyAndAssembly
  | 3 => .assembly
  | 4 => .family
  | 5 => .familyOrAssembly
  | 6 => .publicAccess
  | _ => .reserved

end Access

/-- A flag of a method. -/
inductive MethodFlag where
  | isStatic | isFinal | isVirtual | hideBySig | newSlot | strict | isAbstract | specialName
  | runtimeSpecialName | platformInvoke
  deriving DecidableEq, Repr, Inhabited

instance : Flag MethodFlag where
  position f := f.ctorIdx + 4
  all := [.isStatic, .isFinal, .isVirtual, .hideBySig, .newSlot, .strict, .isAbstract,
    .specialName, .runtimeSpecialName, .platformInvoke]

/-- The kind of code that implements a method. -/
inductive CodeKind where
  | intermediate | native | optimizedIntermediate | runtime
  deriving DecidableEq, Repr, Inhabited

namespace CodeKind

/-- The number of a kind of code. -/
def bits (k : CodeKind) : Nat := k.ctorIdx

/-- The kind of code in a word of implementation attributes. -/
def ofWord (word : Nat) : CodeKind :=
  match word % 4 with
  | 0 => .intermediate
  | 1 => .native
  | 2 => .optimizedIntermediate
  | _ => .runtime

end CodeKind

/-- A flag of a method's implementation. -/
inductive ImplFlag where
  | noInlining | forwardRef | synchronized | noOptimization | preserveSig | aggressiveInlining
  | aggressiveOptimization | internalCall
  deriving DecidableEq, Repr, Inhabited

instance : Flag ImplFlag where
  position
    | .noInlining => 3
    | .forwardRef => 4
    | .synchronized => 5
    | .noOptimization => 6
    | .preserveSig => 7
    | .aggressiveInlining => 8
    | .aggressiveOptimization => 9
    | .internalCall => 12
  all := [.noInlining, .forwardRef, .synchronized, .noOptimization, .preserveSig,
    .aggressiveInlining, .aggressiveOptimization, .internalCall]

-- ========================================================= signatures

/-- What a method takes and gives, with full type names. -/
structure Signature where
  /-- Whether it is called on an instance. -/
  hasThis : Bool
  /-- How many type parameters of its own it has. -/
  genericCount : Nat
  returnType : String
  params : List String
  deriving DecidableEq, Repr, Inhabited

/-- The signature of a method that takes and gives nothing. -/
def Signature.nothing (hasThis : Bool) : Signature := ⟨hasThis, 0, "System.Void", []⟩

-- ============================================================ methods

/-- A method of a compiled module. -/
structure MethodDef where
  token : Token
  /-- The name, after the interface and a dot if the method implements
  one explicitly. -/
  name : String
  access : Access
  flags : FlagSet MethodFlag
  codeKind : CodeKind
  implFlags : FlagSet ImplFlag
  /-- Where the body is, zero if there is none. -/
  bodyAddress : Nat
  signature : Signature
  /-- The names of its own type parameters. -/
  genericParams : List String
  /-- Whether the compiler made it up. -/
  isGenerated : Bool
  declaringType : Token
  deriving DecidableEq, Repr, Inhabited

namespace MethodDef

/-- A public method that is not in a module yet; it is static unless it
is called on an instance. -/
def ofSignature (name : String) (signature : Signature) : MethodDef where
  token := .null
  name := name
  access := .publicAccess
  flags := .ofList (if signature.hasThis then [.hideBySig] else [.hideBySig, .isStatic])
  codeKind := .intermediate
  implFlags := .empty
  bodyAddress := 0
  signature := signature
  genericParams := []
  isGenerated := false
  declaringType := .null

/-- Whether it is called without an instance. -/
def isStatic (m : MethodDef) : Bool := m.flags.has .isStatic

/-- Whether it is left to derived types. -/
def isAbstract (m : MethodDef) : Bool := m.flags.has .isAbstract

/-- Whether it has type parameters of its own. -/
def isOpen (m : MethodDef) : Bool := m.signature.genericCount > 0

/-- Whether it is a constructor of instances or of the type. -/
def isConstructor (m : MethodDef) : Bool :=
  m.flags.has .runtimeSpecialName && (m.name = ".ctor" || m.name = ".cctor")

/-- The name without the interface before it. A name that starts with a
dot has no interface before it. -/
def plainName (name : String) : String :=
  match name.toList with
  | '.' :: _ => name
  | chars => ((Text.afterLast '.' chars).map String.ofList).getD name

/-- The name that methods are grouped under: without an interface, with
the number of type parameters. -/
def canonicalName (m : MethodDef) : String :=
  Text.arityName (plainName m.name) m.signature.genericCount

/-- Return type, name, type parameters and parameter types. -/
def display (m : MethodDef) : String :=
  m.signature.returnType ++ " " ++ m.name
    ++ (if m.genericParams.isEmpty then ""
        else "[" ++ String.intercalate "," m.genericParams ++ "]")
    ++ "(" ++ String.intercalate ", " m.signature.params ++ ")"

end MethodDef

end ClrListing.Assembly
