/-
What can be shown of a method, and the listing of a node.

Of a method that is its code, or why there is none to show. An instruction is
one line: the address, the bytes in a column of their own and the text. What
is wrong with one method is shown in its place and leaves a warning; it is
never an error.

A node is shown by the listings of the methods in it, in order and with an
empty line between two members of a type. Of a type or method with type
parameters one line is listed that says so.
-/
import ClrListing.Listing.Node
import ClrListing.Native.Decoder
import ClrListing.Native.Runtime

namespace ClrListing.Listing

open Metadata Native Text

-- ================================================================ lines

/-- A text with blanks after it up to a width. -/
def padTo (width : Nat) (s : List Char) : List Char :=
  s ++ List.replicate (width - s.length) ' '

/-- How wide the column of bytes is: two characters wider than the bytes
of the longest instruction. -/
def bytesWidth (instructions : List Decoded) : Nat :=
  2 * (instructions.map fun i => i.bytes.length).foldl max 0 + 2

/-- The line of an instruction in a listing with such a column. -/
def codeLine (architecture : Architecture) (width : Nat) (i : Decoded) : String :=
  architecture.format i.address ++ "  " ++ String.ofList (padTo width (Hex.bytes i.bytes))
    ++ i.text

/-- The lines of instructions. -/
def codeLines (architecture : Architecture) (instructions : List Decoded) : List String :=
  instructions.map (codeLine architecture (bytesWidth instructions))

/-- The text of lines, each of which ends with a line feed. -/
def textOf (lines : List String) : String := String.join (lines.map (· ++ "\n"))

-- =============================================================== source

/-- Where listings are taken from. -/
structure Source where
  assembly : Assembly
  /-- Where a method starts. -/
  entryOf? : Token → Option UInt64
  runtime : Runtime
  decoder : Decoder

namespace Source

/-- A module as a process with a runtime executes it. -/
def ofHost (host : Host σ) (s : σ) (assembly : Assembly) (runtime : Runtime)
    (decoder : Decoder) : Source :=
  ⟨assembly, host.entryOf? s assembly, runtime, decoder⟩

/-- The name of a method in messages. -/
def nameOf (s : Source) (token : Token) : String := s.assembly.displayName token

/-- The signature of the method at an address. -/
def signatureAt? (s : Source) : SymbolLookup :=
  fun address => (s.runtime.methodAt? address).map NativeMethod.signature

end Source

-- ============================================================== methods

/-- Why a method has no code to show. -/
inductive Obstacle where
  /-- The runtime does not know it. -/
  | unknown
  /-- It has no native code. -/
  | uncompiled (signature : String)
  /-- Its code cannot be read. -/
  | unreadable (signature : String) (error : Error)
  /-- Its code cannot be decoded. -/
  | undecodable (signature : String) (error : Error)

/-- The code of a method. -/
structure MethodCode where
  signature : String
  instructions : List Decoded

/-- The code of a method, or why there is none. -/
def Source.code (s : Source) (token : Token) : Except Obstacle MethodCode := do
  let some native := (s.entryOf? token).bind s.runtime.methodAt? | throw .unknown
  if !native.isCompiled then throw (.uncompiled native.signature)
  let bytes ← match s.runtime.read native.hotStart native.hotSize.toNat with
    | .ok bytes => pure bytes
    | .error e => throw (.unreadable native.signature e)
  match s.decoder bytes native.hotStart s.runtime.info.architecture s.signatureAt? with
  | .ok instructions => return ⟨native.signature, instructions⟩
  | .error e => throw (.undecodable native.signature e)

-- ============================================================= listings

/-- Lines, with the records that were left while they were made. -/
structure Block where
  lines : List String
  log : Log
  deriving DecidableEq, Repr, Inhabited

namespace Block

/-- No lines. -/
def empty : Block := ⟨[], []⟩

/-- One line. -/
def line (text : String) : Block := ⟨[text], []⟩

instance : Append Block := ⟨fun a b => ⟨a.lines ++ b.lines, a.log ++ b.log⟩⟩

end Block

/-- The line above the code of a method. -/
def signatureLine (signature : String) : String := "; " ++ signature

/-- Why code cannot be decoded, in words. -/
def decodeReason : Error → String
  | .decoding fault => fault.message
  | e => e.message

namespace Obstacle

/-- What is shown in place of code. -/
def lines (name : String) : Obstacle → List String
  | unknown => ["; Failed to load method '" ++ name ++ "'."]
  | uncompiled signature =>
    [signatureLine signature, "; Failed to JIT compile this method.",
      "; See the jitscope documentation on JIT preparation for more details."]
  | unreadable signature _ =>
    [signatureLine signature, "; Failed to read native code for this method."]
  | undecodable signature e =>
    [signatureLine signature, "; Failed to decode native code: " ++ decodeReason e]

/-- The warning. -/
def warning (name : String) : Obstacle → String
  | unknown => "No native method found for " ++ name
  | uncompiled _ => name ++ " was never JIT compiled"
  | unreadable _ e => "Failed to read code of " ++ name ++ ": " ++ e.message
  | undecodable _ e => "Failed to decode " ++ name ++ ": " ++ decodeReason e

end Obstacle

/-- The listing of a method. -/
def Source.methodBlock (s : Source) (token : Token) : Block :=
  let name := s.nameOf token
  match s.code token with
  | .ok code =>
    ⟨signatureLine code.signature
      :: codeLines s.runtime.info.architecture code.instructions, []⟩
  | .error obstacle => ⟨obstacle.lines name, [⟨.warn, obstacle.warning name⟩]⟩

end ClrListing.Listing

namespace ClrListing.Listing

open Metadata

namespace Source

/-- The line of a type with type parameters. -/
def openTypeLine (s : Source) (token : Token) : String :=
  "; Open generic type '" ++ s.assembly.fullName token ++ "' cannot be disassembled."

/-- The line of a method with type parameters. -/
def openMethodLine (s : Source) (token : Token) : String :=
  "; Open generic method '" ++ s.nameOf token ++ "' cannot be disassembled."

mutual

/-- The listing of a node. -/
def block (s : Source) : Node → Block
  | .type _ children => s.blocks children
  | .method token => s.methodBlock token
  | .openType token _ => .line (s.openTypeLine token)
  | .openMethod token => .line (s.openMethodLine token)

/-- The listing of the members of a type. -/
def blocks (s : Source) : List Node → Block
  | [] => .empty
  | [node] => s.block node
  | node :: rest => s.block node ++ .line "" ++ s.blocks rest

end

end Source

end ClrListing.Listing
