/-
Architectures, the text of code addresses, and instructions and their
text.

Registers have names by the bank that they belong to and their number there.
Words that stand before a mnemonic change how the instruction is carried
out; after it come the operands with commas between them. Numbers up to
nine are decimal, others hexadecimal. What an instruction refers to by its
distance from the next instruction is shown as an address, in the form
that the caller gives it.
-/
import ClrListing.Text.Hex

namespace ClrListing.Native

open Text

-- ======================================================== architectures

/-- An architecture of native code. -/
inductive Architecture where
  | x86
  | x64
  deriving DecidableEq, Repr, Inhabited

namespace Architecture

/-- The name of an architecture. -/
def name : Architecture → String
  | x86 => "x86"
  | x64 => "x64"

/-- The architecture of a given name. -/
def ofName? (name : String) : Option Architecture := [x86, x64].find? fun a => a.name = name

/-- How many bits an address has. -/
def bits : Architecture → Nat
  | x86 => 32
  | x64 => 64

/-- Whether addresses have 64 bits. -/
def isLong (a : Architecture) : Bool := a = x64

end Architecture

-- ============================================================ addresses

/-- An address in eight digits, or more if it takes more. -/
def formatShort (address : UInt64) : String := String.ofList (Hex.padded 8 address.toNat)

/-- An address in two halves of eight digits. -/
def formatLong (address : UInt64) : String :=
  String.ofList (Hex.padded 8 (address.toNat / 0x100000000)) ++ "`"
    ++ String.ofList (Hex.padded 8 (address.toNat % 0x100000000))

/-- An address as code of an architecture is listed. -/
def Architecture.format (a : Architecture) (address : UInt64) : String :=
  if a.isLong then formatLong address else formatShort address

-- ================================================================ banks

/-- A bank of registers of one kind and width. -/
inductive Bank where
  | byte
  | word
  | double
  | quad
  | segment
  | control
  | debug
  /-- The stack of the arithmetic on real numbers by place, and its top. -/
  | stack
  | top
  /-- Registers of several small numbers: of 64, 128 and 256 bits. -/
  | media
  | vector
  | wideVector
  /-- Registers of one bit for each number of a vector. -/
  | mask
  deriving DecidableEq, Repr, Inhabited

/-- A register by its number in a bank. The bytes from 16 on are the second
bytes of the first four registers. -/
structure Register where
  bank : Bank
  number : Nat
  deriving DecidableEq, Repr, Inhabited

-- ================================================================ names

/-- The names of registers that are not told apart by their numbers. -/
def Bank.names : Bank → List String
  | .byte =>
    ["al", "cl", "dl", "bl", "spl", "bpl", "sil", "dil", "r8b", "r9b", "r10b", "r11b", "r12b",
      "r13b", "r14b", "r15b", "ah", "ch", "dh", "bh"]
  | .word =>
    ["ax", "cx", "dx", "bx", "sp", "bp", "si", "di", "r8w", "r9w", "r10w", "r11w", "r12w", "r13w",
      "r14w", "r15w"]
  | .double =>
    ["eax", "ecx", "edx", "ebx", "esp", "ebp", "esi", "edi", "r8d", "r9d", "r10d", "r11d", "r12d",
      "r13d", "r14d", "r15d"]
  | .quad =>
    ["rax", "rcx", "rdx", "rbx", "rsp", "rbp", "rsi", "rdi", "r8", "r9", "r10", "r11", "r12",
      "r13", "r14", "r15"]
  | .segment => ["es", "cs", "ss", "ds", "fs", "gs"]
  | .top => ["st"]
  | _ => []

/-- The name of a register. -/
def Register.name (r : Register) : String :=
  match r.bank.names[r.number]? with
  | some name => name
  | none =>
    let number := r.number.repr
    match r.bank with
    | .control => "cr" ++ number
    | .debug => "dr" ++ number
    | .stack => "st(" ++ number ++ ")"
    | .media => "mm" ++ number
    | .vector => "xmm" ++ number
    | .wideVector => "ymm" ++ number
    | .mask => "k" ++ number
    | _ => ""

-- =============================================================== operands

/-- The size of an operand in memory. -/
inductive Size where
  | byte
  | word
  | double
  | far
  | quad
  | ten
  | vector
  | wideVector
  deriving DecidableEq, Repr, Inhabited

/-- How the size of an operand in memory is shown. -/
def Size.keyword : Size → String
  | .byte => "byte ptr "
  | .word => "word ptr "
  | .double => "dword ptr "
  | .far => "fword ptr "
  | .quad => "qword ptr "
  | .ten => "tbyte ptr "
  | .vector => "xmmword ptr "
  | .wideVector => "ymmword ptr "

/-- A register that is counted in units of a scale. -/
structure Index where
  register : Register
  scale : Nat
  deriving DecidableEq, Repr, Inhabited

/-- A place at a distance from the next instruction; addresses have `bits`
bits and wrap. -/
structure Reach where
  distance : Int
  bits : Nat
  deriving DecidableEq, Repr, Inhabited

/-- A place in memory. -/
inductive Place where
  /-- At a distance from what a base points to, moved by an index. -/
  | based (base : Option Register) (index : Option Index) (distance : Int)
  /-- At an address. -/
  | absolute (address : Nat)
  /-- At a distance from the next instruction. -/
  | relative (reach : Reach)
  deriving DecidableEq, Repr, Inhabited

/-- A segment of memory. -/
inductive Segment where
  | extra
  | code
  | stack
  | data
  | first
  | second
  deriving DecidableEq, Repr, Inhabited

/-- The name of a segment. -/
def Segment.name : Segment → String
  | extra => "es"
  | code => "cs"
  | stack => "ss"
  | data => "ds"
  | first => "fs"
  | second => "gs"

/-- An operand. -/
inductive Operand where
  | register (r : Register)
  | immediate (value : Nat)
  /-- A place in memory, with the segment and the size if these are
  shown. -/
  | memory (segment : Option Segment) (place : Place) (shown : Option Size)
  /-- A place in code. -/
  | branch (reach : Reach)
  /-- A place in code in another segment, at an offset of `size` bytes. -/
  | far (selector offset size : Nat)
  deriving DecidableEq, Repr, Inhabited

/-- An instruction. -/
structure Instruction where
  /-- The words before the mnemonic. -/
  words : List String
  mnemonic : String
  operands : List Operand
  deriving DecidableEq, Repr, Inhabited

namespace Instruction

/-- The place that an operand gives by its distance from the next
instruction. -/
def reachOf? : Operand → Option Reach
  | .branch reach => some reach
  | .memory _ (.relative reach) _ => some reach
  | _ => none

/-- The place that an instruction gives by its distance from the next
instruction, if it refers to one. -/
def reach? (i : Instruction) : Option Reach := i.operands.findSome? reachOf?

end Instruction

-- =================================================================== text

/-- The text of a number. -/
def numberText (n : Nat) : String := if n < 10 then n.repr else Hex.number n

/-- The text of a number of `size` bytes, with its leading zeros unless it
is decimal. -/
def wholeText (size n : Nat) : String :=
  if n < 10 then n.repr else "0x" ++ String.ofList (Hex.padded (2 * size) n)

/-- The text of a distance that follows a register; none for zero. -/
def distanceText (d : Int) : String :=
  if d = 0 then ""
  else if d < 0 then "-" ++ numberText d.natAbs
  else "+" ++ numberText d.natAbs

/-- The text of an index; a scale of one is shown only where there is no
base. -/
def Index.text (hasBase : Bool) (i : Index) : String :=
  if i.scale = 1 && hasBase then i.register.name else i.register.name ++ "*" ++ i.scale.repr

/-- The text of a place; `target` is what is shown for a place that is
given by its distance from the next instruction. -/
def Place.text (target : Reach → String) : Place → String
  | .based base index distance =>
    let registers :=
      (base.map Register.name).toList ++ (index.map (Index.text base.isSome)).toList
    "[" ++ String.intercalate "+" registers ++ distanceText distance ++ "]"
  | .absolute address => "[" ++ numberText address ++ "]"
  | .relative reach => "[" ++ target reach ++ "]"

/-- The text of an operand. -/
def Operand.text (target : Reach → String) : Operand → String
  | .register r => r.name
  | .immediate value => numberText value
  | .memory segment place shown =>
    let size := (shown.map Size.keyword).getD ""
    let start := (segment.map fun s => s.name ++ ":").getD ""
    size ++ start ++ place.text target
  | .branch reach => target reach
  | .far selector offset size => wholeText 2 selector ++ ":" ++ wholeText size offset

/-- The text of an instruction. -/
def Instruction.text (target : Reach → String) (i : Instruction) : String :=
  let start := String.intercalate " " (i.words ++ [i.mnemonic])
  if i.operands.isEmpty then start
  else start ++ " " ++ String.intercalate "," (i.operands.map (Operand.text target))

end ClrListing.Native
