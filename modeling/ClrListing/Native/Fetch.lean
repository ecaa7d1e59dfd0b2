/-
Fetching the parts of an instruction: the bytes before its code, its
registers and places in memory, and its immediates.

An instruction is fetched in a mode: what the bytes before its code say of
it. The bytes are taken from the front of code, of which nothing is read
beyond the longest instruction.
-/
import ClrListing.Metadata.Bytes
import ClrListing.Native.Instruction

namespace ClrListing.Native

-- =============================================================== fetching

/-- A step that fetches from the front of code; it gives nothing if the
bytes are no instruction. -/
abbrev Fetch := StateT (List UInt8) Option

namespace Fetch

/-- The next number of `size` bytes. -/
def unsigned (size : Nat) : Fetch Nat := fun code =>
  (Metadata.splitBytes size code).map fun r => (Metadata.littleEndian r.1, r.2)

/-- The next number of `size` bytes in two's complement. -/
def signed (size : Nat) : Fetch Int := do
  return Int.bmod (← unsigned size) (Nat.pow 256 size)

/-- The next byte, which is left where it is. -/
def ahead : Fetch Nat := fun code => code.head?.map fun b => (b.toNat, code)

/-- The bytes are no instruction. -/
def invalid {α : Type} : Fetch α := fun _ => none

/-- The bytes are an instruction only if a condition holds. -/
def require (condition : Bool) : Fetch Unit := if condition then pure () else invalid

end Fetch

-- =================================================================== modes

/-- What an extension byte adds to an instruction of the long
architecture. -/
structure Extension where
  /-- There is such a byte. -/
  isPresent : Bool
  /-- Operands have the larger width. -/
  isWide : Bool
  /-- The high bit of the register operand. -/
  register : Bool
  /-- The high bit of the index register. -/
  index : Bool
  /-- The high bit of the base register or the other operand. -/
  base : Bool
  deriving DecidableEq, Repr, Inhabited

namespace Extension

/-- Without an extension byte. -/
def plain : Extension := ⟨false, false, false, false, false⟩

/-- The extension of a byte. -/
def ofByte (b : Nat) : Extension :=
  ⟨true, b.testBit 3, b.testBit 2, b.testBit 1, b.testBit 0⟩

end Extension

/-- The byte before a code that is a part of the code where the code asks
for one. -/
inductive Mark where
  | none
  /-- 66, which makes operands narrow. -/
  | narrow
  /-- F2, which repeats while different. -/
  | different
  /-- F3, which repeats while equal. -/
  | equal
  deriving DecidableEq, Repr, Inhabited

/-- What the bytes before an instruction on vectors say of it. -/
structure Vector where
  /-- The second register. -/
  second : Nat
  /-- Vectors have 256 bits. -/
  isLong : Bool
  deriving DecidableEq, Repr, Inhabited

/-- What the bytes before the code of an instruction say of it. -/
structure Mode where
  architecture : Architecture
  extension : Extension
  /-- Operands have the smaller width. -/
  isNarrow : Bool
  /-- Addresses have the smaller width. -/
  isNear : Bool
  isLocked : Bool
  segment : Option Segment
  mark : Mark
  vector : Option Vector
  deriving DecidableEq, Repr, Inhabited

namespace Mode

/-- The mode of an instruction without bytes before its code. -/
def plain (architecture : Architecture) : Mode :=
  ⟨architecture, .plain, false, false, false, none, .none, none⟩

/-- The mode with a segment. In the long architecture the first four do not
take the place of the others. -/
def withSegment (m : Mode) (s : Segment) : Mode :=
  let isKept := m.architecture.isLong && (m.segment = some .first || m.segment = some .second)
    && s ≠ .first && s ≠ .second
  if isKept then m else { m with segment := some s }

/-- The mode with a byte more before the code, if the byte stands there. An
extension counts only where it is the last. -/
def with? (m : Mode) (byte : Nat) : Option Mode :=
  let bare := { m with extension := .plain }
  match byte with
  | 0x26 => some (bare.withSegment .extra)
  | 0x2e => some (bare.withSegment .code)
  | 0x36 => some (bare.withSegment .stack)
  | 0x3e => some (bare.withSegment .data)
  | 0x64 => some (bare.withSegment .first)
  | 0x65 => some (bare.withSegment .second)
  | 0x66 =>
    some { bare with isNarrow := true, mark := if m.mark = .none then .narrow else m.mark }
  | 0x67 => some { bare with isNear := true }
  | 0xf0 => some { bare with isLocked := true }
  | 0xf2 => some { bare with mark := .different }
  | 0xf3 => some { bare with mark := .equal }
  | _ =>
    if m.architecture.isLong && 0x40 ≤ byte && byte < 0x50 then
      some { m with extension := .ofByte byte }
    else none

-- ================================================================== widths

/-- Whether operands are words. -/
def isWord (m : Mode) : Bool := m.isNarrow && !m.extension.isWide

/-- The bank of operands. -/
def operand (m : Mode) : Bank :=
  if m.extension.isWide then .quad else if m.isNarrow then .word else .double

/-- The bank of addresses. -/
def addressing (m : Mode) : Bank :=
  match m.architecture.isLong, m.isNear with
  | true, false => .quad
  | false, true => .word
  | _, _ => .double

/-- The bank of what is as wide as an address of the architecture. -/
def native (m : Mode) : Bank := if m.architecture.isLong then .quad else .double

/-- How many bits the addresses of code have. -/
def reach (m : Mode) : Nat :=
  if m.architecture.isLong then 64 else if m.isNarrow then 16 else 32

end Mode

-- =============================================================== registers

/-- How many bytes a register has. -/
def Bank.size : Bank → Nat
  | .byte => 1
  | .word | .segment => 2
  | .double => 4
  | .vector => 16
  | .wideVector => 32
  | .stack | .top => 10
  | _ => 8

/-- A number with a high bit more. -/
def numbered (high : Bool) (low : Nat) : Nat := if high then low + 8 else low

/-- The number of a register that the architecture has; the short one has
eight of each bank. -/
def Mode.known (m : Mode) (number : Nat) : Nat :=
  if m.architecture.isLong then number else number % 8

/-- A register of a bank, if the bank has it. Without an extension the
bytes from four on are second bytes; some banks have eight registers,
whatever the high bit. -/
def Mode.register? (m : Mode) (bank : Bank) (number : Nat) : Option Register :=
  match bank with
  | .byte =>
    if !m.extension.isPresent && m.vector.isNone && 4 ≤ number then some ⟨.byte, number + 12⟩
    else some ⟨.byte, number⟩
  | .segment => if number % 8 < 6 then some ⟨.segment, number % 8⟩ else none
  | .control => if [0, 2, 3, 4, 8].contains number then some ⟨.control, number⟩ else none
  | .debug => if number < 8 then some ⟨.debug, number⟩ else none
  | .mask => if number < 8 then some ⟨.mask, number⟩ else none
  | .media | .stack => some ⟨bank, number % 8⟩
  | _ => some ⟨bank, number⟩

/-- A register of a bank, which has to have it. -/
def Mode.register (m : Mode) (bank : Bank) (number : Nat) : Fetch Operand :=
  match m.register? bank number with
  | some r => return .register r
  | none => Fetch.invalid

-- ================================================================== memory

/-- Fetches the distance that a mode of one or two bits asks for; the
longer has `size` bytes. -/
def fetchDistance (size : Nat) : (kind : Nat) → Fetch Int
  | 0 => return 0
  | 1 => Fetch.signed 1
  | _ => Fetch.signed size

/-- Fetches a place in memory that has an index of a bank. The number of the
stack pointer stands for no index. Without a distance the number of the
frame pointer stands for no base. -/
def fetchIndexed (m : Mode) (bank : Bank) (kind : Nat) : Fetch Place := do
  let scaled ← Fetch.unsigned 1
  let number := numbered m.extension.index (scaled / 8 % 8)
  let index : Option Index :=
    if number = 4 && bank = m.addressing then none
    else some ⟨⟨bank, number⟩, Nat.pow 2 (scaled / 64)⟩
  let base := numbered m.extension.base (scaled % 8)
  if kind = 0 && scaled % 8 = 5 then
    let distance ← Fetch.signed 4
    if index.isSome then return .based none index distance
    else return .absolute (distance % Nat.pow 256 m.addressing.size).toNat
  else return .based (some ⟨m.addressing, base⟩) index (← fetchDistance 4 kind)

/-- The base and the index of a place whose address is a word. -/
def wordPlace (low : Nat) : Register × Option Index :=
  let word (number : Nat) : Register := ⟨.word, number⟩
  match low with
  | 0 => (word 3, some ⟨word 6, 1⟩)
  | 1 => (word 3, some ⟨word 7, 1⟩)
  | 2 => (word 5, some ⟨word 6, 1⟩)
  | 3 => (word 5, some ⟨word 7, 1⟩)
  | 4 => (word 6, none)
  | 5 => (word 7, none)
  | 6 => (word 5, none)
  | _ => (word 3, none)

/-- Fetches a place in memory, whose index is of a bank. Without a distance,
what would be the frame pointer stands for a place without a base. -/
def fetchPlace (m : Mode) (bank : Bank) (kind low : Nat) : Fetch Place := do
  if m.addressing = .word then
    if kind = 0 && low = 6 then return .absolute (← Fetch.unsigned 2)
    else
      let (base, index) := wordPlace low
      return .based (some base) index (← fetchDistance 2 kind)
  else if low = 4 then fetchIndexed m bank kind
  else if kind = 0 && low = 5 then
    if m.architecture.isLong then
      return .relative ⟨← Fetch.signed 4, 8 * m.addressing.size⟩
    else return .absolute (← Fetch.unsigned 4)
  else
    let base := numbered m.extension.base low
    return .based (some ⟨m.addressing, base⟩) none (← fetchDistance 4 kind)

/-- The segment that a place is in unless another is named. -/
def Place.segment : Place → Segment
  | .based (some base) _ _ => if base.number = 4 || base.number = 5 then .stack else .data
  | _ => .data

/-- The segment that is shown for a place that is in `usual` unless another
is named. The long architecture has no other than the last two. -/
def Mode.segmentFor (m : Mode) (usual : Segment) : Option Segment :=
  m.segment.filter fun s =>
    if m.architecture.isLong then s = .first || s = .second else s ≠ usual

-- ============================================================== immediates

/-- A number, extended to a register of a bank. -/
def extended (bank : Bank) (value : Int) : Operand :=
  .immediate (value % Nat.pow 256 bank.size).toNat

/-- Fetches an immediate for a register of a bank; the largest has four
bytes less. -/
def fetchImmediate (bank : Bank) : Fetch Operand := do
  return extended bank (← Fetch.signed (min bank.size 4))

/-- Fetches an immediate of one byte for a register of a bank. -/
def fetchSmall (bank : Bank) : Fetch Operand := do
  return extended bank (← Fetch.signed 1)

end ClrListing.Native
