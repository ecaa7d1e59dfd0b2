/-
Instructions from their bytes.

Bytes before the code set the mode. The code, with the byte after it where
that names operands, chooses a form, and the slots of the form give the
operands one after another. Bytes without a form, and an instruction whose
bytes end early or are more than fifteen, are invalid.
-/
import ClrListing.Native.Form.System
import ClrListing.Native.Form.Vector
import ClrListing.Native.Form.Whole

namespace ClrListing.Native

-- ================================================================== forms

/-- The forms of instructions that are not on vectors of a chosen length. -/
def plainCodes : List Form := wholeForms ++ systemForms ++ realForms ++ mediaForms

/-- The forms of instructions on vectors of a chosen length. -/
def vectorCodes : List Form := vectorForms

/-- The form of a code before the byte `after`. -/
def formOf? (m : Mode) (code : Nat) (after : Option Nat) : Option Form :=
  (if m.vector.isSome then vectorCodes else plainCodes).find? (Form.fits m code after)

-- ================================================================== named

/-- What the byte after a code names: an operation or a register by
`digit`, and a register or a place. -/
structure Named where
  digit : Nat
  low : Nat
  place : Option Place
  deriving DecidableEq, Repr, Inhabited

/-- Nothing is named. -/
def Named.none : Named := ⟨0, 0, .none⟩

/-- The bank of the indices in a place for slots. -/
def indexBank (m : Mode) (slots : List Slot) : Bank :=
  (slots.findSome? fun slot =>
    match slot with
    | .spread kind => some (kind.bank m)
    | _ => Option.none).getD m.addressing

/-- Fetches the byte after a code and the place that it names, if the slots
ask for a place. An index of a bank of vectors has to be there. -/
def fetchNamed (m : Mode) (slots : List Slot) : Fetch Named := do
  let byte ← Fetch.unsigned 1
  let low := byte % 8
  let bank := indexBank m slots
  Fetch.require (bank = m.addressing || low = 4 && byte < 0xc0)
  if byte < 0xc0 && (slots.any Slot.isTarget || bank ≠ m.addressing) then
    return ⟨byte / 8 % 8, low, some (← fetchPlace m bank (byte / 64) low)⟩
  else return ⟨byte / 8 % 8, low, .none⟩

-- ================================================================== slots

/-- A place as an operand. -/
def placed (m : Mode) (place : Place) (shown : Option Size) : Operand :=
  .memory (m.segmentFor place.segment) place shown

/-- The register or the place that is named. -/
def targetOperand (m : Mode) (named : Named) (kind : Kind) (shown : Option Size) :
    Fetch Operand :=
  match named.place with
  | some place => return placed m place shown
  | none => m.register (kind.bank m) (numbered m.extension.base named.low)

/-- The size of an offset and a selector. -/
def distantSize (m : Mode) : Size :=
  match m.operand with
  | .word => .double
  | .quad => .ten
  | _ => .far

/-- The place that a register of addresses points to. -/
def pointed (m : Mode) (number : Nat) : Place := .based (some ⟨m.addressing, number⟩) none 0

/-- Fetches the operand of a slot for a code. -/
def fetchSlot (m : Mode) (code : Nat) (named : Named) : Slot → Fetch Operand
  | .register kind => m.register (kind.bank m) (numbered m.extension.register named.digit)
  | .target kind => targetOperand m named kind none
  | .sized kind => targetOperand m named kind (some (kind.bank m).held)
  | .distant => targetOperand m named .operand (some (distantSize m))
  | .direct kind => m.register (kind.bank m) (numbered m.extension.base named.low)
  | .spread kind => targetOperand m named kind none
  | .low kind => m.register (kind.bank m) (numbered m.extension.base (code % 8))
  | .given bank number => return .register ⟨bank, number⟩
  | .accumulator kind => return .register ⟨kind.bank m, 0⟩
  | .second kind =>
    match m.vector with
    | some v => m.register (kind.bank m) (m.known v.second)
    | none => Fetch.invalid
  | .last kind => do m.register (kind.bank m) (m.known ((← Fetch.unsigned 1) / 16))
  | .immediate kind => fetchImmediate (kind.bank m)
  | .short kind => fetchSmall (kind.bank m)
  | .whole kind => do return .immediate (← Fetch.unsigned (kind.bank m).size)
  | .constant value => return .immediate value
  | .near => do return .branch ⟨← Fetch.signed 1, m.reach⟩
  | .far => do
    return .branch ⟨← Fetch.signed (if m.reach = 16 then 2 else 4), m.reach⟩
  | .selected => do
    let size := if m.isNarrow then 2 else 4
    let offset ← Fetch.unsigned size
    return .far (← Fetch.unsigned 2) offset size
  | .fixed => do
    return placed m (.absolute (← Fetch.unsigned m.addressing.size)) none
  | .source => return placed m (pointed m 6) none
  | .destination =>
    let segment := (m.segmentFor .data).map fun _ => Segment.extra
    return .memory segment (pointed m 7) none
  | .table =>
    let place := .based (some ⟨m.addressing, 3⟩) (some ⟨⟨.byte, 0⟩, 1⟩) 0
    return placed m place none

/-- Fetches the operands of slots, one after another. -/
def fetchSlots (m : Mode) (code : Nat) (named : Named) : List Slot → Fetch (List Operand)
  | [] => return []
  | slot :: rest => do
    let operand ← fetchSlot m code named slot
    return operand :: (← fetchSlots m code named rest)

-- ================================================================== notes

/-- An operand without the segment of its place. -/
def Operand.unsegmented : Operand → Operand
  | .memory _ place shown => .memory none place shown
  | operand => operand

/-- The registers of vectors that operands name. -/
def vectorsOf (operands : List Operand) : List Nat :=
  operands.filterMap fun operand =>
    match operand with
    | .register r => some r.number
    | .memory _ (.based _ (some index) _) _ => some index.register.number
    | _ => none

/-- The operands as they are shown under a note; nothing if they may not be
these. -/
def Note.shown? (operands : List Operand) : Note → Option (List Operand)
  | .shortened =>
    match operands with
    | first :: second :: rest => some (if first = second then first :: rest else operands)
    | _ => some operands
  | .unread => some (operands.map Operand.unsegmented)
  | .distinct =>
    let numbers := vectorsOf operands
    if numbers.eraseDups.length = numbers.length then some operands else none
  | _ => some operands

/-- An instruction with the mnemonic of a form, which may ask for the last
operand. -/
def Name.instruction? (words : List String) (operands : List Operand) : Name → Option Instruction
  | .plain name => some ⟨words, name, operands⟩
  | .chosen usual names =>
    match (choice operands).bind fun value => names.lookup value with
    | some name => some ⟨words, name, operands.dropLast⟩
    | none => some ⟨words, usual, operands⟩
  | .numbered names =>
    ((choice operands).bind fun value => names.lookup value).map fun name =>
      ⟨words, name, operands.dropLast⟩
where
  choice (operands : List Operand) : Option Nat :=
    match operands.getLast? with
    | some (.immediate value) => some value
    | _ => none

/-- Whether an operand is in memory. -/
def Operand.isMemory : Operand → Bool
  | .memory .. => true
  | _ => false

/-- The instruction of a form with operands. What is locked has to be in
memory, and only some may be. A vector that the mode names has to be
used. -/
def Form.instruction? (f : Form) (m : Mode) (operands : List Operand) : Option Instruction := do
  let onMemory := operands.head?.any Operand.isMemory
  if m.isLocked && !(onMemory && f.notes.any Note.isLock) then none
  else if m.vector.any (fun v => v.second ≠ 0) && !f.slots.any Slot.isSecond then none
  else
    let shown ← f.notes.foldlM Note.shown? operands
    f.name.instruction? (f.notes.flatMap (Note.words m onMemory)) shown

-- ========================================================== instructions

/-- Fetches the rest of an instruction with a code. -/
def fetchCoded (m : Mode) (code : Nat) : Fetch Instruction := fun rest =>
  match formOf? m code (rest.head?.map UInt8.toNat) with
  | none => none
  | some f => fetching f rest
where
  fetching (f : Form) : Fetch Instruction := do
    let named ← if f.isNamed then fetchNamed m f.slots else pure .none
    let operands ← fetchSlots m code named f.slots
    match f.instruction? m operands with
    | some i => return i
    | none => Fetch.invalid

/-- Fetches the rest of a code of two or three bytes. -/
def fetchLonger (m : Mode) : Fetch Instruction := do
  let second ← Fetch.unsigned 1
  if second = 0x38 || second = 0x3a then
    fetchCoded m (0x0f0000 + 0x100 * second + (← Fetch.unsigned 1))
  else fetchCoded m (0x0f00 + second)

/-- The mark that two bits choose. -/
def Mark.ofBits (bits : Nat) : Mark :=
  match bits % 4 with
  | 0 => .none
  | 1 => .narrow
  | 2 => .equal
  | _ => .different

/-- The mode with a vector, whose second register, length and mark are in a
byte. In the short architecture no register has a high bit. -/
def Mode.withVector (m : Mode) (extension : Extension) (byte : Nat) : Mode :=
  let vector := ⟨15 - byte / 8 % 16, byte.testBit 2⟩
  let kept := if m.architecture.isLong then extension
    else { Extension.plain with isWide := extension.isWide }
  { m with extension := kept, mark := .ofBits byte, vector := some vector }

/-- Fetches an instruction on vectors. The bytes before the code are two,
or three that also name the table of the code; their high bits are
written as their opposites. -/
def fetchVector (m : Mode) (isShort : Bool) : Fetch Instruction := do
  Fetch.require (m.mark = .none && !m.isLocked && !m.extension.isPresent)
  let first ← Fetch.unsigned 1
  let register := !first.testBit 7
  if isShort then
    fetchCoded (m.withVector ⟨false, false, register, false, false⟩ first)
      (0x0f00 + (← Fetch.unsigned 1))
  else do
    let second ← Fetch.unsigned 1
    let extension : Extension :=
      ⟨false, second.testBit 7, register, !first.testBit 6, !first.testBit 5⟩
    let code ← Fetch.unsigned 1
    let m := m.withVector extension second
    match first % 32 with
    | 1 => fetchCoded m (0x0f00 + code)
    | 2 => fetchCoded m (0x0f3800 + code)
    | 3 => fetchCoded m (0x0f3a00 + code)
    | _ => Fetch.invalid

/-- Fetches the rest of an instruction whose code begins with a byte. In the
short architecture the bytes that announce a vector are codes of their own
where a place in memory follows. -/
def fetchOpened (m : Mode) (code : Nat) : Fetch Instruction := fun rest =>
  let isVector := (code = 0xc4 || code = 0xc5) &&
    (m.architecture.isLong || rest.head?.any fun b => 0xc0 ≤ b.toNat)
  if isVector then fetchVector m (code = 0xc5) rest
  else if code = 0x0f then fetchLonger m rest
  else fetchCoded m code rest

/-- Fetches an instruction past at most `bound` bytes before its code. -/
def fetchPrefixed : (bound : Nat) → Mode → Fetch Instruction
  | 0, _ => Fetch.invalid
  | bound + 1, m => do
    let code ← Fetch.unsigned 1
    match m.with? code with
    | some m => fetchPrefixed bound m
    | none => fetchOpened m code

/-- How many bytes an instruction may have. -/
def sizeLimit : Nat := 15

/-- The instruction at the front of code, and how many bytes it has. -/
def Instruction.ofCode? (architecture : Architecture) (code : List UInt8) :
    Option (Instruction × Nat) :=
  let window := code.take sizeLimit
  ((fetchPrefixed sizeLimit (.plain architecture)).run window).map fun r =>
    (r.1, window.length - r.2.length)

end ClrListing.Native
