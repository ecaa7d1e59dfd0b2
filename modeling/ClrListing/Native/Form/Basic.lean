/-
The forms of instructions: for each code its mnemonic, where its operands
are and what has to hold for it.

Operands are given by slots, whose names are those of the usual tables of
codes: a letter for the place and a letter for how wide the operand is.
The places are `e` for what the byte after the code names, a register or
a place in memory, `g` for the register that the same byte names, `i` for
an immediate and `z` for the register that the code names.
-/
import ClrListing.Native.Fetch

namespace ClrListing.Native

-- ================================================================== kinds

/-- How wide an operand is. -/
inductive Kind where
  /-- As wide as the registers of a bank. -/
  | only (bank : Bank)
  /-- A word, a double word or a quad word, as the mode says. -/
  | operand
  /-- A word or a double word, as the mode says. -/
  | small
  /-- A double word or a quad word, as the mode says. -/
  | wide
  /-- What is pushed and popped. -/
  | stack
  /-- What execution goes on at. -/
  | pointer
  /-- As wide as an address of the architecture. -/
  | native
  /-- As wide as an address of the mode. -/
  | address
  /-- A vector of the length that the mode says. -/
  | packed
  deriving DecidableEq, Repr, Inhabited

namespace Kind

abbrev byte : Kind := .only .byte
abbrev word : Kind := .only .word
abbrev double : Kind := .only .double
abbrev quad : Kind := .only .quad
abbrev segment : Kind := .only .segment
abbrev stacked : Kind := .only .stack
abbrev media : Kind := .only .media
abbrev vector : Kind := .only .vector
abbrev wideVector : Kind := .only .wideVector
abbrev mask : Kind := .only .mask

end Kind

/-- The bank of the registers of a kind. -/
def Kind.bank (m : Mode) : Kind → Bank
  | .only bank => bank
  | .operand => m.operand
  | .small => if m.isWord then .word else .double
  | .wide => if m.architecture.isLong && m.extension.isWide then .quad else .double
  | .stack =>
    if m.isWord then .word else m.native
  | .pointer => if m.architecture.isLong then .quad else m.operand
  | .native => m.native
  | .address => m.addressing
  | .packed => if m.vector.any Vector.isLong then .wideVector else .vector

/-- The size in memory of what a register of a bank holds. -/
def Bank.held : Bank → Size
  | .byte => .byte
  | .word | .segment => .word
  | .double => .double
  | .vector => .vector
  | .wideVector => .wideVector
  | .stack | .top => .ten
  | _ => .quad

-- ================================================================== slots

/-- Where an operand is. -/
inductive Slot where
  /-- In the register that the byte after the code names. -/
  | register (kind : Kind)
  /-- In the register or the place that the byte after the code names. -/
  | target (kind : Kind)
  /-- The same, and the size of a place is shown. -/
  | sized (kind : Kind)
  /-- In the place that the byte after the code names: an offset and a
  selector. -/
  | distant
  /-- In the register that the byte after the code names as its target. -/
  | direct (kind : Kind)
  /-- In a place whose index is a vector of a kind. -/
  | spread (kind : Kind)
  /-- In the register that the code names. -/
  | low (kind : Kind)
  /-- In a register. -/
  | given (bank : Bank) (number : Nat)
  /-- In the first register of a kind. -/
  | accumulator (kind : Kind)
  /-- In the register that the mode names. -/
  | second (kind : Kind)
  /-- In the register that a byte after the others names. -/
  | last (kind : Kind)
  /-- An immediate of at most four bytes, extended to a kind. -/
  | immediate (kind : Kind)
  /-- An immediate of one byte, extended to a kind. -/
  | short (kind : Kind)
  /-- An immediate of all bytes of a kind. -/
  | whole (kind : Kind)
  /-- A number. -/
  | constant (value : Nat)
  /-- Code at a distance of one byte, or of more. -/
  | near
  | far
  /-- Code at an address in another segment. -/
  | selected
  /-- A place at an address. -/
  | fixed
  /-- Where strings are read from and written to. -/
  | source
  | destination
  /-- A place in a table of bytes. -/
  | table
  deriving DecidableEq, Repr, Inhabited

namespace Slot

/-- The byte after the code names what the slot holds. -/
def isNamed : Slot → Bool
  | register _ | target _ | sized _ | distant | direct _ | spread _ => true
  | _ => false

/-- The mode names what the slot holds. -/
def isSecond : Slot → Bool
  | second _ => true
  | _ => false

/-- The byte after the code may name a place for the slot. -/
def isTarget : Slot → Bool
  | target _ | sized _ | distant => true
  | _ => false

abbrev eb : Slot := .target .byte
abbrev ew : Slot := .target .word
abbrev ed : Slot := .target .double
abbrev ev : Slot := .target .operand
abbrev ey : Slot := .target .wide
abbrev en : Slot := .target .native
abbrev gb : Slot := .register .byte
abbrev gw : Slot := .register .word
abbrev gd : Slot := .register .double
abbrev gv : Slot := .register .operand
abbrev gy : Slot := .register .wide
abbrev gn : Slot := .register .native
abbrev zb : Slot := .low .byte
abbrev zv : Slot := .low .operand
abbrev zs : Slot := .low .stack
abbrev ib : Slot := .immediate .byte
abbrev iw : Slot := .whole .word
abbrev iv : Slot := .immediate .operand

/-- Registers of several small numbers: of 64 bits, `p` and `q`, and of
128, `v` and `w`; the second letter of each pair may name a place. -/
abbrev p : Slot := .register .media
abbrev q : Slot := .target .media
abbrev v : Slot := .register .vector
abbrev w : Slot := .target .vector

/-- The same as vectors of the length that the mode says, and the vector
that the mode names. -/
abbrev vx : Slot := .register .packed
abbrev wx : Slot := .target .packed
abbrev hx : Slot := .second .packed
abbrev h : Slot := .second .vector

end Slot

-- ============================================================= conditions

/-- What has to hold for a form. -/
inductive Condition where
  /-- The byte before the code that is a part of it. -/
  | mark (mark : Mark)
  /-- No byte before the code repeats it. -/
  | unmarked
  /-- The operation that the byte after the code names. -/
  | digit (number : Nat)
  /-- The byte after the code names a place, or a register. -/
  | memory
  | direct
  /-- The byte after the code. -/
  | next (byte : Nat)
  /-- The architecture. -/
  | long
  | compact
  /-- The code names one of the first eight registers. -/
  | plain
  /-- The larger width of operands, or not. -/
  | wide
  | slim
  /-- How wide operands are. -/
  | operand (bank : Bank)
  /-- How wide addresses are. -/
  | address (bank : Bank)
  /-- The longer vectors, or not. -/
  | full
  | half
  deriving DecidableEq, Repr, Inhabited

namespace Condition

/-- The byte after the code matters. -/
def isNamed : Condition → Bool
  | digit _ | memory | direct | next _ => true
  | _ => false

/-- Whether a condition holds in a mode before the byte `after`. -/
def holds (m : Mode) (after : Option Nat) : Condition → Bool
  | .mark found => m.mark = found
  | .unmarked => m.mark = .none || m.mark = .narrow
  | .digit number => after.any fun b => b / 8 % 8 = number
  | .memory => after.any (· < 0xc0)
  | .direct => after.any (0xc0 ≤ ·)
  | .next byte => after = some byte
  | .long => m.architecture.isLong
  | .compact => !m.architecture.isLong
  | .plain => !m.extension.base
  | .wide => m.extension.isWide
  | .slim => !m.extension.isWide
  | .operand bank => m.operand = bank
  | .address bank => m.addressing = bank
  | .full => m.vector.any Vector.isLong
  | .half => !m.vector.any Vector.isLong

end Condition

-- ================================================================== notes

/-- What else is to be said of a form: mostly the words that the bytes
before the code add to it, in the order in which they are shown. -/
inductive Note where
  /-- Narrow operands are not seen in the operands. -/
  | narrowed
  /-- Narrow and wide operands are not seen in the operands. -/
  | scaled
  /-- Code is at an address of a word. -/
  | branching
  /-- The width of addresses is not seen in the operands. -/
  | addressed
  /-- The segment is not seen in the operands. -/
  | segmented
  /-- Memory is changed as a whole: it may be locked. -/
  | locks
  /-- The same, and a locked section may begin or end. -/
  | elides
  /-- The same, and memory is locked anyway. -/
  | exchanges
  /-- A locked section may end. -/
  | releases
  /-- The branch may be expected. -/
  | hinted
  /-- The branch may go anywhere. -/
  | untracked
  /-- The branch may keep bounds. -/
  | bounded
  /-- It may be repeated. -/
  | repeated
  /-- It may be repeated while a comparison says so. -/
  | compared
  /-- It is a return, which may have a word for repeating. -/
  | returning
  /-- The second operand is left out where it is the first. -/
  | shortened
  /-- No two registers of vectors may be the same. -/
  | distinct
  /-- Of a place only the address matters. -/
  | unread
  deriving DecidableEq, Repr, Inhabited

/-- The words of a note; `onMemory` says that the first operand is in
memory. -/
def Note.words (m : Mode) (onMemory : Bool) : Note → List String
  | .narrowed => if m.isWord then ["data16"] else []
  | .scaled =>
    if m.isWord then ["data16"] else if m.extension.isWide then ["data64"] else []
  | .branching => if m.isNarrow && !m.architecture.isLong then ["data16"] else []
  | .addressed =>
    if m.isNear then [if m.architecture.isLong then "addr32" else "addr16"] else []
  | .segmented => ((m.segmentFor .data).map Segment.name).toList
  | .locks => if m.isLocked then ["lock"] else []
  | .elides => if m.isLocked then elision ++ ["lock"] else []
  | .exchanges =>
    (if onMemory then elision else []) ++ if m.isLocked then ["lock"] else []
  | .releases => if onMemory && m.mark = .equal then ["xrelease"] else []
  | .hinted =>
    match m.segment with
    | some .code => ["hint-not-taken"]
    | some .data => ["hint-taken"]
    | _ => []
  | .untracked => if m.segment = some .data then ["notrack"] else []
  | .bounded => if m.mark = .different then ["bnd"] else []
  | .repeated => repetition "rep"
  | .compared => repetition "repe"
  | .returning => if m.mark = .equal then ["rep"] else []
  | .shortened | .distinct | .unread => []
where
  elision : List String :=
    match m.mark with
    | .different => ["xacquire"]
    | .equal => ["xrelease"]
    | _ => []
  repetition (whileEqual : String) : List String :=
    match m.mark with
    | .different => ["repne"]
    | .equal => [whileEqual]
    | _ => []

/-- A note that lets an instruction be locked. -/
def Note.isLock : Note → Bool
  | locks | elides | exchanges => true
  | _ => false

-- ================================================================== forms

/-- The mnemonic of a form. -/
inductive Name where
  | plain (name : String)
  /-- The last operand, a number, is a part of the mnemonic where it is one
  of these. -/
  | chosen (usual : String) (names : List (Nat × String))
  /-- The last operand, a number, is the mnemonic. -/
  | numbered (names : List (Nat × String))
  deriving DecidableEq, Repr, Inhabited

/-- A form of an instruction. The code has the bytes that lead to a table
before it. -/
structure Form where
  code : Nat
  name : Name
  slots : List Slot
  conditions : List Condition
  notes : List Note
  deriving DecidableEq, Repr, Inhabited

namespace Form

/-- A form without notes. -/
def of (code : Nat) (name : String) (slots : List Slot) (conditions : List Condition) : Form :=
  ⟨code, .plain name, slots, conditions, []⟩

/-- A form with notes. -/
def noted (notes : List Note) (f : Form) : Form := { f with notes := notes }

/-- A form for each of some mnemonics, chosen by an operation of the byte
after the code. -/
def byDigit (names : List String) (form : String → Form) : List Form :=
  names.mapIdx fun i name =>
    let f := form name
    { f with conditions := .digit i :: f.conditions }

/-- The byte after the code belongs to the form. -/
def isNamed (f : Form) : Bool :=
  f.slots.any Slot.isNamed || f.conditions.any Condition.isNamed

/-- Whether a form is that of a code in a mode before the byte `after`. -/
def fits (m : Mode) (code : Nat) (after : Option Nat) (f : Form) : Bool :=
  f.code = code && f.conditions.all (Condition.holds m after)

end Form

end ClrListing.Native
