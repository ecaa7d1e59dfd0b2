/-
Native code as a list of instructions with the names of the methods that
they refer to.

Decoding goes over the code once to find the instructions and the methods
they refer to, each looked up one time, and then writes the text of each
instruction with what was found.
-/
import ClrListing.Error
import ClrListing.Native.Encoding

namespace ClrListing.Native

-- ========================================================= instructions

/-- An instruction of a listing. -/
structure Decoded where
  address : UInt64
  bytes : List UInt8
  text : String
  /-- The signature of the method that it refers to, if it refers to
  one. -/
  annotation : Option String
  deriving DecidableEq, Repr, Inhabited

/-- Gives the signature of the method at an address, if there is one. -/
abbrev SymbolLookup := UInt64 → Option String

/-- A way to decode code that starts at an address. -/
abbrev Decoder :=
  (code : List UInt8) → (base : UInt64) → Architecture → SymbolLookup →
    Except Error (List Decoded)

-- ================================================================ sweep

/-- An instruction at its place in code. -/
structure Placed where
  instruction : Instruction
  address : UInt64
  bytes : List UInt8
  deriving DecidableEq, Repr, Inhabited

namespace Placed

/-- The address of the next instruction. -/
def next (p : Placed) : UInt64 := p.address + UInt64.ofNat p.bytes.length

/-- The address of a place at a distance from the next instruction. -/
def addressAt (p : Placed) (reach : Reach) : UInt64 :=
  let far := p.next + UInt64.ofInt reach.distance
  if reach.bits = 64 then far else far % UInt64.ofNat (Nat.pow 2 reach.bits)

/-- The address that an instruction refers to, if it refers to one. -/
def target? (p : Placed) : Option UInt64 := p.instruction.reach?.map p.addressAt

/-- The address that an instruction refers to, unless that is the next
instruction. -/
def farTarget? (p : Placed) : Option UInt64 := p.target?.filter fun target => target ≠ p.next

end Placed

/-- The instructions of code, `skip` bytes of which belong to the
instruction before; fails with the offset of the first invalid one. -/
def sweepAfter (architecture : Architecture) (base : UInt64) :
    (offset skip : Nat) → List UInt8 → Except Nat (List Placed)
  | _, _, [] => .ok []
  | offset, skip + 1, _ :: rest => sweepAfter architecture base (offset + 1) skip rest
  | offset, 0, b :: rest =>
    match Instruction.ofCode? architecture (b :: rest) with
    | none => .error offset
    | some (instruction, size) => do
      let later ← sweepAfter architecture base (offset + 1) (size - 1) rest
      return ⟨instruction, base + UInt64.ofNat offset, (b :: rest).take size⟩ :: later

/-- The instructions of code. -/
def sweep (architecture : Architecture) (base : UInt64) (code : List UInt8) :
    Except Nat (List Placed) :=
  sweepAfter architecture base 0 0 code

-- ============================================================== symbols

/-- The signatures of the methods that instructions refer to. -/
abbrev Symbols := List (UInt64 × String)

/-- The symbols with those of one instruction more; an address is looked
up unless it is known. -/
def Symbols.add (lookup : SymbolLookup) (known : Symbols) (p : Placed) : Symbols :=
  match p.farTarget? with
  | none => known
  | some target =>
    if (known.lookup target).isSome then known
    else match lookup target with
      | some signature => known ++ [(target, signature)]
      | none => known

/-- The symbols of instructions. -/
def symbolsOf (lookup : SymbolLookup) (ps : List Placed) : Symbols :=
  ps.foldl (Symbols.add lookup) []

/-- The text of an address that an instruction refers to, with the
signature of the method there. -/
def targetText (architecture : Architecture) (symbols : Symbols) (p : Placed)
    (reach : Reach) : String :=
  let target := p.addressAt reach
  let address := architecture.format target
  match symbols.lookup target with
  | some signature =>
    if target = p.next then address else address ++ " (" ++ signature ++ ")"
  | none => address

/-- An instruction with what is known of it. -/
def Placed.decoded (architecture : Architecture) (symbols : Symbols) (p : Placed) : Decoded :=
  ⟨p.address, p.bytes, p.instruction.text (targetText architecture symbols p),
    p.farTarget?.bind fun target => symbols.lookup target⟩

/-- Decodes code. -/
def decode : Decoder := fun code base architecture lookup =>
  match sweep architecture base code with
  | .error offset => .error (.decoding (.invalidInstruction offset))
  | .ok ps => .ok (ps.map (Placed.decoded architecture (symbolsOf lookup ps)))

end ClrListing.Native
