/-
Code decoded on a machine, by any engine for single instructions.

An engine looks at the code ahead and tells of the instruction in front: where
it is and how long, what its operands are, and to which address it refers.
It also writes an instruction down, and asks a resolver for the text of the
addresses in it. Nothing is said here of how it does that.

Code is gone over twice. The first pass takes one instruction after another
and looks up the address that each refers to, unless it is the next
instruction or known from an earlier one. The second cuts the bytes of each
instruction out of the code once more, by the address that the engine gave
it, and has the instruction written down with what is known by then.

How far the first pass comes is a relation of its own (`Reaches`). If the
engine reports where instructions are and how long (`Reports`), then the
first pass either reaches the end of the code or stops at an offset where
no instruction is (`loop_step`), the places where instructions were found
follow each other without a gap (`Reaches.flatten_cut`,
`Reaches.address_eq`), and the second pass finds their bytes there
(`decode_cases`).
-/
import ClrListing.Native.Decoder
import ClrListing.Proofs.Machine.Word
import ClrListing.Proofs.Run

namespace ClrListing.Machine

open Native Text

-- ============================================================ engines

/-- What an operand is, as far as it may refer to code. -/
inductive OperandKind where
  /-- Code at an address of so many bits. -/
  | branch16
  | branch32
  | branch64
  /-- A place in memory. -/
  | memory
  | other
  deriving DecidableEq, Repr

/-- Gives the text for an address that an instruction of an engine is written
with: `operand` counts what is written, `own` the operands of the
instruction. The answer repeats the address that its text is for. -/
abbrev Resolver (Instr : Type) :=
  Instr → (operand : Nat) → (own : Option Nat) → (address : UInt64) → (size : Nat) →
    Option (UInt64 × String)

/-- Decodes single instructions and writes them down. What it gives is an
instruction, or bytes that are none. -/
structure Engine (Instr : Type) where
  /-- What is in front of the code ahead, which begins at an address. -/
  decode : Architecture → (ahead : List UInt8) → (address : UInt64) → Instr
  isInvalid : Instr → Bool
  /-- How many bytes it has. -/
  size : Instr → Nat
  /-- Where it begins. -/
  address : Instr → UInt64
  /-- Where the next instruction begins. -/
  next : Instr → UInt64
  operandCount : Instr → Nat
  kind : Instr → Nat → OperandKind
  /-- The place in memory is given by its distance from the next
  instruction. -/
  isRelative : Instr → Bool
  /-- The address of that place. -/
  placeTarget : Instr → UInt64
  /-- The address of the code that is branched to. -/
  branchTarget : Instr → UInt64
  /-- The instruction as it is written. -/
  text : Resolver Instr → Instr → String

namespace Engine

variable {Instr : Type} (e : Engine Instr)

-- ========================================================= references

/-- Whether an operand refers to an address by its distance. -/
def isReference (i : Instr) (operand : Nat) : Bool :=
  match e.kind i operand with
  | .branch16 | .branch32 | .branch64 => true
  | .memory => e.isRelative i
  | .other => false

/-- The address that an operand refers to. -/
def targetOf (i : Instr) (operand : Nat) : UInt64 :=
  match e.kind i operand with
  | .memory => e.placeTarget i
  | _ => e.branchTarget i

/-- The address that an instruction refers to: that of the first operand that
refers to one. -/
def target? (i : Instr) : Option UInt64 :=
  (List.range (e.operandCount i)).findSome? fun operand =>
    if e.isReference i operand then some (e.targetOf i operand) else none

theorem exists_of_target?_eq_some {e : Engine Instr} {i : Instr} {target : UInt64}
    (h : e.target? i = some target) :
    ∃ o < e.operandCount i, e.isReference i o = true ∧ e.targetOf i o = target := by
  obtain ⟨o, ho, heq⟩ := List.exists_of_findSome?_eq_some h
  split at heq
  case isTrue href => exact ⟨o, List.mem_range.mp ho, href, Option.some.inj heq⟩
  case isFalse => cases heq

/-- Where all operands that refer to an address refer to the same, so does the
instruction. -/
theorem target?_eq_some {e : Engine Instr} {i : Instr} {o : Nat} {target : UInt64}
    (ho : o < e.operandCount i) (href : e.isReference i o = true)
    (hsingle : ∀ o' < e.operandCount i, e.isReference i o' = true → e.targetOf i o' = target) :
    e.target? i = some target := by
  cases hfirst : e.target? i with
  | none =>
    have hnone := List.findSome?_eq_none_iff.mp hfirst o (List.mem_range.mpr ho)
    rw [if_pos href] at hnone
    cases hnone
  | some first =>
    obtain ⟨o', ho', href', rfl⟩ := exists_of_target?_eq_some hfirst
    rw [hsingle o' ho' href']

/-- The address that an instruction refers to, unless that is the next
instruction. -/
def farTarget? (i : Instr) : Option UInt64 :=
  (e.target? i).filter fun target => target ≠ e.next i

-- ========================================================= first pass

/-- The symbols that are known after an instruction. -/
def note (lookup : SymbolLookup) (known : Symbols) (i : Instr) : Symbols :=
  match e.target? i with
  | none => known
  | some target =>
    if target ≠ e.next i ∧ (known.lookup target).isNone then
      match lookup target with
      | some signature => known ++ [(target, signature)]
      | none => known
    else known

/-- Where the first pass is: the code ahead and its address, the instructions
that were found, and what is known of the addresses that they refer to. -/
structure Pass (Instr : Type) where
  ahead : List UInt8
  address : UInt64
  found : List Instr
  known : Symbols

/-- Takes one instruction more. -/
def step (architecture : Architecture) (base : UInt64) (lookup : SymbolLookup) (p : Pass Instr) :
    Machine (Pass Instr ⊕ (List Instr × Symbols)) :=
  if p.ahead.isEmpty then pure (.inr (p.found, p.known))
  else do
    let i := e.decode architecture p.ahead p.address
    if e.isInvalid i then
      let offset ← sub (e.address i).toNat base.toNat
      fail (.decoding (.invalidInstruction offset))
    else
      return .inl ⟨p.ahead.drop (e.size i), p.address + UInt64.ofNat (e.size i), p.found ++ [i],
        e.note lookup p.known i⟩

-- ======================================================== second pass

/-- The text for the address of an operand that refers to it, with what is
known of the address unless that is the next instruction. -/
def symbol (architecture : Architecture) (known : Symbols) : Resolver Instr :=
  fun i _ own address _ =>
    match own with
    | none => none
    | some operand =>
      if e.isReference i operand then
        let formatted := architecture.format address
        match known.lookup address with
        | some signature =>
          -- what is next here may be known because another instruction refers to it
          if address ≠ e.next i then some (address, formatted ++ " (" ++ signature ++ ")")
          else some (address, formatted)
        | none => some (address, formatted)
      else none

/-- The bytes of an instruction, found by its address. -/
def bytesOf (code : List UInt8) (base : UInt64) (i : Instr) : Machine (List UInt8) := do
  let start ← sub (e.address i).toNat base.toNat
  if 2 ^ 64 ≤ start then fail (.decoding (.other "code offset out of range"))
  let stop ← add 64 start (e.size i)
  match part? code start stop with
  | some bytes => return bytes
  | none =>
    fail (.decoding (.other ("truncated instruction at offset " ++ Hex.number start)))

/-- An instruction with bytes and what is known of it. -/
def listing (architecture : Architecture) (known : Symbols) (bytes : List UInt8) (i : Instr) :
    Decoded :=
  ⟨e.address i, bytes, e.text (e.symbol architecture known) i,
    (e.farTarget? i).bind fun target => known.lookup target⟩

/-- Decodes code; the first pass takes less than `fuel` turns. -/
def decodeAll (fuel : Nat) (code : List UInt8) (base : UInt64) (architecture : Architecture)
    (lookup : SymbolLookup) : Machine (List Decoded) := do
  let (found, known) ← loop (e.step architecture base lookup) fuel ⟨code, base, [], []⟩
  found.mapM fun i => do return e.listing architecture known (← e.bytesOf code base i) i

-- ============================================================ reaching

/-- What the engine makes of the code from an offset on. -/
def front (architecture : Architecture) (base : UInt64) (code : List UInt8) (offset : Nat) :
    Instr :=
  e.decode architecture (code.drop offset) (base + UInt64.ofNat offset)

/-- Instructions, one after another from the start of code, reach up to an
offset. -/
inductive Reaches (architecture : Architecture) (base : UInt64) (code : List UInt8) :
    Nat → List Instr → Prop
  | start : Reaches architecture base code 0 []
  | next {offset : Nat} {found : List Instr} : Reaches architecture base code offset found →
    offset < code.length → e.isInvalid (e.front architecture base code offset) = false →
    Reaches architecture base code (offset + e.size (e.front architecture base code offset))
      (found ++ [e.front architecture base code offset])

/-- Instructions reach up to an offset where there is none. -/
def FirstInvalid (architecture : Architecture) (base : UInt64) (code : List UInt8)
    (offset : Nat) : Prop :=
  ∃ found, e.Reaches architecture base code offset found ∧ offset < code.length
    ∧ e.isInvalid (e.front architecture base code offset) = true

/-- The engine reports each instruction where it is, with one byte at least
and no more than are ahead. -/
structure Reports : Prop where
  address : ∀ architecture ahead address, ahead ≠ [] →
    e.address (e.decode architecture ahead address) = address
  size_pos : ∀ architecture ahead address, ahead ≠ [] →
    e.isInvalid (e.decode architecture ahead address) = false →
    0 < e.size (e.decode architecture ahead address)
  size_le : ∀ architecture ahead address, ahead ≠ [] →
    e.isInvalid (e.decode architecture ahead address) = false →
    e.size (e.decode architecture ahead address) ≤ ahead.length

variable {e} {architecture : Architecture} {base : UInt64} {code : List UInt8} {offset : Nat}
  {found : List Instr} {lookup : SymbolLookup}

theorem drop_ne_nil (h : offset < code.length) : code.drop offset ≠ [] := by
  rw [Ne, List.drop_eq_nil_iff]
  omega

/-- An instruction in code that fits below the end of memory is where it
was looked for. -/
theorem Reports.address_front (he : e.Reports) (hfits : base.toNat + code.length ≤ 2 ^ 64)
    (h : offset < code.length) :
    (e.address (e.front architecture base code offset)).toNat = base.toNat + offset := by
  unfold front
  rw [he.address _ _ _ (drop_ne_nil h), UInt64.toNat_add, UInt64.toNat_ofNat']
  omega

theorem Reports.size_front_pos (he : e.Reports) (h : offset < code.length)
    (hvalid : e.isInvalid (e.front architecture base code offset) = false) :
    0 < e.size (e.front architecture base code offset) :=
  he.size_pos _ _ _ (drop_ne_nil h) hvalid

theorem Reports.size_front_le (he : e.Reports) (h : offset < code.length)
    (hvalid : e.isInvalid (e.front architecture base code offset) = false) :
    offset + e.size (e.front architecture base code offset) ≤ code.length := by
  have hle := he.size_le _ _ _ (drop_ne_nil h) hvalid
  change e.size (e.front architecture base code offset) ≤ _ at hle
  rw [List.length_drop] at hle
  omega

-- ========================================================= the places

namespace Reaches

theorem le_length (he : e.Reports) (h : e.Reaches architecture base code offset found) :
    offset ≤ code.length := by
  cases h with
  | start => exact Nat.zero_le _
  | next _ hoffset hvalid => exact he.size_front_le hoffset hvalid

/-- Each instruction that was found is in front of the code from some offset
on. -/
theorem exists_front (h : e.Reaches architecture base code offset found) {i : Instr}
    (hi : i ∈ found) : ∃ place, place < code.length ∧ i = e.front architecture base code place
      ∧ e.isInvalid i = false := by
  induction h with
  | start => cases hi
  | @next place _ _ hplace hvalid ih =>
    rcases List.mem_append.mp hi with hi | hi
    · exact ih hi
    · rw [List.mem_singleton.mp hi]
      exact ⟨place, hplace, rfl, hvalid⟩

end Reaches

/-- The bytes from where an instruction is. -/
def cut (e : Engine Instr) (code : List UInt8) (base : UInt64) (i : Instr) : List UInt8 :=
  (code.drop ((e.address i).toNat - base.toNat)).take (e.size i)

theorem cut_front (he : e.Reports) (hfits : base.toNat + code.length ≤ 2 ^ 64)
    (h : offset < code.length) : e.cut code base (e.front architecture base code offset)
      = (code.drop offset).take (e.size (e.front architecture base code offset)) := by
  unfold cut
  rw [he.address_front hfits h, Nat.add_sub_cancel_left]

theorem length_cut (he : e.Reports) (hfits : base.toNat + code.length ≤ 2 ^ 64)
    (h : e.Reaches architecture base code offset found) {i : Instr} (hi : i ∈ found) :
    (e.cut code base i).length = e.size i ∧ 0 < e.size i := by
  obtain ⟨place, hplace, rfl, hvalid⟩ := h.exists_front hi
  have hle := he.size_front_le hplace hvalid
  rw [cut_front he hfits hplace, List.length_take, List.length_drop]
  exact ⟨by omega, he.size_front_pos hplace hvalid⟩

/-- The bytes of the instructions are the code as far as they reach. -/
theorem Reaches.flatten_cut (he : e.Reports) (hfits : base.toNat + code.length ≤ 2 ^ 64)
    (h : e.Reaches architecture base code offset found) :
    (found.map (e.cut code base)).flatten = code.take offset := by
  induction h with
  | start => rfl
  | next _ hplace _ ih =>
    rw [List.map_append, List.flatten_append, ih, List.map_singleton, List.flatten_singleton,
      cut_front he hfits hplace, List.take_add]

/-- They are as many as the instructions reach. -/
theorem Reaches.length_flatten_cut (he : e.Reports) (hfits : base.toNat + code.length ≤ 2 ^ 64)
    (h : e.Reaches architecture base code offset found) :
    (found.map (e.cut code base)).flatten.length = offset := by
  rw [h.flatten_cut he hfits, List.length_take_of_le (h.le_length he)]

/-- Each instruction begins behind the bytes of those before it. -/
theorem Reaches.address_eq (he : e.Reports) (hfits : base.toNat + code.length ≤ 2 ^ 64)
    (h : e.Reaches architecture base code offset found) {k : Nat} {i : Instr}
    (hi : found[k]? = some i) :
    (e.address i).toNat = base.toNat + ((found.take k).map (e.cut code base)).flatten.length := by
  induction h with
  | start => cases hi
  | @next place found hreach hplace _ ih =>
    by_cases hk : k < found.length
    · rw [List.getElem?_append_left hk] at hi
      rw [List.take_append_of_le_length (Nat.le_of_lt hk)]
      exact ih hi
    · rw [List.getElem?_append_right (Nat.le_of_not_lt hk), List.getElem?_singleton] at hi
      split at hi
      case isTrue hlast =>
        cases hi
        have hwhole : k = found.length := by omega
        rw [he.address_front hfits hplace, hwhole, List.take_left, hreach.length_flatten_cut he hfits]
      case isFalse => cases hi

-- ========================================================== the passes

/-- The symbols that are known after instructions. -/
def symbolsOf (e : Engine Instr) (lookup : SymbolLookup) (found : List Instr) : Symbols :=
  found.foldl (e.note lookup) []

/-- The first pass at an offset into code, with what it knows after the
instructions before. -/
def passAt (e : Engine Instr) (lookup : SymbolLookup) (base : UInt64) (code : List UInt8)
    (offset : Nat) (found : List Instr) : Pass Instr :=
  ⟨code.drop offset, base + UInt64.ofNat offset, found, e.symbolsOf lookup found⟩

theorem step_end (h : code.length ≤ offset) (found : List Instr) :
    e.step architecture base lookup (e.passAt lookup base code offset found)
      = pure (.inr (found, e.symbolsOf lookup found)) := by
  unfold step passAt
  rw [List.drop_eq_nil_of_le h]
  rfl

theorem step_front (h : offset < code.length) (found : List Instr) :
    e.step architecture base lookup (e.passAt lookup base code offset found)
      = if e.isInvalid (e.front architecture base code offset) then do
          let offset ← sub (e.address (e.front architecture base code offset)).toNat base.toNat
          fail (.decoding (.invalidInstruction offset))
        else pure (.inl (e.passAt lookup base code
          (offset + e.size (e.front architecture base code offset))
          (found ++ [e.front architecture base code offset]))) := by
  have hahead : ¬(code.drop offset).isEmpty = true := by
    rw [List.isEmpty_iff]
    exact drop_ne_nil h
  unfold step passAt symbolsOf
  dsimp only
  rw [if_neg hahead, List.foldl_append, UInt64.ofNat_add, ← UInt64.add_assoc, ← List.drop_drop]
  rfl

theorem step_invalid (he : e.Reports) (hfits : base.toNat + code.length ≤ 2 ^ 64)
    (h : offset < code.length)
    (hinvalid : e.isInvalid (e.front architecture base code offset) = true) (found : List Instr) :
    e.step architecture base lookup (e.passAt lookup base code offset found)
      = fail (.decoding (.invalidInstruction offset)) := by
  rw [step_front h, if_pos hinvalid, he.address_front hfits h, sub_eq (Nat.le_add_right _ _),
    Nat.add_sub_cancel_left, pure_bind]

theorem step_valid (h : offset < code.length)
    (hvalid : e.isInvalid (e.front architecture base code offset) = false) (found : List Instr) :
    e.step architecture base lookup (e.passAt lookup base code offset found)
      = pure (.inl (e.passAt lookup base code
          (offset + e.size (e.front architecture base code offset))
          (found ++ [e.front architecture base code offset]))) := by
  rw [step_front h, if_neg (Bool.not_eq_true _ ▸ hvalid)]

/-- The first pass reaches the end of the code, or an offset where there is
no instruction. The induction is on the turns that are left, of which each
instruction takes one, and it takes at least one byte. -/
theorem loop_step (lookup : SymbolLookup) (he : e.Reports)
    (hfits : base.toNat + code.length ≤ 2 ^ 64) {fuel : Nat}
    (hreach : e.Reaches architecture base code offset found)
    (hfuel : code.length - offset < fuel) :
    (∃ all, e.Reaches architecture base code code.length all
        ∧ loop (e.step architecture base lookup) fuel (e.passAt lookup base code offset found)
          = pure (all, e.symbolsOf lookup all))
      ∨ ∃ stop, e.FirstInvalid architecture base code stop
        ∧ loop (e.step architecture base lookup) fuel (e.passAt lookup base code offset found)
          = fail (.decoding (.invalidInstruction stop)) := by
  induction fuel generalizing offset found with
  | zero => omega
  | succ fuel ih =>
    by_cases hend : offset < code.length
    case neg =>
      have hwhole : offset = code.length :=
        Nat.le_antisymm (hreach.le_length he) (Nat.le_of_not_lt hend)
      refine .inl ⟨found, hwhole ▸ hreach, ?_⟩
      rw [loop_succ, step_end (Nat.le_of_not_lt hend), pure_bind]
    case pos =>
      by_cases hinvalid : e.isInvalid (e.front architecture base code offset) = true
      case pos =>
        refine .inr ⟨offset, ⟨found, hreach, hend, hinvalid⟩, ?_⟩
        rw [loop_succ, step_invalid he hfits hend hinvalid, fail_bind]
      case neg =>
        have hvalid := Bool.not_eq_true _ ▸ hinvalid
        have hpos := he.size_front_pos hend hvalid
        rcases ih (hreach.next hend hvalid) (by omega) with
          ⟨all, hall, hloop⟩ | ⟨stop, hstop, hloop⟩
        · refine .inl ⟨all, hall, ?_⟩
          rw [loop_succ, step_valid hend hvalid, pure_bind]
          exact hloop
        · refine .inr ⟨stop, hstop, ?_⟩
          rw [loop_succ, step_valid hend hvalid, pure_bind]
          exact hloop

/-- An instruction that was found has its bytes in the code. -/
theorem bytesOf_eq (he : e.Reports) (hfits : base.toNat + code.length ≤ 2 ^ 64)
    (hlength : code.length < 2 ^ 64) (h : e.Reaches architecture base code offset found)
    {i : Instr} (hi : i ∈ found) : e.bytesOf code base i = pure (e.cut code base i) := by
  obtain ⟨place, hplace, rfl, hvalid⟩ := h.exists_front hi
  have hle := he.size_front_le hplace hvalid
  have hpart : part? code place (place + e.size (e.front architecture base code place))
      = some (e.cut code base (e.front architecture base code place)) := by
    unfold part?
    rw [if_pos ⟨Nat.le_add_right _ _, hle⟩, Nat.add_sub_cancel_left, cut_front he hfits hplace]
  unfold bytesOf
  rw [he.address_front hfits hplace, sub_eq (Nat.le_add_right _ _), Nat.add_sub_cancel_left,
    pure_bind, if_neg (by omega), add_eq (by omega)]
  change (match part? code place (place + e.size (e.front architecture base code place)) with
    | some bytes => pure bytes
    | none => _) = _
  rw [hpart]

/-- The first pass as it begins. -/
theorem start_eq_passAt (e : Engine Instr) (lookup : SymbolLookup) (base : UInt64)
    (code : List UInt8) :
    (⟨code, base, [], []⟩ : Pass Instr) = e.passAt lookup base code 0 [] := by
  unfold passAt
  rw [List.drop_zero, show UInt64.ofNat 0 = 0 from rfl, UInt64.add_zero]
  rfl

/-- Decoding gives each instruction with its bytes and what is known after
all of them, or it fails where there is no instruction. It comes to no
fault. -/
theorem decode_cases (architecture : Architecture) (lookup : SymbolLookup) (he : e.Reports)
    (hfits : base.toNat + code.length ≤ 2 ^ 64) (hlength : code.length < 2 ^ 64) {fuel : Nat} (hfuel : code.length < fuel) :
    (∃ found, e.Reaches architecture base code code.length found
        ∧ e.decodeAll fuel code base architecture lookup = .ok (found.map fun i =>
            e.listing architecture (e.symbolsOf lookup found) (e.cut code base i) i))
      ∨ ∃ stop, e.FirstInvalid architecture base code stop
        ∧ e.decodeAll fuel code base architecture lookup
          = fail (.decoding (.invalidInstruction stop)) := by
  unfold decodeAll
  rw [start_eq_passAt]
  have hstart : e.Reaches architecture base code 0 [] := .start
  rcases loop_step lookup he hfits hstart (by omega : code.length - 0 < fuel) with
    ⟨found, hreach, hloop⟩ | ⟨stop, hstop, hloop⟩
  · refine .inl ⟨found, hreach, ?_⟩
    rw [hloop, pure_bind]
    refine mapM_eq_pure fun i hi => ?_
    rw [bytesOf_eq he hfits hlength hreach hi]
    rfl
  · refine .inr ⟨stop, hstop, ?_⟩
    rw [hloop, fail_bind]

-- ============================================================ success

/-- Where the first pass comes to its end, instructions reach there,
whatever the engine reports of them. -/
theorem reaches_of_loop_eq_ok {fuel : Nat} {all : List Instr} {known : Symbols}
    (hreach : e.Reaches architecture base code offset found)
    (h : loop (e.step architecture base lookup) fuel (e.passAt lookup base code offset found)
      = .ok (all, known)) :
    known = e.symbolsOf lookup all
      ∧ ∃ stop, code.length ≤ stop ∧ e.Reaches architecture base code stop all := by
  induction fuel generalizing offset found with
  | zero => cases h
  | succ fuel ih =>
    rw [loop_succ] at h
    by_cases hend : offset < code.length
    case neg =>
      rw [step_end (Nat.le_of_not_lt hend), pure_bind] at h
      cases h
      exact ⟨rfl, offset, Nat.le_of_not_lt hend, hreach⟩
    case pos =>
      by_cases hinvalid : e.isInvalid (e.front architecture base code offset) = true
      case pos =>
        obtain ⟨_, hstep, _⟩ := Fallible.exists_of_bind_eq_ok h
        rw [step_front hend, if_pos hinvalid] at hstep
        obtain ⟨_, _, hfail⟩ := Fallible.exists_of_bind_eq_ok hstep
        cases hfail
      case neg =>
        have hvalid := Bool.not_eq_true _ ▸ hinvalid
        rw [step_valid hend hvalid, pure_bind] at h
        exact ih (hreach.next hend hvalid) h

/-- Where decoding succeeds, it gives the instructions that reach the end of
the code, each with what is known after all of them. -/
theorem exists_of_decodeAll_eq_ok {fuel : Nat} {ds : List Decoded}
    (h : e.decodeAll fuel code base architecture lookup = .ok ds) :
    ∃ stop found, code.length ≤ stop ∧ e.Reaches architecture base code stop found
      ∧ List.Forall₂ (fun i d => ∃ bytes,
          d = e.listing architecture (e.symbolsOf lookup found) bytes i) found ds := by
  obtain ⟨⟨found, known⟩, hloop, hsecond⟩ := Fallible.exists_of_bind_eq_ok h
  rw [start_eq_passAt] at hloop
  obtain ⟨rfl, stop, hstop, hreach⟩ := reaches_of_loop_eq_ok .start hloop
  refine ⟨stop, found, hstop, hreach, ?_⟩
  refine (Fallible.forall₂_of_mapM_eq_ok hsecond).imp fun i d hd => ?_
  obtain ⟨bytes, _, hlisting⟩ := Fallible.exists_of_bind_eq_ok hd
  exact ⟨bytes, (Except.ok.inj hlisting).symm⟩

end Engine

end ClrListing.Machine
