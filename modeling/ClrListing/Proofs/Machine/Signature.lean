/-
Signatures of methods on a machine.

How deep types stand in types, and how many types stand next to each other,
is told by the bytes. So the recursion over types and the loops over
parameters, arguments and sizes are given a number of turns, and it is
proved that they do not need more: the first goes no deeper than the limit
on types in types, and the others end with the bytes, of which each turn
takes one at least.
-/
import ClrListing.Metadata.Signature
import ClrListing.Proofs.Machine.Cursor

namespace ClrListing.Machine

open Metadata Cursor
open Assembly (Primitive)

namespace Signature

-- ============================================================= reading

/-- Reads a parameter, past the code that may stand before it. -/
def readParam (type : Cursor TypeSig) : Cursor TypeSig := do
  if (← peek) = Metadata.Signature.sentinel then let _ ← byte
  type

/-- Reads the signature of a method whose types are read by `type`. -/
def readMethod (turns : Nat) (type : Cursor TypeSig) : Cursor MethodSig := do
  let convention ← byte
  let genericCount ← if convention &&& 0x10 ≠ 0 then compressed else pure 0
  let paramCount ← compressed
  let returnType ← type
  let params ← times (readParam type) turns paramCount
  return ⟨convention &&& 0x20 ≠ 0, convention &&& 0x40 ≠ 0, genericCount, returnType, params⟩

/-- Reads numbers after their count. -/
def readNumbers (turns : Nat) : Cursor (List Nat) := do
  times compressed turns (← compressed)

/-- Reads a type whose parts are read by `inner`, and a function pointer's
signature by `method`. -/
def readTypeWith (turns : Nat) (inner : Cursor TypeSig) (method : Cursor MethodSig) :
    Cursor TypeSig := do
  let code ← byte
  match Primitive.ofCode? code with
  | some p => return .primitive p
  | none =>
    match code with
    | 0x0f => return .pointer (← inner)
    | 0x10 => return .byRef (← inner)
    | 0x11 | 0x12 => return .named (← compressedToken)
    | 0x13 => return .typeParam (← compressed)
    | 0x14 =>
      let element ← inner
      let rank ← compressed
      let _ ← readNumbers turns
      let _ ← readNumbers turns
      return .array element rank
    | 0x15 =>
      let _ ← byte
      let base ← compressedToken
      let count ← compressed
      let args ← times inner turns count
      return .generic base args
    | 0x1b =>
      let _ ← method
      return .functionPointer
    | 0x1d => return .vector (← inner)
    | 0x1e => return .methodParam (← compressed)
    | 0x1f | 0x20 =>
      let _ ← compressedToken
      inner
    | 0x45 => inner
    | _ => Cursor.fail (.damaged (.elementType code))

/-- Reads a type that stands so deep in others. -/
def readType (turns : Nat) : (fuel depth : Nat) → Cursor TypeSig
  | 0, _ => compute (fault .endless)
  | fuel + 1, depth =>
    if Metadata.Signature.depthLimit < depth then
      Cursor.fail (.damaged (.signatureTooDeep Metadata.Signature.depthLimit))
    else
      readTypeWith turns (do readType turns fuel (← compute (add 64 depth 1)))
        (do
          let depth ← compute (add 64 depth 1)
          readMethod turns (do readType turns fuel (← compute (add 64 depth 1))))

/-- The signature of a method at the front of bytes. -/
def parse (fuel : Nat) (data : List UInt8) : Machine MethodSig :=
  (readMethod fuel (do readType fuel fuel (← compute (add 64 0 1)))).value data

-- =========================================================== following

variable {data : List UInt8} {turns : Nat}

theorem follows_readParam {type : Cursor TypeSig} {typeReader : Reader TypeSig}
    (hdata : data.length < 2 ^ 64) (htype : Follows data 1 type typeReader) :
    Follows data 1 (readParam type) (Metadata.Signature.readParam typeReader) := by
  refine follows_peek.after fun next => ?_
  exact .ite Iff.rfl (fun _ => (follows_byte hdata).after fun _ => htype) fun _ => htype

/-- The bits of a calling convention, read as masks and one by one. -/
theorem convention_bits : ∀ convention < 256,
    (convention &&& 0x10 ≠ 0 ↔ convention.testBit 4)
      ∧ decide (convention &&& 0x20 ≠ 0) = convention.testBit 5
      ∧ decide (convention &&& 0x40 ≠ 0) = convention.testBit 6 := by
  decide +kernel

theorem follows_readMethod {type : Cursor TypeSig} {typeReader : Reader TypeSig}
    (hdata : data.length < 2 ^ 64) (hturns : data.length < turns)
    (htype : Follows data 1 type typeReader) :
    Follows data 1 (readMethod turns type) (Metadata.Signature.readMethodWith typeReader) := by
  refine (follows_byte hdata).bind_of always_byte fun convention hconvention => ?_
  obtain ⟨hgeneric, hthis, hexplicit⟩ := convention_bits convention hconvention
  refine .branch hgeneric (follows_compressed hdata) (.pure 0) fun genericCount => ?_
  refine (follows_compressed hdata).after fun paramCount => ?_
  refine htype.after fun returnType => ?_
  refine (follows_times (follows_readParam hdata htype) hturns paramCount).after fun params => ?_
  rw [hthis, hexplicit]
  exact .pure _

theorem follows_readNumbers (hdata : data.length < 2 ^ 64) (hturns : data.length < turns) :
    Follows data 1 (readNumbers turns) Metadata.Signature.readNumbers :=
  (follows_compressed hdata).bind fun count => follows_times (follows_compressed hdata) hturns count

theorem follows_readTypeWith {inner : Cursor TypeSig} {method : Cursor MethodSig}
    {innerReader deeper : Reader TypeSig} (hdata : data.length < 2 ^ 64)
    (hturns : data.length < turns) (hinner : Follows data 1 inner innerReader)
    (hmethod : Follows data 1 method (Metadata.Signature.readMethodWith deeper)) :
    Follows data 1 (readTypeWith turns inner method)
      (Metadata.Signature.readTypeWith innerReader deeper) := by
  refine (follows_byte hdata).bind fun code => ?_
  cases Primitive.ofCode? code with
  | some p => exact .pure _
  | none =>
    have hwrapped (wrap : TypeSig → TypeSig) :
        Follows data 0 (do return wrap (← inner)) (do return wrap (← innerReader)) :=
      hinner.after fun t => .pure (wrap t)
    dsimp only
    split
    · exact hwrapped _
    · exact hwrapped _
    · exact (follows_compressedToken hdata).after fun _ => .pure _
    · exact (follows_compressedToken hdata).after fun _ => .pure _
    · exact (follows_compressed hdata).after fun _ => .pure _
    · refine hinner.after fun element => ?_
      refine (follows_compressed hdata).after fun rank => ?_
      refine (follows_readNumbers hdata hturns).after fun _ => ?_
      exact (follows_readNumbers hdata hturns).after fun _ => .pure _
    · refine (follows_byte hdata).after fun _ => ?_
      refine (follows_compressedToken hdata).after fun base => ?_
      refine (follows_compressed hdata).after fun count => ?_
      exact (follows_times hinner hturns count).after fun args => .pure _
    · exact hmethod.after fun _ => .pure _
    · exact hwrapped _
    · exact (follows_compressed hdata).after fun _ => .pure _
    · exact (follows_compressedToken hdata).after fun _ => hinner.still
    · exact (follows_compressedToken hdata).after fun _ => hinner.still
    · exact hinner.still
    · try split
      all_goals first | contradiction | exact .fail _

theorem readType_succ (levels : Nat) :
    Metadata.Signature.readType (levels + 1)
      = Metadata.Signature.readTypeWith (Metadata.Signature.readType levels)
        (Metadata.Signature.readType (levels - 1)) := by
  cases levels <;> rfl

/-- Reading a type needs no more turns than there are levels. -/
theorem follows_readType (hdata : data.length < 2 ^ 64) (hturns : data.length < turns)
    {fuel depth : Nat} (hfuel : 67 ≤ fuel + depth) (hdepth : depth ≤ 66) :
    Follows data 1 (readType turns fuel depth) (Metadata.Signature.readType (65 - depth)) := by
  induction fuel generalizing depth with
  | zero => omega
  | succ fuel ih =>
    unfold readType
    by_cases hlimit : Metadata.Signature.depthLimit < depth
    · have hzero : 65 - depth = 0 := Nat.sub_eq_zero_of_le hlimit
      rw [if_pos hlimit, hzero]
      exact .fail _
    · rw [if_neg hlimit]
      unfold Metadata.Signature.depthLimit at hlimit
      obtain ⟨levels, hlevels⟩ : ∃ levels, 65 - depth = levels + 1 := ⟨64 - depth, by omega⟩
      rw [hlevels, readType_succ]
      refine follows_readTypeWith hdata hturns ?_ ?_
      · refine .compute (add_eq (by omega)) ?_
        rw [show levels = 65 - (depth + 1) by omega]
        exact ih (by omega) (by omega)
      · refine .compute (add_eq (by omega)) (follows_readMethod hdata hturns ?_)
        refine .compute (add_eq (by omega)) ?_
        rw [show levels - 1 = 65 - (depth + 1 + 1) by omega]
        exact ih (by omega) (by omega)

/-- A signature is read without a fault, with as many turns as it has
bytes, and those that types in types need. -/
theorem parse_eq (hdata : data.length < 2 ^ 64) {fuel : Nat} (hturns : data.length < fuel)
    (hfuel : 66 ≤ fuel) : parse fuel data = lift (Metadata.Signature.ofBytes data) := by
  refine (follows_readMethod hdata hturns ?_).value_eq
  exact .compute (add_eq (by decide)) (follows_readType hdata hturns (by omega) (by decide))

end Signature

end ClrListing.Machine
