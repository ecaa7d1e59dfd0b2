/-
What decoding gives of code.

Two things are said of the passes over code, each for any engine and for the
decoder of the library, whose engine is one of them. First, the bytes of the
instructions are the code, none lost, repeated or put elsewhere, or else what
is reported is where the first bytes stand that are no instruction
(`Engine.tiles_or_firstInvalid`). The second pass takes the bytes by the
addresses that the engine gave, so this needs the code to lie in memory
without wrapping around its end.

Second, what an instruction is shown with does not depend on the other
instructions (`Engine.shows_of_decoded`): its annotation and the name in its
text are both those of a direct look-up of the address that it refers to, and
are left out where that is the next instruction.
-/
import ClrListing.Proofs.Machine.Forms

namespace ClrListing.Machine

open Native
open Instruction (reachOf?)

-- ============================================================== tiling

/-- Whether instructions tile code that begins at an address: their bytes are
the code, each has some, and each begins where those before it end. -/
structure Tiles (base : UInt64) (code : List UInt8) (ds : List Decoded) : Prop where
  bytes : (ds.map Decoded.bytes).flatten = code
  ne_nil : ∀ d ∈ ds, d.bytes ≠ []
  address : ∀ k d, ds[k]? = some d →
    d.address.toNat = base.toNat + ((ds.take k).map Decoded.bytes).flatten.length

namespace Engine

variable {Instr : Type} {e : Engine Instr} {architecture : Architecture} {base : UInt64}
  {code : List UInt8} {lookup : SymbolLookup} {found : List Instr}

/-- Instructions that reach the end of the code tile it. -/
theorem Reaches.tiles (he : e.Reports) (hfits : base.toNat + code.length ≤ 2 ^ 64)
    (h : e.Reaches architecture base code code.length found) (known : Symbols) :
    Tiles base code (found.map fun i => e.listing architecture known (e.cut code base i) i) where
  bytes := by
    rw [List.map_map]
    exact (h.flatten_cut he hfits).trans List.take_length
  ne_nil := by
    intro d hd
    obtain ⟨i, hi, rfl⟩ := List.mem_map.mp hd
    have hcut := length_cut he hfits h hi
    change e.cut code base i ≠ []
    rw [← List.length_pos_iff, hcut.1]
    exact hcut.2
  address := by
    intro k d hd
    rw [List.getElem?_map] at hd
    obtain ⟨i, hi, rfl⟩ := Option.map_eq_some_iff.mp hd
    rw [← List.map_take, List.map_map]
    exact h.address_eq he hfits hi

/-- What the passes over code come to. -/
theorem tiles_or_stops (architecture : Architecture) (lookup : SymbolLookup) (he : e.Reports)
    (hfits : base.toNat + code.length ≤ 2 ^ 64) (hlength : code.length < 2 ^ 64) {fuel : Nat}
    (hfuel : code.length < fuel) :
    (∃ ds, e.decodeAll fuel code base architecture lookup = .ok ds ∧ Tiles base code ds)
      ∨ ∃ stop, e.FirstInvalid architecture base code stop
        ∧ e.decodeAll fuel code base architecture lookup
          = fail (.decoding (.invalidInstruction stop)) := by
  rcases decode_cases architecture lookup he hfits hlength hfuel with
    ⟨found, hreach, hdecode⟩ | hstop
  · exact .inl ⟨_, hdecode, hreach.tiles he hfits _⟩
  · exact .inr hstop

/-- What the decoder of the library comes to. -/
theorem decode_tiles_or_stops (architecture : Architecture) (lookup : SymbolLookup)
    (hfits : base.toNat + code.length ≤ 2 ^ 64) (hlength : code.length < 2 ^ 64) :
    (∃ ds, Native.decode code base architecture lookup = .ok ds ∧ Tiles base code ds)
      ∨ ∃ stop, byForms.FirstInvalid architecture base code stop
        ∧ Native.decode code base architecture lookup
          = .error (.decoding (.invalidInstruction stop)) := by
  have hpasses := tiles_or_stops architecture lookup reports_byForms hfits hlength
    (Nat.lt_succ_self code.length)
  rw [decodeAll_byForms hfits hlength (Nat.lt_succ_self _)] at hpasses
  cases hdecode : Native.decode code base architecture lookup with
  | ok ds =>
    rw [hdecode] at hpasses
    rcases hpasses with ⟨ds', hds, htiles⟩ | ⟨stop, _, hfail⟩
    · cases hds
      exact .inl ⟨ds, rfl, htiles⟩
    · cases hfail
  | error error =>
    rw [hdecode] at hpasses
    rcases hpasses with ⟨ds', hds, _⟩ | ⟨stop, hstop, hfail⟩
    · cases hds
    · cases hfail
      exact .inr ⟨stop, hstop, rfl⟩

/-- Code is tiled by the instructions that are decoded, or decoding fails
and reports where the first bytes stand that are no instruction. -/
theorem tiles_or_firstInvalid (code : List UInt8) (base : UInt64) (architecture : Architecture)
    (lookup : SymbolLookup) (hfits : base.toNat + code.length ≤ 2 ^ 64)
    (hlength : code.length < 2 ^ 64) :
    (∀ (Instr : Type) (e : Engine Instr), e.Reports → ∀ fuel, code.length < fuel →
      (∃ ds, e.decodeAll fuel code base architecture lookup = .ok ds ∧ Tiles base code ds)
        ∨ ∃ stop, e.FirstInvalid architecture base code stop
          ∧ e.decodeAll fuel code base architecture lookup
            = fail (.decoding (.invalidInstruction stop)))
      ∧ ((∃ ds, Native.decode code base architecture lookup = .ok ds ∧ Tiles base code ds)
        ∨ ∃ stop, byForms.FirstInvalid architecture base code stop
          ∧ Native.decode code base architecture lookup
            = .error (.decoding (.invalidInstruction stop))) := by
  constructor
  · intro Instr e he fuel hfuel
    exact tiles_or_stops architecture lookup he hfits hlength hfuel
  · exact decode_tiles_or_stops architecture lookup hfits hlength

/-- A return, and a byte behind it that is the start of an instruction and
no more. -/
def cutShort : List UInt8 := [0xc3, 0x0f]

theorem tiles_or_firstInvalid_cutShort :
    ((0x1000 : UInt64).toNat + cutShort.length ≤ 2 ^ 64 ∧ cutShort.length < 2 ^ 64)
      ∧ byForms.Reports
      ∧ ((∃ ds, byForms.decodeAll 3 cutShort 0x1000 .x64 (fun _ => none) = .ok ds
          ∧ Tiles 0x1000 cutShort ds)
        ∨ ∃ stop, byForms.FirstInvalid .x64 0x1000 cutShort stop
          ∧ byForms.decodeAll 3 cutShort 0x1000 .x64 (fun _ => none)
            = fail (.decoding (.invalidInstruction stop)))
      ∧ byForms.decodeAll 3 cutShort 0x1000 .x64 (fun _ => none)
        = fail (.decoding (.invalidInstruction 1)) :=
  ⟨by decide, reports_byForms,
    (tiles_or_firstInvalid cutShort 0x1000 .x64 (fun _ => none) (by decide) (by decide)).1 Front
      byForms reports_byForms 3 (by decide), by decide +kernel⟩

end Engine

-- ============================================================= showing

/-- What the decoder of the library lists of an instruction: all places that
it gives by a distance are the address that it refers to, which is annotated
with what is looked up there, and in the text that address has the annotation
behind it. -/
structure IsListed (architecture : Architecture) (lookup : SymbolLookup) (p : Placed)
    (d : Decoded) : Prop where
  address : d.address = p.address
  target : ∀ o ∈ p.instruction.operands, ∀ reach, reachOf? o = some reach →
    p.target? = some (p.addressAt reach)
  annotated : d.IsAnnotated lookup p.target? p.next
  text : d.text = p.instruction.text fun reach =>
    label architecture (p.addressAt reach) d.annotation

theorem isListed_of_shows {architecture : Architecture} {lookup : SymbolLookup} {p : Placed}
    {d : Decoded} (hp : byForms.IsInstruction (.placed p))
    (h : byForms.Shows architecture lookup (.placed p) d) : IsListed architecture lookup p d where
  address := h.address
  target o ho reach hreach := by
    obtain ⟨p', heq, hshare⟩ := shareReach_of_isInstruction hp
    cases heq
    exact target?_of_shareReach hshare ho hreach
  annotated := target?_byForms p ▸ h.annotated
  text := by
    rw [h.text]
    exact text_byForms fun n reach href => if_pos href

namespace Engine

/-- Where decoding succeeds, each instruction is shown with what is looked up
for it. -/
theorem shows_of_decoded (code : List UInt8) (base : UInt64) (architecture : Architecture)
    (lookup : SymbolLookup) :
    (∀ (Instr : Type) (e : Engine Instr), e.Asks → ∀ fuel ds,
      e.decodeAll fuel code base architecture lookup = .ok ds →
      ∃ stop found, code.length ≤ stop ∧ e.Reaches architecture base code stop found
        ∧ List.Forall₂ (e.Shows architecture lookup) found ds)
      ∧ ∀ ds, Native.decode code base architecture lookup = .ok ds →
        ∃ ps, sweep architecture base code = .ok ps
          ∧ List.Forall₂ (IsListed architecture lookup) ps ds := by
  refine ⟨fun Instr e he fuel ds h => shows_of_decodeAll_eq_ok he h, fun ds h => ?_⟩
  unfold Native.decode at h
  cases hsweep : sweep architecture base code with
  | error stop =>
    rw [hsweep] at h
    cases h
  | ok ps =>
    rw [hsweep] at h
    cases h
    refine ⟨ps, rfl, List.forall₂_map_right_iff.mpr (List.forall₂_same.mpr fun p hp => ?_)⟩
    have hinstruction := isInstruction_of_sweepAfter hsweep hp
    have hknows : byForms.Knows lookup (Native.symbolsOf lookup ps) (.placed p) := by
      intro t hfar
      rw [← symbolsOf_byForms]
      exact lookup_symbolsOf (List.mem_map_of_mem hp) hfar
    have hshows := shows_listing architecture asks_byForms hinstruction hknows p.bytes
    rw [listing_placed] at hshows
    exact isListed_of_shows hinstruction hshows

/-- A call of the next instruction, which jumps to itself. -/
def selfJump : List UInt8 := [0xe8, 0, 0, 0, 0, 0xeb, 0xfe]

/-- Both refer to one address, which has a name for the second. -/
def selfJumpListing : List Decoded :=
  [⟨0x1000, [0xe8, 0, 0, 0, 0], "call 00000000`00001005", none⟩,
    ⟨0x1005, [0xeb, 0xfe], "jmp 00000000`00001005 (M())", some "M()"⟩]

theorem shows_of_decoded_selfJump :
    (byForms.Asks
        ∧ byForms.decodeAll 8 selfJump 0x1000 .x64 (fun _ => some "M()") = .ok selfJumpListing
        ∧ Native.decode selfJump 0x1000 .x64 (fun _ => some "M()") = .ok selfJumpListing)
      ∧ (∃ stop found, selfJump.length ≤ stop ∧ byForms.Reaches .x64 0x1000 selfJump stop found
        ∧ List.Forall₂ (byForms.Shows .x64 fun _ => some "M()") found selfJumpListing)
      ∧ ∃ ps, sweep .x64 0x1000 selfJump = .ok ps
        ∧ List.Forall₂ (IsListed .x64 fun _ => some "M()") ps selfJumpListing := by
  have hpasses : byForms.decodeAll 8 selfJump 0x1000 .x64 (fun _ => some "M()")
      = .ok selfJumpListing := by decide +kernel
  have hdecode : Native.decode selfJump 0x1000 .x64 (fun _ => some "M()")
      = .ok selfJumpListing := by decide +kernel
  have hshows := shows_of_decoded selfJump 0x1000 .x64 fun _ => some "M()"
  exact ⟨⟨asks_byForms, hpasses, hdecode⟩, hshows.1 Front byForms asks_byForms 8 _ hpasses,
    hshows.2 _ hdecode⟩

end Engine

end ClrListing.Machine
