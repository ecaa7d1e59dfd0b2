/-
The decoder of forms as an engine.

`Native.decode` sweeps over code and counts the bytes that belong to the
instruction before. Its single instructions, which the tables of forms give,
also make an engine (`byForms`). That engine reports where instructions are
(`reports_byForms`), and it asks for the text of the address that an
instruction refers to (`asks_byForms`).

The sweep finds the instructions that the first pass finds
(`sweep_of_reaches`), and what it writes of them is what the second pass
writes (`listing_placed`). So the two passes with this engine are
`Native.decode` (`decodeAll_byForms`), as long as the code ends where memory
does at the latest.
-/
import ClrListing.Proofs.Machine.Labels
import ClrListing.Proofs.Native.Fetched

namespace ClrListing.Native

open Instruction (reachOf?)

-- =============================================================== texts

theorem StandsIn.refl (s : String) : StandsIn s s :=
  ⟨"", "", by rw [String.empty_append, String.append_empty]⟩

theorem StandsIn.within {part whole : String} (h : StandsIn part whole) (before after : String) :
    StandsIn part (before ++ whole ++ after) := by
  obtain ⟨before', after', rfl⟩ := h
  exact ⟨before ++ before', after' ++ after, by simp only [String.append_assoc]⟩

theorem StandsIn.before {part whole : String} (h : StandsIn part whole) (before : String) :
    StandsIn part (before ++ whole) := by
  have := h.within before ""
  rwa [String.append_empty] at this

/-- What stands in one of some texts stands in all of them joined. -/
theorem StandsIn.intercalate {part text separator : String} {texts : List String}
    (h : StandsIn part text) (ht : text ∈ texts) :
    StandsIn part (String.intercalate separator texts) := by
  induction texts with
  | nil => cases ht
  | cons first rest ih =>
    cases rest with
    | nil =>
      rw [String.intercalate_singleton, ← List.mem_singleton.mp ht]
      exact h
    | cons second rest =>
      rw [String.intercalate_cons_cons]
      rcases List.mem_cons.mp ht with rfl | ht
      · have := h.within "" (separator ++ String.intercalate separator (second :: rest))
        rwa [String.empty_append, ← String.append_assoc] at this
      · exact (ih ht).before _

/-- The text of an operand depends on what is shown for the place that it
gives by a distance. -/
theorem Operand.text_congr {shown shown' : Reach → String} {o : Operand}
    (h : ∀ reach, reachOf? o = some reach → shown reach = shown' reach) :
    o.text shown = o.text shown' := by
  cases o with
  | memory segment place size =>
    cases place with
    | relative reach => simp only [text, Place.text, h reach rfl]
    | based base index distance => rfl
    | absolute address => rfl
  | branch reach => exact h reach rfl
  | register r => rfl
  | immediate value => rfl
  | far selector offset size => rfl

theorem Instruction.text_congr {shown shown' : Reach → String} {i : Instruction}
    (h : ∀ o ∈ i.operands, ∀ reach, reachOf? o = some reach → shown reach = shown' reach) :
    i.text shown = i.text shown' := by
  have hoperands : i.operands.map (Operand.text shown) = i.operands.map (Operand.text shown') :=
    List.map_congr_left fun o ho => Operand.text_congr (h o ho)
  unfold text
  rw [hoperands]

/-- What is shown for the place that an operand gives by a distance stands in
the text of the operand. -/
theorem Operand.standsIn_text {o : Operand} {reach : Reach} (h : reachOf? o = some reach)
    (shown : Reach → String) : StandsIn (shown reach) (o.text shown) := by
  cases o with
  | memory segment place size =>
    cases place with
    | relative reach' =>
      cases h
      exact ((StandsIn.refl _).within "[" "]").before _
    | based base index distance => cases h
    | absolute address => cases h
  | branch reach' =>
    cases h
    exact .refl _
  | register r => cases h
  | immediate value => cases h
  | far selector offset size => cases h

theorem Instruction.standsIn_text {i : Instruction} {o : Operand} {reach : Reach}
    (ho : o ∈ i.operands) (h : reachOf? o = some reach) (shown : Reach → String) :
    StandsIn (shown reach) (i.text shown) := by
  have hoperands : ¬i.operands.isEmpty = true := by
    rw [List.isEmpty_iff]
    exact List.ne_nil_of_mem ho
  unfold text
  dsimp only
  rw [if_neg hoperands]
  exact ((Operand.standsIn_text h shown).intercalate (List.mem_map_of_mem ho)).before _

-- =============================================================== sweep

variable {architecture : Architecture} {base : UInt64} {code : List UInt8}

/-- Bytes that belong to the instruction before are passed. -/
theorem sweepAfter_skip (offset skip : Nat) (code : List UInt8) :
    sweepAfter architecture base offset skip code
      = sweepAfter architecture base (offset + skip) 0 (code.drop skip) := by
  induction code generalizing offset skip with
  | nil =>
    rw [List.drop_nil]
    cases skip <;> rfl
  | cons b rest ih =>
    cases skip with
    | zero => rfl
    | succ skip =>
      rw [sweepAfter, ih, List.drop_succ_cons, Nat.add_assoc, Nat.add_comm 1 skip]

/-- A sweep takes the instruction in front and goes on behind it. -/
theorem sweepAfter_front {offset : Nat} (h : offset < code.length) :
    sweepAfter architecture base offset 0 (code.drop offset)
      = match Instruction.ofCode? architecture (code.drop offset) with
        | none => .error offset
        | some (instruction, size) =>
          (sweepAfter architecture base (offset + size) 0 (code.drop (offset + size))).map
            (⟨instruction, base + UInt64.ofNat offset, (code.drop offset).take size⟩ :: ·) := by
  obtain ⟨b, rest, hahead⟩ := List.exists_cons_of_ne_nil (Machine.Engine.drop_ne_nil h)
  have hbehind (size : Nat) (hsize : 0 < size) :
      sweepAfter architecture base (offset + 1) (size - 1) rest
        = sweepAfter architecture base (offset + size) 0 (code.drop (offset + size)) := by
    rw [sweepAfter_skip, ← List.drop_drop, hahead, show size = (size - 1) + 1 by omega,
      List.drop_succ_cons]
    congr 1
    omega
  rw [hahead, sweepAfter]
  cases hfront : Instruction.ofCode? architecture (b :: rest) with
  | none => rfl
  | some r =>
    have hsize := (Instruction.size_of_ofCode? hfront).1
    dsimp only
    rw [hbehind r.2 hsize]
    cases sweepAfter architecture base (offset + r.2) 0 (code.drop (offset + r.2)) <;> rfl

end ClrListing.Native

namespace ClrListing.Machine

open Native
open Instruction (reachOf?)

-- ============================================================== engine

/-- What is in front of code: no instruction, or one at its place. -/
inductive Front where
  | nothing (address : UInt64)
  | placed (p : Placed)

namespace Front

def address : Front → UInt64
  | nothing address => address
  | placed p => p.address

def next : Front → UInt64
  | nothing address => address
  | placed p => p.next

def bytes : Front → List UInt8
  | nothing _ => []
  | placed p => p.bytes

def operands : Front → List Operand
  | nothing _ => []
  | placed p => p.instruction.operands

def target? : Front → Option UInt64
  | nothing _ => none
  | placed p => p.target?

/-- What the instruction in front of code is. -/
def ofCode (architecture : Architecture) (ahead : List UInt8) (address : UInt64) : Front :=
  match Instruction.ofCode? architecture ahead with
  | some (instruction, size) => placed ⟨instruction, address, ahead.take size⟩
  | none => nothing address

end Front

/-- What an operand is. A place counts as one in memory only if it is given by
its distance from the next instruction. -/
def operandKind : Operand → OperandKind
  | .branch reach =>
    if reach.bits = 16 then .branch16 else if reach.bits = 32 then .branch32 else .branch64
  | .memory _ (.relative _) _ => .memory
  | _ => .other

/-- What is shown for a place that an instruction gives by a distance: the
answer for the first operand that gives it. -/
def asked (answers : Resolver Front) (p : Placed) (reach : Reach) : String :=
  let operand := p.instruction.operands.findIdx fun o => reachOf? o = some reach
  let address := p.addressAt reach
  match answers (.placed p) operand (some operand) address (reach.bits / 8) with
  | some (_, shown) => shown
  | none => numberText address.toNat

/-- The engine of the tables of forms. What has no bytes is no instruction. -/
def byForms : Engine Front where
  decode := Front.ofCode
  isInvalid i := i.bytes.isEmpty
  size i := i.bytes.length
  address := Front.address
  next := Front.next
  operandCount i := i.operands.length
  kind i operand := (i.operands[operand]?.map operandKind).getD .other
  isRelative i := i.operands.any fun o => operandKind o = .memory
  placeTarget i := i.target?.getD 0
  branchTarget i := i.target?.getD 0
  text answers i :=
    match i with
    | .nothing _ => "(bad)"
    | .placed p => p.instruction.text (asked answers p)

variable {architecture : Architecture} {base : UInt64} {code ahead : List UInt8}
  {address : UInt64} {lookup : SymbolLookup}

theorem decode_byForms {i : Instruction} {size : Nat}
    (h : Instruction.ofCode? architecture ahead = some (i, size)) (address : UInt64) :
    byForms.decode architecture ahead address = .placed ⟨i, address, ahead.take size⟩ := by
  change Front.ofCode architecture ahead address = _
  unfold Front.ofCode
  rw [h]

theorem size_byForms {i : Instruction} {size : Nat}
    (h : Instruction.ofCode? architecture ahead = some (i, size)) (address : UInt64) :
    byForms.size (byForms.decode architecture ahead address) = size := by
  rw [decode_byForms h]
  exact List.length_take_of_le (Instruction.size_of_ofCode? h).2

/-- An instruction that the engine gives is that of a form. -/
theorem exists_of_valid
    (hvalid : byForms.isInvalid (byForms.decode architecture ahead address) = false) :
    ∃ i size, Instruction.ofCode? architecture ahead = some (i, size)
      ∧ byForms.decode architecture ahead address = Front.placed ⟨i, address, ahead.take size⟩ := by
  change (Front.ofCode architecture ahead address).bytes.isEmpty = false at hvalid
  unfold Front.ofCode at hvalid
  cases hfront : Instruction.ofCode? architecture ahead with
  | none =>
    rw [hfront] at hvalid
    cases hvalid
  | some r => exact ⟨r.1, r.2, rfl, decode_byForms hfront address⟩

/-- Where the engine gives no instruction there is no form. -/
theorem ofCode?_of_invalid
    (hinvalid : byForms.isInvalid (byForms.decode architecture ahead address) = true) :
    Instruction.ofCode? architecture ahead = none := by
  change (Front.ofCode architecture ahead address).bytes.isEmpty = true at hinvalid
  unfold Front.ofCode at hinvalid
  cases hfront : Instruction.ofCode? architecture ahead with
  | none => rfl
  | some r =>
    have hsize := Instruction.size_of_ofCode? hfront
    rw [hfront] at hinvalid
    change (ahead.take r.2).isEmpty = true at hinvalid
    rw [List.isEmpty_iff_length_eq_zero, List.length_take_of_le hsize.2] at hinvalid
    omega

theorem reports_byForms : byForms.Reports where
  address architecture ahead address _ := by
    change (Front.ofCode architecture ahead address).address = address
    unfold Front.ofCode
    cases Instruction.ofCode? architecture ahead <;> rfl
  size_pos architecture ahead address _ hvalid := by
    change (Front.ofCode architecture ahead address).bytes.isEmpty = false at hvalid
    rw [List.isEmpty_eq_false_iff] at hvalid
    exact List.length_pos_iff.mpr hvalid
  size_le architecture ahead address _ hvalid := by
    obtain ⟨i, size, _, hfront⟩ := exists_of_valid hvalid
    rw [hfront]
    exact List.length_take_le' _ _

-- ============================================================== asking

theorem targetOf_byForms (i : Front) (operand : Nat) :
    byForms.targetOf i operand = i.target?.getD 0 := by
  unfold Engine.targetOf
  split <;> rfl

/-- An operand refers to an address if it gives a place by a distance. -/
theorem isReference_byForms {i : Front} {n : Nat} {o : Operand} (ho : i.operands[n]? = some o) :
    byForms.isReference i n = (reachOf? o).isSome := by
  have hkind : byForms.kind i n = operandKind o := by
    change (i.operands[n]?.map operandKind).getD .other = _
    rw [ho]
    rfl
  unfold Engine.isReference
  rw [hkind]
  cases o with
  | memory segment place size =>
    cases place with
    | relative reach =>
      exact List.any_eq_true.mpr ⟨_, List.mem_of_getElem? ho, by rfl⟩
    | based base index distance => rfl
    | absolute address => rfl
  | branch reach =>
    have hbranch : operandKind (.branch reach) = .branch16 ∨ operandKind (.branch reach) = .branch32
        ∨ operandKind (.branch reach) = .branch64 := by
      unfold operandKind
      dsimp only
      split
      · exact .inl rfl
      · split
        · exact .inr (.inl rfl)
        · exact .inr (.inr rfl)
    rcases hbranch with h | h | h
    all_goals
      rw [h]
      rfl
  | register r => rfl
  | immediate value => rfl
  | far selector offset size => rfl

/-- The operand that is asked about for a place gives that place. -/
theorem exists_findIdx {operands : List Operand} {o : Operand} {reach : Reach} (ho : o ∈ operands)
    (hreach : reachOf? o = some reach) :
    ∃ o', operands[operands.findIdx fun o => reachOf? o = some reach]? = some o'
      ∧ reachOf? o' = some reach := by
  have hlt : (operands.findIdx fun o => reachOf? o = some reach) < operands.length :=
    List.findIdx_lt_length_of_exists ⟨o, ho, decide_eq_true hreach⟩
  exact ⟨_, List.getElem?_eq_getElem hlt, of_decide_eq_true (List.findIdx_getElem (w := hlt))⟩

/-- The instruction refers to the place that one of its operands gives. -/
theorem target?_of_shareReach {p : Placed} (hshare : ShareReach p.instruction.operands)
    {o : Operand} {reach : Reach} (ho : o ∈ p.instruction.operands)
    (hreach : reachOf? o = some reach) : p.target? = some (p.addressAt reach) := by
  unfold Placed.target? Instruction.reach?
  rw [hshare.findSome?_eq ho hreach]
  rfl

/-- An instruction refers to what its first operand that gives a place by a
distance refers to. -/
theorem target?_byForms (p : Placed) : byForms.target? (.placed p) = p.target? := by
  cases htarget : p.target? with
  | none =>
    rw [Option.eq_none_iff_forall_ne_some]
    intro target hsome
    obtain ⟨n, hn, href, _⟩ := Engine.exists_of_target?_eq_some hsome
    have hnone := List.findSome?_eq_none_iff.mp (Option.map_eq_none_iff.mp htarget) _
      (List.getElem_mem hn)
    rw [isReference_byForms (i := .placed p) (List.getElem?_eq_getElem hn), hnone] at href
    cases href
  | some target =>
    obtain ⟨reach, hreach, _⟩ := Option.map_eq_some_iff.mp htarget
    obtain ⟨o, ho, heq⟩ := List.exists_of_findSome?_eq_some hreach
    obtain ⟨n, hn, rfl⟩ := List.mem_iff_getElem.mp ho
    refine Engine.target?_eq_some hn ?_ fun o' _ _ => ?_
    · rw [isReference_byForms (i := .placed p) (List.getElem?_eq_getElem hn), heq]
      rfl
    · rw [targetOf_byForms]
      change p.target?.getD 0 = target
      rw [htarget]
      rfl

theorem shareReach_of_isInstruction {i : Front} (hi : byForms.IsInstruction i) :
    ∃ p, i = .placed p ∧ ShareReach p.instruction.operands := by
  obtain ⟨architecture, ahead, address, rfl, hvalid⟩ := hi
  obtain ⟨instruction, size, hcode, hfront⟩ := exists_of_valid hvalid
  exact ⟨_, hfront, Instruction.shareReach_of_ofCode? hcode⟩

theorem asks_byForms : byForms.Asks where
  single i _ o _ o' _ _ _ := (targetOf_byForms i o).trans (targetOf_byForms i o').symm
  text i hi answers answers' hanswers := by
    obtain ⟨p, rfl, hshare⟩ := shareReach_of_isInstruction hi
    refine Instruction.text_congr fun o ho reach hreach => ?_
    obtain ⟨o', ho', hreach'⟩ := exists_findIdx ho hreach
    unfold asked
    dsimp only
    rw [hanswers]
    rintro operand ⟨⟩
    refine ⟨(List.getElem?_eq_some_iff.mp ho').1, fun _ => ?_⟩
    rw [targetOf_byForms]
    change _ = p.target?.getD 0
    rw [target?_of_shareReach hshare ho hreach]
    rfl
  shows i hi answers target shown htarget hanswers := by
    obtain ⟨p, rfl, hshare⟩ := shareReach_of_isInstruction hi
    rw [target?_byForms] at htarget
    obtain ⟨reach, hfirst, rfl⟩ := Option.map_eq_some_iff.mp htarget
    obtain ⟨o, ho, hreach⟩ := List.exists_of_findSome?_eq_some hfirst
    obtain ⟨o', ho', hreach'⟩ := exists_findIdx ho hreach
    have hasked : asked answers p reach = shown := by
      unfold asked
      dsimp only
      rw [hanswers _ _ (List.getElem?_eq_some_iff.mp ho').1 _
        (by rw [isReference_byForms ho', hreach']; rfl)]
    have hstands := Instruction.standsIn_text ho hreach (asked answers p)
    rw [hasked] at hstands
    exact hstands

-- ============================================================= passes

theorem farTarget?_byForms (p : Placed) : byForms.farTarget? (.placed p) = p.farTarget? := by
  unfold Engine.farTarget?
  rw [target?_byForms]
  rfl

theorem note_byForms (lookup : SymbolLookup) (known : Symbols) (p : Placed) :
    byForms.note lookup known (.placed p) = known.add lookup p := by
  rw [Engine.note_eq, farTarget?_byForms]
  rfl

theorem symbolsOf_byForms (lookup : SymbolLookup) (ps : List Placed) :
    byForms.symbolsOf lookup (ps.map .placed) = symbolsOf lookup ps := by
  have hnote : (fun known p => byForms.note lookup known (.placed p)) = Symbols.add lookup :=
    funext₂ fun known p => note_byForms lookup known p
  unfold Engine.symbolsOf symbolsOf
  rw [List.foldl_map, hnote]

/-- The engine writes what it is told of each operand that gives a place by a
distance. -/
theorem text_byForms {answers : Resolver Front} {p : Placed} {shown : Reach → String}
    (h : ∀ n reach, byForms.isReference (.placed p) n = true →
      answers (.placed p) n (some n) (p.addressAt reach) (reach.bits / 8)
        = some (p.addressAt reach, shown reach)) :
    byForms.text answers (.placed p) = p.instruction.text shown := by
  refine Instruction.text_congr fun o ho reach hreach => ?_
  obtain ⟨o', ho', hreach'⟩ := exists_findIdx ho hreach
  unfold asked
  dsimp only
  rw [h _ reach]
  rw [isReference_byForms (i := .placed p) ho', hreach']
  rfl

/-- What the second pass writes of an instruction. -/
theorem listing_placed (known : Symbols) (p : Placed) :
    byForms.listing architecture known p.bytes (.placed p) = p.decoded architecture known := by
  have htext : byForms.text (byForms.symbol architecture known) (.placed p)
      = p.instruction.text (targetText architecture known p) := by
    refine text_byForms fun n reach href => ?_
    unfold Engine.symbol targetText
    dsimp only
    rw [if_pos href]
    cases known.lookup (p.addressAt reach) with
    | none => rfl
    | some signature =>
      change (if p.addressAt reach ≠ p.next then _ else _) = _
      by_cases hnext : p.addressAt reach = p.next
      · rw [if_neg fun hne => hne hnext]
        simp only [hnext, if_true]
      · rw [if_pos hnext]
        simp only [hnext, if_false]
  unfold Engine.listing Placed.decoded
  rw [htext, farTarget?_byForms]
  rfl

/-- The sweep finds the instructions that reach up to an offset, and goes on
from there. -/
theorem sweep_of_reaches {offset : Nat} {found : List Front}
    (h : byForms.Reaches architecture base code offset found) :
    ∃ ps : List Placed, found = ps.map .placed ∧ sweep architecture base code
      = (sweepAfter architecture base offset 0 (code.drop offset)).map (ps ++ ·) := by
  induction h with
  | start =>
    refine ⟨[], rfl, ?_⟩
    unfold sweep
    rw [List.drop_zero]
    cases sweepAfter architecture base 0 0 code <;> rfl
  | @next offset found _ hoffset hvalid ih =>
    obtain ⟨ps, rfl, hsweep⟩ := ih
    obtain ⟨i, size, hcode, hfront⟩ := exists_of_valid hvalid
    refine ⟨ps ++ [⟨i, base + UInt64.ofNat offset, (code.drop offset).take size⟩], ?_, ?_⟩
    · rw [List.map_append, List.map_singleton]
      exact congrArg (ps.map Front.placed ++ [·]) hfront
    · have hsize : byForms.size (byForms.front architecture base code offset) = size :=
        size_byForms hcode _
      rw [hsweep, sweepAfter_front hoffset, hcode, hsize]
      dsimp only
      cases sweepAfter architecture base (offset + size) 0 (code.drop (offset + size)) with
      | error stop => rfl
      | ok later => exact congrArg Except.ok (List.append_cons ps _ later)

/-- The bytes that an instruction was found with are those from where it
is. -/
theorem cut_placed (hfits : base.toNat + code.length ≤ 2 ^ 64) {offset : Nat} {found : List Front}
    (h : byForms.Reaches architecture base code offset found) {p : Placed}
    (hp : .placed p ∈ found) : byForms.cut code base (.placed p) = p.bytes := by
  obtain ⟨place, hplace, hfront, hvalid⟩ := h.exists_front hp
  rw [hfront] at hvalid
  obtain ⟨i, size, hcode, heq⟩ := exists_of_valid hvalid
  have hbytes : p.bytes = (code.drop place).take size :=
    congrArg Front.bytes (hfront.trans heq)
  rw [hfront, Engine.cut_front reports_byForms hfits hplace, hbytes]
  exact congrArg (List.take · (code.drop place)) (size_byForms hcode _)

/-- The two passes with this engine are the decoder of the library. -/
theorem decodeAll_byForms (hfits : base.toNat + code.length ≤ 2 ^ 64)
    (hlength : code.length < 2 ^ 64) {fuel : Nat} (hfuel : code.length < fuel) :
    byForms.decodeAll fuel code base architecture lookup
      = lift (decode code base architecture lookup) := by
  unfold decode
  rcases Engine.decode_cases architecture lookup reports_byForms hfits hlength hfuel with
    ⟨found, hreach, hdecode⟩ | ⟨stop, ⟨found, hreach, hstop, hinvalid⟩, hdecode⟩
  · obtain ⟨ps, rfl, hsweep⟩ := sweep_of_reaches hreach
    have hok : sweep architecture base code = .ok ps := by
      rw [hsweep, List.drop_length]
      exact congrArg Except.ok (List.append_nil ps)
    rw [hdecode, hok, symbolsOf_byForms, List.map_map]
    refine congrArg Except.ok (List.map_congr_left fun p hp => ?_)
    rw [Function.comp_apply, cut_placed hfits hreach (List.mem_map_of_mem hp), listing_placed]
  · obtain ⟨ps, rfl, hsweep⟩ := sweep_of_reaches hreach
    rw [sweepAfter_front hstop, ofCode?_of_invalid hinvalid] at hsweep
    rw [hdecode, hsweep]
    rfl

/-- What a sweep finds are instructions of the engine. -/
theorem isInstruction_of_sweepAfter {offset skip : Nat} {ps : List Placed}
    (h : sweepAfter architecture base offset skip code = .ok ps) {p : Placed} (hp : p ∈ ps) :
    byForms.IsInstruction (.placed p) := by
  induction code generalizing offset skip ps with
  | nil =>
    cases skip <;> cases h <;> cases hp
  | cons b rest ih =>
    cases skip with
    | succ skip => exact ih h hp
    | zero =>
      rw [sweepAfter] at h
      cases hcode : Instruction.ofCode? architecture (b :: rest) with
      | none =>
        rw [hcode] at h
        cases h
      | some r =>
        rw [hcode] at h
        obtain ⟨later, hlater, h⟩ := Fallible.exists_of_bind_eq_ok h
        cases h
        rcases List.mem_cons.mp hp with rfl | hp
        · refine ⟨architecture, b :: rest, base + UInt64.ofNat offset,
            (decode_byForms hcode _).symm, ?_⟩
          have hsize := (Instruction.size_of_ofCode? hcode).1
          change ((b :: rest).take r.2).isEmpty = false
          rw [List.isEmpty_eq_false_iff, Ne, List.take_eq_nil_iff]
          exact fun hnil => hnil.elim (Nat.ne_of_gt hsize) (List.cons_ne_nil b rest)
        · exact ih hlater hp

end ClrListing.Machine
