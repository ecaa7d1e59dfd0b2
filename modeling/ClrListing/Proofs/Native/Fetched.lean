/-
What is fetched from code.

Fetching takes bytes from the front of code and nothing else (`Gives`), and
for an instruction at least one (`Instruction.size_of_ofCode?`).

Two kinds of operands are given by a distance from the next instruction:
branches, and the place that the byte after a code names. An instruction may
show that place more than once, but a form with a branch has no other operand
(`slots_of_branch`, read off the tables of forms). So all operands that an
instruction gives in this way are at the same distance
(`Instruction.shareReach_of_ofCode?`), and it refers to one address at most.
-/
import ClrListing.Native.Encoding
import ClrListing.Proofs.Metadata.Values

namespace ClrListing.Native

variable {α β : Type}

-- ============================================================ fetching

namespace Fetch

/-- Whether what is given satisfies `P` and what is left is the end of what
was there. -/
def Gives (f : Fetch α) (P : α → Prop) : Prop :=
  ∀ code a rest, f code = some (a, rest) → rest <:+ code ∧ P a

/-- Both parts of a fetch that succeeds succeed. -/
theorem exists_of_bind_eq_some {f : Fetch α} {g : α → Fetch β} {code rest : List UInt8} {b : β}
    (h : (f >>= g) code = some (b, rest)) :
    ∃ a middle, f code = some (a, middle) ∧ g a middle = some (b, rest) := by
  change (f code >>= fun r => g r.1 r.2) = some (b, rest) at h
  obtain ⟨r, hfirst, hsecond⟩ := Option.bind_eq_some_iff.mp h
  exact ⟨r.1, r.2, hfirst, hsecond⟩

namespace Gives

variable {f : Fetch α} {g : α → Fetch β} {P P' : α → Prop} {Q : β → Prop}

theorem mono (h : f.Gives P) (himp : ∀ a, P a → P' a) : f.Gives P' := fun code a rest hok =>
  ⟨(h code a rest hok).1, himp a (h code a rest hok).2⟩

theorem pure {a : α} (h : P a) : (pure a : Fetch α).Gives P := by
  intro code b rest hok
  cases hok
  exact ⟨List.suffix_refl _, h⟩

theorem invalid : (invalid : Fetch α).Gives P := by
  intro code a rest hok
  cases hok

theorem bind (hf : f.Gives P) (hg : ∀ a, P a → (g a).Gives Q) : (f >>= g).Gives Q := by
  intro code b rest hok
  obtain ⟨a, middle, hfirst, hsecond⟩ := exists_of_bind_eq_some hok
  obtain ⟨hmiddle, ha⟩ := hf code a middle hfirst
  obtain ⟨hrest, hb⟩ := hg a ha middle b rest hsecond
  exact ⟨hrest.trans hmiddle, hb⟩

/-- A last step that cannot fail. -/
theorem map {h : α → β} (hf : f.Gives P) (hmap : ∀ a, P a → Q (h a)) :
    (f >>= fun a => Pure.pure (h a)).Gives Q :=
  hf.bind fun a ha => .pure (hmap a ha)

end Gives

/-- A number takes as many bytes as it has. -/
theorem unsigned_some {size n : Nat} {code rest : List UInt8}
    (h : unsigned size code = some (n, rest)) : size ≤ code.length ∧ rest = code.drop size := by
  unfold unsigned at h
  rw [Metadata.splitBytes_eq] at h
  split at h
  case isTrue hsize =>
    cases h
    exact ⟨hsize, rfl⟩
  case isFalse => cases h

theorem gives_unsigned (size : Nat) : (unsigned size).Gives fun _ => True := by
  intro code n rest hok
  rw [(unsigned_some hok).2]
  exact ⟨List.drop_suffix _ _, trivial⟩

theorem gives_signed (size : Nat) : (signed size).Gives fun _ => True :=
  (gives_unsigned size).map fun _ _ => trivial

theorem gives_require (condition : Bool) : (require condition).Gives fun _ => True := by
  unfold require
  split
  case isTrue => exact .pure trivial
  case isFalse => exact .invalid

end Fetch

open Fetch
open Instruction (reachOf?)

-- ============================================================ reaching

/-- The distance at which a place is from the next instruction, if it is
given by that. -/
def Place.reach? : Place → Option Reach
  | .relative reach => some reach
  | _ => none

/-- The distance of the place that is named. -/
def Named.reach? (named : Named) : Option Reach := named.place.bind Place.reach?

/-- Whether operands that are at a distance from the next instruction are at
the same. -/
def ShareReach (operands : List Operand) : Prop :=
  ∃ shared : Option Reach, ∀ o ∈ operands, ∀ reach, reachOf? o = some reach → shared = some reach

theorem reachOf?_memory (segment : Option Segment) (place : Place) (shown : Option Size) :
    reachOf? (.memory segment place shown) = place.reach? := by
  cases place <;> rfl

theorem reachOf?_unsegmented (o : Operand) : reachOf? o.unsegmented = reachOf? o := by
  cases o with
  | memory segment place shown =>
    exact (reachOf?_memory none place shown).trans (reachOf?_memory segment place shown).symm
  | _ => rfl

/-- Operands that were all there before share what those shared. -/
theorem ShareReach.of_forall {operands operands' : List Operand} (h : ShareReach operands)
    (hfrom : ∀ o' ∈ operands', ∃ o ∈ operands, reachOf? o' = reachOf? o) :
    ShareReach operands' := by
  obtain ⟨shared, hshared⟩ := h
  refine ⟨shared, fun o' ho' reach hreach => ?_⟩
  obtain ⟨o, ho, heq⟩ := hfrom o' ho'
  exact hshared o ho reach (heq ▸ hreach)

theorem ShareReach.of_subset {operands operands' : List Operand} (h : ShareReach operands)
    (hsubset : operands' ⊆ operands) : ShareReach operands' :=
  h.of_forall fun o ho => ⟨o, hsubset ho, rfl⟩

/-- The first distance is the one that is shared. -/
theorem ShareReach.findSome?_eq {operands : List Operand} (h : ShareReach operands) {o : Operand}
    (ho : o ∈ operands) {reach : Reach} (hreach : reachOf? o = some reach) :
    operands.findSome? reachOf? = some reach := by
  obtain ⟨shared, hshared⟩ := h
  cases hfirst : operands.findSome? reachOf? with
  | none =>
    rw [List.findSome?_eq_none_iff] at hfirst
    rw [hfirst o ho] at hreach
    cases hreach
  | some first =>
    obtain ⟨o', ho', heq⟩ := List.exists_of_findSome?_eq_some hfirst
    exact (hshared o' ho' first heq).symm.trans (hshared o ho reach hreach)

-- ============================================================== places

theorem gives_fetchDistance (size kind : Nat) : (fetchDistance size kind).Gives fun _ => True := by
  unfold fetchDistance
  split
  · exact .pure trivial
  · exact gives_signed _
  · exact gives_signed _

theorem gives_fetchIndexed (m : Mode) (bank : Bank) (kind : Nat) :
    (fetchIndexed m bank kind).Gives fun _ => True := by
  unfold fetchIndexed
  refine (gives_unsigned 1).bind fun scaled _ => ?_
  dsimp only
  split
  case isTrue =>
    refine (gives_signed 4).bind fun distance _ => ?_
    split <;> exact .pure trivial
  case isFalse => exact (gives_fetchDistance 4 kind).map fun _ _ => trivial

theorem gives_fetchPlace (m : Mode) (bank : Bank) (kind low : Nat) :
    (fetchPlace m bank kind low).Gives fun _ => True := by
  unfold fetchPlace
  split
  case isTrue =>
    split
    case isTrue => exact (gives_unsigned 2).map fun _ _ => trivial
    case isFalse => exact (gives_fetchDistance 2 kind).map fun _ _ => trivial
  case isFalse =>
    split
    case isTrue => exact gives_fetchIndexed m bank kind
    case isFalse =>
      split
      case isTrue =>
        split
        case isTrue => exact (gives_signed 4).map fun _ _ => trivial
        case isFalse => exact (gives_unsigned 4).map fun _ _ => trivial
      case isFalse => exact (gives_fetchDistance 4 kind).map fun _ _ => trivial

theorem gives_fetchNamed (m : Mode) (slots : List Slot) :
    (fetchNamed m slots).Gives fun _ => True := by
  unfold fetchNamed
  refine (gives_unsigned 1).bind fun byte _ => (gives_require _).bind fun _ _ => ?_
  split
  case isTrue => exact (gives_fetchPlace m _ _ _).map fun _ _ => trivial
  case isFalse => exact .pure trivial

-- =============================================================== slots

/-- An operand that is at a distance from the next instruction only if that
is the place that is named. -/
def IsNear (named : Named) (o : Operand) : Prop :=
  ∀ reach, reachOf? o = some reach → named.reach? = some reach

/-- The slot is for a branch. -/
def Slot.isBranch : Slot → Bool
  | near | far => true
  | _ => false

theorem isNear_of_none {named : Named} {o : Operand} (h : reachOf? o = none) : IsNear named o := by
  intro reach hreach
  rw [h] at hreach
  cases hreach

theorem gives_register (m : Mode) (bank : Bank) (number : Nat) (named : Named) :
    (m.register bank number).Gives (IsNear named) := by
  unfold Mode.register
  split
  · exact .pure (isNear_of_none rfl)
  · exact .invalid

theorem gives_targetOperand (m : Mode) (named : Named) (kind : Kind) (shown : Option Size) :
    (targetOperand m named kind shown).Gives (IsNear named) := by
  unfold targetOperand
  split
  case h_1 place hplace =>
    refine .pure fun reach hreach => ?_
    unfold placed at hreach
    rw [reachOf?_memory] at hreach
    unfold Named.reach?
    rw [hplace]
    exact hreach
  case h_2 => exact gives_register m _ _ named

/-- The operand of a slot that is not for a branch. -/
theorem gives_fetchSlot (m : Mode) (code : Nat) (named : Named) {slot : Slot}
    (h : slot.isBranch = false) : (fetchSlot m code named slot).Gives (IsNear named) := by
  cases slot with
  | register kind | direct kind | low kind => exact gives_register m _ _ named
  | target kind | sized kind | distant | spread kind => exact gives_targetOperand m named _ _
  | given bank number | accumulator kind | constant value => exact .pure (isNear_of_none rfl)
  | source | destination | table => exact .pure (isNear_of_none rfl)
  | second kind =>
    rw [fetchSlot]
    split
    · exact gives_register m _ _ named
    · exact .invalid
  | last kind => exact (gives_unsigned 1).bind fun _ _ => gives_register m _ _ named
  | immediate kind => exact (gives_signed _).map fun _ _ => isNear_of_none rfl
  | short kind => exact (gives_signed 1).map fun _ _ => isNear_of_none rfl
  | whole kind => exact (gives_unsigned _).map fun _ _ => isNear_of_none rfl
  | near | far => cases h
  | selected =>
    exact (gives_unsigned _).bind fun _ _ => (gives_unsigned 2).map fun _ _ => isNear_of_none rfl
  | fixed => exact (gives_unsigned _).map fun _ _ => isNear_of_none rfl

theorem gives_fetchSlot_branch (m : Mode) (code : Nat) (named : Named) {slot : Slot}
    (h : slot.isBranch = true) : (fetchSlot m code named slot).Gives fun _ => True := by
  cases slot with
  | near | far => exact (gives_signed _).map fun _ _ => trivial
  | _ => cases h

/-- Operands of which none is a branch. -/
theorem gives_fetchSlots (m : Mode) (code : Nat) (named : Named) {slots : List Slot}
    (h : ∀ slot ∈ slots, slot.isBranch = false) :
    (fetchSlots m code named slots).Gives fun operands => ∀ o ∈ operands, IsNear named o := by
  induction slots with
  | nil => exact .pure fun o ho => by cases ho
  | cons slot rest ih =>
    rw [List.forall_mem_cons] at h
    refine (gives_fetchSlot m code named h.1).bind fun o ho => (ih h.2).map fun operands hrest => ?_
    exact List.forall_mem_cons.mpr ⟨ho, hrest⟩

/-- Operands of slots of which none is for a branch, or which are one. -/
theorem shareReach_fetchSlots (m : Mode) (code : Nat) (named : Named) {slots : List Slot}
    (h : slots.any Slot.isBranch = true → slots.length = 1) :
    (fetchSlots m code named slots).Gives ShareReach := by
  by_cases hbranch : slots.any Slot.isBranch = true
  case pos =>
    obtain ⟨slot, rfl⟩ := List.length_eq_one_iff.mp (h hbranch)
    rw [List.any_cons, List.any_nil, Bool.or_false] at hbranch
    -- whatever the one operand is, there is no other to compare it with
    refine (gives_fetchSlot_branch m code named hbranch).bind fun o _ => .pure ?_
    refine ⟨reachOf? o, fun o' ho' reach hreach => ?_⟩
    rw [List.mem_singleton.mp ho'] at hreach
    exact hreach
  case neg =>
    rw [Bool.not_eq_true, List.any_eq_false] at hbranch
    refine (gives_fetchSlots m code named fun slot hslot => ?_).mono fun operands hall => ?_
    · exact Bool.not_eq_true _ ▸ hbranch slot hslot
    · exact ⟨named.reach?, hall⟩

-- =============================================================== forms

/-- Whether a form with a branch has no other operand. -/
def Form.branchesAlone (f : Form) : Bool := !f.slots.any Slot.isBranch || f.slots.length = 1

theorem slots_of_branch {m : Mode} {code : Nat} {after : Option Nat} {f : Form}
    (h : formOf? m code after = some f) (hbranch : f.slots.any Slot.isBranch = true) :
    f.slots.length = 1 := by
  -- each form of the two tables is looked at
  have hplain : plainCodes.all Form.branchesAlone = true := by decide +kernel
  have hvector : vectorCodes.all Form.branchesAlone = true := by decide +kernel
  have hmem := List.mem_of_find?_eq_some h
  have hcheck : f.branchesAlone = true := by
    split at hmem
    · exact List.all_eq_true.mp hvector f hmem
    · exact List.all_eq_true.mp hplain f hmem
  unfold Form.branchesAlone at hcheck
  rw [hbranch] at hcheck
  simpa using hcheck

theorem shareReach_shown {operands shown : List Operand} {note : Note}
    (h : note.shown? operands = some shown) (hshare : ShareReach operands) : ShareReach shown := by
  unfold Note.shown? at h
  split at h
  case h_1 =>
    split at h
    case h_1 first second rest =>
      cases h
      refine hshare.of_subset ?_
      split
      · exact List.cons_subset_cons _ (List.subset_cons_self _ _)
      · exact List.Subset.refl _
    case h_2 =>
      cases h
      exact hshare
  case h_2 =>
    cases h
    refine hshare.of_forall fun o' ho' => ?_
    obtain ⟨o, ho, rfl⟩ := List.mem_map.mp ho'
    exact ⟨o, ho, reachOf?_unsegmented o⟩
  case h_3 =>
    dsimp only at h
    split at h
    · cases h
      exact hshare
    · cases h
  case h_4 =>
    cases h
    exact hshare

theorem shareReach_notes {notes : List Note} {operands shown : List Operand}
    (h : notes.foldlM Note.shown? operands = some shown) (hshare : ShareReach operands) :
    ShareReach shown := by
  induction notes generalizing operands with
  | nil =>
    cases h
    exact hshare
  | cons note rest ih =>
    rw [List.foldlM_cons, Option.bind_eq_bind, Option.bind_eq_some_iff] at h
    obtain ⟨middle, hfirst, hrest⟩ := h
    exact ih hrest (shareReach_shown hfirst hshare)

/-- The operands that an instruction keeps are some of those it was given. -/
theorem operands_of_name {words : List String} {operands : List Operand} {name : Name}
    {i : Instruction} (h : name.instruction? words operands = some i) : i.operands ⊆ operands := by
  cases name with
  | plain name =>
    cases h
    exact List.Subset.refl _
  | chosen usual names =>
    unfold Name.instruction? at h
    dsimp only at h
    split at h
    · cases h
      exact List.dropLast_subset _
    · cases h
      exact List.Subset.refl _
  | numbered names =>
    obtain ⟨_, _, heq⟩ := Option.map_eq_some_iff.mp h
    cases heq
    exact List.dropLast_subset _

theorem shareReach_instruction {f : Form} {m : Mode} {operands : List Operand} {i : Instruction}
    (h : f.instruction? m operands = some i) (hshare : ShareReach operands) :
    ShareReach i.operands := by
  unfold Form.instruction? at h
  dsimp only at h
  split at h
  case isTrue => cases h
  case isFalse =>
    split at h
    case isTrue => cases h
    case isFalse =>
      obtain ⟨shown, hnotes, hname⟩ := Option.bind_eq_some_iff.mp h
      exact (shareReach_notes hnotes hshare).of_subset (operands_of_name hname)

-- ======================================================== instructions

/-- Instructions all of whose distances are the same. -/
abbrev HasOneReach (i : Instruction) : Prop := ShareReach i.operands

theorem gives_fetchCoded (m : Mode) (code : Nat) : (fetchCoded m code).Gives HasOneReach := by
  intro bytes i rest hok
  unfold fetchCoded at hok
  split at hok
  case h_1 => cases hok
  case h_2 f hform =>
    suffices hfetching : (fetchCoded.fetching m code f).Gives HasOneReach from
      hfetching bytes i rest hok
    unfold fetchCoded.fetching
    dsimp only
    split
    case' isTrue => refine (gives_fetchNamed m f.slots).bind fun named _ => ?_
    case' isFalse => refine (Gives.pure (P := fun _ => True) trivial).bind fun named _ => ?_
    all_goals
      have hoperands := shareReach_fetchSlots m code named (slots_of_branch hform)
      refine hoperands.bind fun operands hshare => ?_
      split
      case h_1 i hi => exact .pure (shareReach_instruction hi hshare)
      case h_2 => exact .invalid

theorem gives_fetchLonger (m : Mode) : (fetchLonger m).Gives HasOneReach := by
  unfold fetchLonger
  refine (gives_unsigned 1).bind fun second _ => ?_
  split
  case isTrue => exact (gives_unsigned 1).bind fun _ _ => gives_fetchCoded m _
  case isFalse => exact gives_fetchCoded m _

theorem gives_fetchVector (m : Mode) (isShort : Bool) :
    (fetchVector m isShort).Gives HasOneReach := by
  unfold fetchVector
  refine (gives_require _).bind fun _ _ => (gives_unsigned 1).bind fun first _ => ?_
  dsimp only
  split
  case isTrue => exact (gives_unsigned 1).bind fun _ _ => gives_fetchCoded _ _
  case isFalse =>
    refine (gives_unsigned 1).bind fun second _ => (gives_unsigned 1).bind fun code _ => ?_
    split
    · exact gives_fetchCoded _ _
    · exact gives_fetchCoded _ _
    · exact gives_fetchCoded _ _
    · exact .invalid

theorem gives_fetchOpened (m : Mode) (code : Nat) : (fetchOpened m code).Gives HasOneReach := by
  intro bytes i rest hok
  unfold fetchOpened at hok
  dsimp only at hok
  split at hok
  case isTrue => exact gives_fetchVector m _ bytes i rest hok
  case isFalse =>
    split at hok
    case isTrue => exact gives_fetchLonger m bytes i rest hok
    case isFalse => exact gives_fetchCoded m code bytes i rest hok

/-- An instruction takes at least one byte: the first, which stands before the
code or begins it. The induction is on how many bytes may still stand before
the code. -/
theorem fetchPrefixed_some {bound : Nat} {m : Mode} {code rest : List UInt8} {i : Instruction}
    (h : fetchPrefixed bound m code = some (i, rest)) :
    rest.length < code.length ∧ HasOneReach i := by
  induction bound generalizing m code with
  | zero => cases h
  | succ bound ih =>
    obtain ⟨byte, behind, hbyte, hbehind⟩ := exists_of_bind_eq_some h
    obtain ⟨hone, rfl⟩ := unsigned_some hbyte
    have hshorter : (code.drop 1).length < code.length := by
      rw [List.length_drop]
      omega
    cases hwith : m.with? byte with
    | some m' =>
      rw [hwith] at hbehind
      obtain ⟨hlength, hshare⟩ := ih hbehind
      exact ⟨Nat.lt_trans hlength hshorter, hshare⟩
    | none =>
      rw [hwith] at hbehind
      obtain ⟨hsuffix, hshare⟩ := gives_fetchOpened m _ _ i rest hbehind
      exact ⟨Nat.lt_of_le_of_lt hsuffix.length_le hshorter, hshare⟩

namespace Instruction

variable {architecture : Architecture} {code : List UInt8} {i : Instruction} {size : Nat}

/-- An instruction has at least one byte, and no more than there are. -/
theorem size_of_ofCode? (h : ofCode? architecture code = some (i, size)) :
    0 < size ∧ size ≤ code.length := by
  obtain ⟨r, hfetch, heq⟩ := Option.map_eq_some_iff.mp h
  cases heq
  have hlt := (fetchPrefixed_some hfetch).1
  have hwindow : (code.take sizeLimit).length ≤ code.length := List.length_take_le' _ _
  exact ⟨by omega, by omega⟩

/-- An instruction refers to no two places by their distances. -/
theorem shareReach_of_ofCode? (h : ofCode? architecture code = some (i, size)) :
    ShareReach i.operands := by
  obtain ⟨r, hfetch, heq⟩ := Option.map_eq_some_iff.mp h
  cases heq
  exact (fetchPrefixed_some hfetch).2

end Instruction

end ClrListing.Native
