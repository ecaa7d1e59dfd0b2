/-
The names that instructions are shown with.

The address that an instruction refers to is looked up while code is gone
over for the first time, and what is found is kept for all instructions that
refer there. An instruction that refers to the next one asks for nothing, but
another may have asked for the same address. So the second pass, where it
writes an instruction, finds names that the instruction did not ask for.

Each of its two uses of a name has a guard against that: an annotation is
looked for only at an address other than the next, and so is the name that
stands behind the address in the text. What an instruction is shown with is
then what a direct look-up gives (`lookup_symbolsOf`, `shows_listing`), if
the engine asks for the names in the way it says (`Asks`).
-/
import ClrListing.Proofs.Machine.Engine

namespace ClrListing.Native

/-- An address as it is written, with a signature behind it if there is one. -/
def label (architecture : Architecture) (address : UInt64) (signature? : Option String) : String :=
  match signature? with
  | some signature => architecture.format address ++ " (" ++ signature ++ ")"
  | none => architecture.format address

/-- Whether a text stands in another. -/
def StandsIn (part whole : String) : Prop := ∃ before after, whole = before ++ part ++ after

/-- Whether an instruction that refers to an address is annotated with what
is looked up there, unless that is the next instruction, and not
otherwise. -/
def Decoded.IsAnnotated (lookup : SymbolLookup) (target? : Option UInt64) (next : UInt64)
    (d : Decoded) : Prop :=
  ∀ signature, d.annotation = some signature ↔
    ∃ target, target? = some target ∧ target ≠ next ∧ lookup target = some signature

end ClrListing.Native

namespace ClrListing.Machine.Engine

open Native

variable {Instr : Type} {e : Engine Instr} {architecture : Architecture} {lookup : SymbolLookup}
  {known : Symbols} {i : Instr} {t : UInt64}

-- ============================================================ knowing

theorem farTarget?_eq_some : e.farTarget? i = some t ↔ e.target? i = some t ∧ t ≠ e.next i := by
  unfold farTarget?
  rw [Option.filter_eq_some_iff, decide_eq_true_iff]

theorem farTarget?_of_ne (h : e.target? i = some t) (hnext : t ≠ e.next i) :
    e.farTarget? i = some t :=
  farTarget?_eq_some.mpr ⟨h, hnext⟩

theorem farTarget?_of_eq (h : e.target? i = some t) (hnext : t = e.next i) :
    e.farTarget? i = none := by
  unfold farTarget?
  rw [h, Option.filter_some, if_neg (by simp [hnext])]

/-- An address that is not the next instruction is looked up unless it is
known. -/
theorem note_eq (lookup : SymbolLookup) (known : Symbols) (i : Instr) :
    e.note lookup known i = match e.farTarget? i with
      | none => known
      | some target =>
        if (known.lookup target).isSome then known
        else match lookup target with
          | some signature => known ++ [(target, signature)]
          | none => known := by
  unfold note
  cases htarget : e.target? i with
  | none =>
    unfold farTarget?
    rw [htarget]
    rfl
  | some target =>
    dsimp only
    by_cases hnext : target = e.next i
    case pos => rw [farTarget?_of_eq htarget hnext, if_neg fun h => h.1 hnext]
    case neg =>
      rw [farTarget?_of_ne htarget hnext]
      dsimp only
      cases known.lookup target with
      | some signature => rw [if_neg (by simp), if_pos (by rfl)]
      | none => exact (if_pos ⟨hnext, rfl⟩).trans (if_neg Bool.false_ne_true).symm

/-- Whether all that is known would also be looked up. -/
def Sound (lookup : SymbolLookup) (known : Symbols) : Prop :=
  ∀ t signature, known.lookup t = some signature → lookup t = some signature

/-- What is known after one instruction more. -/
theorem lookup_note (hknown : Sound lookup known) (i : Instr) (t : UInt64) :
    (e.note lookup known i).lookup t
      = if e.farTarget? i = some t then lookup t else known.lookup t := by
  rw [note_eq]
  cases e.farTarget? i with
  | none => rfl
  | some target =>
    dsimp only
    by_cases heq : target = t
    case pos =>
      subst heq
      rw [if_pos rfl]
      cases hfound : known.lookup target with
      | some signature => exact hfound.trans (hknown target signature hfound).symm
      | none =>
        rw [if_neg (by simp)]
        cases lookup target with
        | some signature =>
          dsimp only
          rw [List.lookup_append, hfound, Option.none_or, List.lookup_cons_self]
        | none => exact hfound
    case neg =>
      have hother : (t == target) = false := beq_false_of_ne (Ne.symm heq)
      rw [if_neg fun h => heq (Option.some.inj h)]
      split
      · rfl
      · cases lookup target with
        | some signature =>
          dsimp only
          rw [List.lookup_append, List.lookup_cons, hother, List.lookup_nil, Option.or_none]
        | none => rfl

theorem sound_note (hknown : Sound lookup known) (i : Instr) :
    Sound lookup (e.note lookup known i) := by
  intro t signature h
  rw [lookup_note hknown] at h
  split at h
  · exact h
  · exact hknown t signature h

/-- After instructions, what one of them refers to is known just as it is
looked up. The induction carries an address that is already known like
that, which each further instruction leaves. -/
theorem lookup_foldl_note {found : List Instr} (hknown : Sound lookup known)
    (h : known.lookup t = lookup t ∨ ∃ i ∈ found, e.farTarget? i = some t) :
    (found.foldl (e.note lookup) known).lookup t = lookup t := by
  induction found generalizing known with
  | nil =>
    rcases h with h | ⟨_, hi, _⟩
    · exact h
    · cases hi
  | cons first rest ih =>
    refine ih (sound_note hknown first) ?_
    rw [lookup_note hknown]
    by_cases hfirst : e.farTarget? first = some t
    case pos => exact .inl (if_pos hfirst)
    case neg =>
      rw [if_neg hfirst]
      rcases h with h | ⟨i, hi, hfar⟩
      · exact .inl h
      · rcases List.mem_cons.mp hi with rfl | hi
        · exact absurd hfar hfirst
        · exact .inr ⟨i, hi, hfar⟩

/-- What is known after all instructions is a direct look-up for each of
them. -/
theorem lookup_symbolsOf {found : List Instr} (hi : i ∈ found) (h : e.farTarget? i = some t) :
    (e.symbolsOf lookup found).lookup t = lookup t :=
  lookup_foldl_note (fun _ _ h => by cases h) (.inr ⟨i, hi, h⟩)

-- ============================================================= asking

/-- What an engine makes of code, where that is an instruction. -/
def IsInstruction (e : Engine Instr) (i : Instr) : Prop :=
  ∃ architecture ahead address, i = e.decode architecture ahead address ∧ e.isInvalid i = false

/-- Whether an engine may ask for the text of an address for an operand: for
one that the instruction has, and if that refers to an address then for no
other. -/
def MayAsk (e : Engine Instr) (i : Instr) (own : Option Nat) (address : UInt64) : Prop :=
  ∀ operand, own = some operand → operand < e.operandCount i
    ∧ (e.isReference i operand = true → address = e.targetOf i operand)

/-- An instruction refers to one address. An engine writes it down by what it
is told when it asks, and where it asks for that address it writes what it is
told. -/
structure Asks (e : Engine Instr) : Prop where
  single : ∀ i, e.IsInstruction i → ∀ o < e.operandCount i, ∀ o' < e.operandCount i,
    e.isReference i o = true → e.isReference i o' = true → e.targetOf i o = e.targetOf i o'
  text : ∀ i, e.IsInstruction i → ∀ answers answers' : Resolver Instr,
    (∀ n own address size, e.MayAsk i own address →
      answers i n own address size = answers' i n own address size) →
    e.text answers i = e.text answers' i
  shows : ∀ i, e.IsInstruction i → ∀ (answers : Resolver Instr) target shown,
    e.target? i = some target →
    (∀ n, ∀ o < e.operandCount i, ∀ size, e.isReference i o = true →
      answers i n (some o) target size = some (target, shown)) →
    StandsIn shown (e.text answers i)

/-- An operand that refers to an address refers to that of the
instruction. -/
theorem Asks.target?_eq (he : e.Asks) (hi : e.IsInstruction i) {o : Nat}
    (ho : o < e.operandCount i) (href : e.isReference i o = true) :
    e.target? i = some (e.targetOf i o) :=
  target?_eq_some ho href fun o' ho' href' => he.single i hi o' ho' o ho href' href

-- ============================================================ showing

/-- The text for the address of an operand that refers to it, with a signature
behind it if there is one. -/
def labels (e : Engine Instr) (architecture : Architecture) (signature? : Option String) :
    Resolver Instr :=
  fun i _ own address _ =>
    match own with
    | none => none
    | some operand =>
      if e.isReference i operand then some (address, label architecture address signature?)
      else none

/-- What an instruction is shown with: the name of what it refers to as an
annotation, and in its text the address that it refers to, with that name
behind it where it is annotated. -/
structure Shows (e : Engine Instr) (architecture : Architecture) (lookup : SymbolLookup) (i : Instr)
    (d : Decoded) : Prop where
  address : d.address = e.address i
  annotated : d.IsAnnotated lookup (e.target? i) (e.next i)
  text : d.text = e.text (e.labels architecture d.annotation) i
  labelled : ∀ target, e.target? i = some target →
    StandsIn (label architecture target d.annotation) d.text

/-- Whether what is known of the address that an instruction refers to is what
is looked up there. -/
def Knows (e : Engine Instr) (lookup : SymbolLookup) (known : Symbols) (i : Instr) : Prop :=
  ∀ t, e.farTarget? i = some t → known.lookup t = lookup t

/-- The annotation of an instruction. -/
theorem isAnnotated_listing (hknown : e.Knows lookup known i) (bytes : List UInt8) :
    (e.listing architecture known bytes i).IsAnnotated lookup (e.target? i) (e.next i) := by
  intro signature
  change ((e.farTarget? i).bind fun target => known.lookup target) = some signature ↔ _
  rw [Option.bind_eq_some_iff]
  refine exists_congr fun t => ?_
  rw [farTarget?_eq_some, and_assoc]
  refine and_congr_right fun htarget => and_congr_right fun hnext => ?_
  rw [hknown t (farTarget?_eq_some.mpr ⟨htarget, hnext⟩)]

/-- The text for the address that an instruction refers to is the label that
its annotation gives: where that address is the next instruction, what
others have made known of it is not used. -/
theorem symbol_eq_label (htarget : e.target? i = some t) {o : Nat}
    (href : e.isReference i o = true) (n size : Nat) (bytes : List UInt8) :
    e.symbol architecture known i n (some o) t size
      = some (t, label architecture t
          (Decoded.annotation (e.listing architecture known bytes i))) := by
  have hnamed : Decoded.annotation (e.listing architecture known bytes i)
      = (e.farTarget? i).bind fun target => known.lookup target := rfl
  rw [hnamed]
  unfold symbol
  dsimp only
  rw [if_pos href]
  by_cases hnext : t = e.next i
  case pos =>
    rw [farTarget?_of_eq htarget hnext]
    cases known.lookup t with
    | none => rfl
    | some signature => exact if_neg fun hne => hne hnext
  case neg =>
    rw [farTarget?_of_ne htarget hnext, Option.bind_some]
    cases known.lookup t with
    | none => rfl
    | some signature => exact if_pos hnext

/-- An instruction is shown with what is looked up for it. -/
theorem shows_listing (architecture : Architecture) (he : e.Asks) (hi : e.IsInstruction i)
    (hknown : e.Knows lookup known i) (bytes : List UInt8) :
    e.Shows architecture lookup i (e.listing architecture known bytes i) where
  address := rfl
  annotated := isAnnotated_listing hknown bytes
  text := by
    refine he.text i hi _ _ fun n own address size hask => ?_
    cases own with
    | none => rfl
    | some o =>
      obtain ⟨ho, haddress⟩ := hask o rfl
      by_cases href : e.isReference i o = true
      case pos =>
        have htarget := he.target?_eq hi ho href
        rw [haddress href, symbol_eq_label htarget href n size bytes]
        exact (if_pos href).symm
      case neg =>
        unfold symbol labels
        dsimp only
        rw [if_neg href, if_neg href]
  labelled := fun target htarget =>
    he.shows i hi _ target _ htarget fun n _ _ size href =>
      symbol_eq_label htarget href n size bytes

theorem Reaches.isInstruction {base : UInt64} {code : List UInt8} {offset : Nat}
    {found : List Instr} (h : e.Reaches architecture base code offset found) (hi : i ∈ found) :
    e.IsInstruction i := by
  obtain ⟨place, _, hfront, hvalid⟩ := h.exists_front hi
  exact ⟨_, _, _, hfront, hvalid⟩

/-- Where decoding succeeds, each instruction is shown with what is looked up
for it. -/
theorem shows_of_decodeAll_eq_ok {fuel : Nat} {code : List UInt8} {base : UInt64}
    {ds : List Decoded} (he : e.Asks)
    (h : e.decodeAll fuel code base architecture lookup = .ok ds) :
    ∃ stop found, code.length ≤ stop ∧ e.Reaches architecture base code stop found
      ∧ List.Forall₂ (e.Shows architecture lookup) found ds := by
  obtain ⟨stop, found, hstop, hreach, hall⟩ := exists_of_decodeAll_eq_ok h
  refine ⟨stop, found, hstop, hreach, List.forall₂_iff_get.mpr ⟨hall.length_eq, fun k hk hk' => ?_⟩⟩
  obtain ⟨bytes, heq⟩ := (List.forall₂_iff_get.mp hall).2 k hk hk'
  have hi := List.get_mem found ⟨k, hk⟩
  rw [heq]
  exact shows_listing architecture he (hreach.isInstruction hi)
    (fun t hfar => lookup_symbolsOf hi hfar) bytes

end ClrListing.Machine.Engine
