/-
Full names of types without a bound on the way.

The full name of a type is spelled out by going from a type to the one
around it until there is none. `Spells` is that walk with nothing that
stops it early, so that a type has a spelled name only if the walk comes to
an end. The walk goes through distinct types (`Spells.nodup`): it is not
longer than the list of types, and the bound of `fullName` is never felt
(`Spells.fullName_eq`).

A type with a spelled name does not stand inside itself, however far out
(`Spells.not_inside_itself`), and a chain of types that stand in one another
is no longer than the walk from its first type (`Spells.length_chain`).
-/
import ClrListing.Assembly.Basic
import ClrListing.Proofs.Metadata.Token
import Mathlib.Data.List.Chain
import Mathlib.Data.List.Nodup
import Mathlib.Data.List.Perm.Subperm
import Mathlib.Logic.Relation

namespace ClrListing.Assembly

open Metadata

variable {a : Assembly} {token other outer : Token} {way way' : List Token}
variable {name name' : String}

-- ============================================================= nesting

/-- The type of a token says that it stands directly inside another. -/
def Inside (a : Assembly) (token outer : Token) : Prop :=
  ∃ t, a.type? token = some t ∧ t.enclosing = some outer

/-- Going out from the type of a token, through the types of the tokens
`way`, its full name is `name`. A token without a type is its own name. -/
inductive Spells (a : Assembly) : List Token → Token → String → Prop
  | missing {token : Token} :
      a.type? token = none → Spells a [] token token.display
  | top {token : Token} {t : TypeDef} :
      a.type? token = some t → t.enclosing = none →
      Spells a [token] token (Text.qualify t.space t.name)
  | inner {way : List Token} {token outer : Token} {t : TypeDef} {full : String} :
      a.type? token = some t → t.enclosing = some outer → Spells a way outer full →
      Spells a (token :: way) token (full ++ "+" ++ t.name)

namespace Spells

/-- There is one way out from a type. -/
theorem way_eq (h : Spells a way token name) (h' : Spells a way' token name') : way = way' := by
  induction h generalizing way' name' with
  | missing hnone =>
    cases h' with
    | missing _ => rfl
    | top hsome _ => simp [hnone] at hsome
    | inner hsome _ _ => simp [hnone] at hsome
  | top htype htop =>
    cases h' with
    | missing hnone => simp [htype] at hnone
    | top _ _ => rfl
    | inner hsome houter _ =>
      obtain rfl := Option.some.inj (htype.symm.trans hsome)
      simp [htop] at houter
  | inner htype houter _ ih =>
    cases h' with
    | missing hnone => simp [htype] at hnone
    | top hsome htop =>
      obtain rfl := Option.some.inj (htype.symm.trans hsome)
      simp [htop] at houter
    | inner hsome houter' hrest =>
      obtain rfl := Option.some.inj (htype.symm.trans hsome)
      obtain rfl := Option.some.inj (houter.symm.trans houter')
      rw [ih hrest]

/-- The way out of a type that is passed is a part of the way. -/
theorem of_mem (h : Spells a way token name) (hmem : other ∈ way) :
    ∃ rest full, Spells a rest other full ∧ rest <:+ way := by
  induction h with
  | missing _ => simp at hmem
  | top htype htop =>
    obtain rfl := List.mem_singleton.mp hmem
    exact ⟨_, _, .top htype htop, List.suffix_rfl⟩
  | @inner way _ _ _ _ htype houter hway ih =>
    rcases List.mem_cons.mp hmem with rfl | hmem
    · exact ⟨_, _, .inner htype houter hway, List.suffix_rfl⟩
    · obtain ⟨rest, full, hrest, hsuffix⟩ := ih hmem
      exact ⟨rest, full, hrest, hsuffix.trans (List.suffix_cons _ way)⟩

/-- No type is passed twice. -/
theorem nodup (h : Spells a way token name) : way.Nodup := by
  induction h with
  | missing _ => exact List.nodup_nil
  | top _ _ => simp
  | @inner way token _ _ _ htype houter hway ih =>
    refine List.nodup_cons.mpr ⟨fun hmem => ?_, ih⟩
    -- the way from the token would be a part of itself without its front
    obtain ⟨rest, full, hrest, hsuffix⟩ := hway.of_mem hmem
    have hlength := hsuffix.length_le
    rw [← way_eq (.inner htype houter hway) hrest, List.length_cons] at hlength
    omega

/-- What is passed are types. -/
theorem exists_type (h : Spells a way token name) (hmem : other ∈ way) :
    ∃ t, a.type? other = some t := by
  induction h with
  | missing _ => simp at hmem
  | top htype _ =>
    obtain rfl := List.mem_singleton.mp hmem
    exact ⟨_, htype⟩
  | inner htype _ _ ih =>
    rcases List.mem_cons.mp hmem with rfl | hmem
    · exact ⟨_, htype⟩
    · exact ih hmem

end Spells

/-- The row of a token that names a type. -/
theorem row_of_type? {t : TypeDef} (h : a.type? token = some t) :
    token.isIn .typeDef = true ∧ 0 < token.row ∧ token.row ≤ a.types.length
      ∧ a.types[token.row - 1]? = some t := by
  unfold type? atRow? at h
  split at h
  · next hin =>
    split at h
    · cases h
    · next hrow =>
      have hlt := (List.getElem?_eq_some_iff.mp h).1
      exact ⟨hin, by omega, by omega, h⟩
  · cases h

namespace Spells

/-- A way passes no more types than there are. -/
theorem length_le (h : Spells a way token name) : way.length ≤ a.types.length := by
  have hrows : (way.map Token.row).Nodup := by
    refine List.Nodup.map_on ?_ h.nodup
    intro x hx y hy heq
    obtain ⟨t, ht⟩ := h.exists_type hx
    obtain ⟨u, hu⟩ := h.exists_type hy
    rw [← Token.ofRow_row (row_of_type? ht).1, heq, Token.ofRow_row (row_of_type? hu).1]
  have hsubset : way.map Token.row ⊆ List.range' 1 a.types.length := by
    intro row hrow
    obtain ⟨x, hx, rfl⟩ := List.mem_map.mp hrow
    obtain ⟨t, ht⟩ := h.exists_type hx
    obtain ⟨-, hpos, hle, -⟩ := row_of_type? ht
    rw [List.mem_range'_1]
    omega
  simpa using (List.subperm_of_subset hrows hsubset).length_le

theorem fullNameWithin_eq (h : Spells a way token name) {bound : Nat}
    (hbound : way.length < bound) :
    a.fullNameWithin bound token = name := by
  induction h generalizing bound with
  | missing hnone =>
    obtain ⟨bound, rfl⟩ := Nat.exists_eq_add_one_of_ne_zero (by omega : bound ≠ 0)
    simp only [fullNameWithin, hnone]
  | top htype htop =>
    obtain ⟨bound, rfl⟩ := Nat.exists_eq_add_one_of_ne_zero (by omega : bound ≠ 0)
    simp only [fullNameWithin, htype, htop]
  | inner htype houter _ ih =>
    rw [List.length_cons] at hbound
    obtain ⟨bound, rfl⟩ := Nat.exists_eq_add_one_of_ne_zero (by omega : bound ≠ 0)
    simp only [fullNameWithin, htype, houter]
    rw [ih (by omega)]

/-- The full name is what is spelled out without a bound. -/
theorem fullName_eq (h : Spells a way token name) : a.fullName token = name :=
  h.fullNameWithin_eq (Nat.lt_succ_of_le h.length_le)

-- ============================================================== chains

/-- The way out of the type around is shorter. -/
theorem outward (h : Spells a way token name) (hin : a.Inside token outer) :
    ∃ rest full, way = token :: rest ∧ Spells a rest outer full := by
  obtain ⟨t, ht, houter⟩ := hin
  cases h with
  | missing hnone => simp [hnone] at ht
  | top htype htop =>
    obtain rfl := Option.some.inj (htype.symm.trans ht)
    simp [htop] at houter
  | inner htype houter' hrest =>
    obtain rfl := Option.some.inj (htype.symm.trans ht)
    obtain rfl := Option.some.inj (houter'.symm.trans houter)
    exact ⟨_, _, rfl, hrest⟩

/-- A chain of types that stand in one another is no longer than the way out
from the first, if there is nothing but types to stand in. -/
theorem length_chain {chain : List Token} (h : Spells a way token name)
    (hinside : ∀ token outer, a.Inside token outer → ∃ t, a.type? outer = some t)
    (htype : ∃ t, a.type? token = some t) (hchain : (token :: chain).IsChain a.Inside) :
    (token :: chain).length ≤ way.length := by
  induction chain generalizing way token name with
  | nil =>
    obtain ⟨t, ht⟩ := htype
    cases h with
    | missing hnone => simp [hnone] at ht
    | top _ _ => exact Nat.le_refl _
    | inner _ _ _ => exact Nat.succ_le_succ (Nat.zero_le _)
  | cons next chain ih =>
    obtain ⟨hin, hchain⟩ := List.isChain_cons_cons.mp hchain
    obtain ⟨rest, full, rfl, hrest⟩ := h.outward hin
    exact Nat.succ_le_succ (ih hrest (hinside token next hin) hchain)

/-- Farther out the way is shorter. -/
theorem of_transGen (h : Spells a way token name) (hin : Relation.TransGen a.Inside token other) :
    ∃ rest full, Spells a rest other full ∧ rest.length < way.length := by
  induction hin with
  | single hin =>
    obtain ⟨rest, full, rfl, hrest⟩ := h.outward hin
    exact ⟨rest, full, hrest, by simp⟩
  | tail _ hin ih =>
    obtain ⟨rest, full, hrest, hlt⟩ := ih
    obtain ⟨rest', full', rfl, hrest'⟩ := hrest.outward hin
    exact ⟨rest', full', hrest', by simp at hlt; omega⟩

/-- A type with a spelled name does not stand inside itself. -/
theorem not_inside_itself (h : Spells a way token name) :
    ¬ Relation.TransGen a.Inside token token := by
  intro hin
  obtain ⟨rest, full, hrest, hlt⟩ := h.of_transGen hin
  rw [h.way_eq hrest] at hlt
  exact Nat.lt_irrefl _ hlt

end Spells

/-- Names are spelled out if each type stands in one of an earlier row. -/
theorem exists_spells_of_rows
    (h : ∀ token outer, a.Inside token outer → outer.row < token.row) (token : Token) :
    ∃ way, Spells a way token (a.fullName token) := by
  suffices hsome : ∃ way name, Spells a way token name by
    obtain ⟨way, name, hspells⟩ := hsome
    exact ⟨way, hspells.fullName_eq.symm ▸ hspells⟩
  induction hrow : token.row using Nat.strong_induction_on generalizing token with
  | _ row ih =>
    cases htype : a.type? token with
    | none => exact ⟨_, _, .missing htype⟩
    | some t =>
      cases houter : t.enclosing with
      | none => exact ⟨_, _, .top htype houter⟩
      | some outer =>
        have hlt := h token outer ⟨t, htype, houter⟩
        obtain ⟨way, name, hspells⟩ := ih outer.row (hrow ▸ hlt) outer rfl
        exact ⟨_, _, .inner htype houter hspells⟩

end ClrListing.Assembly
