/-
Names of types in an image, as the loader spells them and as the module
does.

The loader spells out the full names of all types before the module is
there: it goes out from each type, at most 64 steps, and fails if there are
more. The module spells out the same names later and counts no steps. That
what is loaded went through the loader is what ends the walks of the module
(`exists_spells_of_fullNameFrom?`): no type stands inside itself. Signatures
are written with the names of the loader, and so with those of the module
(`namesAgree_of_load`).
-/
import ClrListing.Proofs.Assembly.Naming
import ClrListing.Proofs.Image.Owners

namespace ClrListing.Image

open Assembly Fallible Metadata

variable {a : Assembly} {s : Streams} {token outer : Token} {t : TypeDef}

-- ============================================================== nesting

/-- Types are numbered by their places, and stand in types of the module. -/
structure Forms (a : Assembly) : Prop where
  fits : a.types.length < Token.rowLimit
  numbered : ∀ i (t : TypeDef), a.types[i]? = some t → t.token = .ofRow .typeDef (i + 1)
  nested : NestedIn a.types a.types.length

theorem Reading.Gives.forms {r : Reading} (h : r.Gives s a)
    (hfit : a.types.length < Token.rowLimit) : Forms a where
  fits := hfit
  numbered i t ht := by
    obtain ⟨_, -, htoken, -⟩ := h.readFrom.exists_row ht
    exact htoken
  nested := h.nestedIn

namespace Forms

theorem type?_of_mem (h : Forms a) (ht : t ∈ a.types) : a.type? t.token = some t := by
  obtain ⟨i, hi⟩ := List.mem_iff_getElem?.mp ht
  have hlt : i < a.types.length := (List.getElem?_eq_some_iff.mp hi).1
  have hfit := h.fits
  rw [h.numbered i t hi, type?, if_pos (Token.isIn_ofRow _ _), Token.row_ofRow (by omega), atRow?,
    if_neg (Nat.succ_ne_zero i), Nat.add_sub_cancel]
  exact hi

theorem token_of_type? (h : Forms a) (ht : a.type? token = some t) : t.token = token := by
  obtain ⟨hin, hpos, -, hat⟩ := row_of_type? ht
  rw [h.numbered _ t hat, Nat.sub_add_cancel hpos, Token.ofRow_row hin]

/-- What a type stands in is a type of the module. -/
theorem exists_around (h : Forms a) (ht : a.type? token = some t)
    (houter : t.enclosing = some outer) :
    ∃ u, a.type? outer = some u ∧ around? a.types t = some u := by
  obtain ⟨-, -, -, hat⟩ := row_of_type? ht
  obtain ⟨row, rfl, hpos, hle⟩ := h.nested t (List.mem_of_getElem? hat) outer houter
  have hfit := h.fits
  have hrow : (Token.ofRow .typeDef row).row = row := Token.row_ofRow (by omega)
  have hat' : atRow? a.types row = some a.types[row - 1] := by
    rw [atRow?, if_neg (by omega)]
    exact List.getElem?_eq_getElem (by omega)
  refine ⟨a.types[row - 1], ?_, ?_⟩
  · rw [type?, if_pos (Token.isIn_ofRow _ _), hrow, hat']
  · rw [around?, houter]
    show atRow? a.types (Token.ofRow .typeDef row).row = _
    rw [hrow, hat']

theorem exists_type_of_inside (h : Forms a) (hin : a.Inside token outer) :
    ∃ u, a.type? outer = some u := by
  obtain ⟨t, ht, houter⟩ := hin
  obtain ⟨u, hu, -⟩ := h.exists_around ht houter
  exact ⟨u, hu⟩

-- ========================================================= spelling out

/-- A qualified name is the name behind what is written for the
namespace. -/
theorem exists_qualify_eq (space : String) :
    ∃ front, ∀ name, Text.qualify space name = front ++ name := by
  by_cases hempty : space.isEmpty
  · refine ⟨"", fun name => ?_⟩
    rw [Text.qualify, if_pos hempty, String.empty_append]
  · refine ⟨space ++ ".", fun name => ?_⟩
    rw [Text.qualify, if_neg hempty]

theorem fullNameFrom?_of_top {types : List TypeDef} (htop : t.enclosing = none) (levels : Nat)
    (name : String) : fullNameFrom? types levels t name = some (Text.qualify t.space name) := by
  cases levels <;> simp only [fullNameFrom?, around?, htop, Option.bind_none]

theorem exists_spells_of_top {levels : Nat} {suffix full : String} (ht : a.type? token = some t)
    (htop : t.enclosing = none) (hfull : fullNameFrom? a.types levels t suffix = some full) :
    ∃ front way, full = front ++ suffix ∧ Spells a way token (front ++ t.name)
      ∧ way.length ≤ levels + 1 := by
  obtain ⟨front, hfront⟩ := exists_qualify_eq t.space
  rw [fullNameFrom?_of_top htop, hfront] at hfull
  have hspells : Spells a [token] token (front ++ t.name) := hfront t.name ▸ .top ht htop
  exact ⟨front, [token], (Option.some.inj hfull).symm, hspells, by simp⟩

/-- What the loader writes before the name of something in a type is what
the walk out of that type spells, and its limit is one on the walk. -/
theorem exists_spells_of_fullNameFrom? (h : Forms a) {levels : Nat} {suffix full : String}
    (ht : a.type? token = some t) (hfull : fullNameFrom? a.types levels t suffix = some full) :
    ∃ front way, full = front ++ suffix ∧ Spells a way token (front ++ t.name)
      ∧ way.length ≤ levels + 1 := by
  induction levels generalizing token t suffix with
  | zero =>
    cases houter : t.enclosing with
    | none => exact exists_spells_of_top ht houter hfull
    | some outer =>
      obtain ⟨u, -, haround⟩ := h.exists_around ht houter
      unfold fullNameFrom? at hfull
      simp only [haround] at hfull
      cases hfull
  | succ levels ih =>
    cases houter : t.enclosing with
    | none => exact exists_spells_of_top ht houter hfull
    | some outer =>
      obtain ⟨u, hu, haround⟩ := h.exists_around ht houter
      unfold fullNameFrom? at hfull
      simp only [haround] at hfull
      obtain ⟨front, way, rfl, hspells, hlength⟩ := ih hu hfull
      refine ⟨front ++ u.name ++ "+", token :: way, ?_, .inner ht houter hspells,
        Nat.succ_le_succ hlength⟩
      simp only [String.append_assoc]

end Forms

-- ================================================================ names

/-- The names of the loader, for each type of the module and each type of
another. -/
structure Spelled (a : Assembly) (names : TypeNames) : Prop where
  /-- A type of the module has its spelled name, which takes few steps. -/
  own : ∀ token name, (token, name) ∈ names → token.isIn .typeDef = true →
    ∃ way, Spells a way token name ∧ way.length ≤ nestingLimit + 1
  /-- Each type of the module has a name. -/
  all : ∀ t ∈ a.types, ∃ name, (t.token, name) ∈ names

theorem spelled_of_readTypeNames (h : Forms a) {names : TypeNames}
    (hnames : readTypeNames s a.types = .ok names) : Spelled a names := by
  unfold readTypeNames at hnames
  obtain ⟨refs, -, hnames⟩ := exists_of_bind_eq_ok hnames
  obtain ⟨own, hown, hnames⟩ := exists_of_bind_eq_ok hnames
  obtain ⟨foreign, hforeign, hnames⟩ := exists_of_bind_eq_ok hnames
  cases hnames
  refine ⟨fun token name hmem hin => ?_, fun t ht => ?_⟩
  · rcases List.mem_append.mp hmem with hmem | hmem
    · obtain ⟨i, hi⟩ := List.mem_iff_getElem?.mp hmem
      obtain ⟨t, ht, hentry⟩ := exists_of_mapM_eq_ok hown hi
      obtain ⟨full, hfull, hentry⟩ := exists_of_bind_eq_ok hentry
      cases hentry
      unfold typeDefName at hfull
      split at hfull
      · next full' hsome =>
        cases hfull
        have htype := h.type?_of_mem (List.mem_of_getElem? ht)
        obtain ⟨front, way, rfl, hspells, hlength⟩ := h.exists_spells_of_fullNameFrom? htype hsome
        exact ⟨way, hspells, hlength⟩
      · cases hfull
    · obtain ⟨i, hi⟩ := List.mem_iff_getElem?.mp hmem
      obtain ⟨row, -, hentry⟩ := exists_of_mapM_eq_ok hforeign hi
      obtain ⟨full, -, hentry⟩ := exists_of_bind_eq_ok hentry
      cases hentry
      -- a type of another module is in another table
      have hforeign := Token.isIn_ofRow .typeRef row.row
      unfold Token.isIn at hin hforeign
      rw [decide_eq_true_eq] at hin hforeign
      rw [hforeign] at hin
      cases hin
  · obtain ⟨i, hi⟩ := List.mem_iff_getElem?.mp ht
    have hforall := forall₂_of_mapM_eq_ok hown
    have hlt : i < own.length := hforall.length_eq ▸ (List.getElem?_eq_some_iff.mp hi).1
    obtain ⟨u, hu, hentry⟩ := exists_of_mapM_eq_ok hown (List.getElem?_eq_getElem hlt)
    cases hi.symm.trans hu
    obtain ⟨full, -, hentry⟩ := exists_of_bind_eq_ok hentry
    have hmem : (t.token, full) ∈ own := by
      rw [Except.ok.inj hentry]
      exact List.getElem_mem hlt
    exact ⟨full, List.mem_append_left _ hmem⟩

namespace Spelled

variable {names : TypeNames}

/-- The walk out of any token ends, after few steps. -/
theorem exists_spells (h : Spelled a names) (hforms : Forms a) (token : Token) :
    ∃ way, Spells a way token (a.fullName token) ∧ way.length ≤ nestingLimit + 1 := by
  cases htype : a.type? token with
  | none =>
    have hspells : Spells a [] token token.display := .missing htype
    exact ⟨[], hspells.fullName_eq.symm ▸ hspells, Nat.zero_le _⟩
  | some t =>
    obtain ⟨hin, -, -, hat⟩ := row_of_type? htype
    obtain ⟨name, hmem⟩ := h.all t (List.mem_of_getElem? hat)
    rw [hforms.token_of_type? htype] at hmem
    obtain ⟨way, hspells, hlength⟩ := h.own token name hmem hin
    exact ⟨way, hspells.fullName_eq.symm ▸ hspells, hlength⟩

/-- The loader has the name of the module for whatever token of a type of
the module there is, of one that is missing, too. -/
theorem get_eq (h : Spelled a names) (hforms : Forms a) (hin : token.isIn .typeDef = true) :
    names.get token = a.fullName token := by
  unfold TypeNames.get
  cases hlookup : names.lookup token with
  | some name =>
    obtain ⟨before, behind, hsplit, -⟩ := List.lookup_eq_some_iff.mp hlookup
    obtain ⟨way, hspells, -⟩ := h.own token name (by simp [hsplit]) hin
    exact hspells.fullName_eq.symm
  | none =>
    have habsent := List.lookup_eq_none_iff.mp hlookup
    cases htype : a.type? token with
    | none =>
      have hspells : Spells a [] token token.display := .missing htype
      exact hspells.fullName_eq.symm
    | some t =>
      obtain ⟨-, -, -, hat⟩ := row_of_type? htype
      obtain ⟨name, hmem⟩ := h.all t (List.mem_of_getElem? hat)
      have hne := habsent _ hmem
      rw [hforms.token_of_type? htype] at hne
      simp at hne

end Spelled

-- =============================================================== modules

/-- The name of a type for signatures: the full name in the module, if it is
a type of the module. -/
def nameIn (a : Assembly) (names : TypeNames) (token : Token) : String :=
  if token.isIn .typeDef then a.fullName token else names.get token

/-- What the names of a loaded module rest on, and what its signatures are
written with. -/
structure NamesAgree (s : Streams) (methodRows : List MethodDefRow) (names : TypeNames)
    (a : Assembly) : Prop where
  /-- No type stands inside itself, however far out. -/
  acyclic : ∀ token, ¬ Relation.TransGen a.Inside token token
  /-- At most 64 steps lead out of a type. -/
  short : ∀ chain : List Token, chain.IsChain a.Inside → chain.length ≤ nestingLimit + 1
  /-- Full names are spelled out to the end. -/
  spelled : ∀ token, ∃ way, Spells a way token (a.fullName token)
  agree : ∀ token : Token, token.isIn .typeDef = true → names.get token = a.fullName token
  /-- A signature in the module is the one in the image, written with full
  names. -/
  signatures : ∀ (i : Nat) (m : MethodDef), a.methods[i]? = some m →
    ∃ (row : MethodDefRow) (blob : List UInt8) (sig : MethodSig), methodRows[i]? = some row
      ∧ s.blobs.get row.signature = .ok blob ∧ Signature.ofBytes blob = .ok sig
      ∧ m.signature = sig.named
        ⟨nameIn a names, ownerParamsOf a.types m.declaringType, m.genericParams⟩

theorem namesAgree_of_reading {r : Reading} (h : r.Gives s a)
    (hfit : a.types.length < Token.rowLimit) : NamesAgree s r.methodRows r.names a := by
  have hforms := h.forms hfit
  have hspelled := spelled_of_readTypeNames hforms h.names
  have hagree : ∀ token : Token, token.isIn .typeDef = true →
      r.names.get token = a.fullName token := fun token hin => hspelled.get_eq hforms hin
  refine ⟨fun token => ?_, fun chain hchain => ?_, fun token => ?_, hagree, fun i m hm => ?_⟩
  · obtain ⟨way, hspells, -⟩ := hspelled.exists_spells hforms token
    exact hspells.not_inside_itself
  · cases chain with
    | nil => exact Nat.zero_le _
    | cons token chain =>
      cases chain with
      | nil => simp
      | cons next chain =>
        obtain ⟨way, hspells, hlength⟩ := hspelled.exists_spells hforms token
        refine Nat.le_trans (hspells.length_chain ?_ ?_ hchain) hlength
        · exact fun _ _ hin => hforms.exists_type_of_inside hin
        · obtain ⟨t, ht, -⟩ := (List.isChain_cons_cons.mp hchain).1
          exact ⟨t, ht⟩
  · obtain ⟨way, hspells, -⟩ := hspelled.exists_spells hforms token
    exact ⟨way, hspells⟩
  · obtain ⟨row, hrow, -, hread⟩ := h.exists_methodRow hm
    obtain ⟨-, -, blob, sig, hblob, hsig, hnamed⟩ := of_readMethod hread
    have hnames : r.names.get = nameIn a r.names := by
      funext token
      unfold nameIn
      split
      · next hin => exact hagree token hin
      · rfl
    rw [hnames] at hnamed
    exact ⟨row, blob, sig, hrow, hblob, hsig, hnamed⟩

/-- The loader and the module agree about the names of types, whatever is
loaded. -/
theorem namesAgree_of_load {name : String} {bytes : List UInt8}
    (h : (Run.outcome (load name bytes)).1 = .ok a) (hfit : a.types.length < Token.rowLimit) :
    ∃ x s methodRows names, Executable.ofBytes bytes = .ok x ∧ Streams.ofImage x = .ok s
      ∧ s.rows MethodDefRow = .ok methodRows ∧ readTypeNames s a.types = .ok names
      ∧ NamesAgree s methodRows names a := by
  obtain ⟨x, s, r, hx, hs, hr⟩ := exists_reading_of_load h
  exact ⟨x, s, r.methodRows, r.names, hx, hs, hr.methodRows, hr.names,
    namesAgree_of_reading hr hfit⟩

-- ========================================================= a small image

/-- An image with the class `C`, the class `E` in it, and a method that
takes an `E`. -/
def nestedClasses : List UInt8 :=
  smallHeaders
    ++ littleEndianBytes 4 72 ++ [2, 0, 5, 0] ++ littleEndianBytes 4 0x2048
    ++ littleEndianBytes 4 188 ++ littleEndianBytes 4 1 ++ zeros 52
    -- the directory of streams
    ++ littleEndianBytes 4 0x424a5342 ++ [1, 0, 1, 0] ++ zeros 4 ++ littleEndianBytes 4 12
    ++ "v4.0.30319".toUTF8.toList ++ zeros 4 ++ littleEndianBytes 2 3
    ++ littleEndianBytes 4 80 ++ littleEndianBytes 4 88 ++ "#~".toUTF8.toList ++ zeros 2
    ++ littleEndianBytes 4 168 ++ littleEndianBytes 4 12 ++ "#Strings".toUTF8.toList ++ zeros 4
    ++ littleEndianBytes 4 180 ++ littleEndianBytes 4 8 ++ "#Blob".toUTF8.toList ++ zeros 3
    -- two types, a method, and a row that nests the second type in the first
    ++ zeros 4 ++ [2, 0, 0, 1] ++ littleEndianBytes 8 0x20000000044 ++ zeros 8
    ++ littleEndianBytes 4 2 ++ littleEndianBytes 4 1 ++ littleEndianBytes 4 1
    ++ classRow 1 1 ++ classRow 3 2
    ++ littleEndianBytes 4 0x2050 ++ littleEndianBytes 2 0 ++ littleEndianBytes 2 0x86
    ++ littleEndianBytes 2 7 ++ littleEndianBytes 2 1 ++ littleEndianBytes 2 1
    ++ littleEndianBytes 2 2 ++ littleEndianBytes 2 1 ++ zeros 6
    ++ [0, 0x43, 0, 0x45, 0, 0x44, 0, 0x4d, 0, 0, 0, 0] ++ [0, 5, 0x20, 1, 1, 0x12, 8, 0]

/-- Whether an image is loaded, and a condition on the module holds. -/
def loadsTo (bytes : List UInt8) (check : Assembly → Bool) : Bool :=
  match (Run.outcome (load "Sample" bytes)).1 with
  | .ok a => check a
  | .error _ => false

theorem of_loadsTo (bytes : List UInt8) (check : Assembly → Bool) (h : loadsTo bytes check) :
    ∃ a, (Run.outcome (load "Sample" bytes)).1 = .ok a ∧ check a := by
  unfold loadsTo at h
  split at h
  · next a hload => exact ⟨a, hload, h⟩
  · cases h

/-- The class inside has one name, in the module and in the signature. -/
theorem namesAgree_of_nestedClasses :
    ∃ a s methodRows names, (Run.outcome (load "Sample" nestedClasses)).1 = .ok a
      ∧ a.types.length < Token.rowLimit ∧ a.fullName (.ofRow .typeDef 2) = "C+E"
      ∧ a.methods.map (fun m => m.signature.params) = [["C+E"]]
      ∧ NamesAgree s methodRows names a := by
  obtain ⟨a, hload, hcheck⟩ := of_loadsTo nestedClasses
    (fun a => decide (a.types.length < Token.rowLimit)
      && decide (a.fullName (.ofRow .typeDef 2) = "C+E")
      && decide (a.methods.map (fun m => m.signature.params) = [["C+E"]]))
    (by decide +kernel)
  simp only [Bool.and_eq_true, decide_eq_true_eq] at hcheck
  obtain ⟨⟨hfit, hname⟩, hparams⟩ := hcheck
  obtain ⟨-, s, methodRows, names, -, -, -, -, hagree⟩ := namesAgree_of_load hload hfit
  exact ⟨a, s, methodRows, names, hload, hfit, hname, hparams, hagree⟩

end ClrListing.Image
