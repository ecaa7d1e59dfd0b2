/-
What a compilation remembers of a type.

Records are never taken back: each keeps its place, what tells its type
from others and whether the type is partial, and a type that is static or
abstract stays so (`Keeps`). A later part of a partial type is therefore
opened at the record of the first (`Hosts`), and opening it changes
nothing but the place of the next declaration.
-/
import ClrListing.Proofs.Lowering.Simulation
import ClrListing.Proofs.Syntax.Parts

namespace ClrListing.Lowering

open Assembly Metadata Source Syntax

-- ============================================================== keeping

/-- Whether a record stands for the same type later. -/
structure RecordKept (r r' : TypeRecord) : Prop where
  key : r'.key = r.key
  token : r'.token = r.token
  kind : r'.kind = r.kind
  isPartial : r'.isPartial = r.isPartial
  isStatic : r.isStatic = true → r'.isStatic = true
  isAbstract : r.isAbstract = true → r'.isAbstract = true

/-- Whether every record is kept in a later state. -/
def Keeps (e e' : Emission) : Prop :=
  ∀ (i : Nat) (r : TypeRecord), e.types[i]? = some r →
    ∃ r', e'.types[i]? = some r' ∧ RecordKept r r'

theorem RecordKept.refl (r : TypeRecord) : RecordKept r r := ⟨rfl, rfl, rfl, rfl, id, id⟩

theorem RecordKept.trans {r r' r'' : TypeRecord} (h : RecordKept r r') (h' : RecordKept r' r'') :
    RecordKept r r'' where
  key := h'.key.trans h.key
  token := h'.token.trans h.token
  kind := h'.kind.trans h.kind
  isPartial := h'.isPartial.trans h.isPartial
  isStatic := fun hr => h'.isStatic (h.isStatic hr)
  isAbstract := fun hr => h'.isAbstract (h.isAbstract hr)

theorem recordKept_marked (r : TypeRecord) (mark : Mark) : RecordKept r (r.marked mark) := by
  cases mark <;> exact ⟨rfl, rfl, rfl, rfl, id, id⟩

theorem recordKept_declaredWith (r : TypeRecord) (ms : Modifiers) :
    RecordKept r (r.declaredWith ms) where
  key := rfl
  token := rfl
  kind := rfl
  isPartial := rfl
  isStatic := fun h => Bool.or_eq_true _ _ ▸ .inl h
  isAbstract := fun h => Bool.or_eq_true _ _ ▸ .inl h

namespace Keeps

variable {e e' e'' : Emission}

theorem of_types (h : e'.types = e.types) : Keeps e e' :=
  fun _ r hr => ⟨r, by rw [h, hr], .refl r⟩

theorem refl (e : Emission) : Keeps e e := of_types rfl

theorem trans (h : Keeps e e') (h' : Keeps e' e'') : Keeps e e'' := by
  intro i r hr
  obtain ⟨r', hr', hkept⟩ := h i r hr
  obtain ⟨r'', hr'', hkept'⟩ := h' i r' hr'
  exact ⟨r'', hr'', hkept.trans hkept'⟩

/-- A key is found where it was found before. -/
theorem findRecord? (h : Keeps e e') {key : TypeKey} {i : Nat}
    (hi : e.findRecord? key = some i) : e'.findRecord? key = some i := by
  obtain ⟨hlt, hkey, hfirst⟩ := List.findIdx?_eq_some_iff_getElem.mp hi
  have hkept : ∀ j (hj : j < e.types.length), ∃ hj' : j < e'.types.length,
      e'.types[j].key = e.types[j].key := by
    intro j hj
    obtain ⟨r', hr', hr⟩ := h j _ (List.getElem?_eq_getElem hj)
    obtain ⟨hj', rfl⟩ := List.getElem?_eq_some_iff.mp hr'
    exact ⟨hj', hr.key⟩
  obtain ⟨hlt', hsame⟩ := hkept i hlt
  refine List.findIdx?_eq_some_iff_getElem.mpr ⟨hlt', by rwa [hsame], fun j hj => ?_⟩
  obtain ⟨_, hsame⟩ := hkept j (Nat.lt_trans hj hlt)
  rw [hsame]
  exact hfirst j hj

end Keeps

section Keeping

variable (setting : Setting)

theorem keeps_modifyRecord (e : Emission) (index : Nat) {f : TypeRecord → TypeRecord}
    (hf : ∀ r, RecordKept r (f r)) : Keeps e (e.modifyRecord index f) := by
  intro i r hr
  refine ⟨if index = i then f r else r, ?_, ?_⟩
  · show (e.types.modify index f)[i]? = _
    rw [List.getElem?_modify, hr]
    rfl
  · split
    · exact hf r
    · exact .refl r

theorem keeps_apply (e : Emission) (s : Surroundings) (record : Nat) (declaring : Token)
    (effect : Effect) : Keeps e (Emission.apply setting s record declaring e effect) := by
  cases effect with
  | complain d span => exact .of_types rfl
  | mark m => exact keeps_modifyRecord e record fun r => recordKept_marked r m
  | declare m hasBody span =>
    refine .of_types ?_
    show (Emission.declareMethod e setting s declaring m hasBody span).types = e.types
    unfold Emission.declareMethod
    simp only []
    split <;> rfl

theorem keeps_applyAll (e : Emission) (s : Surroundings) (record : Nat) (declaring : Token)
    (effects : List Effect) : Keeps e (e.applyAll setting s record declaring effects) := by
  induction effects generalizing e with
  | nil => exact .refl e
  | cons effect rest ih => exact (keeps_apply setting e s record declaring effect).trans (ih _)

theorem keeps_addType (e : Emission) (scope : Scope) (outer : Option Enclosing)
    (decl : TypeDecl) : Keeps e (addType e scope outer decl) := by
  intro i r hr
  refine ⟨r, ?_, .refl r⟩
  show (e.types ++ [_])[i]? = some r
  rw [List.getElem?_append_left (List.getElem?_eq_some_iff.mp hr).1, hr]

theorem keeps_openType (scope : Scope) (outer : Option Enclosing) (decl : TypeDecl)
    (e : Emission) : Keeps e (openType setting scope outer decl e).1 := by
  have hmoved : Keeps e { e with place := e.place + 1 } := .of_types rfl
  unfold openType
  simp only []
  split
  · exact (hmoved.trans (keeps_addType _ scope outer decl)).trans
      (keeps_modifyRecord _ _ fun r => recordKept_declaredWith r _)
  · exact hmoved.trans (keeps_modifyRecord _ _ fun r => recordKept_declaredWith r _)
  · exact .of_types rfl

theorem progress_keeps : Progress setting Keeps where
  refl := .refl
  trans := .trans
  openType := keeps_openType setting
  applyAll := keeps_applyAll setting

end Keeping

-- ============================================================ reopening

/-- Whether the record of a declared type is the one that is found, and
says of the type what the declaration does. -/
structure Hosts (e : Emission) (key : TypeKey) (decl : TypeDecl) (record : Nat) (token : Token) :
    Prop where
  found : e.findRecord? key = some record
  agrees : ∃ r, e.types[record]? = some r ∧ r.token = token ∧ r.kind = decl.kind
    ∧ (decl.modifiers.has .isPartial = true → r.isPartial = true)
    ∧ (decl.modifiers.has .isStatic = true → r.isStatic = true)
    ∧ (decl.modifiers.has .isAbstract = true → r.isAbstract = true)

theorem Hosts.keeps {e e' : Emission} {key : TypeKey} {decl : TypeDecl} {record : Nat}
    {token : Token} (h : Hosts e key decl record token) (hk : Keeps e e') :
    Hosts e' key decl record token where
  found := hk.findRecord? h.found
  agrees := by
    obtain ⟨r, hr, htoken, hkind, hpartial, hstatic, habstract⟩ := h.agrees
    obtain ⟨r', hr', hkept⟩ := hk record r hr
    exact ⟨r', hr', hkept.token.trans htoken, hkept.kind.trans hkind,
      fun hd => hkept.isPartial.trans (hpartial hd), fun hd => hkept.isStatic (hstatic hd),
      fun hd => hkept.isAbstract (habstract hd)⟩

section Reopening

variable {setting : Setting} {scope : Scope} {outer : Option Enclosing} {decl : TypeDecl}
variable {e : Emission} {inside : Enclosing} {place : Nat}

theorem findRecord?_of_fresh (h : destination e scope outer decl = .fresh) :
    e.findRecord? (keyOf scope outer decl.name decl.arity) = none := by
  unfold destination at h
  split at h
  · assumption
  · split at h
    · split at h <;> cases h
    · cases h

theorem findRecord?_of_merged {i : Nat} (h : destination e scope outer decl = .merged i) :
    e.findRecord? (keyOf scope outer decl.name decl.arity) = some i
      ∧ ∃ r, e.types[i]? = some r ∧ r.kind = decl.kind ∧ r.isPartial = true := by
  unfold destination at h
  split at h
  · cases h
  · next hfound =>
    split at h
    · next r hr =>
      split at h
      · next hmerge =>
        cases h
        simp only [Bool.and_eq_true, decide_eq_true_eq] at hmerge
        exact ⟨hfound, r, hr, hmerge.2, hmerge.1.2⟩
      · cases h
    · cases h

/-- A record that is found hosts the declaration that is entered at it. -/
theorem hosts_entered {record : Nat} {r : TypeRecord}
    (hfound : e.findRecord? (keyOf scope outer decl.name decl.arity) = some record)
    (hr : e.types[record]? = some r) (hkind : r.kind = decl.kind)
    (hpartial : decl.modifiers.has .isPartial = true → r.isPartial = true) :
    Hosts (e.modifyRecord record fun r => r.declaredWith decl.modifiers)
      (keyOf scope outer decl.name decl.arity) decl record
      (enclosingOf e scope outer decl place record).token where
  found := (keeps_modifyRecord e record fun r => recordKept_declaredWith r _).findRecord? hfound
  agrees := by
    refine ⟨r.declaredWith decl.modifiers, ?_, ?_, hkind, hpartial, fun h => ?_, fun h => ?_⟩
    · show (e.types.modify record _)[record]? = _
      rw [List.getElem?_modify, hr]
      exact congrArg some (if_pos rfl)
    · unfold enclosingOf
      rw [hr]
      rfl
    · exact (congrArg _ h).trans (Bool.or_true _)
    · exact (congrArg _ h).trans (Bool.or_true _)

/-- The record of a type that is opened hosts it. -/
theorem hosts_openType (h : (openType setting scope outer decl e).2 = some inside) :
    Hosts (openType setting scope outer decl e).1 (keyOf scope outer decl.name decl.arity) decl
      inside.record inside.token := by
  unfold openType at h ⊢
  simp only [] at h ⊢
  split at h
  · next hdest =>
    cases h
    refine hosts_entered (r := ⟨keyOf scope outer decl.name decl.arity, e.builder.nextType,
      decl.kind, decl.modifiers.has .isPartial, false, false, false, false, false⟩) ?_ ?_ rfl id
    · have hnone : (e.types.findIdx? fun r => r.key = keyOf scope outer decl.name decl.arity)
          = none := findRecord?_of_fresh hdest
      show ((e.types ++ [_]).findIdx? _) = _
      rw [List.findIdx?_append, hnone, List.findIdx?_cons, if_pos (decide_eq_true rfl)]
      exact congrArg some (Nat.zero_add _)
    · show (e.types ++ [_])[e.types.length]? = _
      rw [List.getElem?_append_right (Nat.le_refl _), Nat.sub_self]
      rfl
  · next record hdest =>
    obtain ⟨hfound, r, hr, hkind, hpartial⟩ := findRecord?_of_merged hdest
    cases h
    exact hosts_entered hfound hr hkind fun _ => hpartial
  · cases h

/-- What is seen from inside a type that is opened. -/
theorem surroundings_openType (h : (openType setting scope outer decl e).2 = some inside) :
    inside.surroundings = ⟨decl.kind, decl.name, displayOf scope outer decl.name,
      scope.inType e.place decl.typeParams⟩ := by
  unfold openType at h
  simp only [] at h
  split at h <;> cases h <;> rfl

theorem modify_eq_self {rs : List TypeRecord} {i : Nat} {r : TypeRecord}
    {f : TypeRecord → TypeRecord} (hr : rs[i]? = some r) (hf : f r = r) : rs.modify i f = rs := by
  refine List.ext_getElem? fun j => ?_
  rw [List.getElem?_modify]
  split
  · next heq =>
    subst heq
    rw [hr]
    exact congrArg some hf
  · cases rs[j]? <;> rfl

/-- A part of a type whose record hosts it is opened at that record, and
changes nothing else. -/
theorem openType_again (setting : Setting) {part : TypeDecl}
    (h : Hosts e (keyOf scope outer decl.name decl.arity) decl inside.record inside.token)
    (hs : inside.surroundings = ⟨decl.kind, decl.name, displayOf scope outer decl.name,
      scope.inType place decl.typeParams⟩)
    (hdecl : decl.modifiers.has .isPartial = true) (hpart : IsPart decl part) :
    openType setting scope outer part e = ({ e with place := e.place + 1 }, some
      { inside with surroundings :=
        { inside.surroundings with scope := scope.inType e.place decl.typeParams } }) := by
  obtain ⟨r, hr, htoken, hkind, hpartial, hstatic, habstract⟩ := h.agrees
  have hkey : keyOf scope outer part.name part.arity = keyOf scope outer decl.name decl.arity := by
    rw [hpart.name, TypeDecl.arity, hpart.typeParams]
    rfl
  have hdest : destination { e with place := e.place + 1 } scope outer part
      = .merged inside.record := by
    have hfound : Emission.findRecord? { e with place := e.place + 1 }
        (keyOf scope outer decl.name decl.arity) = some inside.record := h.found
    unfold destination
    rw [hkey, hfound]
    simp only [hr, hpart.isPartial, hpartial hdecl, hkind, hpart.kind, decide_true, Bool.and_true,
      if_true]
  have hsame : r.declaredWith part.modifiers = r := by
    unfold TypeRecord.declaredWith
    rw [hpart.modifiers .isStatic (by decide), hpart.modifiers .isAbstract (by decide)]
    have hor : ∀ {a b : Bool}, (b = true → a = true) → (a || b) = a := by decide
    rw [hor hstatic, hor habstract]
  unfold openType
  simp only [hdest]
  refine Prod.ext ?_ (congrArg some ?_)
  · show Emission.mk _ _ _ (e.types.modify inside.record _) _ _ _ = _
    rw [modify_eq_self hr hsame]
  · unfold enclosingOf
    simp only [hr, hs, hpart.kind, hpart.name, hpart.typeParams, Option.map_some, Option.getD_some,
      htoken]

end Reopening

end ClrListing.Lowering
