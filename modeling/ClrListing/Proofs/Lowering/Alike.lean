/-
Two compilations side by side.

One goes through a file, the other through the file with places forgotten
and perhaps a type in parts; its declared types collapse to those of the
first. As long as nothing is wrong the two have the same rows, and records
that differ at most in whether a type is partial (`Alike`). `InStep` says
so of two states, or that one has gone wrong. Every effect and every
declaration that the two have in common keeps them in step; where a type
is in parts is left to the module about parts. The second goes wrong where
the first does, but for a type whose name is taken: what is a second
declaration in one may be one more part in the other. If `back` holds,
there is no such type.
-/
import ClrListing.Proofs.Lowering.Insertion
import ClrListing.Proofs.Lowering.Simulation
import Mathlib.Data.List.Forall2

namespace ClrListing.Lowering

open Assembly Metadata Source Syntax

-- ============================================================ likeness

/-- Whether two records differ at most in whether the type is partial. -/
structure RecordAlike (back : Prop) (r r' : TypeRecord) : Prop where
  same : r' = { r with isPartial := r'.isPartial }
  isPartial : r.isPartial = true → r'.isPartial = true
  back : back → r'.isPartial = r.isPartial

/-- Whether two compilations have the same rows, with nothing wrong. -/
structure Alike (back : Prop) (e e' : Emission) : Prop where
  builder : e'.builder = e.builder
  types : List.Forall₂ (RecordAlike back) e.types e'.types
  keys : e'.keys = e.keys
  nextBody : e'.nextBody = e.nextBody
  clean : e.diagnostics.hasErrors = false
  clean' : e'.diagnostics.hasErrors = false

/-- Whether one of the complaints is that the name of a type is taken. -/
def NameTaken (ds : Diagnostics) : Prop := ∃ d ∈ ds, d.code = "CS0101" ∨ d.code = "CS0102"

/-- Whether the first compilation has gone wrong, and the second as well
unless the first did for a name. -/
structure Broken (back : Prop) (e e' : Emission) : Prop where
  errors : e.diagnostics.hasErrors = true
  errors' : e'.diagnostics.hasErrors = true ∨ ¬ back ∧ NameTaken e.diagnostics

/-- Whether two compilations are alike at the places `n` and `n'`, or have
gone wrong. -/
def InStep (back : Prop) (n n' : Nat) (e e' : Emission) : Prop :=
  Broken back e e' ∨ Alike back e e' ∧ e.place = n ∧ e'.place = n'

section States

variable {back : Prop} {n n' m m' : Nat} {e e' f f' : Emission} {setting setting' : Setting}

theorem Broken.grows (h : Broken back e e') (hf : Grows e f) (hf' : Grows e' f') :
    Broken back f f' where
  errors := hf.hasErrors h.errors
  errors' := by
    rcases h.errors' with herrors | ⟨hback, d, hd, hcode⟩
    · exact .inl (hf'.hasErrors herrors)
    · exact .inr ⟨hback, d, hf.diagnostics.subset hd, hcode⟩

namespace InStep

theorem of_alike (h : Alike back e e') (hn : e.place = n) (hn' : e'.place = n') :
    InStep back n n' e e' :=
  .inr ⟨h, hn, hn'⟩

/-- What two compilations that are alike keep in step, keeps them in step. -/
theorem step (h : InStep back n n' e e') (hf : Grows e f) (hf' : Grows e' f')
    (hstep : Alike back e e' → e.place = n → e'.place = n' → InStep back m m' f f') :
    InStep back m m' f f' := by
  rcases h with hbroken | ⟨halike, hn, hn'⟩
  · exact .inl (hbroken.grows hf hf')
  · exact hstep halike hn hn'

/-- A complaint that both make. -/
theorem complain (h : InStep back n n' e e') (d : Diagnostic) (span span' : Span) :
    InStep back n n' (e.complain setting d span) (e'.complain setting' d span') := by
  refine h.step (grows_complain _ _ _ _) (grows_complain _ _ _ _) fun halike hn hn' => ?_
  have herrors := hasErrors_complain setting e d span
  have herrors' := hasErrors_complain setting' e' d span'
  rw [halike.clean, Bool.false_or] at herrors
  rw [halike.clean', Bool.false_or] at herrors'
  by_cases hd : d.severity = .error
  · exact .inl ⟨herrors.trans (decide_eq_true hd), .inl (herrors'.trans (decide_eq_true hd))⟩
  · exact of_alike { halike with
      clean := herrors.trans (decide_eq_false hd)
      clean' := herrors'.trans (decide_eq_false hd) } hn hn'

end InStep

-- ============================================================= effects

theorem RecordAlike.marked {r r' : TypeRecord} (h : RecordAlike back r r') (mark : Mark) :
    RecordAlike back (r.marked mark) (r'.marked mark) := by
  obtain ⟨hsame, hpartial, hback⟩ := h
  cases mark
  all_goals
    refine ⟨?_, hpartial, hback⟩
    rw [hsame]
    rfl

theorem forall₂_modify {R : TypeRecord → TypeRecord → Prop} {rs rs' : List TypeRecord}
    {g g' : TypeRecord → TypeRecord} (h : List.Forall₂ R rs rs')
    (hg : ∀ r r', R r r' → R (g r) (g' r')) (i : Nat) :
    List.Forall₂ R (rs.modify i g) (rs'.modify i g') := by
  induction h generalizing i with
  | nil =>
    rw [List.modify_nil, List.modify_nil]
    exact .nil
  | cons hr hrest ih =>
    cases i with
    | zero =>
      rw [List.modify_zero_cons, List.modify_zero_cons]
      exact .cons (hg _ _ hr) hrest
    | succ i =>
      rw [List.modify_succ_cons, List.modify_succ_cons]
      exact .cons hr (ih i)

theorem Alike.modifyRecord (h : Alike back e e') {g g' : TypeRecord → TypeRecord}
    (hg : ∀ r r', RecordAlike back r r' → RecordAlike back (g r) (g' r')) (i : Nat) :
    Alike back (e.modifyRecord i g) (e'.modifyRecord i g') :=
  { h with types := forall₂_modify h.types hg i }

variable (hoptions : setting'.options = setting.options)

include hoptions

theorem finishMethod_eq (method : MethodDef) :
    Emission.finishMethod setting' method = Emission.finishMethod setting method := by
  unfold Emission.finishMethod
  rw [hoptions]

theorem Alike.pushMethod (h : Alike back e e') (declaring : Token) (method : MethodDef)
    (hasBody : Bool) :
    Alike back (e.pushMethod setting declaring method hasBody)
      (e'.pushMethod setting' declaring method hasBody) where
  builder := by
    unfold Emission.pushMethod
    simp only [finishMethod_eq hoptions, h.nextBody]
    show e'.builder.addMethod _ _ = e.builder.addMethod _ _
    rw [h.builder]
  types := h.types
  keys := h.keys
  nextBody := by
    show (if hasBody then e'.nextBody + bodyDistance else e'.nextBody) = _
    rw [h.nextBody]
    rfl
  clean := h.clean
  clean' := h.clean'

theorem InStep.declareMethod (h : InStep back n n' e e') (s s' : Surroundings)
    (declaring : Token) (method : MethodDef) (hasBody : Bool) (span span' : Span) :
    InStep back n n' (e.declareMethod setting s declaring method hasBody span)
      (e'.declareMethod setting' s' declaring method hasBody span') := by
  refine h.step (grows_declareMethod _ _ _ _ _ _ _) (grows_declareMethod _ _ _ _ _ _ _)
    fun halike hn hn' => ?_
  unfold Emission.declareMethod
  simp only [halike.keys]
  split
  · -- the signature is taken in both, which is an error whatever it is called
    refine .inl (Broken.grows ⟨?_, .inl ?_⟩ (grows_pushMethod _ _ _ _ _)
      (grows_pushMethod _ _ _ _ _))
    · rw [hasErrors_complain]
      exact (congrArg _ (decide_eq_true rfl)).trans (Bool.or_true _)
    · rw [hasErrors_complain]
      exact (congrArg _ (decide_eq_true rfl)).trans (Bool.or_true _)
  · refine .of_alike (Alike.pushMethod hoptions ?_ declaring method hasBody) hn hn'
    exact { halike with keys := rfl }

theorem InStep.apply (h : InStep back n n' e e') (s s' : Surroundings) (record : Nat)
    (declaring : Token) (effect : Effect) :
    InStep back n n' (Emission.apply setting s record declaring e effect)
      (Emission.apply setting' s' record declaring e' effect.unplaced) := by
  cases effect with
  | complain d span => exact h.complain d span nowhere
  | mark mark =>
    refine h.step (grows_modifyRecord _ _ _) (grows_modifyRecord _ _ _) fun halike hn hn' => ?_
    exact .of_alike (halike.modifyRecord (fun _ _ hr => hr.marked mark) record) hn hn'
  | declare method hasBody span =>
    exact h.declareMethod hoptions s s' declaring method hasBody span nowhere

/-- Effects in common, with and without places. -/
theorem InStep.applyAll (h : InStep back n n' e e') (s s' : Surroundings) (record : Nat)
    (declaring : Token) (effects : List Effect) :
    InStep back n n' (e.applyAll setting s record declaring effects)
      (e'.applyAll setting' s' record declaring (effects.map Effect.unplaced)) := by
  induction effects generalizing e e' with
  | nil => exact h
  | cons effect rest ih => exact ih (h.apply hoptions s s' record declaring effect)

end States

-- ============================================================== opening

/-- Whether two declarations have one header, as far as a compilation and
one that is alike can tell. -/
structure HeaderAlike (back : Prop) (decl decl' : TypeDecl) : Prop where
  kind : decl'.kind = decl.kind
  name : decl'.name = decl.name
  typeParams : decl'.typeParams = decl.typeParams
  modifiers : ∀ m, m ≠ .isPartial → decl'.modifiers.has m = decl.modifiers.has m
  isPartial : decl.modifiers.has .isPartial = true → decl'.modifiers.has .isPartial = true
  back : back → decl'.modifiers.has .isPartial = decl.modifiers.has .isPartial
  constructors : decl'.members.any isTypeConstructor = decl.members.any isTypeConstructor

/-- What a member sees, with the types of the other list. -/
def Surroundings.collapsed (types : List DeclaredType) (c : Nat → Nat) (s : Surroundings) :
    Surroundings :=
  { s with scope := s.scope.collapsed types c }

/-- The type around, with the types of the other list. -/
def Enclosing.collapsed (types : List DeclaredType) (c : Nat → Nat) (o : Enclosing) : Enclosing :=
  { o with surroundings := o.surroundings.collapsed types c }

section Opening

variable {back : Prop} {decl decl' : TypeDecl} {e e' : Emission}

theorem declaredAccess_congr {ms ms' : Modifiers}
    (h : ∀ m, m ≠ .isPartial → ms'.has m = ms.has m) : declaredAccess ms' = declaredAccess ms := by
  unfold declaredAccess
  rw [h .isPublic (by decide), h .isProtected (by decide), h .isInternal (by decide),
    h .isPrivate (by decide)]

theorem HeaderAlike.attributes (h : HeaderAlike back decl decl') (nested : Bool) :
    typeAttributes decl'.kind nested decl'.modifiers decl'.members
      = typeAttributes decl.kind nested decl.modifiers decl.members := by
  have hvisibility : visibility nested decl'.modifiers = visibility nested decl.modifiers := by
    unfold visibility
    rw [declaredAccess_congr h.modifiers, h.modifiers .isPublic (by decide)]
  have hflags : kindFlags decl'.kind decl'.modifiers decl'.members
      = kindFlags decl.kind decl.modifiers decl.members := by
    unfold kindFlags
    rw [h.constructors, h.kind, h.modifiers .isStatic (by decide),
      h.modifiers .isAbstract (by decide), h.modifiers .isSealed (by decide)]
  unfold typeAttributes
  rw [hvisibility, hflags]

theorem RecordAlike.declaredWith {r r' : TypeRecord} (h : RecordAlike back r r')
    {ms ms' : Modifiers} (hms : ∀ m, m ≠ .isPartial → ms'.has m = ms.has m) :
    RecordAlike back (r.declaredWith ms) (r'.declaredWith ms') := by
  obtain ⟨hsame, hpartial, hback⟩ := h
  refine ⟨?_, hpartial, hback⟩
  unfold TypeRecord.declaredWith
  rw [hms .isStatic (by decide), hms .isAbstract (by decide), hsame]

theorem findIdx?_alike {rs rs' : List TypeRecord} (h : List.Forall₂ (RecordAlike back) rs rs')
    (key : TypeKey) :
    (rs'.findIdx? fun r => r.key = key) = rs.findIdx? fun r => r.key = key := by
  induction h with
  | nil => rfl
  | cons hr _ ih =>
    rw [List.findIdx?_cons, List.findIdx?_cons, ih, hr.same]

theorem getElem?_alike {rs rs' : List TypeRecord} (h : List.Forall₂ (RecordAlike back) rs rs')
    (i : Nat) : Option.Rel (RecordAlike back) rs[i]? rs'[i]? := by
  induction h generalizing i with
  | nil => exact .none
  | cons hr _ ih =>
    cases i with
    | zero => exact .some hr
    | succ i => exact ih i

theorem Alike.token_record (h : Alike back e e') (i : Nat) :
    (e'.types[i]?).map TypeRecord.token = (e.types[i]?).map TypeRecord.token := by
  have hrel := getElem?_alike h.types i
  revert hrel
  generalize e.types[i]? = r
  generalize e'.types[i]? = r'
  rintro (⟨hr⟩ | _)
  · rw [Option.map_some, Option.map_some, hr.same]
  · rfl

variable (types : List DeclaredType) (c : Nat → Nat) (sc : Scope) (outer : Option Enclosing)

theorem HeaderAlike.keyOf_eq (h : HeaderAlike back decl decl') :
    keyOf (sc.collapsed types c) (outer.map (Enclosing.collapsed types c)) decl.name decl.arity
      = keyOf sc outer decl'.name decl'.arity := by
  unfold keyOf rowSpace TypeDecl.arity
  rw [h.name, h.typeParams, Option.map_map, Option.isSome_map]
  rfl

/-- A declaration goes to the same place in both, but the first may refuse
what the second takes for a part. -/
theorem Alike.destination_eq (h : Alike back e e') (hh : HeaderAlike back decl decl') :
    destination e' sc outer decl'
        = destination e (sc.collapsed types c) (outer.map (Enclosing.collapsed types c)) decl
      ∨ ¬ back
        ∧ destination e (sc.collapsed types c) (outer.map (Enclosing.collapsed types c)) decl
          = .refused := by
  unfold destination Emission.findRecord?
  rw [hh.keyOf_eq types c sc outer, findIdx?_alike h.types]
  cases e.types.findIdx? fun r => r.key = keyOf sc outer decl'.name decl'.arity with
  | none => exact .inl rfl
  | some i =>
    have hrel := getElem?_alike h.types i
    simp only []
    revert hrel
    generalize e.types[i]? = r
    generalize e'.types[i]? = r'
    rintro (@⟨r, r', hr⟩ | _)
    · have hkind : r'.kind = r.kind := by rw [hr.same]
      simp only [hkind, hh.kind]
      by_cases hback : back
      · rw [hr.back hback, hh.back hback]
        exact .inl rfl
      · by_cases hmerge : (decl.modifiers.has .isPartial && r.isPartial
            && decide (r.kind = decl.kind)) = true
        · have hboth := hmerge
          simp only [Bool.and_eq_true] at hboth
          rw [if_pos hmerge, hh.isPartial hboth.1.1, hr.isPartial hboth.1.2, hboth.2]
          exact .inl rfl
        · rw [if_neg hmerge]
          exact .inr ⟨hback, rfl⟩
    · exact .inl rfl

theorem outerParams_alike (h : Alike back e e') :
    outerParams e' outer = outerParams e (outer.map (Enclosing.collapsed types c)) := by
  unfold outerParams
  rw [h.builder, Option.bind_map]
  rfl

theorem Alike.addType (h : Alike back e e') (hh : HeaderAlike back decl decl') :
    Alike back (addType e (sc.collapsed types c) (outer.map (Enclosing.collapsed types c)) decl)
      (addType e' sc outer decl') := by
  refine ⟨?_, ?_, h.keys, h.nextBody, h.clean, h.clean'⟩
  · show e'.builder.addType _ = e.builder.addType _
    rw [hh.keyOf_eq types c sc outer, h.builder, hh.attributes, hh.typeParams,
      outerParams_alike types c outer h, Option.isSome_map]
  · show List.Forall₂ _ (e.types ++ [_]) (e'.types ++ [_])
    refine List.rel_append h.types (.cons ⟨?_, hh.isPartial, hh.back⟩ .nil)
    rw [hh.keyOf_eq types c sc outer, h.builder, hh.kind]

theorem enclosingOf_alike (h : Alike back e e') (hh : HeaderAlike back decl decl') {n n' : Nat}
    (hc : c n' = n) (record : Nat) :
    enclosingOf e (sc.collapsed types c) (outer.map (Enclosing.collapsed types c)) decl n record
      = (enclosingOf e' sc outer decl' n' record).collapsed types c := by
  have hdisplay : displayOf (sc.collapsed types c) (outer.map (Enclosing.collapsed types c))
      decl.name = displayOf sc outer decl'.name := by
    rw [hh.name]
    cases outer <;> rfl
  unfold enclosingOf
  rw [hdisplay, ← h.token_record record, ← hc, hh.kind, hh.name, hh.typeParams]
  rfl

/-- Whether opening a declaration gave types that are alike, or something is
wrong. -/
def Opened (back : Prop) (types : List DeclaredType) (c : Nat → Nat) (n n' : Nat) (inner : Scope)
    (x x' : Emission × Option Enclosing) : Prop :=
  Broken back x.1 x'.1 ∨ ∃ inside : Enclosing, x.2 = some (inside.collapsed types c)
    ∧ x'.2 = some inside ∧ inside.surroundings.scope = inner
    ∧ Alike back x.1 x'.1 ∧ x.1.place = n ∧ x'.1.place = n'

theorem nameTaken_refused (setting : Setting) (e : Emission) (decl : TypeDecl) (sc : Scope)
    (outer : Option Enclosing) :
    NameTaken (passOver (e.complain setting (alreadyDefined sc outer decl.name) decl.span)
      decl).diagnostics := by
  refine ⟨_, List.mem_append_right _ List.mem_cons_self, ?_⟩
  cases outer with
  | none => exact .inl rfl
  | some o => exact .inr rfl

/-- Declarations with one header are opened alike. -/
theorem InStep.opened (setting setting' : Setting) {n n' : Nat} (h : InStep back n n' e e')
    (hh : HeaderAlike back decl decl') (hc : c n' = n) :
    Opened back types c (n + 1) (n' + 1) (sc.inType n' decl'.typeParams)
      (openType setting (sc.collapsed types c) (outer.map (Enclosing.collapsed types c)) decl e)
      (openType setting' sc outer decl' e') := by
  rcases h with hbroken | ⟨halike, rfl, rfl⟩
  · exact .inl (hbroken.grows (grows_openType _ _ _ _ _) (grows_openType _ _ _ _ _))
  have hmoved : Alike back { e with place := e.place + 1 } { e' with place := e'.place + 1 } :=
    { halike with }
  have hlength : e'.types.length = e.types.length := halike.types.length_eq.symm
  unfold openType
  simp only []
  rcases hmoved.destination_eq types c sc outer hh with
    heq | ⟨hback, hrefused⟩
  · rw [heq]
    split
    · -- both are new
      have hadded := hmoved.addType types c sc outer hh
      rw [hlength]
      refine .inr ⟨_, ?_, rfl, rfl, hadded.modifyRecord (fun _ _ hr => hr.declaredWith hh.modifiers)
        _, rfl, rfl⟩
      rw [← enclosingOf_alike types c sc outer hadded hh hc]
    · -- both go to the record of an earlier declaration
      refine .inr ⟨_, ?_, rfl, rfl, hmoved.modifyRecord (fun _ _ hr => hr.declaredWith hh.modifiers)
        _, rfl, rfl⟩
      rw [← enclosingOf_alike types c sc outer hmoved hh hc]
    · exact .inl ⟨hasErrors_refused _ _ _ _ _, .inl (hasErrors_refused _ _ _ _ _)⟩
  · rw [hrefused]
    exact .inl ⟨hasErrors_refused _ _ _ _ _, .inr ⟨hback, nameTaken_refused _ _ _ _ _⟩⟩

end Opening

-- ===================================================== names in common

/-- Whether declared types stand in a list from `n'` on, and are sent to
places from `n` on, none of them to `p`. -/
def StandsAt (types' : List DeclaredType) (c : Nat → Nat) (p n n' : Nat)
    (declared : List DeclaredType) : Prop :=
  ∀ (i : Nat) (t : DeclaredType), declared[i]? = some t →
    types'[n' + i]? = some t ∧ c (n' + i) = n + i ∧ n + i ≠ p

section Names

variable {types types' : List DeclaredType} {c : Nat → Nat} {p n n' : Nat}

theorem StandsAt.head {t : DeclaredType} {rest : List DeclaredType}
    (h : StandsAt types' c p n n' (t :: rest)) :
    types'[n']? = some t ∧ c n' = n ∧ n ≠ p :=
  h 0 t rfl

theorem StandsAt.tail {t : DeclaredType} {rest : List DeclaredType}
    (h : StandsAt types' c p n n' (t :: rest)) : StandsAt types' c p (n + 1) (n' + 1) rest := by
  intro i u hu
  rw [Nat.add_right_comm n', Nat.add_right_comm n, Nat.add_assoc, Nat.add_assoc]
  exact h (i + 1) u hu

theorem StandsAt.left {xs ys : List DeclaredType} (h : StandsAt types' c p n n' (xs ++ ys)) :
    StandsAt types' c p n n' xs := by
  intro i t ht
  refine h i t ?_
  rw [List.getElem?_append_left (List.getElem?_eq_some_iff.mp ht).1, ht]

theorem StandsAt.right {xs ys : List DeclaredType} (h : StandsAt types' c p n n' (xs ++ ys)) :
    StandsAt types' c p (n + xs.length) (n' + xs.length) ys := by
  intro i t ht
  rw [Nat.add_assoc, Nat.add_assoc]
  refine h (xs.length + i) t ?_
  rw [List.getElem?_append_right (by omega), Nat.add_sub_cancel_left, ht]

namespace Scope

variable {sc : Scope}

/-- The types around a place depend on the declared types alone. -/
theorem around_congr {sc sc' : Scope} (h : sc'.types = sc.types) {bound : Nat} {o : Option Nat} :
    sc'.around bound o = sc.around bound o := by
  induction bound generalizing o with
  | zero => rfl
  | succ bound ih =>
    cases o with
    | none => rfl
    | some place => rw [around, around, ih, h]

/-- How many types around are looked for does not matter if there are
enough. -/
theorem around_eq_of_lt (ho : Outward sc.types) {bound bound' q : Nat} (h : q < bound)
    (h' : q < bound') : sc.around bound (some q) = sc.around bound' (some q) := by
  induction bound generalizing bound' q with
  | zero => omega
  | succ bound ih =>
    obtain ⟨bound', rfl⟩ : ∃ b, bound' = b + 1 := ⟨bound' - 1, by omega⟩
    rw [around, around]
    congr 1
    cases hget : sc.types[q]? with
    | none => rw [Option.bind_none, around_none, around_none]
    | some t =>
      rw [Option.bind_some]
      cases hin : t.enclosing with
      | none => rw [around_none, around_none]
      | some outer =>
        have hlt := ho q t outer hget hin
        exact ih (by omega) (by omega)

theorem enclosingTypes_inType (ho : Outward sc.types) (hvalid : sc.Valid) {q : Nat}
    {t : DeclaredType} (hq : sc.types[q]? = some t) (ht : t.enclosing = sc.enclosing)
    (typeParams : List String) :
    (sc.inType q typeParams).enclosingTypes = q :: sc.enclosingTypes := by
  have houter : sc.around sc.types.length sc.enclosing
      = sc.around (sc.types.length + 1) sc.enclosing := by
    cases hin : sc.enclosing with
    | none => rw [around_none, around_none]
    | some outer =>
      have hlt := hvalid outer hin
      exact around_eq_of_lt ho hlt (by omega)
  unfold enclosingTypes
  have htypes : (sc.inType q typeParams).types = sc.types := rfl
  rw [around_congr htypes, htypes,
    show (sc.inType q typeParams).enclosing = some q from rfl, around, hq, Option.bind_some, ht,
    houter]

theorem valid_inType {q : Nat} {t : DeclaredType} (hq : sc.types[q]? = some t)
    (typeParams : List String) : (sc.inType q typeParams).Valid := by
  rintro _ ⟨⟩
  exact getElem?_lt hq

end Scope

/-- A name that is bound alike outside a type is so inside it, if the
segment that it starts with is found alike there. -/
theorem BoundAlike.inType {sc : Scope} {name : List NameSegment}
    (h : BoundAlike types c p sc name) (hc : Collapses types sc.types c p) (hvalid : sc.Valid)
    {q : Nat} {t : DeclaredType} (hq : sc.types[q]? = some t) (ht : t.enclosing = sc.enclosing)
    (hstarts : ∀ segment ∈ name.head?, FindsAlike types sc.types c q segment)
    (typeParams : List String) : BoundAlike types c p (sc.inType q typeParams) name where
  starts := by
    intro segment hsegment outer houter
    rw [Scope.enclosingTypes_inType hc.outward' hvalid hq ht] at houter
    rcases List.mem_cons.mp houter with rfl | houter
    · exact hstarts segment hsegment
    · exact h.starts segment hsegment outer houter
  dots := h.dots

/-- Whether the types around a scope are declared, and none of them is sent
to `p`. -/
structure Scope.Clear (c : Nat → Nat) (p : Nat) (sc : Scope) : Prop where
  valid : sc.Valid
  outside : ∀ q ∈ sc.enclosingTypes, c q ≠ p

theorem Scope.clear_of_none {sc : Scope} (h : sc.enclosing = none) : sc.Clear c p where
  valid := by
    intro q hq
    rw [h] at hq
    cases hq
  outside := by
    intro q hq
    unfold Scope.enclosingTypes at hq
    rw [h, Scope.around_none] at hq
    cases hq

theorem Scope.Clear.bound {sc : Scope} (h : sc.Clear c p) (hc : Collapses types sc.types c p)
    {name : List NameSegment} (hdots : DotsAlike types c p sc name) :
    BoundAlike types c p sc name where
  starts := fun segment _ outer houter => hc.nested outer segment (h.outside outer houter)
  dots := hdots

theorem Scope.Clear.inType {sc : Scope} (h : sc.Clear c p) (hc : Collapses types sc.types c p)
    {q : Nat} {t : DeclaredType} (hq : sc.types[q]? = some t) (ht : t.enclosing = sc.enclosing)
    (hne : c q ≠ p) (typeParams : List String) : (sc.inType q typeParams).Clear c p where
  valid := Scope.valid_inType hq typeParams
  outside := by
    intro o ho
    rw [Scope.enclosingTypes_inType hc.outward' h.valid hq ht] at ho
    rcases List.mem_cons.mp ho with rfl | ho
    · exact hne
    · exact h.outside o ho

/-- A member has the same effects in both scopes, without places. -/
theorem memberEffects_collapsed {s : Surroundings} (hc : Collapses types s.scope.types c p)
    (hvalid : s.scope.Valid) {m : Member}
    (hb : ∀ name ∈ m.signatureTypes.flatMap TypeExpr.names, BoundAlike types c p s.scope name) :
    memberEffects s m.unplaced
      = (memberEffects (s.collapsed types c) m).map Effect.unplaced := by
  have hnames : ∀ t ∈ m.signatureTypes, ∀ name ∈ t.names, BoundAlike types c p s.scope name :=
    fun t ht name hname => hb name (List.mem_flatMap.mpr ⟨t, ht, hname⟩)
  rw [memberEffects_unplaced]
  congr 1
  refine (memberEffects_congr s (s.scope.collapsed types c) s.scope ?_ ?_).symm
  · exact fun t ht => Scope.spelledAlike_collapsed hc hvalid (hnames t ht)
  · intro typeParams t ht
    have htypes : (s.scope.inMethod typeParams).types = s.scope.types := rfl
    have hc' : Collapses types (s.scope.inMethod typeParams).types c p := hc
    have hin : ∀ name ∈ t.names, BoundAlike types c p (s.scope.inMethod typeParams) name := by
      refine fun name hname => ⟨fun segment hsegment outer houter => ?_,
        (hnames t ht name hname).dots⟩
      unfold Scope.enclosingTypes at houter
      rw [Scope.around_congr htypes] at houter
      exact (hnames t ht name hname).starts segment hsegment outer houter
    exact Scope.spelledAlike_collapsed hc' hvalid hin

theorem delegateEffects_collapsed {s : Surroundings} (hc : Collapses types s.scope.types c p)
    (hvalid : s.scope.Valid) {delegate : Option DelegateSignature} (span : Span)
    (hb : ∀ name ∈ (delegate.toList.flatMap DelegateSignature.signatureTypes).flatMap
      TypeExpr.names, BoundAlike types c p s.scope name) :
    delegateEffects s delegate nowhere
      = (delegateEffects (s.collapsed types c) delegate span).map Effect.unplaced := by
  rw [delegateEffects_unplaced s delegate span]
  congr 1
  refine (delegateEffects_congr s (s.scope.collapsed types c) s.scope fun t ht => ?_).symm
  exact Scope.spelledAlike_collapsed hc hvalid
    fun name hname => hb name (List.mem_flatMap.mpr ⟨t, ht, hname⟩)

end Names

-- ============================================== declarations in common

section Declarations

variable {back : Prop} {types : List DeclaredType} {c : Nat → Nat} {p : Nat}
variable {setting setting' : Setting}

/-- A type whose declaration is opened is emitted by its kind. -/
theorem emitType_of_opened {sc : Scope} {outer : Option Enclosing} {decl : TypeDecl}
    {e : Emission} {inside : Enclosing}
    (h : (openType setting sc outer decl e).2 = some inside) :
    emitType setting sc outer decl e
      = match decl.kind with
        | .delegateType =>
          (openType setting sc outer decl e).1.applyAll setting inside.surroundings inside.record
            inside.token (delegateEffects inside.surroundings decl.delegate decl.span)
        | .enumType => (openType setting sc outer decl e).1
        | .classType | .structType | .interfaceType =>
          emitMembers setting inside decl.members (openType setting sc outer decl e).1 := by
  obtain ⟨kind, name, typeParams, modifiers, bases, members, enumerators, delegate, span⟩ := decl
  rw [emitType]
  generalize openType setting sc outer
    ⟨kind, name, typeParams, modifiers, bases, members, enumerators, delegate, span⟩ e = opened
    at h ⊢
  obtain ⟨e', o⟩ := opened
  obtain rfl : o = some inside := h
  cases kind <;> rfl

/-- Places are no part of a header. -/
theorem HeaderAlike.unplaced {decl decl' : TypeDecl} (h : HeaderAlike back decl decl') :
    HeaderAlike back decl decl'.unplaced := by
  have hmember : ∀ m : Member, isTypeConstructor m.unplaced = isTypeConstructor m := by
    intro m
    cases m <;> rfl
  have hmembers : ∀ ms : List Member,
      (allUnplaced ms).any isTypeConstructor = ms.any isTypeConstructor := by
    intro ms
    induction ms with
    | nil => rfl
    | cons m rest ih => rw [allUnplaced, List.any_cons, List.any_cons, hmember, ih]
  rw [TypeDecl.unplaced_eq]
  exact { h with constructors := (hmembers decl'.members).trans h.constructors }

theorem headerAlike_unplaced (decl : TypeDecl) : HeaderAlike back decl decl.unplaced :=
  HeaderAlike.unplaced ⟨rfl, rfl, rfl, fun _ _ => rfl, id, fun _ => rfl, rfl⟩

/-- A member that is no type. -/
theorem InStep.emitMember_plain (hoptions : setting'.options = setting.options)
    {inside : Enclosing} {m : Member} {n n' : Nat} {e e' : Emission}
    (h : InStep back n n' e e') (hc : Collapses types inside.surroundings.scope.types c p)
    (hvalid : inside.surroundings.scope.Valid)
    (hb : ∀ name ∈ m.signatureTypes.flatMap TypeExpr.names,
      BoundAlike types c p inside.surroundings.scope name) :
    InStep back n n'
      (e.applyAll setting (inside.collapsed types c).surroundings inside.record inside.token
        (memberEffects (inside.collapsed types c).surroundings m))
      (e'.applyAll setting' inside.surroundings inside.record inside.token
        (memberEffects inside.surroundings m.unplaced)) := by
  rw [memberEffects_collapsed hc hvalid hb]
  exact h.applyAll hoptions _ _ _ _ _

mutual

/-- A type declaration keeps two compilations in step. -/
theorem InStep.emitType (hoptions : setting'.options = setting.options) :
    ∀ (decl : TypeDecl) (outer : Option Enclosing) {sc : Scope} {space : String} {n n' : Nat}
    {e e' : Emission}, InStep back n n' e e' →
    Collapses types sc.types c p → sc.Valid → decl.WellNamed →
    StandsAt sc.types c p n n' (declaredInType space sc.enclosing n' decl) →
    (∀ name ∈ decl.names, BoundAlike types c p sc name) →
    InStep back (n + (typeCount decl.members + 1)) (n' + (typeCount decl.members + 1))
      (Lowering.emitType setting (sc.collapsed types c) (outer.map (Enclosing.collapsed types c))
        decl e)
      (Lowering.emitType setting' sc outer decl.unplaced e')
  | ⟨kind, name, typeParams, modifiers, bases, members, enumerators, delegate, span⟩,
      outer, sc, space, n, n', e, e', h, hc, hvalid, hw, hstands, hb => by
    let decl : TypeDecl :=
      ⟨kind, name, typeParams, modifiers, bases, members, enumerators, delegate, span⟩
    rw [declaredInType] at hstands
    obtain ⟨hget, hsent, hne⟩ := hstands.head
    rw [TypeDecl.WellNamed] at hw
    rw [TypeDecl.names] at hb
    have hopen := h.opened types c sc outer setting setting' (headerAlike_unplaced decl) hsent
    rcases hopen with hbroken | ⟨inside, hin, hin', hscope, halike, hn, hn'⟩
    · exact .inl (hbroken.grows (grows_inside _ _ _ _ _) (grows_inside _ _ _ _ _))
    have hopened := InStep.of_alike halike hn hn'
    have hc' : Collapses types inside.surroundings.scope.types c p := by
      rw [hscope]
      exact hc
    have hvalid' : inside.surroundings.scope.Valid := by
      rw [hscope]
      exact Scope.valid_inType hget _
    have hb' : ∀ x ∈ (delegate.toList.flatMap DelegateSignature.signatureTypes).flatMap
          TypeExpr.names ++ namesInMembers members,
        BoundAlike types c p inside.surroundings.scope x := by
      intro x hx
      rw [hscope]
      exact (hb x hx).inType hc hvalid hget rfl
        (fun segment _ => hc.nested n' segment (hsent ▸ hne)) _
    rw [emitType_of_opened hin, emitType_of_opened hin', TypeDecl.unplaced]
    have hnone : kind = .enumType ∨ kind = .delegateType → typeCount members = 0 := by
      intro hkind
      rw [hw.2.1 hkind]
      rfl
    have hencl : inside.surroundings.scope.enclosing = some n' := by
      rw [hscope]
      rfl
    have hstands' : StandsAt inside.surroundings.scope.types c p (n + 1) (n' + 1)
        (declaredInMembers space n' (n' + 1) members) := by
      rw [hscope]
      exact hstands.tail
    have hmembers := InStep.emitMembers hoptions members hopened hc' hvalid' hencl hw.2.2 hstands'
      fun x hx => hb' x (List.mem_append_right _ hx)
    rw [Nat.add_assoc, Nat.add_assoc, Nat.add_comm 1] at hmembers
    cases kind with
    | delegateType =>
      rw [hnone (.inr rfl)]
      simp only []
      rw [delegateEffects_collapsed hc' hvalid' span
        fun x hx => hb' x (List.mem_append_left _ hx)]
      exact hopened.applyAll hoptions _ _ _ _ _
    | enumType =>
      rw [hnone (.inl rfl)]
      exact hopened
    | classType => exact hmembers
    | structType => exact hmembers
    | interfaceType => exact hmembers

theorem InStep.emitMembers (hoptions : setting'.options = setting.options) :
    ∀ (ms : List Member) {inside : Enclosing}
    {space : String} {outer n n' : Nat} {e e' : Emission}, InStep back n n' e e' →
    Collapses types inside.surroundings.scope.types c p → inside.surroundings.scope.Valid →
    inside.surroundings.scope.enclosing = some outer → AllWellNamed ms →
    StandsAt inside.surroundings.scope.types c p n n' (declaredInMembers space outer n' ms) →
    (∀ name ∈ namesInMembers ms, BoundAlike types c p inside.surroundings.scope name) →
    InStep back (n + typeCount ms) (n' + typeCount ms)
      (Lowering.emitMembers setting (inside.collapsed types c) ms e)
      (Lowering.emitMembers setting' inside (allUnplaced ms) e')
  | [], inside, space, outer, n, n', e, e', h, hc, hvalid, hin, hw, hstands, hb => by
    rw [Lowering.emitMembers, allUnplaced, Lowering.emitMembers]
    exact h
  | m :: rest, inside, space, outer, n, n', e, e', h, hc, hvalid, hin, hw, hstands, hb => by
    rw [AllWellNamed] at hw
    rw [declaredInMembers] at hstands
    rw [namesInMembers] at hb
    have hfirst := InStep.emitMember hoptions m h hc hvalid hin hw.1 hstands.left
      fun name hname => hb name (List.mem_append_left _ hname)
    have hright := hstands.right
    rw [length_member] at hright
    have hall := InStep.emitMembers hoptions rest hfirst hc hvalid hin hw.2 hright
      fun name hname => hb name (List.mem_append_right _ hname)
    rw [Lowering.emitMembers, allUnplaced, Lowering.emitMembers, typeCount_cons, ← Nat.add_assoc,
      ← Nat.add_assoc]
    exact hall

theorem InStep.emitMember (hoptions : setting'.options = setting.options) :
    ∀ (m : Member) {inside : Enclosing}
    {space : String} {outer n n' : Nat} {e e' : Emission}, InStep back n n' e e' →
    Collapses types inside.surroundings.scope.types c p → inside.surroundings.scope.Valid →
    inside.surroundings.scope.enclosing = some outer → m.WellNamed →
    StandsAt inside.surroundings.scope.types c p n n' (declaredInMember space outer n' m) →
    (∀ name ∈ m.names, BoundAlike types c p inside.surroundings.scope name) →
    InStep back (n + typeCount [m]) (n' + typeCount [m])
      (Lowering.emitMember setting (inside.collapsed types c) m e)
      (Lowering.emitMember setting' inside m.unplaced e')
  | .type decl, inside, space, outer, n, n', e, e', h, hc, hvalid, hin, hw, hstands, hb => by
    rw [Member.WellNamed] at hw
    rw [declaredInMember] at hstands
    rw [Member.names] at hb
    rw [Lowering.emitMember, Member.unplaced, Lowering.emitMember, typeCount_type]
    exact InStep.emitType hoptions decl (some inside) h hc hvalid hw (hin ▸ hstands) hb
  | .field f, inside, _, _, _, _, _, _, h, hc, hvalid, _, _, _, hb =>
    InStep.emitMember_plain hoptions (m := .field f) h hc hvalid hb
  | .constructor m, inside, _, _, _, _, _, _, h, hc, hvalid, _, _, _, hb =>
    InStep.emitMember_plain hoptions (m := .constructor m) h hc hvalid hb
  | .destructor m, inside, _, _, _, _, _, _, h, hc, hvalid, _, _, _, hb =>
    InStep.emitMember_plain hoptions (m := .destructor m) h hc hvalid hb
  | .method m, inside, _, _, _, _, _, _, h, hc, hvalid, _, _, _, hb =>
    InStep.emitMember_plain hoptions (m := .method m) h hc hvalid hb
  | .property m, inside, _, _, _, _, _, _, h, hc, hvalid, _, _, _, hb =>
    InStep.emitMember_plain hoptions (m := .property m) h hc hvalid hb
  | .indexer m, inside, _, _, _, _, _, _, h, hc, hvalid, _, _, _, hb =>
    InStep.emitMember_plain hoptions (m := .indexer m) h hc hvalid hb
  | .event m, inside, _, _, _, _, _, _, h, hc, hvalid, _, _, _, hb =>
    InStep.emitMember_plain hoptions (m := .event m) h hc hvalid hb
  | .operator m, inside, _, _, _, _, _, _, h, hc, hvalid, _, _, _, hb =>
    InStep.emitMember_plain hoptions (m := .operator m) h hc hvalid hb

end

mutual

/-- The members of a namespace keep two compilations in step. -/
theorem InStep.emitSpaceMembers (hoptions : setting'.options = setting.options) :
    ∀ (ms : List NamespaceMember) (sc : Scope) {space : String} {n n' : Nat} {e e' : Emission},
    InStep back n n' e e' → Collapses types sc.types c p → sc.enclosing = none →
    SpaceWellNamed ms → StandsAt sc.types c p n n' (declaredInSpace space n' ms) →
    (∀ name ∈ namesInSpace ms, DotsAlike types c p sc name) →
    InStep back (n + spaceTypeCount ms) (n' + spaceTypeCount ms)
      (Lowering.emitSpaceMembers setting (sc.collapsed types c) ms e)
      (Lowering.emitSpaceMembers setting' sc (spaceUnplaced ms) e')
  | [], sc, space, n, n', e, e', h, hc, hin, hw, hstands, hb => by
    rw [Lowering.emitSpaceMembers, spaceUnplaced, Lowering.emitSpaceMembers]
    exact h
  | m :: rest, sc, space, n, n', e, e', h, hc, hin, hw, hstands, hb => by
    rw [SpaceWellNamed] at hw
    rw [declaredInSpace] at hstands
    rw [namesInSpace] at hb
    have hfirst := InStep.emitSpaceMember hoptions m h hc hin hw.1 hstands.left
      fun name hname => hb name (List.mem_append_left _ hname)
    have hright := hstands.right
    rw [length_spaceMember] at hright
    have hall := InStep.emitSpaceMembers hoptions rest sc hfirst hc hin hw.2 hright
      fun name hname => hb name (List.mem_append_right _ hname)
    rw [Lowering.emitSpaceMembers, spaceUnplaced, Lowering.emitSpaceMembers, spaceTypeCount_cons,
      ← Nat.add_assoc, ← Nat.add_assoc]
    exact hall

theorem InStep.emitSpaceMember (hoptions : setting'.options = setting.options) :
    ∀ (m : NamespaceMember) {sc : Scope} {space : String} {n n' : Nat} {e e' : Emission},
    InStep back n n' e e' → Collapses types sc.types c p → sc.enclosing = none →
    m.WellNamed → StandsAt sc.types c p n n' (declaredInSpaceMember space n' m) →
    (∀ name ∈ m.names, DotsAlike types c p sc name) →
    InStep back (n + spaceTypeCount [m]) (n' + spaceTypeCount [m])
      (Lowering.emitSpaceMember setting (sc.collapsed types c) m e)
      (Lowering.emitSpaceMember setting' sc m.unplaced e')
  | .space ⟨name, _, usings, members, _⟩, sc, space, n, n', e, e', h, hc, hin, hw, hstands, hb => by
    rw [NamespaceMember.WellNamed] at hw
    rw [declaredInSpaceMember] at hstands
    rw [NamespaceMember.names] at hb
    rw [Lowering.emitSpaceMember, NamespaceMember.unplaced, Lowering.emitSpaceMember,
      spaceTypeCount_space]
    exact InStep.emitSpaceMembers hoptions members ((sc.inSpace name).importing usings) h hc hin
      hw.2 hstands hb
  | .type decl, sc, space, n, n', e, e', h, hc, hin, hw, hstands, hb => by
    rw [NamespaceMember.WellNamed] at hw
    rw [declaredInSpaceMember, ← hin] at hstands
    rw [NamespaceMember.names] at hb
    rw [Lowering.emitSpaceMember, NamespaceMember.unplaced, Lowering.emitSpaceMember,
      spaceTypeCount_type]
    have hclear : sc.Clear c p := Scope.clear_of_none hin
    exact InStep.emitType hoptions decl none h hc hclear.valid hw hstands
      fun name hname => hclear.bound hc (hb name hname)

end

end Declarations

end ClrListing.Lowering
