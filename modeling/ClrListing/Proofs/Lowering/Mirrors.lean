/-
A module under construction that mirrors a script.

`Mirrors e steps` says that the emission `e` has exactly the rows that the
steps spell out, and remembers their keys and tokens. Each operation of
the emission that adds a row is one step of the script and keeps the
mirror; the others keep it without a step. The operations never take back
a complaint, a row or what it is named (`Grows`), so an emission that ends
well was `Sound` all the way, and only sound emissions have to mirror
anything.
-/
import ClrListing.Proofs.Lowering.Tables

namespace ClrListing.Lowering

open Assembly Metadata Source Syntax

-- ============================================================ soundness

/-- Nothing is wrong so far, and tokens can number the types. -/
structure Sound (e : Emission) : Prop where
  clean : e.diagnostics.hasErrors = false
  fits : e.builder.types.length < Token.rowLimit

/-- What is never changed in the row of a type: its token, its name and
where it stands. -/
def headingOf (t : TypeDef) : Token × String × String × Option Token :=
  (t.token, t.name, t.space, t.enclosing)

theorem headingOf_eq_iff {t u : TypeDef} : headingOf t = headingOf u
    ↔ t.token = u.token ∧ t.name = u.name ∧ t.space = u.space ∧ t.enclosing = u.enclosing := by
  simp only [headingOf, Prod.mk.injEq]

/-- One emission is a later state of another. -/
structure Grows (e e' : Emission) : Prop where
  diagnostics : e.diagnostics <+: e'.diagnostics
  types : e.builder.types.map headingOf <+: e'.builder.types.map headingOf

namespace Grows

variable {e e' e'' : Emission}

theorem refl (e : Emission) : Grows e e := ⟨List.prefix_rfl, List.prefix_rfl⟩

theorem trans (h : Grows e e') (h' : Grows e' e'') : Grows e e'' :=
  ⟨h.diagnostics.trans h'.diagnostics, h.types.trans h'.types⟩

theorem length_types (h : Grows e e') : e.builder.types.length ≤ e'.builder.types.length := by
  simpa using h.types.length_le

/-- Errors are not taken back. -/
theorem hasErrors (h : Grows e e') (herrors : e.diagnostics.hasErrors = true) :
    e'.diagnostics.hasErrors = true := by
  obtain ⟨d, hd, herror⟩ := List.any_eq_true.mp herrors
  exact List.any_eq_true.mpr ⟨d, h.diagnostics.subset hd, herror⟩

/-- What is free of errors later was so before. -/
theorem clean (h : Grows e e') (hclean : e'.diagnostics.hasErrors = false) :
    e.diagnostics.hasErrors = false := by
  by_contra herrors
  rw [h.hasErrors (Bool.not_eq_false _ ▸ herrors)] at hclean
  cases hclean

/-- What is sound later was sound before. -/
theorem sound (h : Grows e e') (hs : Sound e') : Sound e :=
  ⟨h.clean hs.clean, Nat.lt_of_le_of_lt h.length_types hs.fits⟩

end Grows

section Growth

variable (e : Emission) (setting : Setting)

theorem grows_complain (d : Diagnostic) (span : Span) : Grows e (e.complain setting d span) :=
  ⟨List.prefix_append _ _, List.prefix_rfl⟩

theorem grows_modifyRecord (index : Nat) (f : TypeRecord → TypeRecord) :
    Grows e (e.modifyRecord index f) :=
  ⟨List.prefix_rfl, List.prefix_rfl⟩

theorem grows_pushMethod (declaring : Token) (m : MethodDef) (hasBody : Bool) :
    Grows e (e.pushMethod setting declaring m hasBody) := by
  have hsame : (e.pushMethod setting declaring m hasBody).builder.types.map headingOf
      = e.builder.types.map headingOf := Builder.map_modifyType e.builder declaring fun _ => rfl
  exact ⟨List.prefix_rfl, hsame ▸ List.prefix_rfl⟩

theorem grows_declareMethod (s : Surroundings) (declaring : Token) (m : MethodDef)
    (hasBody : Bool) (span : Span) :
    Grows e (e.declareMethod setting s declaring m hasBody span) := by
  refine .trans ?_ (grows_pushMethod _ setting declaring m hasBody)
  split
  · exact grows_complain _ _ _ _
  · exact ⟨List.prefix_rfl, List.prefix_rfl⟩

theorem grows_apply (s : Surroundings) (record : Nat) (declaring : Token) (effect : Effect) :
    Grows e (Emission.apply setting s record declaring e effect) := by
  cases effect with
  | complain d span => exact grows_complain e setting d span
  | mark m => exact grows_modifyRecord e record _
  | declare m hasBody span => exact grows_declareMethod e setting s declaring m hasBody span

theorem grows_applyAll (s : Surroundings) (record : Nat) (declaring : Token)
    (effects : List Effect) : Grows e (e.applyAll setting s record declaring effects) := by
  induction effects generalizing e with
  | nil => exact .refl e
  | cons effect rest ih => exact (grows_apply e setting s record declaring effect).trans (ih _)

end Growth

theorem hasErrors_complain (setting : Setting) (e : Emission) (d : Diagnostic) (span : Span) :
    (e.complain setting d span).diagnostics.hasErrors
      = (e.diagnostics.hasErrors || d.severity = .error) := by
  unfold Emission.complain Diagnostics.hasErrors
  rw [List.any_append, List.any_cons, List.any_nil, Bool.or_false]
  rfl

theorem hasErrors_of_error (setting : Setting) (e : Emission) {d : Diagnostic} (span : Span)
    (hd : d.severity = .error) : (e.complain setting d span).diagnostics.hasErrors = true := by
  rw [hasErrors_complain, decide_eq_true hd, Bool.or_true]

/-- Complaints that are errors leave nothing sound. -/
theorem uncontested_of_sound {e : Emission} {setting : Setting} {s : Surroundings}
    {record : Nat} {declaring : Token} {effects : List Effect} (honly : OnlyErrors effects)
    (h : Sound (e.applyAll setting s record declaring effects)) : Uncontested effects := by
  induction effects generalizing e with
  | nil => exact fun _ _ => List.not_mem_nil
  | cons effect rest ih =>
    intro d span hmem
    rcases List.mem_cons.mp hmem with heq | hrest
    · subst heq
      have hgrown : Sound (e.complain setting d span) :=
        (grows_applyAll (e.complain setting d span) setting s record declaring rest).sound h
      have herror := hasErrors_of_error setting e span (honly d span hmem)
      rw [hgrown.clean] at herror
      cases herror
    · exact ih (fun d span hd => honly d span (List.mem_cons_of_mem _ hd)) h d span hrest

-- ============================================================== mirrors

/-- The emission has the rows that the steps spell out. -/
structure Mirrors (e : Emission) (steps : List Step) : Prop where
  place : e.place = (entered steps).length
  records : e.types.map (fun r => (r.key, r.token))
    = (rowsOf steps).map fun p => (keyIn (rowsOf steps) p, tokenIn (rowsOf steps) p)
  types : e.builder.types = typesIn steps
  methods : e.builder.methods.map bare = methodsIn steps
  grounded : Grounded steps

variable {e : Emission} {setting : Setting} {steps : List Step} {path : TypePath}

namespace Mirrors

theorem length_types (h : Mirrors e steps) :
    e.builder.types.length = (rowsOf steps).length + 1 := by
  rw [h.types, typesIn, List.length_cons, List.length_map]

theorem length_methods (h : Mirrors e steps) :
    e.builder.methods.length = (pushed steps).length := by
  have hlen := congrArg List.length h.methods
  rwa [List.length_map, methodsIn, List.length_map, List.length_zipIdx] at hlen

theorem fits (h : Mirrors e steps) (hs : Sound e) : Fits (rowsOf steps) := by
  have hlen := hs.fits
  rwa [h.length_types] at hlen

/-- What the mirror does not show may change. -/
theorem of_same {e' : Emission} (h : Mirrors e steps) (hplace : e'.place = e.place)
    (hrecords : e'.types.map (fun r => (r.key, r.token))
      = e.types.map fun r => (r.key, r.token))
    (hbuilder : e'.builder = e.builder) : Mirrors e' steps where
  place := hplace.trans h.place
  records := hrecords.trans h.records
  types := hbuilder ▸ h.types
  methods := hbuilder ▸ h.methods
  grounded := h.grounded

/-- The row of a type is found under its token. -/
theorem type?_tokenIn (h : Mirrors e steps) (hfits : Fits (rowsOf steps))
    (hmem : path ∈ rowsOf steps) :
    e.builder.type? (tokenIn (rowsOf steps) path) = some (typeRow steps path) := by
  have hlt := List.idxOf_lt_length_of_mem hmem
  unfold Builder.type? atRow?
  rw [row_tokenIn hfits hmem, if_neg (by omega), h.types, typesIn,
    show (rowsOf steps).idxOf path + 2 - 1 = (rowsOf steps).idxOf path + 1 by omega,
    List.getElem?_cons_succ, List.getElem?_map, List.getElem?_eq_getElem hlt,
    List.getElem_idxOf hlt, Option.map_some]

/-- Changing the row under the token of a type changes that row alone. -/
theorem modifyType_tokenIn (h : Mirrors e steps) (hfits : Fits (rowsOf steps))
    (hmem : path ∈ rowsOf steps) (f : TypeDef → TypeDef) :
    (e.builder.modifyType (tokenIn (rowsOf steps) path) f).types
      = moduleRow :: (rowsOf steps).map fun q =>
          if q = path then f (typeRow steps q) else typeRow steps q := by
  unfold Builder.modifyType
  rw [row_tokenIn hfits hmem, if_neg (by omega), h.types, typesIn,
    show (rowsOf steps).idxOf path + 2 - 1 = (rowsOf steps).idxOf path + 1 by omega,
    List.modify_succ_cons,
    Distinct.map_modify_idxOf (typeRow steps) f (nodup_rowsOf steps) hmem]

/-- The record of a type stands at the place of its row. -/
theorem record_idxOf (h : Mirrors e steps) (hmem : path ∈ rowsOf steps) :
    ∃ r, e.types[(rowsOf steps).idxOf path]? = some r
      ∧ r.token = tokenIn (rowsOf steps) path := by
  have hlt := List.idxOf_lt_length_of_mem hmem
  have hget : (e.types.map fun r => (r.key, r.token))[(rowsOf steps).idxOf path]?
      = some (keyIn (rowsOf steps) path, tokenIn (rowsOf steps) path) := by
    rw [h.records, List.getElem?_map, List.getElem?_eq_getElem hlt, List.getElem_idxOf hlt,
      Option.map_some]
  rw [List.getElem?_map] at hget
  obtain ⟨r, hr, heq⟩ := Option.map_eq_some_iff.mp hget
  exact ⟨r, hr, congrArg Prod.snd heq⟩

theorem findRecord?_eq (h : Mirrors e steps) (key : TypeKey) :
    e.findRecord? key
      = (rowsOf steps).findIdx? fun p => decide (keyIn (rowsOf steps) p = key) := by
  have hrecords := congrArg (List.findIdx? fun x => decide (x.1 = key)) h.records
  rw [List.findIdx?_map, List.findIdx?_map] at hrecords
  exact hrecords

/-- A key that is taken is found at the row of its type. -/
theorem findRecord?_of_mem (h : Mirrors e steps) (hfits : Fits (rowsOf steps))
    (hmem : path ∈ rowsOf steps) :
    e.findRecord? (keyIn (rowsOf steps) path) = some ((rowsOf steps).idxOf path) := by
  have hlt := List.idxOf_lt_length_of_mem hmem
  rw [h.findRecord?_eq, List.findIdx?_eq_some_iff_getElem]
  refine ⟨hlt, ?_, ?_⟩
  · rw [List.getElem_idxOf hlt, decide_eq_true_eq]
  · intro j hj heq
    have hsame := keyIn_inj hfits h.grounded.rooted
      (h.grounded.rooted _ (List.getElem_mem (Nat.lt_trans hj hlt))) hmem (of_decide_eq_true heq)
    have hne := List.not_of_lt_findIdx hj
    rw [hsame, beq_self_eq_true] at hne
    cases hne

/-- A key that is not taken is not found. -/
theorem findRecord?_of_not_mem (h : Mirrors e steps) (hfits : Fits (rowsOf steps))
    (houter : ∀ outer, path.outer = some outer → outer ∈ rowsOf steps)
    (hfresh : path ∉ rowsOf steps) :
    e.findRecord? (keyIn (rowsOf steps) path) = none := by
  rw [h.findRecord?_eq, List.findIdx?_eq_none_iff]
  intro q hq
  rw [decide_eq_false_iff_not]
  intro heq
  have hsame := keyIn_inj hfits h.grounded.rooted houter hq heq.symm
  exact hfresh (hsame ▸ hq)

end Mirrors

-- ============================================================ one step

theorem Mirrors.complain (h : Mirrors e steps) (d : Diagnostic) (span : Span) :
    Mirrors (e.complain setting d span) steps :=
  h.of_same rfl rfl rfl

/-- A record may change, except for its key and its token. -/
theorem Mirrors.modifyRecord (h : Mirrors e steps) (index : Nat) {f : TypeRecord → TypeRecord}
    (hf : ∀ r, ((f r).key, (f r).token) = (r.key, r.token)) :
    Mirrors (e.modifyRecord index f) steps := by
  refine h.of_same rfl ?_ rfl
  have hmap : ∀ (rs : List TypeRecord) (i : Nat),
      (rs.modify i f).map (fun r => (r.key, r.token)) = rs.map fun r => (r.key, r.token) := by
    intro rs
    induction rs with
    | nil => intro i; rw [List.modify_nil]
    | cons r rs ih =>
      intro i
      cases i with
      | zero => rw [List.modify_zero_cons, List.map_cons, List.map_cons, hf]
      | succ i => rw [List.modify_succ_cons, List.map_cons, List.map_cons, ih]
  exact hmap e.types index

theorem bare_finishMethod (setting : Setting) (m : MethodDef) (address : Nat)
    (token declaring : Token) :
    bare { (Emission.finishMethod setting m) with
        bodyAddress := address, token := token, declaringType := declaring }
      = bare { m with token := token, declaringType := declaring } := by
  unfold Emission.finishMethod
  split <;> rfl

/-- Pushing a method is a step at the path of its type. -/
theorem Mirrors.pushMethod (h : Mirrors e steps) (hs : Sound e) (hmem : path ∈ rowsOf steps)
    (l : Lowered) (hasBody : Bool) :
    Mirrors (e.pushMethod setting (tokenIn (rowsOf steps) path) l.method hasBody)
      (steps ++ [.push path l]) := by
  have hfits := h.fits hs
  have hnext : e.builder.nextMethod = .ofRow .methodDef ((pushed steps).length + 1) := by
    unfold Builder.nextMethod
    rw [h.length_methods]
  constructor
  · rw [entered_push]
    exact h.place
  · rw [rowsOf_push]
    exact h.records
  · have hmodify := h.modifyType_tokenIn hfits hmem fun t =>
      { t with methods := t.methods ++ [e.builder.nextMethod] }
    refine hmodify.trans ?_
    rw [typesIn, rowsOf_push, hnext]
    congr 1
    refine List.map_congr_left fun q _ => ?_
    rw [typeRow_push]
  · rw [methodsIn_push, ← h.methods]
    show (_ ++ [_]).map bare = _
    rw [List.map_append, List.map_singleton, methodRow, ← hnext]
    congr 1
    · unfold Builder.modifyType
      split <;> rfl
    · congr 1
      cases hasBody with
      | true => exact bare_finishMethod setting l.method _ _ _
      | false => exact bare_finishMethod setting l.method _ _ _
  · exact grounded_push h.grounded hmem

theorem Mirrors.declareMethod (h : Mirrors e steps) (hmem : path ∈ rowsOf steps)
    (s : Surroundings) (l : Lowered) (hasBody : Bool) (span : Span)
    (hafter : Sound (e.declareMethod setting s (tokenIn (rowsOf steps) path) l.method hasBody
      span)) :
    Mirrors (e.declareMethod setting s (tokenIn (rowsOf steps) path) l.method hasBody span)
      (steps ++ [.push path l]) := by
  have hnoticed := (grows_pushMethod _ setting _ l.method hasBody).sound hafter
  refine Mirrors.pushMethod ?_ hnoticed hmem l hasBody
  split
  · exact h.complain _ _
  · exact h.of_same rfl rfl rfl

theorem marked_same (r : TypeRecord) (m : Mark) :
    ((r.marked m).key, (r.marked m).token) = (r.key, r.token) := by
  cases m <;> rfl

/-- The effects of a member are steps, one for each method that they
declare. -/
theorem Mirrors.applyAll (s : Surroundings) (record : Nat) (hmem : path ∈ rowsOf steps)
    (effects : List Effect) (ls : List Lowered)
    (hls : ls.map Lowered.method = declaredBy effects) (h : Mirrors e steps)
    (hafter : Sound (e.applyAll setting s record (tokenIn (rowsOf steps) path) effects)) :
    Mirrors (e.applyAll setting s record (tokenIn (rowsOf steps) path) effects)
      (steps ++ ls.map (.push path)) := by
  induction effects generalizing e steps ls with
  | nil =>
    have hnil : ls = [] := List.map_eq_nil_iff.mp hls
    rw [hnil, List.map_nil, List.append_nil]
    exact h
  | cons effect rest ih =>
    have hone : Sound (Emission.apply setting s record (tokenIn (rowsOf steps) path) e effect) :=
      (grows_applyAll _ setting s record _ rest).sound hafter
    cases effect with
    | complain d span => exact ih hmem ls hls (h.complain d span) hafter
    | mark m => exact ih hmem ls hls (h.modifyRecord record fun r => marked_same r m) hafter
    | declare m hasBody span =>
      cases ls with
      | nil => cases hls
      | cons l ls =>
        obtain ⟨rfl, htail⟩ := List.cons.inj hls
        have hstep := h.declareMethod hmem s l hasBody span hone
        have hrows : rowsOf (steps ++ [.push path l]) = rowsOf steps := rowsOf_push
        have hrest := ih (hrows ▸ hmem) ls htail hstep (hrows ▸ hafter)
        rw [hrows] at hrest
        rw [List.map_cons, List.append_cons]
        exact hrest

end ClrListing.Lowering
