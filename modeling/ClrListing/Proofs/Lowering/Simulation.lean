/-
Compiling a file carries out its script.

What each step of an emission does, a whole one does (`Progress`): it never
takes back a complaint, a row or what it is named, for one.

The emission goes through the declarations with tokens and tables, the
script with paths. The invariant `Mirrors` ties the two together, and
`Stands` says what it means for the type that is being emitted to be the
type that the script is in. `mirrors_openType` is the one place where rows
of types are added or found; from there a mutual induction on the
declarations carries the mirror through the whole file, as long as nothing
is complained about. The constructors that are added at the end are
further steps, none of which stands for a declaration
(`mirrors_emission`).
-/
import ClrListing.Proofs.Lowering.Mirrors
import ClrListing.Proofs.Run

namespace ClrListing.Lowering

open Assembly Metadata Source Syntax

-- ============================================================= progress

/-- How emissions are related to later ones: to themselves, to those that
later ones are related to, to those with a type opened and to those with
more effects applied. -/
structure Progress (setting : Setting) (Later : Emission → Emission → Prop) : Prop where
  refl : ∀ e, Later e e
  trans : ∀ {e e' e''}, Later e e' → Later e' e'' → Later e e''
  openType : ∀ scope outer decl e, Later e (openType setting scope outer decl e).1
  applyAll : ∀ e s record declaring effects,
    Later e (e.applyAll setting s record declaring effects)

namespace Progress

variable {setting : Setting} {Later : Emission → Emission → Prop}

mutual

/-- What is inside a type is emitted after the type is opened. -/
theorem inside (h : Progress setting Later) :
    ∀ (decl : TypeDecl) (scope : Scope) (outer : Option Enclosing) (e : Emission),
      Later (Lowering.openType setting scope outer decl e).1 (emitType setting scope outer decl e)
  | ⟨kind, name, typeParams, modifiers, bases, members, enumerators, delegate, span⟩,
      scope, outer, e => by
    simp only [Lowering.emitType]
    split
    · next e' heq =>
      rw [heq]
      exact h.refl e'
    · next e' inside heq =>
      rw [heq]
      split
      · exact h.applyAll ..
      · exact h.refl e'
      · exact h.emitMembers members inside e'
      · exact h.emitMembers members inside e'
      · exact h.emitMembers members inside e'

theorem emitMembers (h : Progress setting Later) :
    ∀ (members : List Member) (inside : Enclosing) (e : Emission),
      Later e (Lowering.emitMembers setting inside members e)
  | [], inside, e => by
    rw [Lowering.emitMembers]
    exact h.refl e
  | m :: rest, inside, e => by
    rw [Lowering.emitMembers]
    exact h.trans (h.emitMember m inside e) (h.emitMembers rest inside _)

theorem emitMember (h : Progress setting Later) :
    ∀ (m : Member) (inside : Enclosing) (e : Emission),
      Later e (Lowering.emitMember setting inside m e)
  | .type decl, inside, e => by
    rw [Lowering.emitMember]
    exact h.trans (h.openType _ (some inside) decl e) (h.inside decl _ (some inside) e)
  | .field _, _, _ | .constructor _, _, _ | .destructor _, _, _ | .method _, _, _
  | .property _, _, _ | .indexer _, _, _ | .event _, _, _ | .operator _, _, _ => h.applyAll ..

end

theorem emitType (h : Progress setting Later) (scope : Scope) (outer : Option Enclosing)
    (decl : TypeDecl) (e : Emission) : Later e (Lowering.emitType setting scope outer decl e) :=
  h.trans (h.openType scope outer decl e) (h.inside decl scope outer e)

mutual

theorem emitSpaceMembers (h : Progress setting Later) :
    ∀ (members : List NamespaceMember) (scope : Scope) (e : Emission),
      Later e (Lowering.emitSpaceMembers setting scope members e)
  | [], scope, e => by
    rw [Lowering.emitSpaceMembers]
    exact h.refl e
  | m :: rest, scope, e => by
    rw [Lowering.emitSpaceMembers]
    exact h.trans (h.emitSpaceMember m scope e) (h.emitSpaceMembers rest scope _)

theorem emitSpaceMember (h : Progress setting Later) :
    ∀ (m : NamespaceMember) (scope : Scope) (e : Emission),
      Later e (Lowering.emitSpaceMember setting scope m e)
  | .space ⟨name, _, usings, members, _⟩, scope, e => by
    rw [Lowering.emitSpaceMember]
    exact h.emitSpaceMembers members ((scope.inSpace name).importing usings) e
  | .type decl, scope, e => by
    rw [Lowering.emitSpaceMember]
    exact h.emitType scope none decl e

end

end Progress

-- ============================================================== growth

section Growth

variable (setting : Setting) (scope : Scope) (outer : Option Enclosing)

theorem grows_addType (e : Emission) (decl : TypeDecl) : Grows e (addType e scope outer decl) := by
  have hsame : ∀ token, (e.builder.linkNested token e.builder.nextType).types.map headingOf
      = e.builder.types.map headingOf :=
    fun token => Builder.map_linkNested e.builder token _ fun _ _ => rfl
  refine ⟨List.prefix_rfl, ?_⟩
  show _ <+: ((e.builder.linkNested _ _).types ++ [_]).map headingOf
  rw [List.map_append, hsame]
  exact List.prefix_append _ _

theorem grows_openType (decl : TypeDecl) (e : Emission) :
    Grows e (openType setting scope outer decl e).1 := by
  have hplace : Grows e { e with place := e.place + 1 } := ⟨List.prefix_rfl, List.prefix_rfl⟩
  unfold openType
  simp only []
  split
  · exact (hplace.trans (grows_addType scope outer _ decl)).trans (grows_modifyRecord _ _ _)
  · exact hplace.trans (grows_modifyRecord _ _ _)
  · exact ⟨List.prefix_append _ _, List.prefix_rfl⟩

theorem progress_grows : Progress setting Grows where
  refl := .refl
  trans := .trans
  openType := grows_openType setting
  applyAll e s record declaring effects := grows_applyAll e setting s record declaring effects

theorem grows_inside (decl : TypeDecl) (e : Emission) :
    Grows (openType setting scope outer decl e).1 (emitType setting scope outer decl e) :=
  (progress_grows setting).inside decl scope outer e

theorem grows_emitType (decl : TypeDecl) (e : Emission) :
    Grows e (emitType setting scope outer decl e) :=
  (progress_grows setting).emitType scope outer decl e

theorem grows_emitMembers (inside : Enclosing) (members : List Member) (e : Emission) :
    Grows e (emitMembers setting inside members e) :=
  (progress_grows setting).emitMembers members inside e

theorem grows_emitMember (inside : Enclosing) (m : Member) (e : Emission) :
    Grows e (emitMember setting inside m e) :=
  (progress_grows setting).emitMember m inside e

theorem grows_emitSpaceMembers (members : List NamespaceMember) (e : Emission) :
    Grows e (emitSpaceMembers setting scope members e) :=
  (progress_grows setting).emitSpaceMembers members scope e

theorem grows_emitSpaceMember (m : NamespaceMember) (e : Emission) :
    Grows e (emitSpaceMember setting scope m e) :=
  (progress_grows setting).emitSpaceMember m scope e

theorem grows_completeType (e : Emission) (r : TypeRecord) :
    Grows e (Emission.completeType setting e r) := by
  unfold Emission.completeType
  have hfirst : Grows e (if Emission.needsConstructor r then
      e.pushMethod setting r.token (Emission.addedConstructor r) true else e) := by
    split
    · exact grows_pushMethod e setting _ _ _
    · exact .refl e
  simp only []
  split
  · exact hfirst.trans (grows_pushMethod _ setting _ _ _)
  · exact hfirst

theorem grows_foldl_completeType (rs : List TypeRecord) (e : Emission) :
    Grows e (rs.foldl (Emission.completeType setting) e) := by
  induction rs generalizing e with
  | nil => exact .refl e
  | cons r rest ih => exact (grows_completeType setting e r).trans (ih _)

end Growth

-- ================================================= standing in a type

/-- The type that is emitted is the type that the script is in. -/
structure Stands (rows : List TypePath) (o : Enclosing) (b : Around) : Prop where
  surroundings : o.surroundings = b.surroundings
  token : o.token = tokenIn rows b.path
  mem : b.path ∈ rows

/-- Both are in a type, the same, or neither is. -/
def StandsAround (rows : List TypePath) : Option Enclosing → Option Around → Prop
  | none, none => True
  | some o, some b => Stands rows o b
  | _, _ => False

variable {setting : Setting} {scope : Scope} {e : Emission} {steps more : List Step}
variable {outer : Option Enclosing} {around : Option Around} {decl : TypeDecl}

theorem Stands.append {o : Enclosing} {b : Around} (h : Stands (rowsOf steps) o b) :
    Stands (rowsOf (steps ++ more)) o b := by
  obtain ⟨new, hnew⟩ := rowsOf_isPrefix steps more
  rw [← hnew]
  exact ⟨h.surroundings, h.token.trans (tokenIn_append h.mem).symm, List.mem_append_left _ h.mem⟩

namespace StandsAround

variable {rows : List TypePath}

theorem mem_outer (h : StandsAround rows outer around) :
    ∀ path, (TypePath.ofDecl scope.space (around.map Around.path) decl).outer = some path →
      path ∈ rows := by
  intro path hpath
  rw [TypePath.outer_ofDecl] at hpath
  cases around with
  | none => cases hpath
  | some b =>
    cases hpath
    cases outer with
    | none => exact h.elim
    | some o => exact h.mem

theorem keyOf_eq (h : StandsAround rows outer around) :
    keyOf scope outer decl.name decl.arity
      = keyIn rows (.ofDecl scope.space (around.map Around.path) decl) := by
  unfold keyOf keyIn rowSpace
  rw [TypePath.outer_ofDecl, TypePath.name_ofDecl, TypePath.space_ofDecl]
  cases outer with
  | none =>
    cases around with
    | none => rfl
    | some b => exact h.elim
  | some o =>
    cases around with
    | none => exact h.elim
    | some b =>
      simp only [Option.map_some, Option.isSome_some, if_true]
      rw [h.token]

theorem displayOf_eq (h : StandsAround rows outer around) (name : String) :
    displayOf scope outer name = displayIn scope around name := by
  cases outer with
  | none =>
    cases around with
    | none => rfl
    | some b => exact h.elim
  | some o =>
    cases around with
    | none => exact h.elim
    | some b =>
      unfold displayOf displayIn
      simp only []
      rw [h.surroundings]

theorem isSome_eq (h : StandsAround rows outer around) :
    outer.isSome = (around.map Around.path).isSome := by
  cases outer with
  | none =>
    cases around with
    | none => rfl
    | some b => exact h.elim
  | some o =>
    cases around with
    | none => exact h.elim
    | some b => rfl

end StandsAround

/-- The type parameters that a type gets from those around it. -/
theorem outerParams_eq (h : Mirrors e steps) (hfits : Fits (rowsOf steps))
    (hst : StandsAround (rowsOf steps) outer around) :
    outerParams e outer
      = ((around.map Around.path).map (paramsAlong (entered steps))).getD [] := by
  cases outer with
  | none =>
    cases around with
    | none => rfl
    | some b => exact hst.elim
  | some o =>
    cases around with
    | none => exact hst.elim
    | some b =>
      unfold outerParams
      rw [Option.bind_some, hst.token, h.type?_tokenIn hfits hst.mem]
      rfl

-- ======================================================= opening a type

/-- The key of a type does not ask for its own row. -/
theorem keyIn_concat {rows : List TypePath} {path : TypePath}
    (houter : ∀ p, path.outer = some p → p ∈ rows) :
    keyIn (rows ++ [path]) path = keyIn rows path := by
  unfold keyIn
  cases ho : path.outer with
  | none => rfl
  | some p => rw [Option.map_some, Option.map_some, tokenIn_append (houter p ho)]

/-- The row of a type that is added is the one that the script spells out. -/
theorem typeRow_of_added (h : Mirrors e steps) (hfits : Fits (rowsOf steps))
    (hst : StandsAround (rowsOf steps) outer around) {path : TypePath}
    (hpath : path = .ofDecl scope.space (around.map Around.path) decl)
    (hfresh : path ∉ rowsOf steps) :
    typeRow (steps ++ [.enter path decl]) path
      = .mk (.ofRow .typeDef ((rowsOf steps).length + 2)) (keyIn (rowsOf steps) path).name
        (keyIn (rowsOf steps) path).space
        (typeAttributes decl.kind outer.isSome decl.modifiers decl.members)
        (keyIn (rowsOf steps) path).enclosing (outerParams e outer ++ decl.typeParams) [] [] false
    := by
  have houter : ∀ p, path.outer = some p → p ∈ rowsOf steps := hpath ▸ hst.mem_outer
  have hway : path.outer = around.map Around.path := by
    rw [hpath, TypePath.outer_ofDecl]
  have hsome : outer.isSome = path.outer.isSome := by
    rw [hway]
    exact hst.isSome_eq
  rw [typeRow_enter_fresh h.grounded hfresh houter, hsome, outerParams_eq h hfits hst, hway]
  unfold keyIn
  rw [hway]

/-- Linking a new type with the type around it is what entering it changes
in the rows that there are. -/
theorem types_linkNested_of_fresh (h : Mirrors e steps) (hfits : Fits (rowsOf steps))
    {path : TypePath} (houter : ∀ p, path.outer = some p → p ∈ rowsOf steps)
    (hfresh : path ∉ rowsOf steps) :
    (e.builder.linkNested (keyIn (rowsOf steps) path).enclosing
        (.ofRow .typeDef ((rowsOf steps).length + 2))).types
      = moduleRow :: (rowsOf steps).map (typeRow (steps ++ [.enter path decl])) := by
  rw [keyIn]
  cases ho : path.outer with
  | none =>
    show e.builder.types = _
    rw [h.types, typesIn]
    congr 1
    refine List.map_congr_left fun q hq => ?_
    rw [typeRow_enter_of_mem h.grounded hfresh hq, ho, if_neg (by simp)]
  | some p =>
    show (e.builder.modifyType (tokenIn (rowsOf steps) p) _).types = _
    rw [h.modifyType_tokenIn hfits (houter p ho)]
    congr 1
    refine List.map_congr_left fun q hq => ?_
    rw [typeRow_enter_of_mem h.grounded hfresh hq, ho]
    by_cases hqp : q = p
    · rw [if_pos hqp, if_pos (by rw [hqp])]
    · rw [if_neg hqp, if_neg fun heq => hqp (Option.some.inj heq).symm]

theorem methods_linkNested (b : Builder) (enclosing : Option Token) (token : Token) :
    (b.linkNested enclosing token).methods = b.methods := by
  cases enclosing with
  | none => rfl
  | some outer =>
    show (b.modifyType outer _).methods = _
    unfold Builder.modifyType
    split <;> rfl

/-- Adding a type with a new path is entering it. -/
theorem mirrors_addType (h : Mirrors e steps) (hfits : Fits (rowsOf steps))
    (hst : StandsAround (rowsOf steps) outer around) {path : TypePath}
    (hpath : path = .ofDecl scope.space (around.map Around.path) decl)
    (hfresh : path ∉ rowsOf steps) :
    Mirrors (addType { e with place := e.place + 1 } scope outer decl)
      (steps ++ [.enter path decl]) := by
  have houter : ∀ p, path.outer = some p → p ∈ rowsOf steps := hpath ▸ hst.mem_outer
  have hkey : keyOf scope outer decl.name decl.arity = keyIn (rowsOf steps) path :=
    hpath ▸ hst.keyOf_eq
  have hnext : e.builder.nextType = .ofRow .typeDef ((rowsOf steps).length + 2) := by
    unfold Builder.nextType
    rw [h.length_types]
  constructor
  · rw [entered_enter, List.length_append, ← h.place]
    rfl
  · show (e.types ++ [_]).map _ = _
    rw [List.map_append, h.records, rowsOf_enter_fresh hfresh, List.map_append]
    congr 1
    · refine List.map_congr_left fun q hq => ?_
      rw [keyIn_append h.grounded.rooted hq, tokenIn_append hq]
    · rw [List.map_singleton, List.map_singleton, keyIn_concat houter, tokenIn_concat hfresh,
        ← hnext, hkey]
  · show (e.builder.linkNested _ _).types ++ [_] = _
    rw [hkey, hnext, types_linkNested_of_fresh h hfits houter hfresh, typesIn,
      rowsOf_enter_fresh hfresh, List.map_append, List.map_singleton, List.cons_append,
      typeRow_of_added h hfits hst hpath hfresh]
    rfl
  · show (e.builder.linkNested _ _).methods.map bare = _
    rw [methodsIn_enter_fresh h.grounded hfresh, ← h.methods, methods_linkNested]
  · exact grounded_enter h.grounded houter

theorem severity_alreadyDefined (scope : Scope) (outer : Option Enclosing) (name : String) :
    (alreadyDefined scope outer name).severity = .error := by
  cases outer <;> rfl

/-- A declaration that is refused leaves an error. -/
theorem hasErrors_refused (setting : Setting) (e : Emission) (decl : TypeDecl) (scope : Scope)
    (outer : Option Enclosing) :
    (passOver (e.complain setting (alreadyDefined scope outer decl.name) decl.span)
      decl).diagnostics.hasErrors = true :=
  hasErrors_of_error setting e decl.span (severity_alreadyDefined scope outer decl.name)

/-- A type is entered unless there is an error. -/
theorem exists_inside_of_clean {scope : Scope} {outer : Option Enclosing} {decl : TypeDecl}
    (hclean : (openType setting scope outer decl e).1.diagnostics.hasErrors = false) :
    ∃ inside, (openType setting scope outer decl e).2 = some inside := by
  unfold openType at hclean ⊢
  simp only [] at hclean ⊢
  split at hclean
  · exact ⟨_, rfl⟩
  · exact ⟨_, rfl⟩
  · rw [hasErrors_refused] at hclean
    cases hclean

/-- What is seen from inside a type that was found or added. -/
theorem stands_enclosingOf {added : Emission} {place record : Nat} {path : TypePath}
    (hst : StandsAround (rowsOf steps) outer around)
    (hpath : path = .ofDecl scope.space (around.map Around.path) decl)
    (hadded : Mirrors added more) (hmem : path ∈ rowsOf more)
    (hrecord : record = (rowsOf more).idxOf path) :
    Stands (rowsOf more) (enclosingOf added scope outer decl place record)
      (aroundOf scope around place decl) := by
  obtain ⟨r, hr, htoken⟩ := hadded.record_idxOf hmem
  constructor
  · unfold enclosingOf aroundOf
    simp only []
    rw [hst.displayOf_eq]
  · unfold enclosingOf aroundOf
    simp only []
    rw [hrecord, hr, Option.map_some, Option.getD_some, htoken, hpath]
  · unfold aroundOf
    simp only []
    rw [← hpath]
    exact hmem

theorem declaredWith_same (r : TypeRecord) (ms : Modifiers) :
    ((r.declaredWith ms).key, (r.declaredWith ms).token) = (r.key, r.token) := rfl

/-- Opening a declaration that is not refused is entering it. -/
theorem mirrors_openType (h : Mirrors e steps)
    (hst : StandsAround (rowsOf steps) outer around)
    (hs : Sound (openType setting scope outer decl e).1) :
    let inside := aroundOf scope around (entered steps).length decl
    let after := steps ++ [.enter inside.path decl]
    ∃ o, (openType setting scope outer decl e).2 = some o
      ∧ Mirrors (openType setting scope outer decl e).1 after
      ∧ Stands (rowsOf after) o inside := by
  intro inside after
  have hfits := h.fits ((grows_openType setting scope outer decl e).sound hs)
  have hpath : inside.path = .ofDecl scope.space (around.map Around.path) decl := rfl
  have hdest : destination { e with place := e.place + 1 } scope outer decl
      = destination e scope outer decl := rfl
  by_cases hmem : inside.path ∈ rowsOf steps
  · -- the type has a row: a partial declaration joins it, any other is refused
    have hrows : rowsOf after = rowsOf steps := rowsOf_enter_again hmem
    obtain ⟨r, hr, -⟩ := h.record_idxOf hmem
    have hfound := h.findRecord?_of_mem hfits hmem
    have hagain : Mirrors { e with place := e.place + 1 } after := by
      constructor
      · rw [entered_enter, List.length_append, ← h.place]
        rfl
      · rw [hrows]
        exact h.records
      · rw [typesIn_enter_again h.grounded hmem]
        exact h.types
      · rw [methodsIn_enter_again hmem]
        exact h.methods
      · exact grounded_enter h.grounded (hpath ▸ hst.mem_outer)
    cases hd : destination e scope outer decl with
    | fresh =>
      simp only [destination, hst.keyOf_eq, ← hpath, hfound, hr] at hd
      split at hd <;> cases hd
    | merged record =>
      have hrecord : record = (rowsOf steps).idxOf inside.path := by
        simp only [destination, hst.keyOf_eq, ← hpath, hfound, hr] at hd
        split at hd
        · cases hd
          rfl
        · cases hd
      simp only [openType, hdest, hd]
      refine ⟨_, rfl, hagain.modifyRecord _ fun r => declaredWith_same r _, ?_⟩
      rw [h.place]
      refine stands_enclosingOf hst hpath ?_ (hrows ▸ hmem) (hrows ▸ hrecord)
      rw [← h.place]
      exact hagain
    | refused =>
      simp only [openType, hdest, hd] at hs
      have hclean := hs.clean
      rw [hasErrors_refused] at hclean
      cases hclean
  · -- the path is new: a row is added for it
    have hfound := h.findRecord?_of_not_mem hfits (hpath ▸ hst.mem_outer) hmem
    have hd : destination e scope outer decl = .fresh := by
      simp only [destination, hst.keyOf_eq, ← hpath, hfound]
    have hrows : rowsOf after = rowsOf steps ++ [inside.path] := rowsOf_enter_fresh hmem
    have hadded := mirrors_addType h hfits hst hpath hmem
    have hlength : e.types.length = (rowsOf steps).length := by
      have hlen := congrArg List.length h.records
      rwa [List.length_map, List.length_map] at hlen
    simp only [openType, hdest, hd]
    refine ⟨_, rfl, hadded.modifyRecord _ fun r => declaredWith_same r _, ?_⟩
    rw [h.place]
    refine stands_enclosingOf hst hpath ?_ ?_ ?_
    · rw [← h.place]
      exact hadded
    · rw [hrows]
      exact List.mem_append_right _ (List.mem_singleton_self _)
    · rw [hrows, List.idxOf_append, if_neg hmem, List.idxOf_cons_self, hlength, Nat.zero_add]

-- ====================================================== the whole file

/-- Lowering a member is pushing its methods, listed or not. -/
theorem mirrors_applyAll {inside : Enclosing} {b : Around} (h : Mirrors e steps)
    (hst : Stands (rowsOf steps) inside b) {effects : List Effect} {ls : List Lowered}
    (hls : ls.map Lowered.method = declaredBy effects)
    (hs : Sound (e.applyAll setting inside.surroundings inside.record inside.token effects)) :
    Mirrors (e.applyAll setting inside.surroundings inside.record inside.token effects)
      (steps ++ pushAll b ls) := by
  have hshown : (ls.map fun l => if b.listed then l else .unlisted l.method).map Lowered.method
      = declaredBy effects := by
    rw [← hls, List.map_map]
    refine List.map_congr_left fun l _ => ?_
    rw [Function.comp_apply]
    split <;> rfl
  rw [hst.token] at hs ⊢
  have hsteps := Mirrors.applyAll inside.surroundings inside.record hst.mem effects _ hshown h hs
  rw [List.map_map] at hsteps
  exact hsteps

/-- A member that is no type. -/
theorem mirrors_emitMember_plain {inside : Enclosing} {b : Around} (h : Mirrors e steps)
    (hst : Stands (rowsOf steps) inside b) (m : Member)
    (hs : Sound (e.applyAll setting inside.surroundings inside.record inside.token
      (memberEffects inside.surroundings m))) :
    Mirrors (e.applyAll setting inside.surroundings inside.record inside.token
        (memberEffects inside.surroundings m))
      (steps ++ pushAll b (memberLowered b.surroundings m)) := by
  have hfree := uncontested_of_sound (onlyErrors_memberEffects inside.surroundings m) hs
  rw [← hst.surroundings]
  exact mirrors_applyAll h hst (methods_memberLowered inside.surroundings m hfree) hs

theorem declaredBy_declares (ms : List MethodDef) (span : Span) :
    declaredBy (ms.map fun m => .declare m false span) = ms := by
  unfold declaredBy
  rw [List.filterMap_map]
  exact List.filterMap_some

/-- The methods of a delegate are those that its effects declare. -/
theorem methods_delegateLowered (s : Surroundings) (delegate : Option DelegateSignature)
    (span : Span) :
    (delegateLowered s delegate).map Lowered.method
      = declaredBy (delegateEffects s delegate span) := by
  cases delegate with
  | none => rfl
  | some d =>
    have hmark : ∀ effects, declaredBy (.mark .instanceConstructor :: effects)
        = declaredBy effects := fun _ => rfl
    unfold delegateLowered delegateEffects
    simp only []
    rw [methods_unlisted, hmark, declaredBy_declares]

mutual

/-- Emitting a type declaration carries out its script. -/
theorem mirrors_emitType :
    ∀ (decl : TypeDecl) (scope : Scope) (outer : Option Enclosing) (around : Option Around)
      (e : Emission) (steps : List Step), Mirrors e steps →
      StandsAround (rowsOf steps) outer around →
      Sound (emitType setting scope outer decl e) →
      Mirrors (emitType setting scope outer decl e)
        (steps ++ scriptOfType scope around (entered steps).length decl)
  | ⟨kind, name, typeParams, modifiers, bases, members, enumerators, delegate, span⟩,
      scope, outer, around, e, steps, h, hst, hs => by
    let decl : TypeDecl :=
      ⟨kind, name, typeParams, modifiers, bases, members, enumerators, delegate, span⟩
    have hopened : Sound (openType setting scope outer decl e).1 :=
      (grows_inside setting scope outer decl e).sound hs
    obtain ⟨o, ho, hm, hin⟩ := mirrors_openType h hst hopened
    have hpair : openType setting scope outer decl e
        = ((openType setting scope outer decl e).1, some o) := Prod.ext rfl ho
    have hplace : (entered (steps
        ++ [.enter (aroundOf scope around (entered steps).length decl).path decl])).length
        = (entered steps).length + 1 := by
      rw [entered_enter, List.length_append]
      rfl
    simp only [emitType] at hs ⊢
    rw [hpair] at hs ⊢
    cases kind with
    | delegateType =>
      rw [scriptOfType, List.append_cons]
      have hls : (delegateLowered
            (aroundOf scope around (entered steps).length decl).surroundings delegate).map
            Lowered.method
          = declaredBy (delegateEffects o.surroundings delegate span) := by
        rw [← hin.surroundings]
        exact methods_delegateLowered o.surroundings delegate span
      exact mirrors_applyAll hm hin hls hs
    | enumType =>
      rw [scriptOfType]
      exact hm
    | classType =>
      rw [scriptOfType, List.append_cons]
      have hrest := mirrors_emitMembers members o _ _ _ hm hin hs
      rwa [hplace] at hrest
    | structType =>
      rw [scriptOfType, List.append_cons]
      have hrest := mirrors_emitMembers members o _ _ _ hm hin hs
      rwa [hplace] at hrest
    | interfaceType =>
      rw [scriptOfType, List.append_cons]
      have hrest := mirrors_emitMembers members o _ _ _ hm hin hs
      rwa [hplace] at hrest

theorem mirrors_emitMembers :
    ∀ (members : List Member) (inside : Enclosing) (b : Around) (e : Emission)
      (steps : List Step), Mirrors e steps → Stands (rowsOf steps) inside b →
      Sound (emitMembers setting inside members e) →
      Mirrors (emitMembers setting inside members e)
        (steps ++ scriptOfMembers b (entered steps).length members)
  | [], inside, b, e, steps, h, hst, hs => by
    rw [emitMembers, scriptOfMembers, List.append_nil]
    exact h
  | m :: rest, inside, b, e, steps, h, hst, hs => by
    rw [emitMembers] at hs ⊢
    have hone := (grows_emitMembers setting inside rest _).sound hs
    have hm := mirrors_emitMember m inside b e steps h hst hone
    have hrest := mirrors_emitMembers rest inside b _ _ hm hst.append hs
    rw [entered_append, List.length_append, List.append_assoc] at hrest
    exact hrest

theorem mirrors_emitMember :
    ∀ (m : Member) (inside : Enclosing) (b : Around) (e : Emission) (steps : List Step),
      Mirrors e steps → Stands (rowsOf steps) inside b →
      Sound (emitMember setting inside m e) →
      Mirrors (emitMember setting inside m e)
        (steps ++ scriptOfMember b (entered steps).length m)
  | .type decl, inside, b, e, steps, h, hst, hs => by
    rw [emitMember] at hs ⊢
    rw [scriptOfMember, ← hst.surroundings]
    exact mirrors_emitType decl _ (some inside) (some b) e steps h hst hs
  | .field f, _, _, _, _, h, hst, hs => mirrors_emitMember_plain h hst (.field f) hs
  | .constructor c, _, _, _, _, h, hst, hs => mirrors_emitMember_plain h hst (.constructor c) hs
  | .destructor d, _, _, _, _, h, hst, hs => mirrors_emitMember_plain h hst (.destructor d) hs
  | .method m, _, _, _, _, h, hst, hs => mirrors_emitMember_plain h hst (.method m) hs
  | .property p, _, _, _, _, h, hst, hs => mirrors_emitMember_plain h hst (.property p) hs
  | .indexer i, _, _, _, _, h, hst, hs => mirrors_emitMember_plain h hst (.indexer i) hs
  | .event ev, _, _, _, _, h, hst, hs => mirrors_emitMember_plain h hst (.event ev) hs
  | .operator o, _, _, _, _, h, hst, hs => mirrors_emitMember_plain h hst (.operator o) hs

end

mutual

/-- Emitting the members of a namespace carries out their script. -/
theorem mirrors_emitSpaceMembers :
    ∀ (members : List NamespaceMember) (scope : Scope) (e : Emission) (steps : List Step),
      Mirrors e steps → Sound (emitSpaceMembers setting scope members e) →
      Mirrors (emitSpaceMembers setting scope members e)
        (steps ++ scriptOfSpace scope (entered steps).length members)
  | [], scope, e, steps, h, hs => by
    rw [emitSpaceMembers, scriptOfSpace, List.append_nil]
    exact h
  | m :: rest, scope, e, steps, h, hs => by
    rw [emitSpaceMembers] at hs ⊢
    have hone := (grows_emitSpaceMembers setting scope rest _).sound hs
    have hm := mirrors_emitSpaceMember m scope e steps h hone
    have hrest := mirrors_emitSpaceMembers rest scope _ _ hm hs
    rw [entered_append, List.length_append, List.append_assoc] at hrest
    exact hrest

theorem mirrors_emitSpaceMember :
    ∀ (m : NamespaceMember) (scope : Scope) (e : Emission) (steps : List Step),
      Mirrors e steps → Sound (emitSpaceMember setting scope m e) →
      Mirrors (emitSpaceMember setting scope m e)
        (steps ++ scriptOfSpaceMember scope (entered steps).length m)
  | .space ⟨name, _, usings, members, _⟩, scope, e, steps, h, hs => by
    rw [emitSpaceMember] at hs ⊢
    rw [scriptOfSpaceMember]
    exact mirrors_emitSpaceMembers members _ e steps h hs
  | .type decl, scope, e, steps, h, hs => by
    rw [emitSpaceMember] at hs ⊢
    rw [scriptOfSpaceMember]
    exact mirrors_emitType decl scope none none e steps h trivial hs

end

-- ================================================== added constructors

/-- Steps that only add methods that the forest does not know of. -/
def Unlisted (steps : List Step) : Prop :=
  ∀ step ∈ steps, ∃ path m, step = .push path (.unlisted m)

theorem Unlisted.append (h : Unlisted steps) (h' : Unlisted more) : Unlisted (steps ++ more) := by
  intro step hmem
  rcases List.mem_append.mp hmem with hmem | hmem
  · exact h step hmem
  · exact h' step hmem

/-- The constructors that a type gets are steps at its path. -/
theorem mirrors_completeType {path : TypePath} {r : TypeRecord} (h : Mirrors e steps)
    (hmem : path ∈ rowsOf steps) (htoken : r.token = tokenIn (rowsOf steps) path)
    (hs : Sound (Emission.completeType setting e r)) :
    ∃ added, Unlisted added ∧ Mirrors (Emission.completeType setting e r) (steps ++ added) := by
  have hsound := (grows_completeType setting e r).sound hs
  have hone : ∀ m, Unlisted [.push path (.unlisted m)] := by
    intro m step hstep
    exact ⟨path, m, List.mem_singleton.mp hstep⟩
  unfold Emission.completeType
  simp only []
  rw [htoken]
  by_cases hc : Emission.needsConstructor r = true
  · rw [if_pos hc]
    have hfirst : Mirrors (e.pushMethod setting (tokenIn (rowsOf steps) path)
          (Emission.addedConstructor r) true)
        (steps ++ [.push path (.unlisted (Emission.addedConstructor r))]) :=
      h.pushMethod hsound hmem (.unlisted (Emission.addedConstructor r)) true
    by_cases ht : Emission.needsTypeConstructor r = true
    · rw [if_pos ht]
      have hrows : rowsOf (steps ++ [.push path (.unlisted (Emission.addedConstructor r))])
          = rowsOf steps := rowsOf_push
      have hsecond := @Mirrors.pushMethod _ setting _ _ hfirst
        ⟨hsound.clean, by
          rw [hfirst.length_types, hrows, ← h.length_types]
          exact hsound.fits⟩
        (hrows ▸ hmem) (.unlisted Emission.addedTypeConstructor) true
      rw [hrows, List.append_assoc] at hsecond
      exact ⟨_, (hone _).append (hone _), hsecond⟩
    · rw [if_neg ht]
      exact ⟨_, hone _, hfirst⟩
  · rw [if_neg hc]
    by_cases ht : Emission.needsTypeConstructor r = true
    · rw [if_pos ht]
      exact ⟨_, hone _, h.pushMethod hsound hmem (.unlisted Emission.addedTypeConstructor) true⟩
    · rw [if_neg ht]
      refine ⟨[], fun _ hstep => (List.not_mem_nil hstep).elim, ?_⟩
      rw [List.append_nil]
      exact h

theorem Unlisted.rowsOf_append (h : Unlisted more) : rowsOf (steps ++ more) = rowsOf steps := by
  have hnone : entered more = [] := by
    unfold entered
    rw [List.filterMap_eq_nil_iff]
    intro step hstep
    obtain ⟨path, m, rfl⟩ := h step hstep
    rfl
  unfold rowsOf
  rw [entered_append, hnone, List.append_nil]

theorem mirrors_foldl_completeType (rs : List TypeRecord) (h : Mirrors e steps)
    (hrs : ∀ r ∈ rs, ∃ path ∈ rowsOf steps, r.token = tokenIn (rowsOf steps) path)
    (hs : Sound (rs.foldl (Emission.completeType setting) e)) :
    ∃ added, Unlisted added
      ∧ Mirrors (rs.foldl (Emission.completeType setting) e) (steps ++ added) := by
  induction rs generalizing e steps with
  | nil =>
    refine ⟨[], fun _ hstep => (List.not_mem_nil hstep).elim, ?_⟩
    rw [List.append_nil]
    exact h
  | cons r rest ih =>
    obtain ⟨path, hmem, htoken⟩ := hrs r List.mem_cons_self
    have hone := (grows_foldl_completeType setting rest _).sound hs
    obtain ⟨first, hfirst, hm⟩ := mirrors_completeType h hmem htoken hone
    have hrows : rowsOf (steps ++ first) = rowsOf steps := hfirst.rowsOf_append
    obtain ⟨others, hothers, hrest⟩ := ih hm
      (fun r hr => hrows ▸ hrs r (List.mem_cons_of_mem _ hr)) hs
    rw [List.append_assoc] at hrest
    exact ⟨first ++ others, hfirst.append hothers, hrest⟩

theorem mirrors_start (module : String) : Mirrors (.start module) [] where
  place := rfl
  records := rfl
  types := rfl
  methods := rfl
  grounded := grounded_nil

/-- A file that nothing is wrong with is compiled to what its script
spells out, and to added constructors. -/
theorem mirrors_emission {module : String} {tree : Tree} {options : CompileOptions}
    (hs : Sound (emission module tree options)) :
    ∃ added, Unlisted added
      ∧ Mirrors (emission module tree options) (script tree.root ++ added) := by
  unfold emission at hs ⊢
  simp only [] at hs ⊢
  unfold Emission.complete at hs ⊢
  have hemitted := (grows_foldl_completeType _ _ _).sound hs
  have h :=
    mirrors_emitSpaceMembers tree.root.members (topScope tree.root) _ [] (mirrors_start module)
      hemitted
  refine mirrors_foldl_completeType _ h ?_ hs
  intro r hr
  have hin := List.mem_map_of_mem (f := fun r : TypeRecord => (r.key, r.token)) hr
  rw [h.records] at hin
  obtain ⟨path, hmem, heq⟩ := List.mem_map.mp hin
  exact ⟨path, hmem, (congrArg Prod.snd heq).symm⟩

end ClrListing.Lowering
