/-
Which declarations get the methods that were compiled from them.

A declaration takes the next method of its type that has its name, so it
gets its own exactly if every method before that one was taken by a
declaration. Methods that the forest does not list are in the way: they
are handed out, and no declaration asks for them. One such method of the
same type and name, compiled before, and the declaration gets another
declaration's method or one that is none's (`token_eq_iff`).

What is not in order is not noticed unless the numbers of parameters
differ, and then only as a warning. If nothing is in the way anywhere
there is no warning.
-/
import ClrListing.Proofs.Binding.Faithful
import ClrListing.Proofs.Elements

namespace ClrListing.Binding

open Assembly Lowering Metadata Syntax

-- ========================================================= own methods

/-- A method that a script adds for a declaration of the forest. -/
structure Own where
  /-- The type that it is added to. -/
  path : TypePath
  declaration : Declaration
  method : MethodDef
  /-- How many methods are added before it. -/
  place : Nat

/-- The methods that a script adds for declarations, in order. -/
def ownMethods (steps : List Step) : List Own :=
  (pushed steps).zipIdx.filterMap fun x => x.1.2.source.map fun d => ⟨x.1.1, d, x.1.2.method, x.2⟩

namespace Own

/-- The token that the method has in the module. -/
def token (o : Own) : Token := .ofRow .methodDef (o.place + 1)

/-- Whether a method is in the way of another: it can be taken by the
declarations of its name, and none of them is its own. -/
def IsObstructedBy (o : Own) (p : TypePath × Lowered) : Prop :=
  p.1 = o.path ∧ p.2.source = none ∧ p.2.method.isGenerated = false
    ∧ p.2.method.canonicalName = o.declaration.canonicalName

instance (o : Own) (p : TypePath × Lowered) : Decidable (o.IsObstructedBy p) :=
  inferInstanceAs (Decidable (_ ∧ _ ∧ _ ∧ _))

/-- Whether none of the methods before is in the way. -/
def InOrder (steps : List Step) (o : Own) : Prop :=
  ∀ p ∈ (pushed steps).take o.place, ¬ o.IsObstructedBy p

instance (steps : List Step) (o : Own) : Decidable (o.InOrder steps) :=
  inferInstanceAs (Decidable (∀ p ∈ (pushed steps).take o.place, ¬ o.IsObstructedBy p))

end Own

variable {a : Assembly} {steps added : List Step} {forest : List Declaration}

theorem mem_ownMethods {o : Own} (h : o ∈ ownMethods steps) :
    ∃ l, (pushed steps)[o.place]? = some (o.path, l) ∧ l.source = some o.declaration
      ∧ l.method = o.method := by
  obtain ⟨⟨p, i⟩, hx, hsome⟩ := List.mem_filterMap.mp h
  obtain ⟨d, hsource, rfl⟩ := Option.map_eq_some_iff.mp hsome
  exact ⟨p.2, List.mem_zipIdx_iff_getElem?.mp hx, hsource, rfl⟩

/-- The declarations with own methods are the sources of the script. -/
theorem map_ownMethods (steps : List Step) :
    (ownMethods steps).map (fun o => (o.path, o.declaration)) = sourcesOf steps := by
  unfold ownMethods sourcesOf
  rw [List.map_filterMap]
  conv => rhs; rw [← List.zipIdx_map_fst 0 (pushed steps), List.filterMap_map]
  refine List.filterMap_congr fun x _ => ?_
  rw [Function.comp_apply, Option.map_map]
  rfl

/-- The own methods before one are those among the methods before it. -/
theorem take_ownMethods {k : Nat} {o : Own} (h : (ownMethods steps)[k]? = some o)
    (q : TypePath × Declaration → Bool) :
    ((ownMethods steps).take k).countP (fun o => q (o.path, o.declaration))
      = ((pushed steps).take o.place).countP fun p =>
          (p.2.source.map fun d => q (p.1, d)).getD false := by
  obtain ⟨i, ⟨p, j⟩, hx, hsome, htake⟩ := Places.exists_getElem?_of_filterMap h
  obtain ⟨d, -, rfl⟩ := Option.map_eq_some_iff.mp hsome
  rw [List.getElem?_zipIdx] at hx
  obtain ⟨p', -, heq⟩ := Option.map_eq_some_iff.mp hx
  obtain ⟨-, rfl⟩ := Prod.mk.inj heq
  have hplace : ((pushed steps).zipIdx.take i).map Prod.fst = (pushed steps).take i := by
    rw [List.map_take, List.zipIdx_map_fst]
  unfold ownMethods
  rw [htake, List.countP_filterMap]
  simp only [Nat.zero_add]
  rw [← hplace, List.countP_map]
  refine List.countP_congr fun x _ => ?_
  rw [Function.comp_apply, Option.map_map]
  rfl

theorem ownMethods_append_unlisted (hadded : Unlisted added) :
    ownMethods (steps ++ added) = ownMethods steps := by
  have hnone : ∀ n, ((pushed added).zipIdx n).filterMap (fun x => x.1.2.source.map fun d =>
      (⟨x.1.1, d, x.1.2.method, x.2⟩ : Own)) = [] := by
    intro n
    rw [List.filterMap_eq_nil_iff]
    rintro ⟨p, i⟩ hx
    rw [hadded.source_eq_none (List.fst_mem_of_mem_zipIdx hx)]
    rfl
  unfold ownMethods
  rw [pushed_append, List.zipIdx_append, List.filterMap_append, hnone, List.append_nil]

/-- Methods that are added at the end are in nobody's way. -/
theorem inOrder_append {o : Own} (ho : o ∈ ownMethods steps) :
    o.InOrder (steps ++ added) ↔ o.InOrder steps := by
  obtain ⟨l, hl, -, -⟩ := mem_ownMethods ho
  have hlt := (List.getElem?_eq_some_iff.mp hl).1
  unfold Own.InOrder
  rw [pushed_append, List.take_append_of_le_length (Nat.le_of_lt hlt)]

/-- Whether a member has methods that can be in the way: accessors that
the forest does not list and the compiler did not fill in, a destructor,
an event or an operator. -/
def MayObstruct (s : Surroundings) : Member → Prop
  | .property p =>
    (propertyOwner s p).isAutomatic s p.accessors = false
      ∧ ∃ accessor ∈ p.accessors, Declaration.isListed accessor = false
  | .indexer i =>
    (indexerOwner s i).isAutomatic s i.accessors = false
      ∧ ∃ accessor ∈ i.accessors, Declaration.isListed accessor = false
  | .destructor _ | .event _ | .operator _ => True
  | .type _ | .field _ | .constructor _ | .method _ => False

/-- Only accessors without a listed declaration that are not automatic are
in the way among accessors. -/
theorem unlisted_of_accessorsLowered {s : Surroundings} {o : AccessorOwner}
    {interface : Option TypeExpr} {indexCount : Nat} {accessors : List Accessor}
    {expressionBody : Option Body} {span : Source.Span} {l : Lowered}
    (hl : l ∈ accessorsLowered s o interface indexCount accessors expressionBody span)
    (hsource : l.source = none) (hkept : l.method.isGenerated = false) :
    o.isAutomatic s accessors = false
      ∧ ∃ accessor ∈ accessors, Declaration.isListed accessor = false := by
  unfold accessorsLowered at hl
  simp only [] at hl
  split at hl
  · rw [List.mem_singleton] at hl
    subst hl
    cases hsource
  · obtain ⟨accessor, hin, rfl⟩ := List.mem_map.mp hl
    constructor
    · rw [← hkept]
      unfold AccessorOwner.method
      split
      rfl
    · refine ⟨accessor, hin, ?_⟩
      cases hlisted : Declaration.isListed accessor with
      | false => rfl
      | true =>
        simp only [hlisted, if_true] at hsource
        cases hsource

/-- What is in the way comes from a member that may be: constructors,
methods and fields never are. -/
theorem mayObstruct_of_memberLowered {s : Surroundings} {m : Member} {l : Lowered}
    (hl : l ∈ memberLowered s m) (hsource : l.source = none)
    (hkept : l.method.isGenerated = false) : MayObstruct s m := by
  cases m with
  | property p => exact unlisted_of_accessorsLowered hl hsource hkept
  | indexer i => exact unlisted_of_accessorsLowered hl hsource hkept
  | destructor d => trivial
  | event e => trivial
  | operator o => trivial
  | constructor c =>
    rw [memberLowered, List.mem_singleton] at hl
    subst hl
    cases hsource
  | method m =>
    rw [memberLowered] at hl
    obtain ⟨d, -, rfl⟩ := List.mem_map.mp hl
    cases hsource
  | type decl => cases hl
  | field f =>
    have hfield : l ∈ (declaredBy (fieldEffects f)).map Lowered.unlisted := hl
    obtain ⟨method, hmethod, -⟩ := List.mem_map.mp hfield
    unfold fieldEffects at hmethod
    split at hmethod
    · cases hmethod
    · cases hmethod

-- ============================================================== grants

/-- A fresh resolver hands out the methods of a name in order: the place
of a method is the number of requests for the name before. -/
theorem getElem?_methodsNamed_of_grant {vs : List Visit} {k : Nat} {g : Grant}
    (hg : (serve a .start vs).grants[k]? = some g) :
    (a.methodsNamed g.owner g.name)[(((serve a .start vs).grants.map Grant.request).take
        k).countP (asksFor g.owner g.name)]? = some g.token := by
  have hplace := Places.getElem?_filter (p := fun g' => g'.owner = g.owner && g'.name = g.name) hg
    (by simp)
  have hhanded : (handed (serve a .start vs).grants g.owner g.name)[((serve a .start
      vs).grants.take k).countP fun g' => g'.owner = g.owner && g'.name = g.name]?
      = some g.token := by
    unfold handed
    rw [List.getElem?_map, hplace]
    rfl
  rw [← List.map_take, List.countP_map]
  obtain ⟨rest, hrest⟩ := handed_isPrefix (a := a) vs g.owner g.name
  rw [← hrest]
  exact List.getElem?_append_left (List.getElem?_eq_some_iff.mp hhanded).1 ▸ hhanded

/-- The place of an own method among the methods of its name. -/
theorem getElem?_methodsNamed_of_own (h : Serves a steps forest) {o : Own}
    (ho : o ∈ ownMethods steps) :
    (a.methodsNamed (tokenIn (rowsOf steps) o.path) o.declaration.canonicalName)[((pushed
        steps).take o.place).countP (isPushedUnder (rowsOf steps)
          (tokenIn (rowsOf steps) o.path) o.declaration.canonicalName)]? = some o.token := by
  obtain ⟨l, hl, hsource, -⟩ := mem_ownMethods ho
  have hr := h.renders
  have hlt : o.place < a.methods.length := by
    rw [hr.length_methods]
    exact (List.getElem?_eq_some_iff.mp hl).1
  have hm := List.getElem?_eq_getElem hlt
  have hstands := h.standing _ (List.mem_of_getElem? hl) _ hsource
  have hnamed : isNamed (tokenIn (rowsOf steps) o.path) o.declaration.canonicalName
      a.methods[o.place] = true := by
    have hmap := congrArg (·[o.place]?) (map_isNamed hr (tokenIn (rowsOf steps) o.path)
      o.declaration.canonicalName)
    simp only [List.getElem?_map, hl, hm, Option.map_some, Option.some.injEq] at hmap
    rw [hmap, isPushedUnder_eq hstands]
    simp [asksFor]
  rw [methodsNamed_eq hr, List.getElem?_map, ← countP_take_isNamed hr,
    Places.getElem?_filter hm hnamed, Option.map_some, hr.token_at hm]
  rfl

/-- The requests before an own method are as many as the methods of its
name before it exactly if none of these is in the way. -/
theorem countP_eq_iff_inOrder (h : Serves a steps forest) {o : Own} (ho : o ∈ ownMethods steps) :
    ((pushed steps).take o.place).countP (fun p => (p.2.source.map fun d =>
        asksFor (tokenIn (rowsOf steps) o.path) o.declaration.canonicalName
          (tokenIn (rowsOf steps) p.1, d)).getD false)
      = ((pushed steps).take o.place).countP (isPushedUnder (rowsOf steps)
          (tokenIn (rowsOf steps) o.path) o.declaration.canonicalName)
      ↔ o.InOrder steps := by
  obtain ⟨l, hl, -, -⟩ := mem_ownMethods ho
  have hr := h.renders
  have hpath : o.path ∈ rowsOf steps := hr.grounded.housed _ (List.mem_of_getElem? hl)
  rw [Places.countP_eq_iff]
  · refine forall₂_congr fun p hp => ?_
    have hin : p ∈ pushed steps := List.mem_of_mem_take hp
    have hsame : tokenIn (rowsOf steps) p.1 = tokenIn (rowsOf steps) o.path ↔ p.1 = o.path :=
      ⟨tokenIn_inj hr.fits (hr.grounded.housed p hin) hpath, fun heq => heq ▸ rfl⟩
    cases hsource : p.2.source with
    | none =>
      simp [isPushedUnder, Own.IsObstructedBy, hsource, hsame]
    | some d =>
      rw [isPushedUnder_eq (h.standing p hin d hsource)]
      simp [Own.IsObstructedBy, hsource]
  · intro p hp hasks
    cases hsource : p.2.source with
    | none =>
      rw [hsource] at hasks
      cases hasks
    | some d =>
      rw [hsource] at hasks
      rw [isPushedUnder_eq (h.standing p (List.mem_of_mem_take hp) d hsource)]
      exact hasks

/-- A declaration gets its own method exactly if no method is in the
way. -/
theorem token_eq_iff (h : Serves a steps forest) {k : Nat} {g : Grant} {o : Own}
    (hg : (serve a .start (visits a forest)).grants[k]? = some g)
    (ho : (ownMethods steps)[k]? = some o) :
    g.owner = tokenIn (rowsOf steps) o.path ∧ g.declaration = o.declaration
      ∧ (g.token = o.token ↔ o.InOrder steps) := by
  have hrequests : (serve a .start (visits a forest)).grants.map Grant.request
      = (ownMethods steps).map fun o => (tokenIn (rowsOf steps) o.path, o.declaration) := by
    rw [serve_requests h.goes, h.requests_eq, ← map_ownMethods, List.map_map]
    rfl
  have hrequest : g.request = (tokenIn (rowsOf steps) o.path, o.declaration) := by
    have hk := congrArg (·[k]?) hrequests
    simpa only [List.getElem?_map, hg, ho, Option.map_some, Option.some.injEq] using hk
  obtain ⟨howner, hdeclaration⟩ := Prod.mk.inj hrequest
  refine ⟨howner, hdeclaration, ?_⟩
  have hgiven := getElem?_methodsNamed_of_grant hg
  have hown := getElem?_methodsNamed_of_own h (List.mem_of_getElem? ho)
  have hname : g.name = o.declaration.canonicalName :=
    congrArg Declaration.canonicalName hdeclaration
  rw [hrequests, ← List.map_take, List.countP_map, howner, hname] at hgiven
  have hcount := take_ownMethods ho fun q =>
    asksFor (tokenIn (rowsOf steps) o.path) o.declaration.canonicalName
      (tokenIn (rowsOf steps) q.1, q.2)
  rw [← countP_eq_iff_inOrder h (List.mem_of_getElem? ho), ← hcount]
  have hnodup := nodup_methodsNamed h.renders (tokenIn (rowsOf steps) o.path)
    o.declaration.canonicalName
  have hlt := (List.getElem?_eq_some_iff.mp hgiven).1
  constructor
  · intro heq
    rw [heq, ← hown] at hgiven
    exact (List.getElem?_inj hlt hnodup).mp hgiven
  · intro heq
    have hboth := hgiven.symm.trans ((congrArg _ heq).trans hown)
    exact Option.some.inj hboth

/-- The methods handed out and the own methods, one for one. -/
theorem forall₂_ownMethods (h : Serves a (steps ++ added) forest) (hadded : Unlisted added) :
    List.Forall₂ (fun g o => g.declaration = o.declaration ∧ (g.token = o.token ↔ o.InOrder steps))
      (serve a .start (visits a forest)).grants (ownMethods steps) := by
  have hown : ownMethods (steps ++ added) = ownMethods steps := ownMethods_append_unlisted hadded
  have hlength : (serve a .start (visits a forest)).grants.length = (ownMethods steps).length := by
    have hrequests := congrArg List.length (serve_requests h.goes)
    rw [h.requests_eq, ← map_ownMethods, hown, List.length_map, List.length_map,
      List.length_map] at hrequests
    exact hrequests
  rw [List.forall₂_iff_get]
  refine ⟨hlength, fun k hg ho => ?_⟩
  have hk : (ownMethods (steps ++ added))[k]? = some (ownMethods steps)[k] := by
    rw [hown, List.getElem?_eq_getElem ho]
  obtain ⟨-, hdeclaration, htoken⟩ := token_eq_iff h (List.getElem?_eq_getElem hg) hk
  rw [inOrder_append (List.getElem_mem ho)] at htoken
  exact ⟨hdeclaration, htoken⟩

-- =================================================== the own methods

namespace Own

/-- Whether a module has the method as it was lowered, with as many
parameters as its declaration. -/
def IsCompiledIn (o : Own) (a : Assembly) : Prop :=
  ∃ m, a.method? o.token = some m ∧ m.name = o.method.name ∧ m.signature = o.method.signature
    ∧ o.declaration.paramCount? = some m.signature.params.length

end Own

theorem isCompiledIn_of_serves (h : Serves a steps forest) {o : Own} (ho : o ∈ ownMethods steps) :
    o.IsCompiledIn a := by
  obtain ⟨l, hl, hsource, hmethod⟩ := mem_ownMethods ho
  have hlt : o.place < a.methods.length := by
    rw [h.renders.length_methods]
    exact (List.getElem?_eq_some_iff.mp hl).1
  have hm := List.getElem?_eq_getElem hlt
  obtain ⟨p, hp, hbare⟩ := h.renders.method_at hm
  rw [hl] at hp
  cases hp
  -- a row differs from what was lowered only in its place and its body
  have hname : a.methods[o.place].name = l.method.name :=
    (congrArg MethodDef.name hbare : (bare a.methods[o.place]).name = _)
  have hsignature : a.methods[o.place].signature = l.method.signature :=
    (congrArg MethodDef.signature hbare : (bare a.methods[o.place]).signature = _)
  rw [hmethod] at hname hsignature
  refine ⟨a.methods[o.place], h.renders.method?_ofRow hm, hname, hsignature, ?_⟩
  rw [hsignature, ← hmethod]
  exact (h.standing _ (List.mem_of_getElem? hl) _ hsource).params

/-- Nothing is said about a declaration that gets its own method. -/
theorem paramWarning_own {o : Own} (h : o.IsCompiledIn a) :
    Resolver.paramWarning a o.declaration o.token = [] := by
  obtain ⟨m, hm, -, -, hparams⟩ := h
  unfold Resolver.paramWarning
  rw [hm, hparams]
  exact if_pos rfl

/-- If nothing is in the way there is no warning. -/
theorem level_ne_warn (h : Serves a (steps ++ added) forest) (hadded : Unlisted added)
    (horder : ∀ o ∈ ownMethods steps, o.InOrder steps) {record : LogRecord}
    (hin : record ∈ (serve a .start (visits a forest)).log) : record.level ≠ .warn := by
  intro hwarn
  obtain ⟨g, hg, hwarning⟩ := warn_of_serve hin hwarn
  obtain ⟨k, hk, rfl⟩ := List.getElem_of_mem hg
  have hpairs := forall₂_ownMethods h hadded
  have hlt : k < (ownMethods steps).length := hpairs.length_eq ▸ hk
  obtain ⟨hdeclaration, htoken⟩ := hpairs.get hk hlt
  have hmem : (ownMethods steps)[k] ∈ ownMethods steps := List.getElem_mem hlt
  have hown := htoken.mpr (horder _ hmem)
  have hcompiled : (ownMethods steps)[k].IsCompiledIn a := by
    apply isCompiledIn_of_serves h
    rwa [ownMethods_append_unlisted hadded]
  simp only [List.get_eq_getElem] at hdeclaration hown
  rw [hdeclaration, hown, paramWarning_own hcompiled] at hwarning
  cases hwarning

/-- A file that parses and compiles is resolved to its end. A declaration
gets the method that was compiled from it exactly if no method of the same
type and name that the forest does not list was compiled before; these
methods are in the module as they were lowered, with the parameters of
their declarations. If all is in order no warning is left. -/
theorem own_methods_of_compile {source module : String} {tree : Tree} {options : CompileOptions}
    {a : Assembly} (hparse : (Run.outcome (Tree.parse source)).1 = .ok tree)
    (hcompile : (Run.outcome (compile module tree options)).1 = .ok a)
    (htypes : a.types.length < Token.rowLimit) (hmethods : a.methods.length < Token.rowLimit)
    (log : Log) :
    let resolved := Run.upshot ⟨.start, log⟩ (Resolver.resolve a (Declaration.forest tree.root))
    let own := ownMethods (script tree.root)
    ∃ members, resolved.1 = .ok members
      ∧ List.Forall₂ (fun g o => g.declaration = o.declaration
          ∧ (g.token = o.token ↔ o.InOrder (script tree.root)))
        (grantsOf (Declaration.forest tree.root) members) own
      ∧ (∀ o ∈ own, o.IsCompiledIn a)
      ∧ ((∀ o ∈ own, o.InOrder (script tree.root)) →
          ∀ record ∈ resolved.2.log, record.level = .warn → record ∈ log) := by
  obtain ⟨added, hadded, h⟩ := serves_of_compile hparse hcompile htypes hmethods
  obtain ⟨members, hrun, -, hgrants⟩ := h.resolves log
  simp only []
  refine ⟨members, congrArg Prod.fst hrun, ?_, ?_, ?_⟩
  · rw [hgrants]
    exact forall₂_ownMethods h hadded
  · intro o ho
    rw [← ownMethods_append_unlisted hadded] at ho
    exact isCompiledIn_of_serves h ho
  · intro horder record hin hwarn
    rw [hrun] at hin
    rcases List.mem_append.mp hin with hin | hin
    · rcases List.mem_append.mp hin with hin | hin
      · exact hin
      · exact absurd hwarn (level_ne_warn h hadded horder hin)
    · rw [List.mem_singleton.mp hin] at hwarn
      cases hwarn

/-- A file with accessors and a destructor, and methods named like them
where nothing is in the way. -/
def orderedSource : String :=
  "class C \x7b int X \x7b get \x7b return 1; \x7d \x7d int get_X(int a) \x7b return a; \x7d\n"
    ++ "void Finalize(int b) \x7b \x7d ~C() \x7b \x7d \x7d"

/-- In the file with nothing in the way all declarations get their own
methods. -/
theorem own_methods_of_orderedSource : ∃ tree a members,
    (Run.outcome (Tree.parse orderedSource)).1 = .ok tree
      ∧ (Run.outcome (compile "Ordered" tree ⟨false⟩)).1 = .ok a
      ∧ (Run.upshot ⟨.start, []⟩ (Resolver.resolve a (Declaration.forest tree.root))).1
        = .ok members
      ∧ (ownMethods (script tree.root)).length = 3
      ∧ List.Forall₂ (fun g o => g.declaration = o.declaration ∧ g.token = o.token)
        (grantsOf (Declaration.forest tree.root) members) (ownMethods (script tree.root)) := by
  have hruns : compilesTo orderedSource "Ordered" (fun tree _ =>
      decide ((ownMethods (script tree.root)).length = 3
        ∧ ∀ o ∈ ownMethods (script tree.root), o.InOrder (script tree.root))) = true := by
    decide +kernel
  obtain ⟨tree, a, hparse, hcompile, htypes, hmethods, hcheck⟩ := of_compilesTo hruns
  obtain ⟨hlength, horder⟩ := of_decide_eq_true hcheck
  obtain ⟨members, hrun, hpairs, -, -⟩ :=
    own_methods_of_compile hparse hcompile htypes hmethods []
  refine ⟨tree, a, members, hparse, hcompile, hrun, hlength, ?_⟩
  rw [List.forall₂_iff_get] at hpairs ⊢
  refine ⟨hpairs.1, fun k hg ho => ?_⟩
  obtain ⟨hdeclaration, htoken⟩ := hpairs.2 k hg ho
  exact ⟨hdeclaration, htoken.mpr (horder _ (List.get_mem _ _))⟩

/-- A file with an abstract accessor and a method that is named like
it. -/
def abstractSource : String :=
  "abstract class C \x7b abstract int X \x7b get; \x7d int get_X(int a) \x7b return 1; \x7d \x7d"

/-- The method that is named like an abstract accessor gets the accessor:
it is not what was compiled from it, it has another number of parameters,
and a warning is left. -/
theorem abstract_accessor_taken : ∃ tree a members g o m,
    (Run.outcome (Tree.parse abstractSource)).1 = .ok tree
      ∧ (Run.outcome (compile "Abstract" tree ⟨false⟩)).1 = .ok a
      ∧ (Run.upshot ⟨.start, []⟩ (Resolver.resolve a (Declaration.forest tree.root))).1
        = .ok members
      ∧ (g, o) ∈ (grantsOf (Declaration.forest tree.root) members).zip
          (ownMethods (script tree.root))
      ∧ g.token ≠ o.token
      ∧ a.method? g.token = some m
      ∧ g.declaration.paramCount? ≠ some m.signature.params.length
      ∧ ∃ record ∈ (Run.upshot ⟨.start, []⟩
          (Resolver.resolve a (Declaration.forest tree.root))).2.log, record.level = .warn := by
  have hruns : compilesTo abstractSource "Abstract" (fun tree a =>
      let resolved := Run.upshot ⟨.start, []⟩ (Resolver.resolve a (Declaration.forest tree.root))
      resolved.1.toOption.any fun members =>
        ((grantsOf (Declaration.forest tree.root) members).zip
          (ownMethods (script tree.root))).any fun x =>
            (a.method? x.1.token).any fun m => decide (x.1.token ≠ x.2.token
              ∧ x.1.declaration.paramCount? ≠ some m.signature.params.length
              ∧ ∃ record ∈ resolved.2.log, record.level = .warn)) = true := by decide +kernel
  obtain ⟨tree, a, hparse, hcompile, -, -, hcheck⟩ := of_compilesTo hruns
  obtain ⟨members, hmembers, hcheck⟩ := (Option.any_eq_true _ _).mp hcheck
  obtain ⟨⟨g, o⟩, hpair, hcheck⟩ := List.any_eq_true.mp hcheck
  obtain ⟨m, hm, hcheck⟩ := (Option.any_eq_true _ _).mp hcheck
  obtain ⟨htoken, hparams, hwarn⟩ := of_decide_eq_true hcheck
  refine ⟨tree, a, members, g, o, m, hparse, hcompile, ?_, hpair, htoken, hm, hparams, hwarn⟩
  cases hrun : (Run.upshot ⟨.start, []⟩
      (Resolver.resolve a (Declaration.forest tree.root))).1 with
  | ok members' =>
    rw [hrun] at hmembers
    exact congrArg Except.ok (Option.some.inj hmembers)
  | error e =>
    rw [hrun] at hmembers
    cases hmembers

end ClrListing.Binding
