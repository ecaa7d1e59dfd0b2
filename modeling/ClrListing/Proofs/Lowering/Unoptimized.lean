/-
One file compiled with and without optimization.

The setting is looked at in one place, where a method is added to its type,
and it does not look further than at the method that is added. So the two
compilations go through the same states, but that in one of them every
method has a flag that none has in the other (`Flagged`), and every step of
the emission takes two such states to two such states. Tokens and body
addresses count methods and never read them, and no member and no added
constructor sets the flag by itself (`arePlain_memberEffects`), so nothing
else can come to differ.
-/
import ClrListing.Proofs.Lowering.Cuts
import ClrListing.Proofs.Lowering.Pushes
import Mathlib.Algebra.Group.Nat.Defs

namespace ClrListing.Lowering

open Assembly Metadata Source Syntax

-- ============================================================ the flag

/-- A flag that is put in a set is in it. -/
theorem has_insert {α : Type} [Flag α] (s : FlagSet α) (f : α) : (s.insert f).has f = true := by
  have hbit : (Nat.pow 2 (Flag.position f)).testBit (Flag.position f) = true :=
    Nat.testBit_two_pow_self
  unfold FlagSet.has FlagSet.insert
  rw [Nat.testBit_or, hbit, Bool.or_true]

/-- The method with the flag that keeps it from being optimized. -/
def unoptimized (m : MethodDef) : MethodDef :=
  { m with implFlags := m.implFlags.insert .noOptimization }

/-- Whether none of some methods has a flag of its implementation. -/
def ArePlain (ms : List MethodDef) : Prop := ∀ m ∈ ms, m.implFlags = .empty

theorem ArePlain.append {ms ms' : List MethodDef} (h : ArePlain ms) (h' : ArePlain ms') :
    ArePlain (ms ++ ms') := by
  intro m hm
  exact (List.mem_append.mp hm).elim (h m) (h' m)

theorem arePlain_singleton {m : MethodDef} (h : m.implFlags = .empty) : ArePlain [m] := by
  intro m' hm
  rw [List.mem_singleton.mp hm, h]

-- ======================================================= plain methods

theorem implFlags_constructorMethod (s : Surroundings) (c : Constructor) :
    (constructorMethod s c).implFlags = .empty := by
  unfold constructorMethod
  simp only []
  split <;> rfl

theorem implFlags_methodOf (s : Surroundings) (m : Method) :
    (methodOf s m).implFlags = .empty := rfl

theorem implFlags_accessor (o : AccessorOwner) (s : Surroundings) (kind : AccessorKind)
    (own : Modifiers) (hasBody generated : Bool) :
    (o.method s kind own hasBody generated).implFlags = .empty := rfl

theorem arePlain_ownerEffects (o : AccessorOwner) (s : Surroundings) (accessors : List Accessor)
    (hasExpressionBody : Bool) (span : Span) :
    ArePlain (declaredBy (o.effects s accessors hasExpressionBody span)) := by
  unfold AccessorOwner.effects
  split
  · exact arePlain_singleton (implFlags_accessor o s _ _ _ _)
  · rw [AccessorOwner.declaredBy_flatMap]
    intro m hm
    obtain ⟨a, -, rfl⟩ := List.mem_map.mp hm
    exact implFlags_accessor o s _ _ _ _

/-- A declaration that may lack a body declares one plain method. -/
theorem arePlain_declare {body : Option Body} {allowed : Bool} {member : String} {span at_ : Span}
    {m : MethodDef} {hasBody : Bool} (h : m.implFlags = .empty) :
    ArePlain (declaredBy
      (requireBody body allowed member span ++ [.declare m hasBody at_])) := by
  rw [declaredBy_append, declaredBy_requireBody]
  exact arePlain_singleton h

theorem arePlain_event (s : Surroundings) (ev : Event) (name : String) :
    ArePlain (declaredBy (oneEventEffects s ev name)) := by
  unfold oneEventEffects
  simp only []
  split
  · intro m hm
    simp only [declaredBy, List.map_cons, List.map_nil, List.filterMap_cons, List.filterMap_nil,
      List.mem_cons, List.not_mem_nil, or_false] at hm
    rcases hm with rfl | rfl <;> exact implFlags_accessor _ s _ _ _ _
  · exact arePlain_ownerEffects _ s _ _ _

/-- What a member declares is plain. -/
theorem arePlain_memberEffects (s : Surroundings) (m : Member) :
    ArePlain (declaredBy (memberEffects s m)) := by
  have hnone : ArePlain [] := fun _ h => absurd h List.not_mem_nil
  cases m with
  | type decl => exact hnone
  | field f =>
    simp only [memberEffects, fieldEffects]
    split <;> exact hnone
  | constructor c =>
    simp only [memberEffects, constructorEffects]
    split
    · exact hnone
    · rw [declaredBy_append, declaredBy_requireBody]
      exact arePlain_singleton (implFlags_constructorMethod s c)
  | destructor d => exact arePlain_declare rfl
  | method m =>
    simp only [memberEffects, methodEffects]
    split
    · exact hnone
    · exact arePlain_declare (implFlags_methodOf s m)
  | property p =>
    simp only [memberEffects, propertyEffects]
    rw [declaredBy_append]
    refine .append ?_ (arePlain_ownerEffects _ s _ _ _)
    split <;> exact hnone
  | indexer i => exact arePlain_ownerEffects _ s _ _ _
  | event ev =>
    intro m hm
    obtain ⟨x, hx, hdeclared⟩ := List.mem_filterMap.mp hm
    obtain ⟨name, -, hname⟩ := List.mem_flatMap.mp hx
    exact arePlain_event s ev name m (List.mem_filterMap.mpr ⟨x, hname, hdeclared⟩)
  | operator o =>
    simp only [memberEffects, operatorEffects]
    split
    · exact hnone
    · exact arePlain_declare rfl

theorem arePlain_delegateEffects (s : Surroundings) (delegate : Option DelegateSignature)
    (span : Span) : ArePlain (declaredBy (delegateEffects s delegate span)) := by
  cases delegate with
  | none => exact fun _ h => absurd h List.not_mem_nil
  | some d =>
    intro m hm
    simp only [delegateEffects, delegateMethods, declaredBy, List.map_cons, List.map_nil,
      List.filterMap_cons, List.filterMap_nil, List.mem_cons, List.not_mem_nil, or_false] at hm
    rcases hm with rfl | rfl | rfl | rfl <;> rfl

-- ========================================================== two states

/-- The module under construction with the flag on every method. -/
def flaggedBuilder (b : Builder) : Builder := { b with methods := b.methods.map unoptimized }

/-- The state with the flag on every method that was added. -/
def flagged (e : Emission) : Emission := { e with builder := flaggedBuilder e.builder }

/-- Whether two states are the same but for the flag, which no method has
in the first and every method in the second. -/
structure Flagged (e e' : Emission) : Prop where
  same : e' = flagged e
  plain : ArePlain e.builder.methods

/-- How a text is compiled so that no method is optimized. -/
def unoptimizing (source : String) : Setting := ⟨source, ⟨true⟩⟩

/-- How it is compiled otherwise. -/
def optimizing (source : String) : Setting := ⟨source, ⟨false⟩⟩

theorem flaggedBuilder_modifyType (b : Builder) (token : Token) (f : TypeDef → TypeDef) :
    (flaggedBuilder b).modifyType token f = flaggedBuilder (b.modifyType token f) := by
  unfold Builder.modifyType
  split <;> rfl

theorem flaggedBuilder_addType (b : Builder) (t : Builder.NewType) :
    (flaggedBuilder b).addType t = flaggedBuilder (b.addType t) := by
  have hlinked : (flaggedBuilder b).linkNested t.enclosing b.nextType
      = flaggedBuilder (b.linkNested t.enclosing b.nextType) := by
    unfold Builder.linkNested
    split
    · exact flaggedBuilder_modifyType b _ _
    · rfl
  have hnext : (flaggedBuilder b).nextType = b.nextType := rfl
  unfold Builder.addType
  rw [hnext, hlinked]
  rfl

theorem nextMethod_flaggedBuilder (b : Builder) :
    (flaggedBuilder b).nextMethod = b.nextMethod := by
  unfold Builder.nextMethod flaggedBuilder
  rw [List.length_map]

theorem flaggedBuilder_addMethod (b : Builder) (declaring : Token) (m : MethodDef) :
    (flaggedBuilder b).addMethod declaring (unoptimized m)
      = flaggedBuilder (b.addMethod declaring m) := by
  unfold Builder.addMethod
  rw [nextMethod_flaggedBuilder, flaggedBuilder_modifyType]
  unfold flaggedBuilder
  rw [List.map_append]
  rfl

-- ============================================================ one step

namespace Flagged

variable {e e' : Emission} (h : Flagged e e') (source : String)
include h

theorem pushMethod (declaring : Token) {m : MethodDef} (hm : m.implFlags = .empty)
    (hasBody : Bool) :
    Flagged (e.pushMethod (optimizing source) declaring m hasBody)
      (e'.pushMethod (unoptimizing source) declaring m hasBody) := by
  have hon : Emission.finishMethod (unoptimizing source) m = unoptimized m := rfl
  have hoff : Emission.finishMethod (optimizing source) m = m := rfl
  constructor
  case same =>
    rw [h.same]
    unfold Emission.pushMethod
    rw [hon, hoff]
    cases hasBody with
    | true =>
      have hadded := flaggedBuilder_addMethod e.builder declaring
        { m with bodyAddress := e.nextBody }
      simp only [if_true, flagged, nextMethod_flaggedBuilder, Emission.note, ← hadded]
      rfl
    | false =>
      have hadded := flaggedBuilder_addMethod e.builder declaring m
      simp only [Bool.false_eq_true, if_false, flagged, nextMethod_flaggedBuilder,
        Emission.note, ← hadded]
  case plain =>
    rw [methods_pushMethod]
    refine h.plain.append (arePlain_singleton ?_)
    cases hasBody with
    | true => exact hm
    | false => exact hm

theorem declareMethod (s : Surroundings) (declaring : Token) {m : MethodDef}
    (hm : m.implFlags = .empty) (hasBody : Bool) (span : Span) :
    Flagged (e.declareMethod (optimizing source) s declaring m hasBody span)
      (e'.declareMethod (unoptimizing source) s declaring m hasBody span) := by
  obtain ⟨rfl, hplain⟩ := h
  have hkeys : (flagged e).keys = e.keys := rfl
  have hrepeated : Flagged (e.complain (optimizing source) (Emission.repeated s m) span)
      ((flagged e).complain (unoptimizing source) (Emission.repeated s m) span) :=
    ⟨rfl, hplain⟩
  have hnew : ∀ keys, Flagged { e with keys := keys } { flagged e with keys := keys } :=
    fun _ => ⟨rfl, hplain⟩
  unfold Emission.declareMethod
  simp only [hkeys]
  split
  · exact hrepeated.pushMethod source declaring hm hasBody
  · exact (hnew _).pushMethod source declaring hm hasBody

theorem applyAll (s : Surroundings) (record : Nat) (declaring : Token) {effects : List Effect}
    (heffects : ArePlain (declaredBy effects)) :
    Flagged (e.applyAll (optimizing source) s record declaring effects)
      (e'.applyAll (unoptimizing source) s record declaring effects) := by
  unfold Emission.applyAll
  induction effects generalizing e e' with
  | nil => exact h
  | cons x rest ih =>
    have hrest : ArePlain (declaredBy rest) := by
      intro m hm
      exact heffects m (by
        rw [show x :: rest = [x] ++ rest from rfl, declaredBy_append]
        exact List.mem_append_right _ hm)
    rw [List.foldl_cons, List.foldl_cons]
    refine ih ?_ hrest
    cases x with
    | complain d span =>
      obtain ⟨rfl, hplain⟩ := h
      exact ⟨rfl, hplain⟩
    | mark m =>
      obtain ⟨rfl, hplain⟩ := h
      exact ⟨rfl, hplain⟩
    | declare m hasBody span =>
      exact h.declareMethod source s declaring (heffects m List.mem_cons_self) hasBody span

/-- A declaration is opened in both states at one place, or in neither. -/
theorem openType (scope : Scope) (outer : Option Enclosing) (decl : TypeDecl) :
    Flagged (Lowering.openType (optimizing source) scope outer decl e).1
        (Lowering.openType (unoptimizing source) scope outer decl e').1
      ∧ (Lowering.openType (unoptimizing source) scope outer decl e').2
        = (Lowering.openType (optimizing source) scope outer decl e).2 := by
  obtain ⟨rfl, hplain⟩ := h
  have hdestination : ∀ place, destination { flagged e with place := place } scope outer decl
      = destination { e with place := place } scope outer decl := fun _ => rfl
  have hadded : ∀ place, addType { flagged e with place := place } scope outer decl
      = flagged (addType { e with place := place } scope outer decl) := by
    intro place
    unfold addType Emission.note flagged
    simp only [← flaggedBuilder_addType]
    rfl
  have hopened : Lowering.openType (unoptimizing source) scope outer decl (flagged e)
      = (flagged (Lowering.openType (optimizing source) scope outer decl e).1,
        (Lowering.openType (optimizing source) scope outer decl e).2) := by
    unfold Lowering.openType
    rw [show (flagged e).place = e.place from rfl]
    simp only [hdestination]
    cases destination { e with place := e.place + 1 } scope outer decl with
    | fresh =>
      simp only [hadded]
      rfl
    | merged record => rfl
    | refused => rfl
  rw [hopened]
  refine ⟨⟨rfl, ?_⟩, rfl⟩
  rw [methods_openType.1]
  exact hplain

end Flagged

-- ========================================================= declarations

section Declarations

variable (source : String)

mutual

theorem flagged_emitType : ∀ (decl : TypeDecl) (scope : Scope) (outer : Option Enclosing)
    {e e' : Emission}, Flagged e e' →
    Flagged (emitType (optimizing source) scope outer decl e)
      (emitType (unoptimizing source) scope outer decl e')
  | ⟨kind, name, typeParams, modifiers, bases, members, enumerators, delegate, span⟩,
      scope, outer, e, e', h => by
    obtain ⟨hopen, hsame⟩ := h.openType source scope outer
      ⟨kind, name, typeParams, modifiers, bases, members, enumerators, delegate, span⟩
    simp only [emitType]
    generalize openType (optimizing source) scope outer _ e = opened at hopen hsame ⊢
    generalize openType (unoptimizing source) scope outer _ e' = opened' at hopen hsame ⊢
    obtain ⟨f, inside⟩ := opened
    obtain ⟨f', inside'⟩ := opened'
    cases hsame
    cases inside with
    | none => exact hopen
    | some inside =>
      cases kind with
      | delegateType => exact hopen.applyAll source _ _ _ (arePlain_delegateEffects _ _ _)
      | enumType => exact hopen
      | classType => exact flagged_emitMembers members inside hopen
      | structType => exact flagged_emitMembers members inside hopen
      | interfaceType => exact flagged_emitMembers members inside hopen

theorem flagged_emitMembers : ∀ (members : List Member) (inside : Enclosing)
    {e e' : Emission}, Flagged e e' →
    Flagged (emitMembers (optimizing source) inside members e)
      (emitMembers (unoptimizing source) inside members e')
  | [], _, _, _, h => by
    rw [emitMembers, emitMembers]
    exact h
  | m :: rest, inside, _, _, h => by
    rw [emitMembers, emitMembers]
    exact flagged_emitMembers rest inside (flagged_emitMember m inside h)

theorem flagged_emitMember : ∀ (m : Member) (inside : Enclosing) {e e' : Emission},
    Flagged e e' → Flagged (emitMember (optimizing source) inside m e)
      (emitMember (unoptimizing source) inside m e')
  | .type decl, inside, _, _, h => by
    rw [emitMember, emitMember]
    exact flagged_emitType decl inside.surroundings.scope (some inside) h
  | .field _, _, _, _, h => h.applyAll source _ _ _ (arePlain_memberEffects _ _)
  | .constructor _, _, _, _, h => h.applyAll source _ _ _ (arePlain_memberEffects _ _)
  | .destructor _, _, _, _, h => h.applyAll source _ _ _ (arePlain_memberEffects _ _)
  | .method _, _, _, _, h => h.applyAll source _ _ _ (arePlain_memberEffects _ _)
  | .property _, _, _, _, h => h.applyAll source _ _ _ (arePlain_memberEffects _ _)
  | .indexer _, _, _, _, h => h.applyAll source _ _ _ (arePlain_memberEffects _ _)
  | .event _, _, _, _, h => h.applyAll source _ _ _ (arePlain_memberEffects _ _)
  | .operator _, _, _, _, h => h.applyAll source _ _ _ (arePlain_memberEffects _ _)

end

mutual

theorem flagged_emitSpaceMembers : ∀ (members : List NamespaceMember) (scope : Scope)
    {e e' : Emission}, Flagged e e' →
    Flagged (emitSpaceMembers (optimizing source) scope members e)
      (emitSpaceMembers (unoptimizing source) scope members e')
  | [], _, _, _, h => by
    rw [emitSpaceMembers, emitSpaceMembers]
    exact h
  | m :: rest, scope, _, _, h => by
    rw [emitSpaceMembers, emitSpaceMembers]
    exact flagged_emitSpaceMembers rest scope (flagged_emitSpaceMember m scope h)

theorem flagged_emitSpaceMember : ∀ (m : NamespaceMember) (scope : Scope)
    {e e' : Emission}, Flagged e e' →
    Flagged (emitSpaceMember (optimizing source) scope m e)
      (emitSpaceMember (unoptimizing source) scope m e')
  | .space ⟨_, _, _, members, _⟩, _, _, _, h => by
    rw [emitSpaceMember, emitSpaceMember]
    exact flagged_emitSpaceMembers members _ h
  | .type decl, scope, _, _, h => by
    rw [emitSpaceMember, emitSpaceMember]
    exact flagged_emitType source decl scope none h

end

theorem Flagged.completeType {e e' : Emission} (h : Flagged e e') (r : TypeRecord) :
    Flagged (Emission.completeType (optimizing source) e r)
      (Emission.completeType (unoptimizing source) e' r) := by
  unfold Emission.completeType
  split
  · split
    · exact (h.pushMethod source r.token rfl true).pushMethod source r.token rfl true
    · exact h.pushMethod source r.token rfl true
  · split
    · exact h.pushMethod source r.token rfl true
    · exact h

end Declarations

/-- The two compilations of a file come to states that differ in the flag. -/
theorem flagged_emission (module : String) (tree : Tree) :
    Flagged (emission module tree ⟨false⟩) (emission module tree ⟨true⟩) := by
  have hstart : Flagged (.start module) (.start module) :=
    ⟨rfl, fun _ h => absurd h List.not_mem_nil⟩
  have hemitted := flagged_emitSpaceMembers tree.source tree.root.members (topScope tree.root)
    hstart
  have hcompleted : ∀ (rs : List TypeRecord) {e e' : Emission}, Flagged e e' →
      Flagged (rs.foldl (Emission.completeType (optimizing tree.source)) e)
        (rs.foldl (Emission.completeType (unoptimizing tree.source)) e') := by
    intro rs
    induction rs with
    | nil => exact fun h => h
    | cons r rest ih => exact fun h => ih (h.completeType tree.source r)
  have htypes : (emitSpaceMembers (unoptimizing tree.source) (topScope tree.root)
      tree.root.members (.start module)).types
      = (emitSpaceMembers (optimizing tree.source) (topScope tree.root)
        tree.root.members (.start module)).types := by
    rw [hemitted.same]
    rfl
  show Flagged (List.foldl _ _ _) (List.foldl _ _ (emitSpaceMembers (unoptimizing tree.source)
    (topScope tree.root) tree.root.members (.start module)).types)
  rw [htypes]
  exact hcompleted _ hemitted

/-- Keeping methods from being optimized changes nothing else: a file is
refused with the same diagnostics as without that setting, or compiled to
the same module but for a flag, which every method has then and none has
otherwise; and the records that are left are the same. -/
theorem compile_unoptimized (module : String) (tree : Tree) :
    (Run.outcome (compile module tree ⟨true⟩)).2 = (Run.outcome (compile module tree ⟨false⟩)).2
      ∧ ((∃ ds, (Run.outcome (compile module tree ⟨true⟩)).1 = .error (.compilation ds)
            ∧ (Run.outcome (compile module tree ⟨false⟩)).1 = .error (.compilation ds))
        ∨ ∃ a : Assembly, (Run.outcome (compile module tree ⟨false⟩)).1 = .ok a
            ∧ (Run.outcome (compile module tree ⟨true⟩)).1
              = .ok { a with methods := a.methods.map unoptimized }
            ∧ (∀ m ∈ a.methods, m.implFlags.has .noOptimization = false)
            ∧ ∀ m ∈ a.methods.map unoptimized, m.implFlags.has .noOptimization = true) := by
  have h := flagged_emission module tree
  have hsame : ∀ {β : Type} (f : Emission → β), (∀ e, f (flagged e) = f e) →
      f (emission module tree ⟨true⟩) = f (emission module tree ⟨false⟩) := by
    intro β f hf
    rw [h.same, hf]
  have hdiagnostics := hsame Emission.diagnostics fun _ => rfl
  have hlog := hsame Emission.log fun _ => rfl
  have hbuild : ∀ e : Emission, (flagged e).builder.build
      = { e.builder.build with methods := e.builder.build.methods.map unoptimized } := fun _ => rfl
  refine ⟨?_, ?_⟩
  · have htypes := hsame (fun e => e.builder.build.types.length) fun _ => rfl
    have hmethods := hsame (fun e => e.builder.build.methods.length) fun e => by
      rw [hbuild, List.length_map]
    rw [Run.outcome_eq, Run.outcome_eq]
    unfold compile
    simp only [Run.upshot_bind, Run.upshot_debug, Run.upshot_log, hdiagnostics, hlog]
    split
    · simp only [Run.upshot_bind, Run.upshot_throw]
    · simp only [Run.upshot_bind, Run.upshot_info, Run.upshot_pure, htypes, hmethods]
  · cases herrors : (emission module tree ⟨false⟩).diagnostics.hasErrors with
    | true =>
      refine .inl ⟨_, ?_, compile_eq_error herrors⟩
      rw [compile_eq_error (hdiagnostics ▸ herrors), hdiagnostics]
    | false =>
      refine .inr ⟨_, compile_eq_ok.mpr ⟨herrors, rfl⟩, ?_, fun m hm => ?_, fun m hm => ?_⟩
      · rw [compile_eq_ok, hdiagnostics, h.same, hbuild]
        exact ⟨herrors, rfl⟩
      · have hplain := h.plain m hm
        rw [hplain]
        rfl
      · obtain ⟨m, -, rfl⟩ := List.mem_map.mp hm
        exact has_insert _ _

end ClrListing.Lowering
