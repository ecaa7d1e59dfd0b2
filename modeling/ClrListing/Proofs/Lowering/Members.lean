/-
The methods that the members of a type are lowered to.

`memberLowered` lists them for a member that nothing is wrong with, and
says of each whether a declaration of the forest stands for it. Both sides
of the comparison are checked here, member by member: the methods are
those that the member's effects declare (`methods_memberLowered`), and the
declarations are those that the forest holds for the member
(`sources_memberLowered`). The two disagree about which members count:
accessors without a body, events, operators and destructors are lowered
but not listed.
-/
import ClrListing.Declaration.Forest
import ClrListing.Lowering.Effect

namespace ClrListing.Lowering

open Assembly Metadata Source Syntax

-- ====================================================== lowered methods

/-- A method that a member is lowered to, and the declaration of the
forest that it stands for, if the forest lists it. -/
structure Lowered where
  method : MethodDef
  source : Option Declaration

/-- A method that no declaration of the forest stands for. -/
def Lowered.unlisted (m : MethodDef) : Lowered := ⟨m, none⟩

/-- The methods among effects. -/
def declaredBy (effects : List Effect) : List MethodDef :=
  effects.filterMap fun
    | .declare m _ _ => some m
    | _ => none

/-- The accessors of a property or indexer. -/
def accessorsLowered (s : Surroundings) (o : AccessorOwner) (interface : Option TypeExpr)
    (indexCount : Nat) (accessors : List Accessor) (expressionBody : Option Body) (span : Span) :
    List Lowered :=
  let source (kind : AccessorKind) (at_ : Span) :=
    Declaration.ofAccessor o.name (interface.map TypeExpr.display) indexCount kind at_
  if expressionBody.isSome then [⟨o.method s .get [] true false, some (source .get span)⟩]
  else
    let automatic := o.isAutomatic s accessors
    accessors.map fun a =>
      ⟨o.method s a.kind a.modifiers (a.body.isSome || automatic) automatic,
        if Declaration.isListed a then some (source a.kind a.span) else none⟩

/-- The methods that a member is lowered to if nothing is wrong with
it. -/
def memberLowered (s : Surroundings) : Member → List Lowered
  | .constructor c => [⟨constructorMethod s c, some (Declaration.ofConstructor c)⟩]
  | .method m => (Declaration.ofMethod m).map fun d => ⟨methodOf s m, some d⟩
  | .property p =>
    accessorsLowered s (propertyOwner s p) p.explicitInterface 0 p.accessors p.expressionBody
      p.span
  | .indexer i =>
    accessorsLowered s (indexerOwner s i) i.explicitInterface i.params.length i.accessors
      i.expressionBody i.span
  | m => (declaredBy (memberEffects s m)).map .unlisted

/-- The methods that a delegate is lowered to. -/
def delegateLowered (s : Surroundings) (delegate : Option DelegateSignature) : List Lowered :=
  match delegate with
  | some d => (delegateMethods s d).map .unlisted
  | none => []

-- ============================================================= effects

/-- Whether no complaint is among effects. -/
def Uncontested (effects : List Effect) : Prop :=
  ∀ d span, Effect.complain d span ∉ effects

/-- Whether all complaints among effects are errors. -/
def OnlyErrors (effects : List Effect) : Prop :=
  ∀ d span, Effect.complain d span ∈ effects → d.severity = .error

variable {xs ys : List Effect}

theorem declaredBy_append : declaredBy (xs ++ ys) = declaredBy xs ++ declaredBy ys :=
  List.filterMap_append

theorem OnlyErrors.append (hx : OnlyErrors xs) (hy : OnlyErrors ys) : OnlyErrors (xs ++ ys) := by
  intro d span h
  rcases List.mem_append.mp h with h | h
  · exact hx d span h
  · exact hy d span h

theorem OnlyErrors.of_uncontested (h : Uncontested xs) : OnlyErrors xs := by
  intro d span hmem
  exact absurd hmem (h d span)

theorem OnlyErrors.flatMap {f : α → List Effect} {items : List α}
    (h : ∀ x ∈ items, OnlyErrors (f x)) : OnlyErrors (items.flatMap f) := by
  intro d span hmem
  obtain ⟨x, hx, hin⟩ := List.mem_flatMap.mp hmem
  exact h x hx d span hin

theorem declaredBy_requireBody (body : Option Body) (allowed : Bool) (member : String)
    (span : Span) : declaredBy (requireBody body allowed member span) = [] := by
  unfold requireBody
  split <;> rfl

theorem onlyErrors_requireBody (body : Option Body) (allowed : Bool) (member : String)
    (span : Span) : OnlyErrors (requireBody body allowed member span) := by
  intro d at_ h
  unfold requireBody at h
  split at h
  · cases h
  · rw [List.mem_singleton] at h
    cases h
    rfl

/-- A member without a body is complained about or allowed, and then its
method is declared. -/
theorem onlyErrors_declare {body : Option Body} {allowed : Bool} {member : String} {span at_ : Span}
    {m : MethodDef} {hasBody : Bool} :
    OnlyErrors (requireBody body allowed member span ++ [.declare m hasBody at_]) := by
  refine (onlyErrors_requireBody body allowed member span).append ?_
  refine .of_uncontested fun d span h => ?_
  rw [List.mem_singleton] at h
  cases h

-- =========================================================== accessors

namespace AccessorOwner

variable (o : AccessorOwner) (s : Surroundings)

theorem declaredBy_accessorEffects (automatic : Bool) (a : Accessor) :
    declaredBy (o.accessorEffects s automatic a)
      = [o.method s a.kind a.modifiers (a.body.isSome || automatic) automatic] := by
  unfold accessorEffects
  rw [declaredBy_append, declaredBy_requireBody]
  rfl

theorem declaredBy_flatMap (automatic : Bool) (accessors : List Accessor) :
    declaredBy (accessors.flatMap (o.accessorEffects s automatic))
      = accessors.map fun a =>
          o.method s a.kind a.modifiers (a.body.isSome || automatic) automatic := by
  induction accessors with
  | nil => rfl
  | cons a rest ih =>
    rw [List.flatMap_cons, declaredBy_append, declaredBy_accessorEffects, ih]
    rfl

/-- The methods that accessors declare are those they are lowered to. -/
theorem methods_accessorsLowered (interface : Option TypeExpr) (indexCount : Nat)
    (accessors : List Accessor) (expressionBody : Option Body) (span : Span) :
    (accessorsLowered s o interface indexCount accessors expressionBody span).map Lowered.method
      = declaredBy (o.effects s accessors expressionBody.isSome span) := by
  unfold accessorsLowered effects
  by_cases h : expressionBody.isSome = true
  · rw [if_pos h, if_pos h]
    rfl
  · rw [if_neg h, if_neg h, declaredBy_flatMap, List.map_map]
    rfl

theorem onlyErrors_effects (accessors : List Accessor) (hasExpressionBody : Bool) (span : Span) :
    OnlyErrors (o.effects s accessors hasExpressionBody span) := by
  unfold effects
  split
  · refine .of_uncontested fun d span h => ?_
    rw [List.mem_singleton] at h
    cases h
  · exact .flatMap fun a _ => onlyErrors_declare

/-- The declarations that the forest holds for accessors are the sources
of the methods they are lowered to. -/
theorem sources_accessorsLowered (interface : Option TypeExpr) (indexCount : Nat)
    (accessors : List Accessor) (expressionBody : Option Body) (span : Span) :
    (accessorsLowered s o interface indexCount accessors expressionBody span).filterMap
        Lowered.source
      = Declaration.ofAccessors o.name interface indexCount accessors expressionBody span := by
  unfold accessorsLowered Declaration.ofAccessors
  by_cases h : expressionBody.isSome = true
  · rw [if_pos h, if_pos h]
    rfl
  · rw [if_neg h, if_neg h]
    rw [List.filterMap_map]
    -- which accessors are listed does not depend on the methods beside them
    show accessors.filterMap (fun a => if Declaration.isListed a then _ else none) = _
    induction accessors with
    | nil => rfl
    | cons a rest ih =>
      rw [List.filterMap_cons, List.filter_cons, ih]
      cases Declaration.isListed a with
      | true => rfl
      | false => rfl

end AccessorOwner

-- ============================================================= members

theorem methods_unlisted (ms : List MethodDef) :
    (ms.map Lowered.unlisted).map Lowered.method = ms := by
  rw [List.map_map]
  exact List.map_id ms

theorem sources_unlisted (ms : List MethodDef) :
    (ms.map Lowered.unlisted).filterMap Lowered.source = [] := by
  rw [List.filterMap_map]
  exact List.filterMap_eq_nil_iff.mpr fun _ _ => rfl

/-- A member that there is no complaint about declares the methods that it
is lowered to. -/
theorem methods_memberLowered (s : Surroundings) (m : Member)
    (h : Uncontested (memberEffects s m)) :
    (memberLowered s m).map Lowered.method = declaredBy (memberEffects s m) := by
  cases m with
  | constructor c =>
    simp only [memberLowered, memberEffects, constructorEffects] at h ⊢
    by_cases hname : c.name = s.simpleName
    · rw [if_neg (not_not_intro hname), declaredBy_append, declaredBy_requireBody]
      rfl
    · rw [if_pos hname] at h
      exact absurd List.mem_cons_self (h _ _)
  | method m =>
    have hsame : (m.body.isNone && m.modifiers.has .isPartial) = Declaration.isPartialPart m := rfl
    simp only [memberLowered, memberEffects, methodEffects, Declaration.ofMethod]
    rw [hsame]
    by_cases hpart : Declaration.isPartialPart m = true
    · rw [if_pos hpart, if_pos hpart]
      rfl
    · rw [if_neg hpart, if_neg hpart, declaredBy_append, declaredBy_requireBody]
      rfl
  | property p =>
    have hmark : ∀ b : Bool,
        declaredBy (if b then [Effect.mark .staticInitializer] else []) = [] := by
      intro b
      cases b <;> rfl
    simp only [memberLowered, memberEffects, propertyEffects]
    rw [AccessorOwner.methods_accessorsLowered, declaredBy_append, hmark]
    rfl
  | indexer i =>
    simp only [memberLowered, memberEffects, indexerEffects]
    rw [AccessorOwner.methods_accessorsLowered]
  | type decl => exact methods_unlisted _
  | field f => exact methods_unlisted _
  | destructor d => exact methods_unlisted _
  | event e => exact methods_unlisted _
  | operator o => exact methods_unlisted _

/-- The declarations that the forest holds for a member are the sources of
the methods it is lowered to. -/
theorem sources_memberLowered (s : Surroundings) (m : Member)
    (h : ∀ decl, m ≠ .type decl) :
    (memberLowered s m).filterMap Lowered.source = Declaration.ofMember m := by
  cases m with
  | type decl => exact absurd rfl (h decl)
  | constructor c => rfl
  | method m =>
    simp only [memberLowered, Declaration.ofMember, List.filterMap_map]
    exact List.filterMap_some
  | property p => exact AccessorOwner.sources_accessorsLowered ..
  | indexer i => exact AccessorOwner.sources_accessorsLowered ..
  | field f => exact sources_unlisted _
  | destructor d => exact sources_unlisted _
  | event e => exact sources_unlisted _
  | operator o => exact sources_unlisted _

/-- Every complaint about a member is an error. -/
theorem onlyErrors_memberEffects (s : Surroundings) (m : Member) :
    OnlyErrors (memberEffects s m) := by
  have hnone : OnlyErrors [] := .of_uncontested fun _ _ => List.not_mem_nil
  cases m with
  | type decl => exact hnone
  | field f =>
    refine .of_uncontested fun d span h => ?_
    simp only [memberEffects, fieldEffects] at h
    split at h
    · rw [List.mem_singleton] at h
      cases h
    · cases h
  | constructor c =>
    simp only [memberEffects, constructorEffects]
    split
    · intro d span h
      rw [List.mem_singleton] at h
      cases h
      rfl
    · refine .append (onlyErrors_requireBody _ _ _ _) (.of_uncontested fun d span h => ?_)
      simp only [List.mem_cons, reduceCtorEq, List.not_mem_nil, or_self] at h
  | destructor d => exact onlyErrors_declare
  | method m =>
    simp only [memberEffects, methodEffects]
    split
    · exact hnone
    · exact onlyErrors_declare
  | property p =>
    simp only [memberEffects, propertyEffects]
    refine .append (.of_uncontested fun d span h => ?_)
      (AccessorOwner.onlyErrors_effects _ s _ _ _)
    split at h
    · rw [List.mem_singleton] at h
      cases h
    · cases h
  | indexer i => exact AccessorOwner.onlyErrors_effects _ s _ _ _
  | event e =>
    refine .flatMap fun name _ => ?_
    simp only [oneEventEffects]
    split
    · refine .of_uncontested fun d span h => ?_
      obtain ⟨kind, -, heq⟩ := List.mem_map.mp h
      cases heq
    · exact AccessorOwner.onlyErrors_effects _ s _ _ _
  | operator o =>
    simp only [memberEffects, operatorEffects]
    cases hname : operatorMethodName o with
    | ok name => exact onlyErrors_declare
    | error d =>
      intro d' span h
      rw [List.mem_singleton] at h
      cases h
      unfold operatorMethodName at hname
      repeat' split at hname
      all_goals cases hname
      all_goals rfl

end ClrListing.Lowering
