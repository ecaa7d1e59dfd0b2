/-
What the compiled form of a member depends on.

A member is read for the effects that it has, and those do not depend on
where in the text it stands: without places it has the same effects
without places. Of the scope around it they depend on the names alone
that the types in its signature are given (`SpelledAlike`).
-/
import ClrListing.Lowering.Compile
import ClrListing.Proofs.Syntax.Parts
import Mathlib.Data.List.Basic

namespace ClrListing.Lowering

open Assembly Metadata Source Syntax

-- ====================================================== without places

/-- An effect without its place. -/
def Effect.unplaced : Effect → Effect
  | .complain d _ => .complain d nowhere
  | .mark m => .mark m
  | .declare m hasBody _ => .declare m hasBody nowhere

theorem requireBody_unplaced (body : Option Body) (allowed : Bool) (member : String)
    (span : Span) :
    requireBody (body.map Body.unplaced) allowed member nowhere
      = (requireBody body allowed member span).map Effect.unplaced := by
  unfold requireBody
  rw [Option.isSome_map]
  split <;> rfl

section Members

variable (s : Surroundings)

theorem constructorEffects_unplaced (c : Constructor) :
    constructorEffects s { c with body := c.body.map Body.unplaced, span := nowhere }
      = (constructorEffects s c).map Effect.unplaced := by
  unfold constructorEffects
  simp only []
  split
  · rfl
  · rw [requireBody_unplaced _ _ _ c.span, Option.isSome_map, List.map_append]
    rfl

theorem destructorEffects_unplaced (d : Destructor) :
    destructorEffects s { d with body := d.body.map Body.unplaced, span := nowhere }
      = (destructorEffects s d).map Effect.unplaced := by
  unfold destructorEffects
  rw [requireBody_unplaced _ _ _ d.span, Option.isSome_map, List.map_append]
  rfl

theorem methodEffects_unplaced (m : Method) :
    methodEffects s { m with body := m.body.map Body.unplaced, span := nowhere }
      = (methodEffects s m).map Effect.unplaced := by
  unfold methodEffects methodOf
  simp only []
  rw [Option.isNone_map, Option.isSome_map]
  split
  · rfl
  · rw [requireBody_unplaced _ _ _ m.span, List.map_append]
    rfl

theorem operatorEffects_unplaced (o : Operator) :
    operatorEffects s { o with body := o.body.map Body.unplaced, span := nowhere }
      = (operatorEffects s o).map Effect.unplaced := by
  have hname : operatorMethodName { o with body := o.body.map Body.unplaced, span := nowhere }
      = operatorMethodName o := rfl
  unfold operatorEffects
  rw [hname]
  split
  · rfl
  · simp only []
    rw [requireBody_unplaced _ _ _ o.span, Option.isSome_map, List.map_append]
    rfl

theorem accessorEffects_unplaced (o : AccessorOwner) (automatic : Bool) (a : Accessor) :
    o.accessorEffects s automatic a.unplaced
      = (o.accessorEffects s automatic a).map Effect.unplaced := by
  unfold AccessorOwner.accessorEffects Accessor.unplaced
  simp only []
  rw [requireBody_unplaced _ _ _ a.span, Option.isSome_map, List.map_append]
  rfl

theorem isAutomatic_unplaced (o : AccessorOwner) (accessors : List Accessor) :
    o.isAutomatic s (accessors.map Accessor.unplaced) = o.isAutomatic s accessors := by
  have hbody : ∀ a : Accessor, a.unplaced.body.isNone = a.body.isNone :=
    fun a => Option.isNone_map
  unfold AccessorOwner.isAutomatic
  rw [List.all_map, Function.comp_def]
  simp only [hbody]

theorem effects_unplaced (o : AccessorOwner) (accessors : List Accessor)
    (hasExpressionBody : Bool) (span : Span) :
    o.effects s (accessors.map Accessor.unplaced) hasExpressionBody nowhere
      = (o.effects s accessors hasExpressionBody span).map Effect.unplaced := by
  unfold AccessorOwner.effects
  split
  · rfl
  · rw [List.flatMap_map, List.map_flatMap, isAutomatic_unplaced]
    exact List.flatMap_congr fun a _ => accessorEffects_unplaced s o _ a

theorem propertyEffects_unplaced (p : Property) :
    propertyEffects s { p with
        accessors := p.accessors.map Accessor.unplaced
        expressionBody := p.expressionBody.map Body.unplaced
        span := nowhere }
      = (propertyEffects s p).map Effect.unplaced := by
  unfold propertyEffects propertyOwner
  simp only []
  rw [effects_unplaced s _ _ _ p.span, Option.isSome_map, List.map_append]
  congr 1
  split <;> rfl

theorem indexerEffects_unplaced (i : Indexer) :
    indexerEffects s { i with
        accessors := i.accessors.map Accessor.unplaced
        expressionBody := i.expressionBody.map Body.unplaced
        span := nowhere }
      = (indexerEffects s i).map Effect.unplaced := by
  unfold indexerEffects indexerOwner
  simp only []
  rw [effects_unplaced s _ _ _ i.span, Option.isSome_map]

theorem eventEffects_unplaced (e : Event) :
    eventEffects s { e with accessors := e.accessors.map Accessor.unplaced, span := nowhere }
      = (eventEffects s e).map Effect.unplaced := by
  unfold eventEffects
  rw [List.map_flatMap]
  refine List.flatMap_congr fun name _ => ?_
  unfold oneEventEffects eventOwner
  simp only [List.isEmpty_map]
  split
  · rfl
  · exact effects_unplaced s _ _ _ e.span

/-- Without places, a member has its effects without places. -/
theorem memberEffects_unplaced (m : Member) :
    memberEffects s m.unplaced = (memberEffects s m).map Effect.unplaced := by
  cases m with
  | type decl => rfl
  | field f =>
    rw [Member.unplaced, memberEffects, memberEffects, fieldEffects, fieldEffects]
    simp only []
    split <;> rfl
  | constructor c => exact constructorEffects_unplaced s c
  | destructor d => exact destructorEffects_unplaced s d
  | method m => exact methodEffects_unplaced s m
  | property p => exact propertyEffects_unplaced s p
  | indexer i => exact indexerEffects_unplaced s i
  | event e => exact eventEffects_unplaced s e
  | operator o => exact operatorEffects_unplaced s o

/-- A delegate has its effects wherever it stands. -/
theorem delegateEffects_unplaced (delegate : Option DelegateSignature) (span : Span) :
    delegateEffects s delegate nowhere = (delegateEffects s delegate span).map Effect.unplaced := by
  cases delegate with
  | none => rfl
  | some d =>
    unfold delegateEffects
    rw [List.map_cons, List.map_map]
    rfl

end Members

mutual

theorem declaredInType_unplaced (space : String) :
    ∀ (decl : TypeDecl) (enclosing : Option Nat) (place : Nat),
      declaredInType space enclosing place decl.unplaced
        = declaredInType space enclosing place decl
  | ⟨kind, name, typeParams, _, _, members, _, _, _⟩, enclosing, place => by
    rw [TypeDecl.unplaced, declaredInType, declaredInType,
      declaredInMembers_unplaced space members]

theorem declaredInMembers_unplaced (space : String) :
    ∀ (ms : List Member) (outer place : Nat),
      declaredInMembers space outer place (allUnplaced ms) = declaredInMembers space outer place ms
  | [], _, _ => rfl
  | m :: rest, outer, place => by
    rw [allUnplaced, declaredInMembers, declaredInMembers, declaredInMember_unplaced space m,
      declaredInMembers_unplaced space rest]

theorem declaredInMember_unplaced (space : String) :
    ∀ (m : Member) (outer place : Nat),
      declaredInMember space outer place m.unplaced = declaredInMember space outer place m
  | .type decl, outer, place => by
    rw [Member.unplaced, declaredInMember, declaredInMember, declaredInType_unplaced space decl]
  | .field _, _, _ => rfl
  | .constructor _, _, _ => rfl
  | .destructor _, _, _ => rfl
  | .method _, _, _ => rfl
  | .property _, _, _ => rfl
  | .indexer _, _, _ => rfl
  | .event _, _, _ => rfl
  | .operator _, _, _ => rfl

end

mutual

theorem declaredInSpace_unplaced :
    ∀ (ms : List NamespaceMember) (space : String) (place : Nat),
      declaredInSpace space place (spaceUnplaced ms) = declaredInSpace space place ms
  | [], _, _ => rfl
  | m :: rest, space, place => by
    rw [spaceUnplaced, declaredInSpace, declaredInSpace, declaredInSpaceMember_unplaced m,
      declaredInSpace_unplaced rest]

theorem declaredInSpaceMember_unplaced :
    ∀ (m : NamespaceMember) (space : String) (place : Nat),
      declaredInSpaceMember space place m.unplaced = declaredInSpaceMember space place m
  | .space ⟨name, _, _, members, _⟩, space, place => by
    rw [NamespaceMember.unplaced, declaredInSpaceMember, declaredInSpaceMember,
      declaredInSpace_unplaced members]
  | .type decl, space, place => by
    rw [NamespaceMember.unplaced, declaredInSpaceMember, declaredInSpaceMember,
      declaredInType_unplaced space decl]

end

/-- A file declares the same types wherever they stand. -/
theorem declaredTypes_unplaced (unit : CompilationUnit) :
    declaredTypes unit.unplaced = declaredTypes unit :=
  declaredInSpace_unplaced unit.members "" 0

-- ========================================================== likeness

/-- Whether a type is called the same in two scopes, also as an interface
before a member. -/
structure SpelledAlike (sc sc' : Scope) (t : TypeExpr) : Prop where
  typeName : sc.typeName t = sc'.typeName t
  interfaceName : sc.interfaceName t = sc'.interfaceName t

section Likeness

variable {sc sc' : Scope}

theorem parameterTypes_congr (ps : List Parameter)
    (h : ∀ t ∈ ps.map Parameter.type, SpelledAlike sc sc' t) :
    sc.parameterTypes ps = sc'.parameterTypes ps := by
  refine List.map_congr_left fun p hp => ?_
  unfold Scope.parameterType
  rw [(h p.type (List.mem_map_of_mem hp)).typeName]

theorem interfaceStart_congr (interface : Option TypeExpr)
    (h : ∀ t ∈ interface.toList, SpelledAlike sc sc' t) :
    interfaceStart sc interface = interfaceStart sc' interface := by
  cases interface with
  | none => rfl
  | some t =>
    simp only [interfaceStart, (h t (List.mem_singleton_self t)).interfaceName]

/-- The effects of a member depend on its scope through the names of the
types in its signature. -/
theorem memberEffects_congr (s : Surroundings) (sc sc' : Scope) {m : Member}
    (h : ∀ t ∈ m.signatureTypes, SpelledAlike sc sc' t)
    (hin : ∀ typeParams, ∀ t ∈ m.signatureTypes,
      SpelledAlike (sc.inMethod typeParams) (sc'.inMethod typeParams) t) :
    memberEffects { s with scope := sc } m = memberEffects { s with scope := sc' } m := by
  cases m with
  | type decl => rfl
  | field f => rfl
  | destructor d => rfl
  | constructor c =>
    simp only [memberEffects, constructorEffects, constructorMethod,
      parameterTypes_congr c.params h]
  | method m =>
    have hall := hin m.typeParams
    simp only [Member.signatureTypes, List.mem_append, List.mem_cons] at hall
    have hstart := interfaceStart_congr m.explicitInterface
      fun t ht => hall t (.inl ht)
    have hreturn := (hall m.returnType (.inr (.inl rfl))).typeName
    have hparams := parameterTypes_congr m.params fun t ht => hall t (.inr (.inr ht))
    simp only [memberEffects, methodEffects, methodOf, hstart, hreturn, hparams]
    rfl
  | property p =>
    simp only [Member.signatureTypes, List.mem_append, List.mem_singleton] at h
    have hstart := interfaceStart_congr p.explicitInterface
      fun t ht => h t (.inl ht)
    simp only [memberEffects, propertyEffects, propertyOwner, hstart,
      (h p.type (.inr rfl)).typeName]
    rfl
  | indexer i =>
    simp only [Member.signatureTypes, List.mem_append, List.mem_cons] at h
    have hstart := interfaceStart_congr i.explicitInterface
      fun t ht => h t (.inl ht)
    have hparams := parameterTypes_congr i.params fun t ht => h t (.inr (.inr ht))
    simp only [memberEffects, indexerEffects, indexerOwner, hstart, hparams,
      (h i.type (.inr (.inl rfl))).typeName]
    rfl
  | event e =>
    simp only [Member.signatureTypes, List.mem_append, List.mem_singleton] at h
    have hstart := interfaceStart_congr e.explicitInterface
      fun t ht => h t (.inl ht)
    refine List.flatMap_congr fun name _ => ?_
    simp only [oneEventEffects, eventOwner, hstart, (h e.type (.inr rfl)).typeName]
    rfl
  | operator o =>
    simp only [Member.signatureTypes, List.mem_cons] at h
    have hparams := parameterTypes_congr o.params fun t ht => h t (.inr ht)
    simp only [memberEffects, operatorEffects, operatorMethod, hparams,
      (h o.returnType (.inl rfl)).typeName]
    rfl

theorem byRefTypes_congr (ps : List Parameter)
    (h : ∀ t ∈ ps.map Parameter.type, SpelledAlike sc sc' t) :
    byRefTypes sc ps = byRefTypes sc' ps := by
  refine parameterTypes_congr _ fun t ht => h t ?_
  obtain ⟨p, hp, rfl⟩ := List.mem_map.mp ht
  exact List.mem_map_of_mem (List.mem_filter.mp hp).1

theorem delegateEffects_congr (s : Surroundings) (sc sc' : Scope)
    {delegate : Option DelegateSignature} {span : Span}
    (h : ∀ t ∈ delegate.toList.flatMap DelegateSignature.signatureTypes, SpelledAlike sc sc' t) :
    delegateEffects { s with scope := sc } delegate span
      = delegateEffects { s with scope := sc' } delegate span := by
  cases delegate with
  | none => rfl
  | some d =>
    simp only [Option.toList_some, List.flatMap_singleton, DelegateSignature.signatureTypes,
      List.mem_cons] at h
    have hparams := parameterTypes_congr d.params fun t ht => h t (.inr ht)
    have hbyRef := byRefTypes_congr d.params fun t ht => h t (.inr ht)
    simp only [delegateEffects, delegateMethods, hparams, hbyRef,
      (h d.returnType (.inl rfl)).typeName]

end Likeness

end ClrListing.Lowering
