/-
The stops of a compiler on its way through a file.

A script says which methods a file is lowered to. The walk keeps, stop by
stop, the declarations themselves: a type that is opened, and a member that
is brought about in the type around it. The script is the walk with each
stop spelled out (`script_eq`), so that what is known of the one is known
of the other; the walk also knows of complaints, marks and bodies, which
come with the effects of a member and which no script shows. What types and
namespaces hand on to what is inside them (`Inherited`) holds of the members
that work is done for.
-/
import ClrListing.Proofs.Lowering.Compiled
import ClrListing.Proofs.Lowering.Names

namespace ClrListing.Lowering

open Assembly Metadata Source Syntax

-- =============================================================== stops

/-- What is brought about in a type: a member that is no type, or the
methods of a delegate. -/
inductive Work where
  | member (m : Member)
  | delegate (signature : Option DelegateSignature) (span : Span)

/-- What a piece of work brings about. -/
def Work.effects (s : Surroundings) : Work → List Effect
  | .member m => memberEffects s m
  | .delegate signature span => delegateEffects s signature span

/-- The methods that a piece of work is lowered to. -/
def Work.lowered (s : Surroundings) : Work → List Lowered
  | .member m => memberLowered s m
  | .delegate signature _ => delegateLowered s signature

/-- A stop on the way through a file. -/
inductive Stop where
  /-- The declaration of the type at a path is opened. -/
  | type (path : TypePath) (decl : TypeDecl)
  /-- Work is done in a type. -/
  | work (inside : Around) (w : Work)

/-- The type declarations that are opened on the way. -/
def openings (stops : List Stop) : List (TypePath × TypeDecl) :=
  stops.filterMap fun
    | .type path decl => some (path, decl)
    | .work _ _ => none

/-- What a stop adds to a script. -/
def Stop.steps : Stop → List Step
  | .type path decl => [.enter path decl]
  | .work b w => pushAll b (w.lowered b.surroundings)

mutual

/-- The walk through a type declaration at a place. -/
def walkOfType (scope : Scope) (outer : Option Around) (place : Nat) : TypeDecl → List Stop
  | ⟨kind, name, typeParams, modifiers, bases, members, enumerators, delegate, span⟩ =>
    let decl : TypeDecl :=
      ⟨kind, name, typeParams, modifiers, bases, members, enumerators, delegate, span⟩
    let inside := aroundOf scope outer place decl
    .type inside.path decl :: match kind with
      | .delegateType => [.work inside (.delegate delegate span)]
      | .enumType => []
      | .classType | .structType | .interfaceType => walkOfMembers inside (place + 1) members

/-- The walk through the members of a type. -/
def walkOfMembers (inside : Around) (place : Nat) : List Member → List Stop
  | [] => []
  | m :: rest =>
    let here := walkOfMember inside place m
    here ++ walkOfMembers inside (place + (openings here).length) rest

/-- The walk through a member of a type. -/
def walkOfMember (inside : Around) (place : Nat) : Member → List Stop
  | .type decl => walkOfType inside.surroundings.scope (some inside) place decl
  | m => [.work inside (.member m)]

end

mutual

/-- The walk through the members of a namespace. -/
def walkOfSpace (scope : Scope) (place : Nat) : List NamespaceMember → List Stop
  | [] => []
  | m :: rest =>
    let here := walkOfSpaceMember scope place m
    here ++ walkOfSpace scope (place + (openings here).length) rest

/-- The walk through a member of a namespace. -/
def walkOfSpaceMember (scope : Scope) (place : Nat) : NamespaceMember → List Stop
  | .space ⟨name, _, usings, members, _⟩ =>
    walkOfSpace ((scope.inSpace name).importing usings) place members
  | .type decl => walkOfType scope none place decl

end

/-- The walk through a file. -/
def walk (unit : CompilationUnit) : List Stop := walkOfSpace (topScope unit) 0 unit.members

-- ================================================= the walk in a script

/-- A script enters what is opened on the walk that it spells out. -/
theorem entered_steps (stops : List Stop) : entered (stops.flatMap Stop.steps) = openings stops := by
  induction stops with
  | nil => rfl
  | cons stop rest ih =>
    rw [List.flatMap_cons, entered_append, ih]
    cases stop with
    | type path decl => rfl
    | work b w =>
      rw [Stop.steps, entered_pushAll]
      rfl

mutual

theorem steps_walkOfType :
    ∀ (decl : TypeDecl) (scope : Scope) (outer : Option Around) (place : Nat),
      (walkOfType scope outer place decl).flatMap Stop.steps = scriptOfType scope outer place decl
  | ⟨kind, name, typeParams, modifiers, bases, members, enumerators, delegate, span⟩,
      scope, outer, place => by
    cases kind with
    | delegateType =>
      rw [walkOfType, scriptOfType, List.flatMap_cons, List.flatMap_singleton]
      rfl
    | enumType =>
      rw [walkOfType, scriptOfType]
      rfl
    | classType =>
      rw [walkOfType, scriptOfType, List.flatMap_cons, steps_walkOfMembers members]
      rfl
    | structType =>
      rw [walkOfType, scriptOfType, List.flatMap_cons, steps_walkOfMembers members]
      rfl
    | interfaceType =>
      rw [walkOfType, scriptOfType, List.flatMap_cons, steps_walkOfMembers members]
      rfl

theorem steps_walkOfMembers :
    ∀ (members : List Member) (inside : Around) (place : Nat),
      (walkOfMembers inside place members).flatMap Stop.steps
        = scriptOfMembers inside place members
  | [], inside, place => by
    rw [walkOfMembers, scriptOfMembers]
    rfl
  | m :: rest, inside, place => by
    rw [walkOfMembers, scriptOfMembers, List.flatMap_append, steps_walkOfMember m,
      steps_walkOfMembers rest, ← steps_walkOfMember m, entered_steps]

theorem steps_walkOfMember :
    ∀ (m : Member) (inside : Around) (place : Nat),
      (walkOfMember inside place m).flatMap Stop.steps = scriptOfMember inside place m
  | .type decl, inside, place => by
    rw [walkOfMember, scriptOfMember]
    exact steps_walkOfType decl _ (some inside) place
  | .field _, _, _ | .constructor _, _, _ | .destructor _, _, _ | .method _, _, _
  | .property _, _, _ | .indexer _, _, _ | .event _, _, _ | .operator _, _, _ =>
    List.flatMap_singleton ..

end

mutual

theorem steps_walkOfSpace :
    ∀ (members : List NamespaceMember) (scope : Scope) (place : Nat),
      (walkOfSpace scope place members).flatMap Stop.steps = scriptOfSpace scope place members
  | [], scope, place => by
    rw [walkOfSpace, scriptOfSpace]
    rfl
  | m :: rest, scope, place => by
    rw [walkOfSpace, scriptOfSpace, List.flatMap_append, steps_walkOfSpaceMember m,
      steps_walkOfSpace rest, ← steps_walkOfSpaceMember m, entered_steps]

theorem steps_walkOfSpaceMember :
    ∀ (m : NamespaceMember) (scope : Scope) (place : Nat),
      (walkOfSpaceMember scope place m).flatMap Stop.steps = scriptOfSpaceMember scope place m
  | .space ⟨name, _, usings, members, _⟩, scope, place => by
    rw [walkOfSpaceMember, scriptOfSpaceMember]
    exact steps_walkOfSpace members _ place
  | .type decl, scope, place => by
    rw [walkOfSpaceMember, scriptOfSpaceMember]
    exact steps_walkOfType decl scope none place

end

/-- The script of a file spells out the walk through it. -/
theorem script_eq (unit : CompilationUnit) : script unit = (walk unit).flatMap Stop.steps :=
  (steps_walkOfSpace unit.members (topScope unit) 0).symm

/-- What is opened on the way through a file are its declarations. -/
theorem openings_walk {unit : CompilationUnit} (hw : unit.WellNamed) :
    openings (walk unit) = declarations unit := by
  rw [← entered_steps, ← script_eq]
  exact entered_scriptOfSpace unit.members (topScope unit) 0 hw

-- ======================================================== worked members

/-- Whether work is done where the types of a list are known, for members
that satisfy `P`. -/
def Stop.Satisfies (types : List DeclaredType) (P : Member → Prop) : Stop → Prop
  | .type _ _ => True
  | .work b w => b.surroundings.scope.types = types ∧ ∀ m, w = .member m → P m

/-- What declarations hand on to what is inside them, down to the members
that are no types, which satisfy `P`. -/
structure Inherited (OfType : TypeDecl → Prop) (OfMember : Member → Prop)
    (OfSpaceMember : NamespaceMember → Prop) (P : Member → Prop) : Prop where
  members : ∀ decl, OfType decl → ∀ m ∈ decl.members, OfMember m
  type : ∀ decl, OfMember (.type decl) → OfType decl
  plain : ∀ m, (∀ decl, m ≠ .type decl) → OfMember m → P m
  spaceMembers : ∀ decl, OfSpaceMember (.space decl) → ∀ m ∈ decl.members, OfSpaceMember m
  spaceType : ∀ decl, OfSpaceMember (.type decl) → OfType decl

namespace Inherited

variable {types : List DeclaredType} {P : Member → Prop}
variable {OfType : TypeDecl → Prop} {OfMember : Member → Prop}
variable {OfSpaceMember : NamespaceMember → Prop}

theorem of_plain (rule : Inherited OfType OfMember OfSpaceMember P) {m : Member}
    (hplain : ∀ decl, m ≠ .type decl) (h : OfMember m) {b : Around}
    (htypes : b.surroundings.scope.types = types) :
    ∀ stop ∈ [Stop.work b (.member m)], stop.Satisfies types P := by
  refine List.forall_mem_singleton.mpr ⟨htypes, ?_⟩
  rintro _ ⟨⟩
  exact rule.plain m hplain h

mutual

theorem of_walkOfType (rule : Inherited OfType OfMember OfSpaceMember P) :
    ∀ (decl : TypeDecl) (scope : Scope) (outer : Option Around) (place : Nat),
      OfType decl → scope.types = types →
      ∀ stop ∈ walkOfType scope outer place decl, stop.Satisfies types P
  | ⟨kind, name, typeParams, modifiers, bases, members, enumerators, delegate, span⟩,
      scope, outer, place, h, htypes => by
    have hmembers : ∀ m ∈ members, OfMember m := rule.members _ h
    have hnone : ∀ stop ∈ ([] : List Stop), stop.Satisfies types P := fun _ h =>
      (List.not_mem_nil h).elim
    cases kind with
    | delegateType =>
      rw [walkOfType]
      exact List.forall_mem_cons.mpr ⟨trivial, List.forall_mem_cons.mpr ⟨⟨htypes, nofun⟩, hnone⟩⟩
    | enumType =>
      rw [walkOfType]
      exact List.forall_mem_cons.mpr ⟨trivial, hnone⟩
    | classType =>
      rw [walkOfType]
      exact List.forall_mem_cons.mpr ⟨trivial, rule.of_walkOfMembers members _ _ hmembers htypes⟩
    | structType =>
      rw [walkOfType]
      exact List.forall_mem_cons.mpr ⟨trivial, rule.of_walkOfMembers members _ _ hmembers htypes⟩
    | interfaceType =>
      rw [walkOfType]
      exact List.forall_mem_cons.mpr ⟨trivial, rule.of_walkOfMembers members _ _ hmembers htypes⟩

theorem of_walkOfMembers (rule : Inherited OfType OfMember OfSpaceMember P) :
    ∀ (members : List Member) (inside : Around) (place : Nat), (∀ m ∈ members, OfMember m) →
      inside.surroundings.scope.types = types →
      ∀ stop ∈ walkOfMembers inside place members, stop.Satisfies types P
  | [], inside, place, _, _ => by
    rw [walkOfMembers]
    exact fun _ h => (List.not_mem_nil h).elim
  | m :: rest, inside, place, h, htypes => by
    obtain ⟨hfirst, hrest⟩ := List.forall_mem_cons.mp h
    rw [walkOfMembers]
    exact List.forall_mem_append.mpr ⟨rule.of_walkOfMember m inside place hfirst htypes,
      rule.of_walkOfMembers rest inside _ hrest htypes⟩

theorem of_walkOfMember (rule : Inherited OfType OfMember OfSpaceMember P) :
    ∀ (m : Member) (inside : Around) (place : Nat), OfMember m →
      inside.surroundings.scope.types = types →
      ∀ stop ∈ walkOfMember inside place m, stop.Satisfies types P
  | .type decl, inside, place, h, htypes => by
    rw [walkOfMember]
    exact rule.of_walkOfType decl _ (some inside) place (rule.type decl h) htypes
  | .field _, _, _, h, htypes | .constructor _, _, _, h, htypes
  | .destructor _, _, _, h, htypes | .method _, _, _, h, htypes
  | .property _, _, _, h, htypes | .indexer _, _, _, h, htypes
  | .event _, _, _, h, htypes | .operator _, _, _, h, htypes =>
    rule.of_plain (by simp) h htypes

end

mutual

theorem of_walkOfSpace (rule : Inherited OfType OfMember OfSpaceMember P) :
    ∀ (members : List NamespaceMember) (scope : Scope) (place : Nat),
      (∀ m ∈ members, OfSpaceMember m) → scope.types = types →
      ∀ stop ∈ walkOfSpace scope place members, stop.Satisfies types P
  | [], scope, place, _, _ => by
    rw [walkOfSpace]
    exact fun _ h => (List.not_mem_nil h).elim
  | m :: rest, scope, place, h, htypes => by
    obtain ⟨hfirst, hrest⟩ := List.forall_mem_cons.mp h
    rw [walkOfSpace]
    exact List.forall_mem_append.mpr ⟨rule.of_walkOfSpaceMember m scope place hfirst htypes,
      rule.of_walkOfSpace rest scope _ hrest htypes⟩

theorem of_walkOfSpaceMember (rule : Inherited OfType OfMember OfSpaceMember P) :
    ∀ (m : NamespaceMember) (scope : Scope) (place : Nat), OfSpaceMember m →
      scope.types = types → ∀ stop ∈ walkOfSpaceMember scope place m, stop.Satisfies types P
  | .space ⟨_, _, _, members, _⟩, _, place, h, htypes => by
    rw [walkOfSpaceMember]
    exact rule.of_walkOfSpace members _ place (rule.spaceMembers _ h) htypes
  | .type decl, scope, place, h, htypes => by
    rw [walkOfSpaceMember]
    exact rule.of_walkOfType decl scope none place (rule.spaceType decl h) htypes

end

/-- Work on the way through a file is done for members that satisfy `P`. -/
theorem of_walk (rule : Inherited OfType OfMember OfSpaceMember P) {unit : CompilationUnit}
    (h : ∀ m ∈ unit.members, OfSpaceMember m) :
    ∀ stop ∈ walk unit, stop.Satisfies (declaredTypes unit) P :=
  rule.of_walkOfSpace unit.members (topScope unit) 0 h rfl

end Inherited

/-- Whether work is done with names as they should be, where the types of
a list are known. -/
def Stop.Named (types : List DeclaredType) : Stop → Prop
  | .type _ _ => True
  | .work b w =>
    b.surroundings.scope.types = types ∧ ∀ m, w = .member m → m.WellNamed

theorem inherited_wellNamed : Inherited TypeDecl.WellNamed Member.WellNamed
    NamespaceMember.WellNamed Member.WellNamed where
  members := by
    rintro ⟨_, _, _, _, _, members, _, _, _⟩ h
    rw [TypeDecl.WellNamed] at h
    exact allWellNamed_iff.mp h.2.2
  type _ h := by rwa [Member.WellNamed] at h
  plain _ _ h := h
  spaceMembers := by
    rintro ⟨_, _, _, members, _⟩ h
    rw [NamespaceMember.WellNamed] at h
    exact spaceWellNamed_iff.mp h.2
  spaceType _ h := by rwa [NamespaceMember.WellNamed] at h

/-- All work on the way through a well named file is named. -/
theorem named_walk {unit : CompilationUnit} (hw : unit.WellNamed) :
    ∀ stop ∈ walk unit, stop.Named (declaredTypes unit) := by
  intro stop hstop
  have hsatisfies := inherited_wellNamed.of_walk (spaceWellNamed_iff.mp hw) stop hstop
  cases stop with
  | type path decl => trivial
  | work b w => exact hsatisfies

end ClrListing.Lowering
