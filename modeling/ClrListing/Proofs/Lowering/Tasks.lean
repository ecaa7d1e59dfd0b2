/-
The tasks that emit a file, and the places that they count.

Names are resolved against the list of what a file declares, in which a
type is known by its place. The emission does not go through that list: it
counts the declarations that it goes past, and gives each type the count as
its place. A `Task` is one function of the emission with all that it is
given, a task `Makes` others, one for each time that the function goes on
with a part of what it was given, and the tasks that are `Reached` are those
of a whole file, whether it compiles or is refused.

That the count is right rests on one law: a declaration moves it past
itself and all that is inside, whether it is entered, is one more part of a
type, or is refused and nothing inside it is looked at (`place_emitType`).
So each task finds the list, from the count on, to go on with what it is
about to declare (`placed_of_reached`). As long as nothing is wrong, there is
a task for each declaration (`allEntered_space`).
-/
import ClrListing.Proofs.Lowering.Parts
import Mathlib.Logic.Relation

namespace ClrListing.Lowering

open Assembly Metadata Source Syntax

-- =============================================================== tasks

/-- A function of the emission, with what it is given. -/
inductive Task where
  /-- A type declaration is emitted. -/
  | type (scope : Scope) (outer : Option Enclosing) (decl : TypeDecl) (before : Emission)
  /-- Members of a type are emitted. -/
  | members (inside : Enclosing) (ms : List Member) (before : Emission)
  /-- Members of a namespace are emitted. -/
  | space (scope : Scope) (ms : List NamespaceMember) (before : Emission)

/-- What is in scope of a task. -/
def Task.scope : Task → Scope
  | .type scope _ _ _ | .space scope _ _ => scope
  | .members inside _ _ => inside.surroundings.scope

/-- The type that a task is in. -/
def Task.outer : Task → Option Enclosing
  | .type _ outer _ _ => outer
  | .members inside _ _ => some inside
  | .space _ _ _ => none

/-- The emission before a task. -/
def Task.before : Task → Emission
  | .type _ _ _ before | .members _ _ before | .space _ _ before => before

/-- The emission after a task. -/
def Task.result (setting : Setting) : Task → Emission
  | .type scope outer decl before => emitType setting scope outer decl before
  | .members inside ms before => emitMembers setting inside ms before
  | .space scope ms before => emitSpaceMembers setting scope ms before

/-- One task makes another. Members that are no types make none. -/
inductive Makes (setting : Setting) : Task → Task → Prop
  | inside {scope : Scope} {outer : Option Enclosing} {decl : TypeDecl} {before : Emission}
      {inside : Enclosing} :
      (openType setting scope outer decl before).2 = some inside → decl.HasMembers →
      Makes setting (.type scope outer decl before)
        (.members inside decl.members (openType setting scope outer decl before).1)
  | nested {inside : Enclosing} {decl : TypeDecl} {rest : List Member} {before : Emission} :
      Makes setting (.members inside (.type decl :: rest) before)
        (.type inside.surroundings.scope (some inside) decl before)
  | rest {inside : Enclosing} {m : Member} {rest : List Member} {before : Emission} :
      Makes setting (.members inside (m :: rest) before)
        (.members inside rest (emitMember setting inside m before))
  | within {scope : Scope} {space : NamespaceDecl} {rest : List NamespaceMember}
      {before : Emission} :
      Makes setting (.space scope (.space space :: rest) before)
        (.space ((scope.inSpace space.name).importing space.usings) space.members before)
  | top {scope : Scope} {decl : TypeDecl} {rest : List NamespaceMember} {before : Emission} :
      Makes setting (.space scope (.type decl :: rest) before) (.type scope none decl before)
  | behind {scope : Scope} {m : NamespaceMember} {rest : List NamespaceMember}
      {before : Emission} :
      Makes setting (.space scope (m :: rest) before)
        (.space scope rest (emitSpaceMember setting scope m before))

/-- The tasks that emit a file. -/
def Reached (setting : Setting) (module : String) (unit : CompilationUnit) : Task → Prop :=
  Relation.ReflTransGen (Makes setting) (.space (topScope unit) unit.members (.start module))

variable {setting : Setting} {module : String} {unit : CompilationUnit}
variable {scope : Scope} {outer : Option Enclosing} {inside : Enclosing}
variable {decl : TypeDecl} {e : Emission}

/-- What a task makes is begun after the task is. -/
theorem Makes.grows_before {t t' : Task} (h : Makes setting t t') : Grows t.before t'.before := by
  cases h with
  | inside _ _ => exact grows_openType setting _ _ _ _
  | nested => exact .refl _
  | rest => exact grows_emitMember setting _ _ _
  | within => exact .refl _
  | top => exact .refl _
  | behind => exact grows_emitSpaceMember setting _ _ _

/-- What a task makes is done before the task is. -/
theorem Makes.grows {t t' : Task} (h : Makes setting t t') :
    Grows (t'.result setting) (t.result setting) := by
  cases h with
  | inside hin hkind =>
    simp only [Task.result]
    rw [emitType_members hin hkind]
    exact .refl _
  | nested =>
    simp only [Task.result, emitMembers, emitMember]
    exact grows_emitMembers setting _ _ _
  | rest =>
    simp only [Task.result, emitMembers]
    exact .refl _
  | @within scope space _ _ =>
    obtain ⟨name, fileScoped, usings, members, span⟩ := space
    simp only [Task.result, emitSpaceMembers, emitSpaceMember]
    exact grows_emitSpaceMembers setting _ _ _
  | top =>
    simp only [Task.result, emitSpaceMembers, emitSpaceMember]
    exact grows_emitSpaceMembers setting _ _ _
  | behind =>
    simp only [Task.result, emitSpaceMembers]
    exact .refl _

-- ============================================================= counting

section Counting

theorem place_apply (s : Surroundings) (record : Nat) (declaring : Token) (effect : Effect) :
    (Emission.apply setting s record declaring e effect).place = e.place := by
  cases effect with
  | complain d span => rfl
  | mark m => rfl
  | declare m hasBody span =>
    simp only [Emission.apply, Emission.declareMethod]
    split <;> rfl

theorem place_applyAll (s : Surroundings) (record : Nat) (declaring : Token)
    (effects : List Effect) :
    (e.applyAll setting s record declaring effects).place = e.place := by
  induction effects generalizing e with
  | nil => rfl
  | cons effect rest ih => exact ih.trans (place_apply s record declaring effect)

/-- A type that is entered is counted. -/
theorem place_openType (h : (openType setting scope outer decl e).2 = some inside) :
    (openType setting scope outer decl e).1.place = e.place + 1 := by
  unfold openType at h ⊢
  simp only [] at h ⊢
  split at h
  · rfl
  · rfl
  · cases h

/-- A type that is refused is counted with all that is inside. -/
theorem place_refused (h : (openType setting scope outer decl e).2 = none) :
    (openType setting scope outer decl e).1.place = e.place + 1 + typeCount decl.members := by
  unfold openType at h ⊢
  simp only [] at h ⊢
  split at h
  · cases h
  · cases h
  · rfl

theorem emitType_refused (h : (openType setting scope outer decl e).2 = none) :
    emitType setting scope outer decl e = (openType setting scope outer decl e).1 := by
  obtain ⟨kind, name, typeParams, modifiers, bases, members, enumerators, delegate, span⟩ := decl
  rw [emitType]
  generalize openType setting scope outer
    ⟨kind, name, typeParams, modifiers, bases, members, enumerators, delegate, span⟩ e = opened
    at h ⊢
  obtain ⟨e', o⟩ := opened
  obtain rfl : o = none := h
  rfl

mutual

/-- A declaration moves the count past itself and all that is inside. -/
theorem place_emitType :
    ∀ (decl : TypeDecl) (scope : Scope) (outer : Option Enclosing) (e : Emission),
      decl.WellNamed →
      (emitType setting scope outer decl e).place = e.place + (typeCount decl.members + 1)
  | ⟨kind, name, typeParams, modifiers, bases, members, enumerators, delegate, span⟩,
      scope, outer, e, hw => by
    rw [TypeDecl.WellNamed] at hw
    obtain ⟨-, hnone, hw⟩ := hw
    cases hin : (openType setting scope outer ⟨kind, name, typeParams, modifiers, bases, members,
        enumerators, delegate, span⟩ e).2 with
    | none =>
      rw [emitType_refused hin, place_refused hin]
      omega
    | some inside =>
      have hopen := place_openType hin
      rw [emitType_of_opened hin]
      show _ = e.place + (typeCount members + 1)
      cases kind with
      | delegateType =>
        rw [place_applyAll, hopen, hnone (.inr rfl)]
        rfl
      | enumType =>
        rw [hopen, hnone (.inl rfl)]
        rfl
      | classType =>
        rw [place_emitMembers members inside _ hw, hopen]
        omega
      | structType =>
        rw [place_emitMembers members inside _ hw, hopen]
        omega
      | interfaceType =>
        rw [place_emitMembers members inside _ hw, hopen]
        omega

theorem place_emitMembers :
    ∀ (ms : List Member) (inside : Enclosing) (e : Emission), AllWellNamed ms →
      (emitMembers setting inside ms e).place = e.place + typeCount ms
  | [], inside, e, _ => by
    rw [emitMembers]
    rfl
  | m :: rest, inside, e, hw => by
    rw [AllWellNamed] at hw
    rw [emitMembers, place_emitMembers rest inside _ hw.2, place_emitMember m inside e hw.1,
      typeCount_cons m rest, Nat.add_assoc]

theorem place_emitMember :
    ∀ (m : Member) (inside : Enclosing) (e : Emission), m.WellNamed →
      (emitMember setting inside m e).place = e.place + typeCount [m]
  | .type decl, inside, e, hw => by
    rw [Member.WellNamed] at hw
    rw [emitMember, place_emitType decl _ _ _ hw, typeCount_type]
  | .field _, _, _, _ => place_applyAll _ _ _ _
  | .constructor _, _, _, _ => place_applyAll _ _ _ _
  | .destructor _, _, _, _ => place_applyAll _ _ _ _
  | .method _, _, _, _ => place_applyAll _ _ _ _
  | .property _, _, _, _ => place_applyAll _ _ _ _
  | .indexer _, _, _, _ => place_applyAll _ _ _ _
  | .event _, _, _, _ => place_applyAll _ _ _ _
  | .operator _, _, _, _ => place_applyAll _ _ _ _

end

mutual

theorem place_emitSpaceMembers :
    ∀ (ms : List NamespaceMember) (scope : Scope) (e : Emission), SpaceWellNamed ms →
      (emitSpaceMembers setting scope ms e).place = e.place + spaceTypeCount ms
  | [], scope, e, _ => by
    rw [emitSpaceMembers]
    rfl
  | m :: rest, scope, e, hw => by
    rw [SpaceWellNamed] at hw
    rw [emitSpaceMembers, place_emitSpaceMembers rest scope _ hw.2,
      place_emitSpaceMember m scope e hw.1, spaceTypeCount_cons m rest, Nat.add_assoc]

theorem place_emitSpaceMember :
    ∀ (m : NamespaceMember) (scope : Scope) (e : Emission), m.WellNamed →
      (emitSpaceMember setting scope m e).place = e.place + spaceTypeCount [m]
  | .space ⟨name, fileScoped, usings, members, span⟩, scope, e, hw => by
    rw [NamespaceMember.WellNamed] at hw
    rw [emitSpaceMember, place_emitSpaceMembers members _ e hw.2, spaceTypeCount_space]
  | .type decl, scope, e, hw => by
    rw [NamespaceMember.WellNamed] at hw
    rw [emitSpaceMember, place_emitType decl scope none e hw, spaceTypeCount_type]

end

end Counting

-- ========================================================= declarations

section Declarations

mutual

/-- There are as many declarations as declared types. -/
theorem length_declarationsOfType :
    ∀ (decl : TypeDecl) (space : String) (outer : Option TypePath),
      (declarationsOfType space outer decl).length = typeCount decl.members + 1
  | ⟨_, _, _, _, _, members, _, _, _⟩, space, outer => by
    rw [declarationsOfType, List.length_cons, length_declarationsOfMembers members]

theorem length_declarationsOfMembers :
    ∀ (ms : List Member) (path : TypePath),
      (declarationsOfMembers path ms).length = typeCount ms
  | [], path => by
    rw [declarationsOfMembers]
    rfl
  | m :: rest, path => by
    rw [declarationsOfMembers, List.length_append, length_declarationsOfMember m,
      length_declarationsOfMembers rest, ← typeCount_cons]

theorem length_declarationsOfMember :
    ∀ (m : Member) (path : TypePath), (declarationsOfMember path m).length = typeCount [m]
  | .type decl, path => by
    rw [declarationsOfMember, length_declarationsOfType decl, typeCount_type]
  | .field _, _ => rfl
  | .constructor _, _ => rfl
  | .destructor _, _ => rfl
  | .method _, _ => rfl
  | .property _, _ => rfl
  | .indexer _, _ => rfl
  | .event _, _ => rfl
  | .operator _, _ => rfl

end

mutual

theorem length_declarationsOfSpace :
    ∀ (ms : List NamespaceMember) (space : String),
      (declarationsOfSpace space ms).length = spaceTypeCount ms
  | [], space => by
    rw [declarationsOfSpace]
    rfl
  | m :: rest, space => by
    rw [declarationsOfSpace, List.length_append, length_declarationsOfSpaceMember m,
      length_declarationsOfSpace rest, ← spaceTypeCount_cons]

theorem length_declarationsOfSpaceMember :
    ∀ (m : NamespaceMember) (space : String),
      (declarationsOfSpaceMember space m).length = spaceTypeCount [m]
  | .space ⟨_, _, _, members, _⟩, space => by
    rw [declarationsOfSpaceMember, length_declarationsOfSpace members, spaceTypeCount_space]
  | .type decl, space => by
    rw [declarationsOfSpaceMember, length_declarationsOfType decl, spaceTypeCount_type]

end

theorem declarationsOfType_eq (space : String) (outer : Option TypePath) (decl : TypeDecl) :
    declarationsOfType space outer decl
      = (.ofDecl space outer decl, decl)
        :: declarationsOfMembers (.ofDecl space outer decl) decl.members := by
  obtain ⟨_, _, _, _, _, _, _, _, _⟩ := decl
  rw [declarationsOfType]

end Declarations

-- =============================================================== places

/-- The list of a file goes on, from a place on, with the declaration of a
type. -/
structure TypePlaced (unit : CompilationUnit) (scope : Scope) (decl : TypeDecl) (place : Nat) :
    Prop where
  types : scope.types = declaredTypes unit
  wellNamed : decl.WellNamed
  declared : StandsIn (declaredTypes unit) place
    (declaredInType scope.space scope.enclosing place decl)
  listed : ∃ path : Option TypePath, path.isSome = scope.enclosing.isSome
    ∧ declarationsOfType scope.space path decl <+: (declarations unit).drop place

/-- The list goes on with members of a type. -/
structure MembersPlaced (unit : CompilationUnit) (scope : Scope) (ms : List Member)
    (place : Nat) : Prop where
  types : scope.types = declaredTypes unit
  wellNamed : AllWellNamed ms
  declared : ∃ outer, scope.enclosing = some outer
    ∧ StandsIn (declaredTypes unit) place (declaredInMembers scope.space outer place ms)
  listed : ∃ path, declarationsOfMembers path ms <+: (declarations unit).drop place

/-- The list goes on with members of a namespace. -/
structure SpacePlaced (unit : CompilationUnit) (scope : Scope) (ms : List NamespaceMember)
    (place : Nat) : Prop where
  types : scope.types = declaredTypes unit
  wellNamed : SpaceWellNamed ms
  top : scope.enclosing = none
  declared : StandsIn (declaredTypes unit) place (declaredInSpace scope.space place ms)
  listed : declarationsOfSpace scope.space ms <+: (declarations unit).drop place

/-- The list goes on with what a task is about to declare. -/
def Task.Placed (unit : CompilationUnit) : Task → Prop
  | .type scope _ decl before => TypePlaced unit scope decl before.place
  | .members inside ms before => MembersPlaced unit inside.surroundings.scope ms before.place
  | .space scope ms before => SpacePlaced unit scope ms before.place

/-- A type that is entered stands at the place of its count. -/
theorem TypePlaced.members (h : TypePlaced unit scope decl e.place)
    (hin : (openType setting scope outer decl e).2 = some inside) :
    MembersPlaced unit inside.surroundings.scope decl.members
      (openType setting scope outer decl e).1.place := by
  have hsurroundings := surroundings_openType hin
  have hdeclared := h.declared
  rw [declaredInType_eq] at hdeclared
  obtain ⟨path, -, hlisted⟩ := h.listed
  rw [declarationsOfType_eq] at hlisted
  rw [place_openType hin, hsurroundings]
  exact ⟨h.types, TypeDecl.wellNamed_members h.wellNamed, ⟨e.place, rfl, hdeclared.tail⟩,
    ⟨_, prefix_drop_add (List.singleton_append ▸ hlisted)⟩⟩

theorem MembersPlaced.nested {rest : List Member} {place : Nat}
    (h : MembersPlaced unit scope (.type decl :: rest) place) :
    TypePlaced unit scope decl place := by
  obtain ⟨outer, houter, hdeclared⟩ := h.declared
  obtain ⟨path, hlisted⟩ := h.listed
  have hw := h.wellNamed
  rw [AllWellNamed, Member.WellNamed] at hw
  rw [declaredInMembers, declaredInMember] at hdeclared
  rw [declarationsOfMembers, declarationsOfMember] at hlisted
  refine ⟨h.types, hw.1, houter ▸ hdeclared.left, some path, by rw [houter]; rfl, ?_⟩
  rw [declarationsOfType_eq] at hlisted ⊢
  exact (List.prefix_append _ _).trans hlisted

theorem MembersPlaced.rest {m : Member} {rest : List Member} {place : Nat}
    (h : MembersPlaced unit scope (m :: rest) place) :
    MembersPlaced unit scope rest (place + typeCount [m]) := by
  obtain ⟨outer, houter, hdeclared⟩ := h.declared
  obtain ⟨path, hlisted⟩ := h.listed
  have hw := h.wellNamed
  rw [AllWellNamed] at hw
  rw [declaredInMembers] at hdeclared
  rw [declarationsOfMembers] at hlisted
  refine ⟨h.types, hw.2, ⟨outer, houter, ?_⟩, ⟨path, ?_⟩⟩
  · have hright := hdeclared.right
    rwa [length_member] at hright
  · have hright := prefix_drop_add hlisted
    rwa [length_declarationsOfMember] at hright

theorem SpacePlaced.within {space : NamespaceDecl} {rest : List NamespaceMember} {place : Nat}
    (h : SpacePlaced unit scope (.space space :: rest) place) :
    SpacePlaced unit ((scope.inSpace space.name).importing space.usings) space.members place := by
  obtain ⟨name, fileScoped, usings, members, span⟩ := space
  have hw := h.wellNamed
  have hdeclared := h.declared
  have hlisted := h.listed
  rw [SpaceWellNamed, NamespaceMember.WellNamed] at hw
  rw [declaredInSpace, declaredInSpaceMember] at hdeclared
  rw [declarationsOfSpace, declarationsOfSpaceMember] at hlisted
  exact ⟨h.types, hw.1.2, h.top, hdeclared.left, (List.prefix_append _ _).trans hlisted⟩

theorem SpacePlaced.type {rest : List NamespaceMember} {place : Nat}
    (h : SpacePlaced unit scope (.type decl :: rest) place) : TypePlaced unit scope decl place := by
  have hw := h.wellNamed
  have hdeclared := h.declared
  have hlisted := h.listed
  rw [SpaceWellNamed, NamespaceMember.WellNamed] at hw
  rw [declaredInSpace, declaredInSpaceMember] at hdeclared
  rw [declarationsOfSpace, declarationsOfSpaceMember] at hlisted
  refine ⟨h.types, hw.1, h.top ▸ hdeclared.left, none, by rw [h.top]; rfl, ?_⟩
  exact (List.prefix_append _ _).trans hlisted

theorem SpacePlaced.behind {m : NamespaceMember} {rest : List NamespaceMember} {place : Nat}
    (h : SpacePlaced unit scope (m :: rest) place) :
    SpacePlaced unit scope rest (place + spaceTypeCount [m]) := by
  have hw := h.wellNamed
  have hdeclared := h.declared
  have hlisted := h.listed
  rw [SpaceWellNamed] at hw
  rw [declaredInSpace] at hdeclared
  rw [declarationsOfSpace] at hlisted
  refine ⟨h.types, hw.2, h.top, ?_, ?_⟩
  · have hright := hdeclared.right
    rwa [length_spaceMember] at hright
  · have hright := prefix_drop_add hlisted
    rwa [length_declarationsOfSpaceMember] at hright

/-- A task that is placed makes tasks that are. -/
theorem Makes.placed {t t' : Task} (h : Makes setting t t') (ht : t.Placed unit) :
    t'.Placed unit := by
  cases h with
  | inside hin _ => exact TypePlaced.members ht hin
  | nested => exact MembersPlaced.nested ht
  | @rest inside m rest before =>
    have hw := (show MembersPlaced _ _ _ _ from ht).wellNamed
    rw [AllWellNamed] at hw
    show MembersPlaced _ _ _ (emitMember setting inside m before).place
    rw [place_emitMember m inside before hw.1]
    exact MembersPlaced.rest ht
  | within => exact SpacePlaced.within ht
  | top => exact SpacePlaced.type ht
  | @behind scope m rest before =>
    have hw := (show SpacePlaced _ _ _ _ from ht).wellNamed
    rw [SpaceWellNamed] at hw
    show SpacePlaced _ _ _ (emitSpaceMember setting scope m before).place
    rw [place_emitSpaceMember m scope before hw.1]
    exact SpacePlaced.behind ht

/-- All tasks that emit a well named file are placed. -/
theorem placed_of_reached {t : Task} (hw : unit.WellNamed) (h : Reached setting module unit t) :
    t.Placed unit := by
  induction h with
  | refl => exact ⟨rfl, hw, rfl, List.prefix_rfl, List.prefix_rfl⟩
  | tail _ hmakes ih => exact hmakes.placed ih

-- ============================================================= coverage

/-- There is a task for each declaration of a list, and they count on from
a place. -/
def AllEntered (setting : Setting) (module : String) (unit : CompilationUnit) (place : Nat)
    (ds : List (TypePath × TypeDecl)) : Prop :=
  ∀ i d, ds[i]? = some d → ∃ scope outer e,
    Reached setting module unit (.type scope outer d.2 e) ∧ e.place = place + i

namespace AllEntered

variable {place : Nat} {ds ds' : List (TypePath × TypeDecl)}

theorem nil : AllEntered setting module unit place [] := by
  intro i d hd
  cases hd

theorem append (h : AllEntered setting module unit place ds)
    (h' : AllEntered setting module unit (place + ds.length) ds') :
    AllEntered setting module unit place (ds ++ ds') := by
  intro i d hd
  rw [List.getElem?_append] at hd
  split at hd
  · exact h i d hd
  · next hge =>
    obtain ⟨scope, outer, e, hreached, hplace⟩ := h' _ d hd
    exact ⟨scope, outer, e, hreached, by omega⟩

theorem singleton {path : TypePath} (h : Reached setting module unit (.type scope outer decl e)) :
    AllEntered setting module unit e.place [(path, decl)] := by
  intro i d hd
  obtain rfl : i = 0 := Nat.lt_one_iff.mp (List.getElem?_eq_some_iff.mp hd).1
  cases hd
  exact ⟨scope, outer, e, h, rfl⟩

end AllEntered

mutual

/-- As long as nothing is wrong, all that is declared in a type is
entered. -/
theorem allEntered_type :
    ∀ (decl : TypeDecl) (scope : Scope) (outer : Option Enclosing) (e : Emission)
      (space : String) (around : Option TypePath), decl.WellNamed →
      Reached setting module unit (.type scope outer decl e) →
      (emitType setting scope outer decl e).diagnostics.hasErrors = false →
      AllEntered setting module unit e.place (declarationsOfType space around decl)
  | ⟨kind, name, typeParams, modifiers, bases, members, enumerators, delegate, span⟩,
      scope, outer, e, space, around, hw, hreached, hclean => by
    have hopened := (grows_inside setting scope outer _ e).clean hclean
    obtain ⟨inside, hin⟩ := exists_inside_of_clean hopened
    rw [declarationsOfType, ← List.singleton_append]
    refine (AllEntered.singleton hreached).append ?_
    rw [List.length_singleton, ← place_openType hin]
    cases hms : members with
    | nil =>
      rw [declarationsOfMembers]
      exact .nil
    | cons m rest =>
      have hkind := TypeDecl.hasMembers_of_ne_nil hw (by rw [hms]; nofun)
      rw [emitType_members hin hkind] at hclean
      rw [← hms]
      exact allEntered_members members inside _ _ (TypeDecl.wellNamed_members hw)
        (hreached.tail (.inside hin hkind)) hclean

theorem allEntered_members :
    ∀ (ms : List Member) (inside : Enclosing) (e : Emission) (path : TypePath),
      AllWellNamed ms → Reached setting module unit (.members inside ms e) →
      (emitMembers setting inside ms e).diagnostics.hasErrors = false →
      AllEntered setting module unit e.place (declarationsOfMembers path ms)
  | [], inside, e, path, _, _, _ => by
    rw [declarationsOfMembers]
    exact .nil
  | m :: rest, inside, e, path, hw, hreached, hclean => by
    rw [AllWellNamed] at hw
    rw [emitMembers] at hclean
    have hfirst := allEntered_member m rest inside e path hw.1 hreached
      ((grows_emitMembers setting inside rest _).clean hclean)
    have hrest := allEntered_members rest inside _ path hw.2 (hreached.tail .rest) hclean
    rw [place_emitMember m inside e hw.1, ← length_declarationsOfMember m path] at hrest
    rw [declarationsOfMembers]
    exact hfirst.append hrest

theorem allEntered_member :
    ∀ (m : Member) (rest : List Member) (inside : Enclosing) (e : Emission) (path : TypePath),
      m.WellNamed → Reached setting module unit (.members inside (m :: rest) e) →
      (emitMember setting inside m e).diagnostics.hasErrors = false →
      AllEntered setting module unit e.place (declarationsOfMember path m)
  | .type decl, rest, inside, e, path, hw, hreached, hclean => by
    rw [Member.WellNamed] at hw
    rw [emitMember] at hclean
    rw [declarationsOfMember]
    exact allEntered_type decl _ _ e _ _ hw (hreached.tail .nested) hclean
  | .field _, _, _, _, _, _, _, _ => .nil
  | .constructor _, _, _, _, _, _, _, _ => .nil
  | .destructor _, _, _, _, _, _, _, _ => .nil
  | .method _, _, _, _, _, _, _, _ => .nil
  | .property _, _, _, _, _, _, _, _ => .nil
  | .indexer _, _, _, _, _, _, _, _ => .nil
  | .event _, _, _, _, _, _, _, _ => .nil
  | .operator _, _, _, _, _, _, _, _ => .nil

end

mutual

theorem allEntered_space :
    ∀ (ms : List NamespaceMember) (scope : Scope) (e : Emission) (space : String),
      SpaceWellNamed ms → Reached setting module unit (.space scope ms e) →
      (emitSpaceMembers setting scope ms e).diagnostics.hasErrors = false →
      AllEntered setting module unit e.place (declarationsOfSpace space ms)
  | [], scope, e, space, _, _, _ => by
    rw [declarationsOfSpace]
    exact .nil
  | m :: rest, scope, e, space, hw, hreached, hclean => by
    rw [SpaceWellNamed] at hw
    rw [emitSpaceMembers] at hclean
    have hfirst := allEntered_spaceMember m rest scope e space hw.1 hreached
      ((grows_emitSpaceMembers setting scope rest _).clean hclean)
    have hrest := allEntered_space rest scope _ space hw.2 (hreached.tail .behind) hclean
    rw [place_emitSpaceMember m scope e hw.1, ← length_declarationsOfSpaceMember m space] at hrest
    rw [declarationsOfSpace]
    exact hfirst.append hrest

theorem allEntered_spaceMember :
    ∀ (m : NamespaceMember) (rest : List NamespaceMember) (scope : Scope) (e : Emission)
      (space : String), m.WellNamed → Reached setting module unit (.space scope (m :: rest) e) →
      (emitSpaceMember setting scope m e).diagnostics.hasErrors = false →
      AllEntered setting module unit e.place (declarationsOfSpaceMember space m)
  | .space ⟨name, fileScoped, usings, members, span⟩, rest, scope, e, space, hw, hreached,
      hclean => by
    rw [NamespaceMember.WellNamed] at hw
    rw [emitSpaceMember] at hclean
    rw [declarationsOfSpaceMember]
    exact allEntered_space members _ e _ hw.2 (hreached.tail .within) hclean
  | .type decl, rest, scope, e, space, hw, hreached, hclean => by
    rw [NamespaceMember.WellNamed] at hw
    rw [emitSpaceMember] at hclean
    rw [declarationsOfSpaceMember]
    exact allEntered_type decl scope none e _ _ hw (hreached.tail .top) hclean

end

end ClrListing.Lowering
