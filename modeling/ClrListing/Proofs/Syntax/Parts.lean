/-
Type declarations written in parts.

A type may be written as several partial declarations with one header,
each with some of its members (`IsCut`). Where a declaration stands in a
file is a site: the file with a hole, which `fill` puts declarations into.
Parts are compared with the declaration that they are cut from through the
names in them: `NamesStay` says that no name loses sight of the nested
type that it means. Nothing here depends on where in the text things
stand, and `unplaced` forgets it.
-/
import ClrListing.Proofs.Syntax.WellNamed

namespace ClrListing.Syntax

open Source

-- ====================================================== without places

/-- The span of what stands nowhere. -/
def nowhere : Span := ⟨0, 0⟩

/-- A body without its place. -/
def Body.unplaced (b : Body) : Body := { b with span := nowhere }

/-- An accessor without places. -/
def Accessor.unplaced (a : Accessor) : Accessor :=
  { a with body := a.body.map Body.unplaced, span := nowhere }

mutual

/-- A type declaration without places. -/
def TypeDecl.unplaced : TypeDecl → TypeDecl
  | ⟨kind, name, typeParams, modifiers, bases, members, enumerators, delegate, _⟩ =>
    ⟨kind, name, typeParams, modifiers, bases, allUnplaced members, enumerators, delegate,
      nowhere⟩

/-- Members without places. -/
def allUnplaced : List Member → List Member
  | [] => []
  | m :: rest => m.unplaced :: allUnplaced rest

/-- A member without places. -/
def Member.unplaced : Member → Member
  | .type decl => .type decl.unplaced
  | .field f => .field { f with span := nowhere }
  | .constructor c => .constructor { c with body := c.body.map Body.unplaced, span := nowhere }
  | .destructor d => .destructor { d with body := d.body.map Body.unplaced, span := nowhere }
  | .method m => .method { m with body := m.body.map Body.unplaced, span := nowhere }
  | .property p => .property { p with
      accessors := p.accessors.map Accessor.unplaced
      expressionBody := p.expressionBody.map Body.unplaced
      span := nowhere }
  | .indexer i => .indexer { i with
      accessors := i.accessors.map Accessor.unplaced
      expressionBody := i.expressionBody.map Body.unplaced
      span := nowhere }
  | .event e => .event { e with
      accessors := e.accessors.map Accessor.unplaced
      span := nowhere }
  | .operator o => .operator { o with body := o.body.map Body.unplaced, span := nowhere }

end

mutual

/-- A member of a namespace without places. -/
def NamespaceMember.unplaced : NamespaceMember → NamespaceMember
  | .space ⟨name, fileScoped, usings, members, _⟩ =>
    .space ⟨name, fileScoped, usings, spaceUnplaced members, nowhere⟩
  | .type decl => .type decl.unplaced

/-- The members of a namespace without places. -/
def spaceUnplaced : List NamespaceMember → List NamespaceMember
  | [] => []
  | m :: rest => m.unplaced :: spaceUnplaced rest

end

/-- A file without places. -/
def CompilationUnit.unplaced (unit : CompilationUnit) : CompilationUnit :=
  { unit with members := spaceUnplaced unit.members }

theorem TypeDecl.unplaced_eq (decl : TypeDecl) :
    decl.unplaced = { decl with members := allUnplaced decl.members, span := nowhere } := by
  cases decl
  rw [unplaced]

theorem TypeDecl.members_unplaced (decl : TypeDecl) :
    decl.unplaced.members = allUnplaced decl.members := by
  rw [TypeDecl.unplaced_eq]

mutual

theorem TypeDecl.wellNamed_unplaced :
    ∀ decl : TypeDecl, decl.unplaced.WellNamed ↔ decl.WellNamed
  | ⟨kind, name, typeParams, modifiers, bases, members, enumerators, delegate, span⟩ => by
    have hnil : allUnplaced members = [] ↔ members = [] := by
      cases members with
      | nil => exact Iff.rfl
      | cons m rest => exact ⟨nofun, nofun⟩
    rw [TypeDecl.unplaced, TypeDecl.WellNamed, TypeDecl.WellNamed, hnil,
      allWellNamed_unplaced members]

theorem allWellNamed_unplaced :
    ∀ ms : List Member, AllWellNamed (allUnplaced ms) ↔ AllWellNamed ms
  | [] => Iff.rfl
  | m :: rest => by
    rw [allUnplaced, AllWellNamed, AllWellNamed, Member.wellNamed_unplaced m,
      allWellNamed_unplaced rest]

theorem Member.wellNamed_unplaced : ∀ m : Member, m.unplaced.WellNamed ↔ m.WellNamed
  | .type decl => by
    rw [Member.unplaced, Member.WellNamed, Member.WellNamed, TypeDecl.wellNamed_unplaced decl]
  | .field _ | .constructor _ | .destructor _ | .method _ | .property _ | .indexer _ | .event _
  | .operator _ => by
    simp only [Member.unplaced, Member.WellNamed]

end

mutual

theorem NamespaceMember.wellNamed_unplaced :
    ∀ m : NamespaceMember, m.unplaced.WellNamed ↔ m.WellNamed
  | .space ⟨name, fileScoped, usings, members, span⟩ => by
    rw [NamespaceMember.unplaced, NamespaceMember.WellNamed, NamespaceMember.WellNamed,
      spaceWellNamed_unplaced members]
  | .type decl => by
    rw [NamespaceMember.unplaced, NamespaceMember.WellNamed, NamespaceMember.WellNamed,
      TypeDecl.wellNamed_unplaced decl]

theorem spaceWellNamed_unplaced :
    ∀ ms : List NamespaceMember, SpaceWellNamed (spaceUnplaced ms) ↔ SpaceWellNamed ms
  | [] => Iff.rfl
  | m :: rest => by
    rw [spaceUnplaced, SpaceWellNamed, SpaceWellNamed, NamespaceMember.wellNamed_unplaced m,
      spaceWellNamed_unplaced rest]

end

-- =============================================================== names

namespace TypeExpr

mutual

/-- The dotted names in a type as written, those in type arguments
included. -/
def names : TypeExpr → List (List NameSegment)
  | .predefined _ => []
  | .named _ segments => segments :: argumentNames segments
  | .array element _ => element.names
  | .nullable inner => inner.names
  | .pointer inner => inner.names
  | .tuple elements => allNames elements

/-- The dotted names in types. -/
def allNames : List TypeExpr → List (List NameSegment)
  | [] => []
  | t :: rest => t.names ++ allNames rest

/-- The dotted names in the type arguments of segments. -/
def argumentNames : List NameSegment → List (List NameSegment)
  | [] => []
  | ⟨_, args⟩ :: rest => allNames args ++ argumentNames rest

end

mutual

/-- The dotted names in a type that a question mark stands directly behind. -/
def nullableNames : TypeExpr → List (List NameSegment)
  | .predefined _ => []
  | .named _ segments => nullableArgumentNames segments
  | .array element _ => element.nullableNames
  | .nullable (.named _ segments) => segments :: nullableArgumentNames segments
  | .nullable inner => inner.nullableNames
  | .pointer inner => inner.nullableNames
  | .tuple elements => allNullableNames elements

/-- The dotted names in types that a question mark stands behind. -/
def allNullableNames : List TypeExpr → List (List NameSegment)
  | [] => []
  | t :: rest => t.nullableNames ++ allNullableNames rest

/-- The dotted names in type arguments that a question mark stands behind. -/
def nullableArgumentNames : List NameSegment → List (List NameSegment)
  | [] => []
  | ⟨_, args⟩ :: rest => allNullableNames args ++ nullableArgumentNames rest

end

mutual

theorem nullableNames_subset : ∀ t : TypeExpr, t.nullableNames ⊆ t.names
  | .predefined _ => by
    rw [nullableNames]
    exact List.nil_subset _
  | .named _ segments => by
    rw [nullableNames, names]
    exact List.subset_cons_of_subset _ (nullableArgumentNames_subset segments)
  | .array element _ => by
    rw [nullableNames, names]
    exact nullableNames_subset element
  | .nullable (.named _ segments) => by
    rw [nullableNames, names, names]
    exact List.cons_subset_cons _ (nullableArgumentNames_subset segments)
  | .nullable (.predefined k) => nullableNames_subset (.predefined k)
  | .nullable (.array element rank) => nullableNames_subset (.array element rank)
  | .nullable (.nullable inner) => nullableNames_subset (.nullable inner)
  | .nullable (.pointer inner) => nullableNames_subset (.pointer inner)
  | .nullable (.tuple elements) => nullableNames_subset (.tuple elements)
  | .pointer inner => by
    rw [nullableNames, names]
    exact nullableNames_subset inner
  | .tuple elements => by
    rw [nullableNames, names]
    exact allNullableNames_subset elements

theorem allNullableNames_subset : ∀ ts : List TypeExpr, allNullableNames ts ⊆ allNames ts
  | [] => List.nil_subset _
  | t :: rest => by
    rw [allNullableNames, allNames]
    exact List.append_subset.mpr ⟨List.subset_append_of_subset_left _ (nullableNames_subset t),
      List.subset_append_of_subset_right _ (allNullableNames_subset rest)⟩

theorem nullableArgumentNames_subset :
    ∀ segments : List NameSegment, nullableArgumentNames segments ⊆ argumentNames segments
  | [] => List.nil_subset _
  | ⟨_, args⟩ :: rest => by
    rw [nullableArgumentNames, argumentNames]
    exact List.append_subset.mpr
      ⟨List.subset_append_of_subset_left _ (allNullableNames_subset args),
        List.subset_append_of_subset_right _ (nullableArgumentNames_subset rest)⟩

end

end TypeExpr

/-- The types that the methods of a member are made from. -/
def Member.signatureTypes : Member → List TypeExpr
  | .constructor c => c.params.map Parameter.type
  | .method m => m.explicitInterface.toList ++ m.returnType :: m.params.map Parameter.type
  | .property p => p.explicitInterface.toList ++ [p.type]
  | .indexer i => i.explicitInterface.toList ++ i.type :: i.params.map Parameter.type
  | .event e => e.explicitInterface.toList ++ [e.type]
  | .operator o => o.returnType :: o.params.map Parameter.type
  | .type _ | .field _ | .destructor _ => []

/-- The types that the methods of a delegate are made from. -/
def DelegateSignature.signatureTypes (d : DelegateSignature) : List TypeExpr :=
  d.returnType :: d.params.map Parameter.type

mutual

/-- The dotted names in the signatures of a type and of those in it. -/
def TypeDecl.names : TypeDecl → List (List NameSegment)
  | ⟨_, _, _, _, _, members, _, delegate, _⟩ =>
    (delegate.toList.flatMap DelegateSignature.signatureTypes).flatMap TypeExpr.names
      ++ namesInMembers members

/-- The dotted names in the signatures of members. -/
def namesInMembers : List Member → List (List NameSegment)
  | [] => []
  | m :: rest => m.names ++ namesInMembers rest

/-- The dotted names in the signatures of a member. -/
def Member.names : Member → List (List NameSegment)
  | .type decl => decl.names
  | m => m.signatureTypes.flatMap TypeExpr.names

end

mutual

/-- The dotted names in the signatures of a member of a namespace. -/
def NamespaceMember.names : NamespaceMember → List (List NameSegment)
  | .space ⟨_, _, _, members, _⟩ => namesInSpace members
  | .type decl => decl.names

/-- The dotted names in the signatures of the members of a namespace. -/
def namesInSpace : List NamespaceMember → List (List NameSegment)
  | [] => []
  | m :: rest => m.names ++ namesInSpace rest

end

/-- The dotted names in the signatures of a file. -/
def CompilationUnit.names (unit : CompilationUnit) : List (List NameSegment) :=
  namesInSpace unit.members

theorem namesInMembers_append (ms more : List Member) :
    namesInMembers (ms ++ more) = namesInMembers ms ++ namesInMembers more := by
  induction ms with
  | nil => rfl
  | cons m ms ih => rw [List.cons_append, namesInMembers, namesInMembers, ih, List.append_assoc]

theorem TypeDecl.names_eq (decl : TypeDecl) :
    decl.names = (decl.delegate.toList.flatMap DelegateSignature.signatureTypes).flatMap
      TypeExpr.names ++ namesInMembers decl.members := by
  cases decl
  rw [names]

theorem mem_namesInMembers {ms : List Member} {name : List NameSegment} :
    name ∈ namesInMembers ms ↔ ∃ m ∈ ms, name ∈ m.names := by
  induction ms with
  | nil => simp [namesInMembers]
  | cons m rest ih =>
    simp only [namesInMembers, List.mem_append, ih, List.mem_cons, exists_eq_or_imp]

theorem mem_namesInSpace {ms : List NamespaceMember} {name : List NameSegment} :
    name ∈ namesInSpace ms ↔ ∃ m ∈ ms, name ∈ m.names := by
  induction ms with
  | nil => simp [namesInSpace]
  | cons m rest ih => simp only [namesInSpace, List.mem_append, ih, List.mem_cons, exists_eq_or_imp]

/-- Whether a segment names one of the types among members. -/
def DeclaresType (ms : List Member) (segment : NameSegment) : Bool :=
  ms.any fun
    | .type decl => decl.name = segment.name && decl.arity = segment.args.length
    | _ => false

theorem declaresType_append (ms more : List Member) (segment : NameSegment) :
    DeclaresType (ms ++ more) segment
      = (DeclaresType ms segment || DeclaresType more segment) :=
  List.any_append

-- =============================================================== sites

/-- A place among the members of a type or deeper inside them. -/
inductive MemberSite where
  /-- Before the rest of the members. -/
  | here (rest : List Member)
  /-- Inside a type, whose members are those of the site. -/
  | inside (decl : TypeDecl) (site : MemberSite) (rest : List Member)
  /-- Behind a member. -/
  | later (m : Member) (site : MemberSite)

/-- A place among the members of a namespace or deeper inside them. -/
inductive SpaceSite where
  | here (rest : List NamespaceMember)
  | inType (decl : TypeDecl) (site : MemberSite) (rest : List NamespaceMember)
  | inSpace (decl : NamespaceDecl) (site : SpaceSite) (rest : List NamespaceMember)
  | later (m : NamespaceMember) (site : SpaceSite)

/-- A place in a file. -/
structure UnitSite where
  aliases : List String
  usings : List Using
  site : SpaceSite

/-- The members with declarations at the place. -/
def MemberSite.fill (decls : List TypeDecl) : MemberSite → List Member
  | .here rest => decls.map .type ++ rest
  | .inside decl site rest => .type { decl with members := site.fill decls } :: rest
  | .later m site => m :: site.fill decls

/-- The members with declarations at the place. -/
def SpaceSite.fill (decls : List TypeDecl) : SpaceSite → List NamespaceMember
  | .here rest => decls.map .type ++ rest
  | .inType decl site rest => .type { decl with members := site.fill decls } :: rest
  | .inSpace decl site rest => .space { decl with members := site.fill decls } :: rest
  | .later m site => m :: site.fill decls

/-- The file with declarations at the place. -/
def UnitSite.fill (decls : List TypeDecl) (site : UnitSite) : CompilationUnit :=
  ⟨site.aliases, site.usings, site.site.fill decls⟩

/-- The place before another declaration at the same place. -/
def MemberSite.before (next : TypeDecl) : MemberSite → MemberSite
  | .here rest => .here (.type next :: rest)
  | .inside decl site rest => .inside decl (site.before next) rest
  | .later m site => .later m (site.before next)

/-- The place before another declaration at the same place. -/
def SpaceSite.before (next : TypeDecl) : SpaceSite → SpaceSite
  | .here rest => .here (.type next :: rest)
  | .inType decl site rest => .inType decl (site.before next) rest
  | .inSpace decl site rest => .inSpace decl (site.before next) rest
  | .later m site => .later m (site.before next)

/-- The place before another declaration at the same place. -/
def UnitSite.before (next : TypeDecl) (site : UnitSite) : UnitSite :=
  { site with site := site.site.before next }

theorem MemberSite.fill_before (decls : List TypeDecl) (next : TypeDecl) :
    ∀ site : MemberSite, (site.before next).fill decls = site.fill (decls ++ [next])
  | .here rest => by
    rw [before, fill, fill, List.map_append, List.append_assoc]
    rfl
  | .inside decl site rest => by rw [before, fill, fill, fill_before decls next site]
  | .later m site => by rw [before, fill, fill, fill_before decls next site]

theorem SpaceSite.fill_before (decls : List TypeDecl) (next : TypeDecl) :
    ∀ site : SpaceSite, (site.before next).fill decls = site.fill (decls ++ [next])
  | .here rest => by
    rw [before, fill, fill, List.map_append, List.append_assoc]
    rfl
  | .inType decl site rest => by rw [before, fill, fill, MemberSite.fill_before decls next site]
  | .inSpace decl site rest => by rw [before, fill, fill, fill_before decls next site]
  | .later m site => by rw [before, fill, fill, fill_before decls next site]

theorem UnitSite.fill_before (decls : List TypeDecl) (next : TypeDecl) (site : UnitSite) :
    (site.before next).fill decls = site.fill (decls ++ [next]) := by
  unfold UnitSite.before UnitSite.fill
  rw [SpaceSite.fill_before]

section Filling

variable {decl : TypeDecl} {decls : List TypeDecl}

theorem MemberSite.fill_ne_nil (site : MemberSite) : site.fill [decl] ≠ [] := by
  cases site <;> exact nofun

/-- What is well named stays so where a declaration is replaced by well
named ones. -/
theorem MemberSite.wellNamed_fill (h : decl.WellNamed → ∀ d ∈ decls, d.WellNamed) :
    ∀ site : MemberSite, AllWellNamed (site.fill [decl]) → AllWellNamed (site.fill decls)
  | .here rest, hw => by
    rw [fill, allWellNamed_iff] at hw ⊢
    intro m hm
    rcases List.mem_append.mp hm with hm | hm
    · obtain ⟨d, hd, rfl⟩ := List.mem_map.mp hm
      have hdecl := hw (.type decl) List.mem_cons_self
      rw [Member.WellNamed] at hdecl ⊢
      exact h hdecl d hd
    · exact hw m (List.mem_append_right _ hm)
  | .inside ⟨kind, name, typeParams, modifiers, bases, members, enumerators, delegate, span⟩ site
      rest, hw => by
    rw [fill, AllWellNamed, Member.WellNamed, TypeDecl.WellNamed] at hw ⊢
    obtain ⟨⟨hname, hnone, hin⟩, hrest⟩ := hw
    exact ⟨⟨hname, fun hkind => absurd (hnone hkind) site.fill_ne_nil,
      wellNamed_fill h site hin⟩, hrest⟩
  | .later m site, hw => by
    rw [fill, AllWellNamed] at hw ⊢
    exact ⟨hw.1, wellNamed_fill h site hw.2⟩

theorem SpaceSite.wellNamed_fill (h : decl.WellNamed → ∀ d ∈ decls, d.WellNamed) :
    ∀ site : SpaceSite, SpaceWellNamed (site.fill [decl]) → SpaceWellNamed (site.fill decls)
  | .here rest, hw => by
    rw [fill, spaceWellNamed_iff] at hw ⊢
    intro m hm
    rcases List.mem_append.mp hm with hm | hm
    · obtain ⟨d, hd, rfl⟩ := List.mem_map.mp hm
      have hdecl := hw (.type decl) List.mem_cons_self
      rw [NamespaceMember.WellNamed] at hdecl ⊢
      exact h hdecl d hd
    · exact hw m (List.mem_append_right _ hm)
  | .inType ⟨kind, name, typeParams, modifiers, bases, members, enumerators, delegate, span⟩ site
      rest, hw => by
    rw [fill, SpaceWellNamed, NamespaceMember.WellNamed, TypeDecl.WellNamed] at hw ⊢
    obtain ⟨⟨hname, hnone, hin⟩, hrest⟩ := hw
    exact ⟨⟨hname, fun hkind => absurd (hnone hkind) site.fill_ne_nil,
      MemberSite.wellNamed_fill h site hin⟩, hrest⟩
  | .inSpace ⟨name, fileScoped, usings, members, span⟩ site rest, hw => by
    rw [fill, SpaceWellNamed, NamespaceMember.WellNamed] at hw ⊢
    exact ⟨⟨hw.1.1, wellNamed_fill h site hw.1.2⟩, hw.2⟩
  | .later m site, hw => by
    rw [fill, SpaceWellNamed] at hw ⊢
    exact ⟨hw.1, wellNamed_fill h site hw.2⟩

theorem append_subset_append {α : Type} {xs xs' ys ys' : List α} (h : xs ⊆ xs') (h' : ys ⊆ ys') :
    xs ++ ys ⊆ xs' ++ ys' := by
  intro a ha
  rcases List.mem_append.mp ha with ha | ha
  · exact List.mem_append_left _ (h ha)
  · exact List.mem_append_right _ (h' ha)

/-- Declarations that write no other names than one, put where it stood. -/
theorem MemberSite.names_fill (h : ∀ d ∈ decls, d.names ⊆ decl.names) :
    ∀ site : MemberSite, namesInMembers (site.fill decls) ⊆ namesInMembers (site.fill [decl])
  | .here rest => by
    intro name hname
    obtain ⟨m, hm, hin⟩ := mem_namesInMembers.mp hname
    rw [fill] at hm ⊢
    rcases List.mem_append.mp hm with hm | hm
    · obtain ⟨d, hd, rfl⟩ := List.mem_map.mp hm
      rw [Member.names] at hin
      refine mem_namesInMembers.mpr ⟨.type decl, List.mem_cons_self, ?_⟩
      rw [Member.names]
      exact h d hd hin
    · exact mem_namesInMembers.mpr ⟨m, List.mem_append_right _ hm, hin⟩
  | .inside outer site rest => by
    rw [fill, fill, namesInMembers, namesInMembers, Member.names, Member.names,
      TypeDecl.names_eq, TypeDecl.names_eq]
    exact append_subset_append
      (append_subset_append (List.Subset.refl _) (names_fill h site)) (List.Subset.refl _)
  | .later m site => by
    rw [fill, fill, namesInMembers, namesInMembers]
    exact append_subset_append (List.Subset.refl _) (names_fill h site)

theorem SpaceSite.names_fill (h : ∀ d ∈ decls, d.names ⊆ decl.names) :
    ∀ site : SpaceSite, namesInSpace (site.fill decls) ⊆ namesInSpace (site.fill [decl])
  | .here rest => by
    intro name hname
    obtain ⟨m, hm, hin⟩ := mem_namesInSpace.mp hname
    rw [fill] at hm ⊢
    rcases List.mem_append.mp hm with hm | hm
    · obtain ⟨d, hd, rfl⟩ := List.mem_map.mp hm
      rw [NamespaceMember.names] at hin
      refine mem_namesInSpace.mpr ⟨.type decl, List.mem_cons_self, ?_⟩
      rw [NamespaceMember.names]
      exact h d hd hin
    · exact mem_namesInSpace.mpr ⟨m, List.mem_append_right _ hm, hin⟩
  | .inType outer site rest => by
    rw [fill, fill, namesInSpace, namesInSpace, NamespaceMember.names, NamespaceMember.names,
      TypeDecl.names_eq, TypeDecl.names_eq]
    exact append_subset_append
      (append_subset_append (List.Subset.refl _) (MemberSite.names_fill h site))
      (List.Subset.refl _)
  | .inSpace ⟨name, fileScoped, usings, members, span⟩ site rest => by
    rw [fill, fill, namesInSpace, namesInSpace, NamespaceMember.names, NamespaceMember.names]
    exact append_subset_append (names_fill h site) (List.Subset.refl _)
  | .later m site => by
    rw [fill, fill, namesInSpace, namesInSpace]
    exact append_subset_append (List.Subset.refl _) (names_fill h site)

end Filling

-- =============================================================== parts

/-- Whether a declaration is of a kind that has members. -/
def TypeDecl.HasMembers (decl : TypeDecl) : Prop :=
  decl.kind ≠ .enumType ∧ decl.kind ≠ .delegateType

/-- Whether a declaration is a part of a type: it has the header of the
type, and is partial. -/
structure IsPart (decl part : TypeDecl) : Prop where
  kind : part.kind = decl.kind
  name : part.name = decl.name
  typeParams : part.typeParams = decl.typeParams
  delegate : part.delegate = decl.delegate
  isPartial : part.modifiers.has .isPartial = true
  modifiers : ∀ m, m ≠ .isPartial → part.modifiers.has m = decl.modifiers.has m

/-- Whether declarations are the parts of a type, with all of its members
in order. -/
structure IsCut (decl : TypeDecl) (parts : List TypeDecl) : Prop where
  nonempty : parts ≠ []
  isPart : ∀ part ∈ parts, IsPart decl part
  members : parts.flatMap TypeDecl.members = decl.members

/-- The part that first declares the type that a segment names. -/
def firstDeclaring? (parts : List TypeDecl) (segment : NameSegment) : Option Nat :=
  parts.findIdx? fun part => DeclaresType part.members segment

/-- Whether names mean the same in a file and in the file with a type cut
in parts, as far as the types nested in it are concerned. -/
structure NamesStay (unit : CompilationUnit) (decl : TypeDecl) (parts : List TypeDecl) :
    Prop where
  /-- A nested type that a name in a part starts with is first declared in
  that part. -/
  starts : ∀ j part, parts[j]? = some part → ∀ name ∈ namesInMembers part.members,
    ∀ segment ∈ name.head?, ∀ i, firstDeclaring? parts segment = some i → i = j
  /-- A nested type that is named after a dot behind the name of the type
  is first declared in the first part. -/
  follows : ∀ name ∈ unit.names, ∀ segment next, [segment, next] <:+: name →
    decl.name = segment.name → decl.arity = segment.args.length →
    ∀ i, firstDeclaring? parts next = some i → i = 0

theorem mem_zip_tail {α : Type} {x y : α} {xs : List α} :
    (x, y) ∈ xs.zip xs.tail ↔ [x, y] <:+: xs := by
  induction xs with
  | nil => simp
  | cons a rest ih =>
    cases rest with
    | nil =>
      rw [List.infix_cons_iff]
      simp
    | cons b rest =>
      have hinfix : [x, y] <:+: a :: b :: rest ↔ (x = a ∧ y = b) ∨ [x, y] <:+: b :: rest := by
        rw [List.infix_cons_iff, List.cons_prefix_cons, List.cons_prefix_cons]
        simp
      rw [List.tail_cons] at ih
      rw [List.tail_cons, List.zip_cons_cons, List.mem_cons, ih, hinfix, Prod.mk.injEq]

instance (decl : TypeDecl) : Decidable decl.HasMembers :=
  inferInstanceAs (Decidable (_ ∧ _))

instance (unit : CompilationUnit) (decl : TypeDecl) (parts : List TypeDecl) :
    Decidable (NamesStay unit decl parts) :=
  decidable_of_iff
    ((∀ x ∈ parts.zipIdx, ∀ name ∈ namesInMembers x.1.members, ∀ segment ∈ name.head?,
        ∀ i ∈ firstDeclaring? parts segment, i = x.2)
      ∧ ∀ name ∈ unit.names, ∀ x ∈ name.zip name.tail, decl.name = x.1.name →
        decl.arity = x.1.args.length → ∀ i ∈ firstDeclaring? parts x.2, i = 0)
    ⟨fun h => ⟨fun j part hj => h.1 (part, j) (List.mk_mem_zipIdx_iff_getElem?.mpr hj),
        fun name hname segment next hpair =>
          h.2 name hname (segment, next) (mem_zip_tail.mpr hpair)⟩,
      fun h => ⟨fun x hx => h.starts x.2 x.1 (List.mk_mem_zipIdx_iff_getElem?.mp hx),
        fun name hname x hx => h.follows name hname x.1 x.2 (mem_zip_tail.mp hx)⟩⟩

-- ========================================================= part by part

/-- The part of a type that has some members. -/
def TypeDecl.part (decl : TypeDecl) (ms : List Member) : TypeDecl :=
  { decl with modifiers := .isPartial :: decl.modifiers, members := ms }

/-- Two parts of a type, the first with its first `k` members. -/
def TypeDecl.halves (decl : TypeDecl) (k : Nat) : List TypeDecl :=
  [decl.part (decl.members.take k), decl.part (decl.members.drop k)]

section PartByPart

variable {unit : CompilationUnit} {decl part last : TypeDecl} {init parts : List TypeDecl}

theorem TypeDecl.isPart_part (decl : TypeDecl) (ms : List Member) : IsPart decl (decl.part ms) where
  kind := rfl
  name := rfl
  typeParams := rfl
  delegate := rfl
  isPartial := rfl
  modifiers := by
    intro m hm
    unfold part Modifiers.has
    rw [List.contains_cons, beq_eq_false_iff_ne.mpr hm, Bool.false_or]

/-- A part of a type is a part of any part of the type. -/
theorem IsPart.of_part (h : IsPart decl part) (ms : List Member) : IsPart (decl.part ms) part where
  kind := h.kind
  name := h.name
  typeParams := h.typeParams
  delegate := h.delegate
  isPartial := h.isPartial
  modifiers := fun m hm => (h.modifiers m hm).trans ((decl.isPart_part ms).modifiers m hm).symm

/-- Two parts of a type are parts of each other. -/
theorem IsPart.sibling (h : IsPart decl part) (h' : IsPart decl last) : IsPart part last where
  kind := h'.kind.trans h.kind.symm
  name := h'.name.trans h.name.symm
  typeParams := h'.typeParams.trans h.typeParams.symm
  delegate := h'.delegate.trans h.delegate.symm
  isPartial := h'.isPartial
  modifiers := fun m hm => (h'.modifiers m hm).trans (h.modifiers m hm).symm

theorem IsPart.unplaced (h : IsPart decl part) : IsPart decl.unplaced part.unplaced := by
  rw [TypeDecl.unplaced_eq, TypeDecl.unplaced_eq]
  exact ⟨h.kind, h.name, h.typeParams, h.delegate, h.isPartial, h.modifiers⟩

theorem IsPart.hasMembers (h : IsPart decl part) (hkind : decl.HasMembers) :
    part.unplaced.HasMembers := by
  unfold TypeDecl.HasMembers
  rw [TypeDecl.unplaced_eq, h.kind]
  exact hkind

theorem TypeDecl.hasMembers_of_ne_nil (h : decl.WellNamed) (hms : decl.members ≠ []) :
    decl.HasMembers := by
  obtain ⟨kind, name, typeParams, modifiers, bases, members, enumerators, delegate, span⟩ := decl
  rw [TypeDecl.WellNamed] at h
  exact ⟨fun hk => hms (h.2.1 (.inl hk)), fun hk => hms (h.2.1 (.inr hk))⟩

theorem TypeDecl.wellNamed_members (h : decl.WellNamed) : AllWellNamed decl.members := by
  obtain ⟨kind, name, typeParams, modifiers, bases, members, enumerators, delegate, span⟩ := decl
  rw [TypeDecl.WellNamed] at h
  exact h.2.2

theorem IsPart.wellNamed (h : IsPart decl part) (hms : part.members ⊆ decl.members)
    (hw : decl.WellNamed) : part.WellNamed := by
  obtain ⟨kind, name, typeParams, modifiers, bases, members, enumerators, delegate, span⟩ := decl
  obtain ⟨kind', name', typeParams', modifiers', bases', members', enumerators', delegate',
    span'⟩ := part
  obtain rfl : kind' = kind := h.kind
  obtain rfl : name' = name := h.name
  rw [TypeDecl.WellNamed, allWellNamed_iff] at hw ⊢
  refine ⟨hw.1, fun hkind => ?_, fun m hm => hw.2.2 m (hms hm)⟩
  exact List.subset_nil.mp (hw.2.1 hkind ▸ hms)

theorem IsPart.names_subset (h : IsPart decl part) (hms : part.members ⊆ decl.members) :
    part.names ⊆ decl.names := by
  rw [TypeDecl.names_eq, TypeDecl.names_eq, h.delegate]
  refine append_subset_append (List.Subset.refl _) fun name hname => ?_
  obtain ⟨m, hm, hin⟩ := mem_namesInMembers.mp hname
  exact mem_namesInMembers.mpr ⟨m, hms hm, hin⟩

namespace IsCut

theorem members_subset (h : IsCut decl parts) (hpart : part ∈ parts) :
    part.members ⊆ decl.members := by
  rw [← h.members]
  exact fun m hm => List.mem_flatMap.mpr ⟨part, hpart, hm⟩

theorem wellNamed (h : IsCut decl parts) (hw : decl.WellNamed) : ∀ d ∈ parts, d.WellNamed :=
  fun d hd => (h.isPart d hd).wellNamed (h.members_subset hd) hw

theorem names_subset (h : IsCut decl parts) : ∀ d ∈ parts, d.names ⊆ decl.names :=
  fun d hd => (h.isPart d hd).names_subset (h.members_subset hd)

/-- The last part and all the others are two parts. -/
theorem joined (h : IsCut decl (init ++ [last])) :
    IsCut decl [decl.part (init.flatMap TypeDecl.members), last] where
  nonempty := nofun
  isPart := by
    intro part hpart
    rcases List.mem_cons.mp hpart with rfl | hpart
    · exact decl.isPart_part _
    · exact h.isPart part (List.mem_append_right _ hpart)
  members := by
    rw [← h.members, List.flatMap_append]
    rfl

/-- All the parts but the last are the parts of what they make up. -/
theorem dropLast (h : IsCut decl (init ++ [last])) (hinit : init ≠ []) :
    IsCut (decl.part (init.flatMap TypeDecl.members)) init where
  nonempty := hinit
  isPart := fun part hpart => (h.isPart part (List.mem_append_left _ hpart)).of_part _
  members := rfl

/-- A part with all of the members, and one with none. -/
theorem whole (h : IsPart decl part) (hlast : IsPart decl last)
    (hms : part.members = decl.members) (hnone : last.members = []) :
    IsCut decl [part, last] where
  nonempty := nofun
  isPart := by
    intro d hd
    rcases List.mem_cons.mp hd with rfl | hd
    · exact h
    · rwa [List.mem_singleton.mp hd]
  members := by
    rw [List.flatMap_cons, List.flatMap_singleton, hms, hnone, List.append_nil]

/-- The members before and behind a place are two parts. -/
theorem halves (decl : TypeDecl) (k : Nat) : IsCut decl (decl.halves k) where
  nonempty := nofun
  isPart := by
    intro d hd
    rcases List.mem_cons.mp hd with rfl | hd
    · exact decl.isPart_part _
    · rw [List.mem_singleton.mp hd]
      exact decl.isPart_part _
  members := by
    rw [TypeDecl.halves, List.flatMap_cons, List.flatMap_singleton]
    exact List.take_append_drop k decl.members

end IsCut

theorem declaresType_flatMap (parts : List TypeDecl) (segment : NameSegment) :
    DeclaresType (parts.flatMap TypeDecl.members) segment
      = parts.any fun part => DeclaresType part.members segment := by
  induction parts with
  | nil => rfl
  | cons part rest ih => rw [List.flatMap_cons, declaresType_append, ih, List.any_cons]

/-- What a part but the last declares first, is declared first by what
those parts make up. -/
theorem firstDeclaring?_of_init (decl last : TypeDecl) {segment : NameSegment} {i : Nat}
    (h : firstDeclaring? init segment = some i) :
    firstDeclaring? (init ++ [last]) segment = some i ∧ i < init.length
      ∧ firstDeclaring? [decl.part (init.flatMap TypeDecl.members), last] segment = some 0 := by
  unfold firstDeclaring? at h ⊢
  obtain ⟨hlt, hdeclares, -⟩ := List.findIdx?_eq_some_iff_getElem.mp h
  have hjoined : DeclaresType (decl.part (init.flatMap TypeDecl.members)).members segment = true :=
    (declaresType_flatMap init segment).trans
      (List.any_eq_true.mpr ⟨init[i], List.getElem_mem hlt, hdeclares⟩)
  refine ⟨?_, hlt, ?_⟩
  · rw [List.findIdx?_append, h, Option.some_or]
  · rw [List.findIdx?_cons, hjoined, if_pos rfl]

/-- What only the last part declares, is declared first by the second of
two. -/
theorem firstDeclaring?_of_last {segment : NameSegment} (h : firstDeclaring? init segment = none)
    {i : Nat}
    (hi : firstDeclaring? [decl.part (init.flatMap TypeDecl.members), last] segment = some i) :
    i = 1 ∧ firstDeclaring? (init ++ [last]) segment = some init.length := by
  unfold firstDeclaring? at h hi ⊢
  have hjoined : DeclaresType (decl.part (init.flatMap TypeDecl.members)).members segment
      = false := by
    refine (declaresType_flatMap init segment).trans (List.any_eq_false.mpr fun part hpart => ?_)
    rw [List.findIdx?_eq_none_iff.mp h part hpart]
    exact Bool.false_ne_true
  rw [List.findIdx?_cons, hjoined, List.findIdx?_cons, List.findIdx?_nil] at hi
  rw [List.findIdx?_append, h, Option.none_or, List.findIdx?_cons, List.findIdx?_nil]
  cases hlast : DeclaresType last.members segment with
  | true =>
    rw [hlast] at hi
    exact ⟨(Option.some.inj hi).symm, congrArg some (Nat.zero_add _)⟩
  | false =>
    rw [hlast] at hi
    cases hi

namespace NamesStay

theorem joined (h : NamesStay unit decl (init ++ [last])) (hinit : init ≠ []) :
    NamesStay unit decl [decl.part (init.flatMap TypeDecl.members), last] where
  starts := by
    intro j part hj name hname segment hsegment i hi
    cases hfirst : firstDeclaring? init segment with
    | some k =>
      obtain ⟨hwhole, hlt, hjoined⟩ := firstDeclaring?_of_init decl last hfirst
      cases hi.symm.trans hjoined
      match j with
      | 0 => rfl
      | 1 =>
        cases hj
        have heq := h.starts init.length last List.getElem?_concat_length name hname segment
          hsegment k hwhole
        omega
    | none =>
      obtain ⟨rfl, hwhole⟩ := firstDeclaring?_of_last hfirst hi
      match j with
      | 0 =>
        cases hj
        obtain ⟨m, hm, hin⟩ := mem_namesInMembers.mp hname
        obtain ⟨q, hq, hmq⟩ := List.mem_flatMap.mp hm
        obtain ⟨k, hk⟩ := List.mem_iff_getElem?.mp hq
        have hlt := (List.getElem?_eq_some_iff.mp hk).1
        have heq := h.starts k q (by rw [List.getElem?_append_left hlt, hk]) name
          (mem_namesInMembers.mpr ⟨m, hmq, hin⟩) segment hsegment _ hwhole
        omega
      | 1 => rfl
  follows := by
    intro name hname segment next hpair hdecl harity i hi
    cases hfirst : firstDeclaring? init next with
    | some k =>
      obtain ⟨-, -, hjoined⟩ := firstDeclaring?_of_init decl last hfirst
      cases hi.symm.trans hjoined
      rfl
    | none =>
      obtain ⟨-, hwhole⟩ := firstDeclaring?_of_last hfirst hi
      have heq := h.follows name hname segment next hpair hdecl harity _ hwhole
      exact absurd (List.length_eq_zero_iff.mp heq) hinit

theorem dropLast (h : NamesStay unit decl (init ++ [last])) {unit' : CompilationUnit}
    (hunit : unit'.names ⊆ unit.names) (ms : List Member) :
    NamesStay unit' (decl.part ms) init where
  starts := by
    intro j part hj name hname segment hsegment i hi
    have hlt := (List.getElem?_eq_some_iff.mp hj).1
    refine h.starts j part ?_ name hname segment hsegment i ?_
    · rw [List.getElem?_append_left hlt, hj]
    · exact (firstDeclaring?_of_init decl last hi).1
  follows := by
    intro name hname segment next hpair hdecl harity i hi
    exact h.follows name (hunit hname) segment next hpair hdecl harity i
      (firstDeclaring?_of_init decl last hi).1

/-- A part with no members leaves names alone. -/
theorem whole (hnone : last.members = []) : NamesStay unit decl [part, last] := by
  have hfirst : ∀ segment i, firstDeclaring? [part, last] segment = some i → i = 0 := by
    intro segment i hi
    unfold firstDeclaring? at hi
    rw [List.findIdx?_cons, List.findIdx?_cons, List.findIdx?_nil, hnone] at hi
    cases hdeclares : DeclaresType part.members segment with
    | true =>
      rw [hdeclares] at hi
      exact (Option.some.inj hi).symm
    | false =>
      rw [hdeclares] at hi
      cases hi
  refine ⟨fun j d hj name hname segment _ i hi => ?_, fun _ _ segment next _ _ _ i hi => ?_⟩
  · match j with
    | 0 => exact hfirst segment i hi
    | 1 =>
      cases hj
      rw [hnone] at hname
      exact (List.not_mem_nil hname).elim
  · exact hfirst next i hi

end NamesStay

end PartByPart

end ClrListing.Syntax
