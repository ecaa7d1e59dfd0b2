/-
The types that declarations are entered as.

The count that a declaration is entered with is its place in the list that
names are resolved against: the entry there was made of it, and says that it
stands in the entry of the declaration around (`Designates`).

Where nothing is wrong, a task goes on with the script from where it was
carried out to (`Task.Carried`). So a declaration is given the row of its
path, which both the entries and the rows spell out. Rows that are added
later leave that as it is (`Grows`), and what a signature writes for a name
that is resolved to the declaration is what the finished module calls its
row (`EmittedAs`).
-/
import ClrListing.Proofs.Lowering.Cuts
import ClrListing.Proofs.Lowering.Tasks
import ClrListing.Proofs.Lowering.FullNames

namespace ClrListing.Lowering

open Assembly Metadata Source Syntax

variable {setting : Setting} {module : String} {unit : CompilationUnit}
variable {scope : Scope} {outer : Option Enclosing} {inside : Enclosing}
variable {decl : TypeDecl} {e : Emission}

-- ========================================================== full names

section FullNames

variable {sc sc' : Scope} {t : DeclaredType} {place around : Nat}

/-- Full names depend on the list of types alone. -/
theorem fullName_congr (h : sc'.types = sc.types) (place : Nat) :
    sc'.fullName place = sc.fullName place := by
  rw [Scope.fullName, Scope.fullName, Scope.fullNameWithin_eq_nameThrough,
    Scope.fullNameWithin_eq_nameThrough, h]

theorem fullName_top (ht : sc.types[place]? = some t) (htop : t.enclosing = none) :
    sc.fullName place = Text.qualify t.space (Text.arityName t.name t.arity) := by
  rw [Scope.fullName, Scope.fullNameWithin, ht]
  dsimp only
  rw [htop]

theorem fullName_inner (ho : Outward sc.types) (ht : sc.types[place]? = some t)
    (hin : t.enclosing = some around) :
    sc.fullName place = sc.fullName around ++ "+" ++ Text.arityName t.name t.arity := by
  have hlt : around < place := ho place t around ht hin
  have hplace : place < sc.types.length := (List.getElem?_eq_some_iff.mp ht).1
  -- the walk out is bounded by the place that it starts from, and needs less
  have hbound : sc.fullNameWithin place around = sc.fullName around := by
    rw [Scope.fullName, Scope.fullNameWithin_eq_nameThrough,
      Scope.fullNameWithin_eq_nameThrough]
    exact Scope.nameThrough_sent (ho.collapses 0).toSends (fun _ _ => rfl)
      (Nat.lt_trans hlt hplace) (Nat.lt_succ_self around) hlt
  rw [Scope.fullName, Scope.fullNameWithin, ht]
  dsimp only
  rw [hin]
  dsimp only
  rw [hbound]

/-- The type that is being read is the one at a path, or there is none. -/
def NamedBy (scope : Scope) : Option TypePath → Prop
  | none => scope.enclosing = none
  | some path => ∃ place, scope.enclosing = some place ∧ scope.fullName place = path.fullName

/-- A declaration is named by its path. -/
theorem TypePlaced.fullName_eq {path : Option TypePath} (h : TypePlaced unit scope decl place)
    (ho : Outward (declaredTypes unit)) (hnamed : NamedBy scope path) :
    scope.fullName place = (TypePath.ofDecl scope.space path decl).fullName := by
  have hdeclared := h.declared
  rw [declaredInType_eq] at hdeclared
  have hentry := hdeclared.head
  rw [← h.types] at hentry ho
  cases path with
  | none => exact fullName_top hentry hnamed
  | some path =>
    obtain ⟨around, haround, hname⟩ := hnamed
    rw [fullName_inner ho hentry haround, hname]
    rfl

end FullNames

-- ========================================================= designation

/-- A declaration is entered at a place, and its members then stand in a
type. -/
def Enters (setting : Setting) (module : String) (unit : CompilationUnit) (scope : Scope)
    (decl : TypeDecl) (place : Nat) (inside : Enclosing) : Prop :=
  ∃ outer e, e.place = place ∧ Reached setting module unit (.type scope outer decl e)
    ∧ (openType setting scope outer decl e).2 = some inside

/-- A scope is the one inside a declaration that was entered and holds these
members. -/
def StandsInside (setting : Setting) (module : String) (unit : CompilationUnit) (scope : Scope)
    (ms : List Member) (inside : Enclosing) : Prop :=
  ∃ scope' decl place, Enters setting module unit scope' decl place inside ∧ ms ⊆ decl.members
    ∧ scope.enclosing = some place ∧ scope.space = scope'.space

/-- What a task is about to declare stands inside a declaration that was
entered, or at the top. -/
def Task.Housed (setting : Setting) (module : String) (unit : CompilationUnit) : Task → Prop
  | .type scope none _ _ => scope.enclosing = none
  | .type scope (some o) decl _ => StandsInside setting module unit scope [.type decl] o
  | .members inside ms _ => StandsInside setting module unit inside.surroundings.scope ms inside
  | .space scope _ _ => scope.enclosing = none

theorem Makes.housed {t t' : Task} (h : Makes setting t t')
    (hreached : Reached setting module unit t) (ht : t.Housed setting module unit) :
    t'.Housed setting module unit := by
  cases h with
  | @inside scope outer decl before inside hin _ =>
    refine ⟨scope, decl, before.place, ⟨outer, before, rfl, hreached, hin⟩, List.Subset.refl _, ?_⟩
    rw [surroundings_openType hin]
    exact ⟨rfl, rfl⟩
  | nested =>
    obtain ⟨scope', decl', place, henters, hsubset, hplace, hspace⟩ := ht
    refine ⟨scope', decl', place, henters, fun m hm => hsubset ?_, hplace, hspace⟩
    rw [List.mem_singleton.mp hm]
    exact List.mem_cons_self
  | rest =>
    obtain ⟨scope', decl', place, henters, hsubset, hplace, hspace⟩ := ht
    exact ⟨scope', decl', place, henters, fun m hm => hsubset (List.mem_cons_of_mem _ hm), hplace,
      hspace⟩
  | within => exact ht
  | top => exact ht
  | behind => exact ht

theorem housed_of_reached {t : Task} (h : Reached setting module unit t) :
    t.Housed setting module unit := by
  induction h with
  | refl => rfl
  | tail hreached hmakes ih => exact hmakes.housed hreached ih

/-- A place of the list is that of a declaration. -/
structure Designates (setting : Setting) (module : String) (unit : CompilationUnit)
    (scope : Scope) (outer : Option Enclosing) (decl : TypeDecl) (place : Nat) : Prop where
  entry : (declaredTypes unit)[place]?
    = some ⟨scope.space, decl.name, decl.arity, decl.kind, scope.enclosing⟩
  /-- The declaration itself is the one in that place, in a type or in the
  namespace of the entry. -/
  declaration : ∃ path : Option TypePath, path.isSome = outer.isSome
    ∧ (declarations unit)[place]? = some (.ofDecl scope.space path decl, decl)
  top : outer = none → scope.enclosing = none
  /-- The entry around is that of the declaration around. -/
  inner : ∀ o, outer = some o → StandsInside setting module unit scope [.type decl] o

theorem designates_of_reached (hw : unit.WellNamed)
    (h : Reached setting module unit (.type scope outer decl e)) :
    Designates setting module unit scope outer decl e.place := by
  have hplaced : TypePlaced unit scope decl e.place := placed_of_reached hw h
  have hhoused := housed_of_reached h
  have hdeclared := hplaced.declared
  rw [declaredInType_eq] at hdeclared
  obtain ⟨path, hpath, hlisted⟩ := hplaced.listed
  have hsame : scope.enclosing.isSome = outer.isSome := by
    cases outer with
    | none =>
      rw [show scope.enclosing = none from hhoused]
      rfl
    | some o =>
      obtain ⟨_, _, place, -, -, hplace, -⟩ := hhoused
      rw [hplace]
      rfl
  refine ⟨hdeclared.head, ⟨path, hpath.trans hsame, ?_⟩, ?_, ?_⟩
  · rw [declarationsOfType_eq] at hlisted
    obtain ⟨rest, hrest⟩ := hlisted
    have hhead := congrArg (fun xs => xs[0]?) hrest
    simp only [List.cons_append, List.getElem?_cons_zero, List.getElem?_drop, Nat.add_zero] at hhead
    exact hhead.symm
  · rintro rfl
    exact hhoused
  · rintro o rfl
    exact hhoused

-- ============================================================= carrying

/-- What is emitted is in the type that a script is in. -/
structure Carries (scope : Scope) (outer : Option Enclosing) (e : Emission) (steps : List Step)
    (around : Option Around) : Prop where
  mirrors : Mirrors e steps
  stands : StandsAround (rowsOf steps) outer around
  named : NamedBy scope (around.map Around.path)

/-- A task goes on with a script that was carried out up to it. -/
def Task.Carried (t : Task) : Prop :=
  ∃ steps around, Carries t.scope t.outer t.before steps around

namespace Carries

variable {steps : List Step} {around : Option Around}

/-- A type declaration is entered as the type at its path. -/
theorem enters (h : Carries scope outer e steps around)
    (hs : Sound (openType setting scope outer decl e).1) :
    ∃ o, (openType setting scope outer decl e).2 = some o
      ∧ Mirrors (openType setting scope outer decl e).1
        (steps ++ [.enter (aroundOf scope around e.place decl).path decl])
      ∧ Stands (rowsOf (steps ++ [.enter (aroundOf scope around e.place decl).path decl])) o
        (aroundOf scope around e.place decl) := by
  rw [h.mirrors.place]
  exact mirrors_openType h.mirrors h.stands hs

theorem opened (h : Carries scope outer e steps around) (ho : Outward (declaredTypes unit))
    (hplaced : TypePlaced unit scope decl e.place)
    (hs : Sound (openType setting scope outer decl e).1)
    (hin : (openType setting scope outer decl e).2 = some inside) :
    Carries inside.surroundings.scope (some inside) (openType setting scope outer decl e).1
      (steps ++ [.enter (aroundOf scope around e.place decl).path decl])
      (some (aroundOf scope around e.place decl)) := by
  obtain ⟨o, hopened, hmirrors, hstands⟩ := h.enters hs
  cases hin.symm.trans hopened
  refine ⟨hmirrors, hstands, ?_⟩
  have htypes : (scope.inType e.place decl.typeParams).types = scope.types := rfl
  rw [surroundings_openType hin]
  exact ⟨e.place, rfl, (fullName_congr htypes e.place).trans (hplaced.fullName_eq ho h.named)⟩

theorem behindMember {m : Member} (h : Carries scope (some inside) e steps around)
    (hs : Sound (emitMember setting inside m e)) :
    ∃ more, Carries scope (some inside) (emitMember setting inside m e) (steps ++ more) around := by
  cases around with
  | none => exact h.stands.elim
  | some b =>
    have hstands : Stands (rowsOf steps) inside b := h.stands
    exact ⟨_, mirrors_emitMember m inside b e steps h.mirrors hstands hs, hstands.append, h.named⟩

theorem behindSpaceMember {m : NamespaceMember} (h : Carries scope none e steps around)
    (hs : Sound (emitSpaceMember setting scope m e)) :
    ∃ more, Carries scope none (emitSpaceMember setting scope m e) (steps ++ more) around := by
  cases around with
  | none => exact ⟨_, mirrors_emitSpaceMember m scope e steps h.mirrors hs, trivial, h.named⟩
  | some b => exact h.stands.elim

end Carries

/-- A task that goes on with a script makes tasks that do, as long as
nothing is wrong. -/
theorem Makes.carried {t t' : Task} (h : Makes setting t t') (ho : Outward (declaredTypes unit))
    (hplaced : t.Placed unit) (hs : Sound t'.before) (ht : t.Carried) : t'.Carried := by
  obtain ⟨steps, around, hcarries⟩ := ht
  cases h with
  | inside hin _ => exact ⟨_, _, hcarries.opened ho hplaced hs hin⟩
  | nested => exact ⟨steps, around, hcarries⟩
  | rest =>
    obtain ⟨more, hbehind⟩ := hcarries.behindMember hs
    exact ⟨_, around, hbehind⟩
  | within =>
    cases around with
    | none => exact ⟨steps, none, hcarries.mirrors, trivial, hcarries.named⟩
    | some b => exact hcarries.stands.elim
  | top => exact ⟨steps, around, hcarries⟩
  | behind =>
    obtain ⟨more, hbehind⟩ := hcarries.behindSpaceMember hs
    exact ⟨_, around, hbehind⟩

/-- Each task goes on with a script, as long as nothing is wrong when the
task is begun. -/
theorem carried_of_reached {t : Task} (hw : unit.WellNamed)
    (h : Reached setting module unit t) (hs : Sound t.before) : t.Carried := by
  induction h with
  | refl => exact ⟨[], none, mirrors_start module, trivial, rfl⟩
  | tail hreached hmakes ih =>
    exact hmakes.carried (outward_declaredTypes _) (placed_of_reached hw hreached) hs
      (ih (hmakes.grows_before.sound hs))

/-- All tasks are done before the first one is. -/
theorem grows_of_reached {t : Task} (h : Reached setting module unit t) :
    Grows (t.result setting)
      (emitSpaceMembers setting (topScope unit) unit.members (.start module)) := by
  induction h with
  | refl => exact .refl _
  | tail _ hmakes ih => exact hmakes.grows.trans ih

-- ============================================================ the module

/-- A declaration has a row in the module, and the row the name that the
list gives the declaration. -/
structure EmittedAs (setting : Setting) (unit : CompilationUnit) (a : Assembly) (scope : Scope)
    (outer : Option Enclosing) (decl : TypeDecl) (e : Emission) (inside : Enclosing)
    (t : TypeDef) : Prop where
  entered : (openType setting scope outer decl e).2 = some inside
  row : a.type? inside.token = some t
  name : t.name = Text.arityName decl.name decl.arity
  space : t.space = rowSpace scope outer
  enclosing : t.enclosing = outer.map Enclosing.token
  fullName : ∀ sc : Scope, sc.types = declaredTypes unit →
    sc.fullName e.place = a.fullName inside.token
  /-- What is written for segments that are resolved to the declaration. -/
  mentioned : ∀ (sc : Scope) segments, sc.types = declaredTypes unit →
    sc.lookup? segments = some e.place → sc.baseName segments = a.fullName inside.token

/-- The token of the type around is that of its row, also when rows follow. -/
theorem StandsAround.enclosing_eq {steps : List Step} {around : Option Around}
    (h : StandsAround (rowsOf steps) outer around) (more : List Step) :
    (around.map Around.path).map (tokenIn (rowsOf (steps ++ more)))
      = outer.map Enclosing.token := by
  cases outer with
  | none =>
    cases around with
    | none => rfl
    | some b => exact h.elim
  | some o =>
    cases around with
    | none => exact h.elim
    | some b =>
      have hin : Stands (rowsOf (steps ++ more)) o b := Stands.append h
      exact congrArg some hin.token.symm

theorem emittedAs_of_carries {steps : List Step} {around : Option Around} {a : Assembly}
    (h : Carries scope outer e steps around) (ho : Outward (declaredTypes unit))
    (hplaced : TypePlaced unit scope decl e.place)
    (hs : Sound (openType setting scope outer decl e).1)
    (hkept : (openType setting scope outer decl e).1.builder.types.map headingOf
      <+: a.types.map headingOf) :
    ∃ inside t, EmittedAs setting unit a scope outer decl e inside t := by
  obtain ⟨o, hopened, hmirrors, hstands⟩ := h.enters hs
  have hbegins : BeginsAs a (steps ++ [.enter (aroundOf scope around e.place decl).path decl]) :=
    ⟨hmirrors.types ▸ hkept, hmirrors.grounded, hmirrors.fits hs⟩
  obtain ⟨t, ht, heading⟩ := hbegins.type?_tokenIn hstands.mem
  obtain ⟨-, hname, hspace, houter⟩ := headingOf_eq_iff.mp heading
  have hfull : ∀ sc : Scope, sc.types = declaredTypes unit →
      sc.fullName e.place = a.fullName o.token := by
    intro sc hsc
    obtain ⟨way, hspells⟩ := hbegins.exists_spells hstands.mem
    rw [hstands.token, hspells.fullName_eq, fullName_congr (hsc.trans hplaced.types.symm)]
    exact hplaced.fullName_eq ho h.named
  refine ⟨o, t, hopened, hstands.token ▸ ht, ?_, ?_, ?_, hfull, ?_⟩
  · exact hname.trans (TypePath.name_ofDecl _ _ _)
  · refine (hspace.trans (TypePath.space_ofDecl _ _ _)).trans ?_
    rw [rowSpace, h.stands.isSome_eq]
  · have hpath : (aroundOf scope around e.place decl).path.outer = around.map Around.path :=
      TypePath.outer_ofDecl _ _ _
    rw [houter, ← h.stands.enclosing_eq, ← hpath]
    rfl
  · intro sc segments hsc hfound
    rw [Scope.baseName, hfound]
    exact hfull sc hsc

section Compiling

variable {source : String} {tree : Tree} {options : CompileOptions} {a : Assembly}

/-- Constructors are added after all tasks. -/
theorem grows_emission {t : Task} (h : Reached ⟨tree.source, options⟩ module tree.root t) :
    Grows (t.result ⟨tree.source, options⟩) (emission module tree options) :=
  (grows_of_reached h).trans (grows_foldl_completeType _ _ _)

theorem allEntered_of_compile (hw : tree.root.WellNamed)
    (hcompile : (Run.outcome (compile module tree options)).1 = .ok a) :
    AllEntered ⟨tree.source, options⟩ module tree.root 0 (declarations tree.root) := by
  obtain ⟨hclean, -⟩ := build_of_compile hcompile
  have hdone : Reached ⟨tree.source, options⟩ module tree.root
      (.space (topScope tree.root) tree.root.members (.start module)) := .refl
  exact allEntered_space tree.root.members (topScope tree.root) (.start module) "" hw hdone
    ((grows_emission hdone).clean hclean)

theorem emittedAs_of_compile (hw : tree.root.WellNamed)
    (hcompile : (Run.outcome (compile module tree options)).1 = .ok a)
    (hreached : Reached ⟨tree.source, options⟩ module tree.root (.type scope outer decl e))
    (hfits : (openType ⟨tree.source, options⟩ scope outer decl e).1.builder.types.length
      < Token.rowLimit) :
    ∃ inside t, EmittedAs ⟨tree.source, options⟩ tree.root a scope outer decl e inside t := by
  obtain ⟨hclean, rfl⟩ := build_of_compile hcompile
  have hlater : Grows (openType ⟨tree.source, options⟩ scope outer decl e).1
      (emission module tree options) :=
    (grows_inside _ scope outer decl e).trans (grows_emission hreached)
  have hs : Sound (openType ⟨tree.source, options⟩ scope outer decl e).1 :=
    ⟨hlater.clean hclean, hfits⟩
  obtain ⟨steps, around, hcarries⟩ :=
    carried_of_reached hw hreached ((grows_openType _ scope outer decl e).sound hs)
  exact emittedAs_of_carries hcarries (outward_declaredTypes _) (placed_of_reached hw hreached)
    hs hlater.types

end Compiling

/-- Wherever the emission of a file that parses enters a declaration, it
does so with the place of that declaration among all that are declared. If
the file compiles, it enters all of them, and names that are resolved to a
declaration are written with the full name of its row, as long as tokens can
number the rows up to it. -/
theorem designates_of_parse {source module : String} {tree : Tree} {options : CompileOptions}
    (hparse : (Run.outcome (Tree.parse source)).1 = .ok tree) :
    (∀ scope outer decl e,
      Reached ⟨tree.source, options⟩ module tree.root (.type scope outer decl e) →
      Designates ⟨tree.source, options⟩ module tree.root scope outer decl e.place)
      ∧ ∀ a, (Run.outcome (compile module tree options)).1 = .ok a →
        AllEntered ⟨tree.source, options⟩ module tree.root 0 (declarations tree.root)
        ∧ ∀ scope outer decl e,
          Reached ⟨tree.source, options⟩ module tree.root (.type scope outer decl e) →
          (openType ⟨tree.source, options⟩ scope outer decl e).1.builder.types.length
            < Token.rowLimit →
          ∃ inside t, EmittedAs ⟨tree.source, options⟩ tree.root a scope outer decl e inside t := by
  have hw := wellNamed_of_parse hparse
  refine ⟨fun scope outer decl e hreached => designates_of_reached hw hreached,
    fun a hcompile => ⟨allEntered_of_compile hw hcompile, ?_⟩⟩
  intro scope outer decl e hreached hfits
  exact emittedAs_of_compile hw hcompile hreached hfits

/-- The first type in the second of two types, with the type around it and
the emission before it. -/
def inSecond? (setting : Setting) (module : String) (unit : CompilationUnit) :
    Option (Enclosing × TypeDecl × Emission) :=
  match unit.members with
  | .type first :: .type second :: _ =>
    let opened := openType setting (topScope unit) none second
      (emitSpaceMember setting (topScope unit) (.type first) (.start module))
    match opened.2, second.members with
    | some inside, .type decl :: _ =>
      if second.HasMembers then some (inside, decl, opened.1) else none
    | _, _ => none
  | _ => none

theorem reached_inSecond? (h : inSecond? setting module unit = some (inside, decl, e)) :
    Reached setting module unit (.type inside.surroundings.scope (some inside) decl e) := by
  unfold inSecond? at h
  split at h
  · next first second rest hunit =>
    dsimp only at h
    split at h
    · next inside' decl' more hin hsecond =>
      split at h
      · next hkind =>
        cases h
        unfold Reached
        rw [hunit]
        have hinside := Makes.inside hin hkind
        rw [hsecond] at hinside
        exact (((Relation.ReflTransGen.single .behind).tail .top).tail hinside).tail .nested
      · cases h
    · cases h
  · cases h

/-- A file with a type in the second part of a type. -/
def reopenedSource : String :=
  "partial class C<T> \x7b enum E \x7b \x7d \x7d\npartial class C<T> \x7b struct D \x7b \x7d \x7d"

theorem designates_of_reopenedSource : ∃ (tree : Tree) (a : Assembly) (scope : Scope)
    (outer : Option Enclosing) (decl : TypeDecl) (e : Emission) (inside : Enclosing) (t : TypeDef),
    (Run.outcome (Tree.parse reopenedSource)).1 = .ok tree
      ∧ (Run.outcome (compile "Reopened" tree ⟨false⟩)).1 = .ok a
      ∧ Reached ⟨tree.source, ⟨false⟩⟩ "Reopened" tree.root (.type scope outer decl e)
      ∧ decl.name = "D" ∧ e.place = 3
      ∧ Designates ⟨tree.source, ⟨false⟩⟩ "Reopened" tree.root scope outer decl e.place
      ∧ EmittedAs ⟨tree.source, ⟨false⟩⟩ tree.root a scope outer decl e inside t := by
  have hruns : compilesTo reopenedSource "Reopened" (fun tree _ =>
      (inSecond? ⟨tree.source, ⟨false⟩⟩ "Reopened" tree.root).any fun (inside, decl, e) =>
        decide (decl.name = "D" ∧ e.place = 3
          ∧ (openType ⟨tree.source, ⟨false⟩⟩ inside.surroundings.scope (some inside) decl
            e).1.builder.types.length < Token.rowLimit)) = true := by decide +kernel
  obtain ⟨tree, a, hparse, hcompile, -, -, hcheck⟩ := of_compilesTo hruns
  rw [Option.any_eq_true] at hcheck
  obtain ⟨⟨inside, decl, e⟩, hsecond, hcheck⟩ := hcheck
  obtain ⟨hname, hplace, hfits⟩ := of_decide_eq_true hcheck
  have hreached := reached_inSecond? hsecond
  obtain ⟨hdesignates, hcompiled⟩ := designates_of_parse hparse
  obtain ⟨-, hemitted⟩ := hcompiled a hcompile
  obtain ⟨o, t, hemitted⟩ := hemitted _ _ decl e hreached hfits
  exact ⟨tree, a, _, _, decl, e, o, t, hparse, hcompile, hreached, hname, hplace,
    hdesignates _ _ decl e hreached, hemitted⟩

end ClrListing.Lowering
