/-
Freshly compiled modules resolve.

The forest of a file that parses and compiles is resolved to its end, and
what comes out is faithful to it (`faithful_of_compile`): the members have
the shape of the forest, a type stands for the type that has its name in
its place, and any other member for a method of the type around it that
has its name. No method stands for two declarations.

Nothing is said here about which of a type's methods of one name a
declaration gets.
-/
import ClrListing.Proofs.Binding.Lookups
import ClrListing.Proofs.Binding.Rounds

namespace ClrListing

open Assembly Lowering Metadata Source Syntax

-- ============================================================== forests

namespace Declaration

theorem allOnlyTypesNest_append {xs ys : List Declaration} (hx : AllOnlyTypesNest xs)
    (hy : AllOnlyTypesNest ys) : AllOnlyTypesNest (xs ++ ys) := by
  induction xs with
  | nil => exact hy
  | cons d rest ih =>
    rw [AllOnlyTypesNest] at hx
    rw [List.cons_append, AllOnlyTypesNest]
    exact ⟨hx.1, ih hx.2⟩

theorem allOnlyTypesNest_leaves {ds : List Declaration} (h : ∀ d ∈ ds, d.children = []) :
    AllOnlyTypesNest ds := by
  induction ds with
  | nil => rw [AllOnlyTypesNest]; trivial
  | cons d rest ih =>
    rw [AllOnlyTypesNest]
    refine ⟨?_, ih fun d' hd' => h d' (List.mem_cons_of_mem _ hd')⟩
    obtain ⟨kind, span, children⟩ := d
    have hnone : children = [] := h _ List.mem_cons_self
    rw [hnone, OnlyTypesNest, AllOnlyTypesNest]
    exact ⟨fun _ => rfl, trivial⟩

theorem allOnlyTypesNest_plain {m : Member} (hm : ∀ decl, m ≠ .type decl) :
    AllOnlyTypesNest (ofMember m) :=
  allOnlyTypesNest_leaves fun d hd => (leaf_of_mem_ofMember hm d hd).2

mutual

theorem allOnlyTypesNest_ofType :
    ∀ (decl : TypeDecl) (space : String), AllOnlyTypesNest (ofType space decl)
  | ⟨kind, name, typeParams, _, _, members, _, _, span⟩, space => by
    rw [ofType]
    split
    · rw [AllOnlyTypesNest, OnlyTypesNest, AllOnlyTypesNest]
      refine ⟨⟨?_, allOnlyTypesNest_ofMembers members⟩, trivial⟩
      intro htype
      cases htype
    · rw [AllOnlyTypesNest]
      trivial

theorem allOnlyTypesNest_ofMembers :
    ∀ members : List Member, AllOnlyTypesNest (ofMembers members)
  | [] => by
    rw [ofMembers, AllOnlyTypesNest]
    trivial
  | m :: rest => by
    rw [ofMembers]
    exact allOnlyTypesNest_append (allOnlyTypesNest_ofMember m) (allOnlyTypesNest_ofMembers rest)

theorem allOnlyTypesNest_ofMember : ∀ m : Member, AllOnlyTypesNest (ofMember m)
  | .type decl => by
    rw [ofMember]
    exact allOnlyTypesNest_ofType decl ""
  | .field _ => allOnlyTypesNest_plain (by simp)
  | .constructor _ => allOnlyTypesNest_plain (by simp)
  | .destructor _ => allOnlyTypesNest_plain (by simp)
  | .method _ => allOnlyTypesNest_plain (by simp)
  | .property _ => allOnlyTypesNest_plain (by simp)
  | .indexer _ => allOnlyTypesNest_plain (by simp)
  | .event _ => allOnlyTypesNest_plain (by simp)
  | .operator _ => allOnlyTypesNest_plain (by simp)

end

mutual

theorem allOnlyTypesNest_ofSpaceMembers :
    ∀ (members : List NamespaceMember) (space : String),
      AllOnlyTypesNest (ofSpaceMembers space members)
  | [], space => by
    rw [ofSpaceMembers, AllOnlyTypesNest]
    trivial
  | m :: rest, space => by
    rw [ofSpaceMembers]
    exact allOnlyTypesNest_append (allOnlyTypesNest_ofSpaceMember m space)
      (allOnlyTypesNest_ofSpaceMembers rest space)

theorem allOnlyTypesNest_ofSpaceMember :
    ∀ (m : NamespaceMember) (space : String), AllOnlyTypesNest (ofSpaceMember space m)
  | .space ⟨name, _, _, members, _⟩, space => by
    rw [ofSpaceMember]
    exact allOnlyTypesNest_ofSpaceMembers members _
  | .type decl, space => by
    rw [ofSpaceMember]
    exact allOnlyTypesNest_ofType decl space

end

/-- In the forest of a file nothing stands inside declarations that are no
types. -/
theorem allOnlyTypesNest_forest (unit : CompilationUnit) : AllOnlyTypesNest (forest unit) :=
  allOnlyTypesNest_ofSpaceMembers unit.members ""

end Declaration

namespace Binding

-- ========================================================= faithfulness

/-- Whether a token names the type that a declaration declares: the one
of its name in the type `outer`, or at the top in its namespace. -/
def NamesType (a : Assembly) (outer : Option Token) (d : Declaration) (token : Token) : Prop :=
  ∃ t space name arity, d.kind = .type space name arity ∧ a.type? token = some t
    ∧ t.enclosing = outer ∧ t.name = d.canonicalName ∧ (outer = none → t.space = space)

/-- Whether a token names a method of a type that has the name of a
declaration. -/
def NamesMethod (a : Assembly) (owner : Token) (d : Declaration) (token : Token) : Prop :=
  ∃ m, a.method? token = some m ∧ m.declaringType = owner ∧ m.canonicalName = d.canonicalName

mutual

/-- Whether a member is faithful to the declaration of a type. -/
def Faithful (a : Assembly) (outer : Option Token) : Declaration → ResolvedMember → Prop
  | ⟨kind, span, children⟩, m =>
    NamesType a outer ⟨kind, span, children⟩ m.token
      ∧ FaithfulInside a m.token children m.children

/-- Whether members are faithful to the declarations inside a type, one to
one. -/
def FaithfulInside (a : Assembly) (owner : Token) :
    List Declaration → List ResolvedMember → Prop
  | [], members => members = []
  | d :: rest, members =>
    ∃ m others, members = m :: others
      ∧ (if d.isType then Faithful a (some owner) d m
        else NamesMethod a owner d m.token ∧ m.children = [])
      ∧ FaithfulInside a owner rest others

end

/-- Whether members are faithful to a forest, one to one. -/
def FaithfulAll (a : Assembly) : List Declaration → List ResolvedMember → Prop
  | [], members => members = []
  | d :: rest, members =>
    ∃ m others, members = m :: others ∧ Faithful a none d m ∧ FaithfulAll a rest others

variable {a : Assembly} {steps : List Step}

/-- What a declaration of a type locates is named by its token. -/
theorem namesType_of_locate (h : Renders a steps) {outer : Option Token} {d : Declaration}
    {token : Token} (hfound : locate a outer d = some token) (htype : d.isType = true) :
    NamesType a outer d token := by
  obtain ⟨kind, span, children⟩ := d
  cases kind with
  | constructor => cases htype
  | method => cases htype
  | accessor => cases htype
  | type space name arity =>
    cases outer with
    | none =>
      obtain ⟨t, ht, rfl⟩ := Option.map_eq_some_iff.mp hfound
      have hin := type?_token h.numbered (List.mem_of_find?_eq_some ht)
      have hfits := List.find?_some ht
      rw [Bool.and_eq_true, Bool.and_eq_true, Option.isNone_iff_eq_none, decide_eq_true_eq,
        decide_eq_true_eq] at hfits
      exact ⟨t, space, name, arity, rfl, hin, hfits.1.1, hfits.2, fun _ => hfits.1.2⟩
    | some outer =>
      obtain ⟨t, ht, rfl⟩ := Option.map_eq_some_iff.mp hfound
      unfold Assembly.nestedType? at ht
      obtain ⟨o, ho, hnested⟩ := Option.bind_eq_some_iff.mp ht
      obtain ⟨hrow, rfl⟩ := token_of_type? h.numbered ho
      have hin := List.mem_of_find?_eq_some hnested
      have hname := List.find?_some hnested
      rw [decide_eq_true_eq] at hname
      rcases (mem_types_iff h.rows).mp hrow with rfl | ⟨path, hpath, rfl⟩
      · cases hin
      · rw [nested_typeRow h.rows] at hin
        obtain ⟨q, hq, rfl⟩ := List.mem_map.mp hin
        obtain ⟨hq, houter⟩ := List.mem_filter.mp hq
        have houter : q.outer = some path := of_decide_eq_true houter
        refine ⟨typeRow steps q, space, name, arity, rfl, h.type?_tokenIn hq, ?_, hname, ?_⟩
        · rw [show (typeRow steps q).enclosing = q.outer.map _ from rfl, houter]
          rfl
        · intro hnone
          cases hnone

mutual

/-- Members that stand for declarations and hold methods of their names
are faithful. -/
theorem faithful_of_isType (h : Renders a steps) {outer : Option Token} :
    ∀ (d : Declaration) (m : ResolvedMember), IsType a outer d m → d.isType = true →
      (∀ g ∈ grantsOfType m d, NamesMethod a g.owner g.declaration g.token) →
      Faithful a outer d m
  | ⟨kind, span, children⟩, ⟨token, members⟩, hm, htype, hgrants => by
    rw [IsType] at hm
    rw [grantsOfType] at hgrants
    rw [Faithful]
    exact ⟨namesType_of_locate h hm.1 htype,
      faithful_of_areInside h children members hm.2 hgrants⟩

theorem faithful_of_areInside (h : Renders a steps) {owner : Token} :
    ∀ (ds : List Declaration) (members : List ResolvedMember), AreInside a owner ds members →
      (∀ g ∈ grantsInside owner members ds, NamesMethod a g.owner g.declaration g.token) →
      FaithfulInside a owner ds members
  | [], members, hm, _ => by
    rw [AreInside] at hm
    rwa [FaithfulInside]
  | d :: rest, members, hm, hgrants => by
    rw [AreInside] at hm
    obtain ⟨m, others, rfl, hfirst, hrest⟩ := hm
    rw [grantsInside] at hgrants
    rw [FaithfulInside]
    refine ⟨m, others, rfl, ?_, faithful_of_areInside h rest others hrest fun g hg =>
      hgrants g (List.mem_append_right _ hg)⟩
    have hhere : ∀ g ∈ if d.isType then grantsOfType m d else [⟨owner, d, m.token⟩],
        NamesMethod a g.owner g.declaration g.token := fun g hg =>
      hgrants g (List.mem_append_left _ hg)
    by_cases ht : d.isType = true
    · rw [if_pos ht] at hfirst hhere ⊢
      exact faithful_of_isType h d m hfirst ht hhere
    · rw [if_neg ht] at hfirst hhere ⊢
      exact ⟨hhere _ List.mem_cons_self, hfirst⟩

end

/-- Members that answer a forest of types and hold methods of their names
are faithful. -/
theorem faithfulAll_of_answers (h : Renders a steps) :
    ∀ (forest : List Declaration) (members : List ResolvedMember), Answers a forest members →
      (∀ d ∈ forest, d.isType = true) →
      (∀ g ∈ grantsOf forest members, NamesMethod a g.owner g.declaration g.token) →
      FaithfulAll a forest members := by
  intro forest
  induction forest with
  | nil =>
    intro members hm _ _
    exact hm
  | cons d rest ih =>
    intro members hm htypes hgrants
    obtain ⟨m, others, rfl, hfirst, hrest⟩ := hm
    rw [grantsOf] at hgrants
    refine ⟨m, others, rfl, ?_, ?_⟩
    · exact faithful_of_isType h d m hfirst (htypes d List.mem_cons_self) fun g hg =>
        hgrants g (List.mem_append_left _ hg)
    · exact ih others hrest (fun d' hd' => htypes d' (List.mem_cons_of_mem _ hd')) fun g hg =>
        hgrants g (List.mem_append_right _ hg)

-- ============================================================ resolving

/-- A module rendered from a script that has what a forest calls for. -/
structure Serves (a : Assembly) (steps : List Step) (forest : List Declaration) : Prop where
  renders : Renders a steps
  standing : ∀ p ∈ pushed steps, ∀ d, p.2.source = some d → StandsFor p.2.method d
  members : memberCalls (calls forest) = sourcesOf steps
  located : AllLocated a (rowsOf steps) (calls forest)
  types : ∀ d ∈ forest, d.isType = true

variable {forest : List Declaration}

theorem Serves.requests_eq (h : Serves a steps forest) :
    requests (visits a forest)
      = (sourcesOf steps).map fun q => (tokenIn (rowsOf steps) q.1, q.2) := by
  rw [visits_eq_calls forest h.located, requests_visitIn, h.members]

/-- No name is asked for more often than the type has methods of it. -/
theorem Serves.countP_requests_le (h : Serves a steps forest) (type : Token) (name : String) :
    (requests (visits a forest)).countP (asksFor type name)
      ≤ (a.methodsNamed type name).length := by
  rw [h.requests_eq, sourcesOf, List.map_filterMap, List.countP_filterMap,
    length_methodsNamed h.renders]
  refine List.countP_mono_left fun p hp hasks => ?_
  cases hsource : p.2.source with
  | none =>
    rw [hsource] at hasks
    cases hasks
  | some d =>
    rw [hsource] at hasks
    rw [isPushedUnder_eq (h.standing p hp d hsource)]
    exact hasks

/-- A fresh resolver goes through the forest to its end. -/
theorem Serves.goes (h : Serves a steps forest) :
    (serve a .start (visits a forest)).stop = none := by
  refine serve_goes ?_ h.countP_requests_le
  intro outer d hvisit
  rw [visits_eq_calls forest h.located] at hvisit
  obtain ⟨c, hc, heq⟩ := List.mem_map.mp hvisit
  cases c with
  | member owner d' => cases heq
  | type outer' d' =>
    obtain ⟨rfl, rfl⟩ := Visit.type.inj heq
    rw [← isSome_locate_iff, h.located outer' d' hc]
    rfl

/-- The outcome of a fresh resolver: members that answer the forest and
hold what was handed out, and the records of the service. -/
theorem Serves.resolves (h : Serves a steps forest) (log : Log) :
    ∃ members, Run.upshot ⟨.start, log⟩ (Resolver.resolve a forest)
        = (.ok members, ⟨(serve a .start (visits a forest)).left,
            log ++ (serve a .start (visits a forest)).log ++ [forestRecord members]⟩)
      ∧ Answers a forest members
      ∧ grantsOf forest members = (serve a .start (visits a forest)).grants := by
  have hserves := resolve_serves a forest ⟨.start, log⟩
  simp only [] at hserves
  rw [h.goes] at hserves
  exact hserves

/-- A file that parses and compiles has in its module what its forest
calls for. -/
theorem serves_of_compile {source module : String} {tree : Tree} {options : CompileOptions}
    {a : Assembly} (hparse : (Run.outcome (Tree.parse source)).1 = .ok tree)
    (hcompile : (Run.outcome (compile module tree options)).1 = .ok a)
    (htypes : a.types.length < Token.rowLimit) (hmethods : a.methods.length < Token.rowLimit) :
    ∃ added, Unlisted added
      ∧ Serves a (script tree.root ++ added) (Declaration.forest tree.root) := by
  have hw := wellNamed_of_parse hparse
  obtain ⟨added, hadded, h⟩ := renders_of_compile hcompile htypes hmethods
  have hentered := entered_script hw hadded
  have hfollows := follows_script tree.root
  have hnamed : ∀ path ∈ rowsOf (script tree.root ++ added), path.name ≠ "<Module>" := by
    intro path hpath
    rw [mem_rowsOf, hentered] at hpath
    exact name_ne_module hw path hpath
  refine ⟨added, hadded, h, ?_, ?_, ?_, ?_⟩
  · intro p hp d hsource
    rw [pushed_append, List.mem_append] at hp
    rcases hp with hp | hp
    · exact standsFor_of_script hw hp hsource
    · rw [hadded.source_eq_none hp] at hsource
      cases hsource
  · have hnone : sourcesOf added = [] := by
      unfold sourcesOf
      rw [List.filterMap_eq_nil_iff]
      intro p hp
      rw [hadded.source_eq_none hp]
      rfl
    rw [sourcesOf_append, hnone, List.append_nil]
    exact hfollows.members
  · intro outer d hcall
    obtain ⟨htype, hmem⟩ := hfollows.types outer d hcall
    refine locate_pathIn h hnamed htype ?_
    rw [mem_rowsOf, entered_append, List.map_append]
    exact List.mem_append_left _ hmem
  · intro d hd
    exact (hfollows.types none d (mem_calls hd)).1

/-- The forest of a file that parses and compiles is resolved by a fresh
resolver to its end, with members of its shape that are faithful to it,
and no method is given to two declarations. -/
theorem faithful_of_compile {source module : String} {tree : Tree} {options : CompileOptions}
    {a : Assembly} (hparse : (Run.outcome (Tree.parse source)).1 = .ok tree)
    (hcompile : (Run.outcome (compile module tree options)).1 = .ok a)
    (htypes : a.types.length < Token.rowLimit) (hmethods : a.methods.length < Token.rowLimit)
    (log : Log) :
    ∃ members,
      (Run.upshot ⟨.start, log⟩ (Resolver.resolve a (Declaration.forest tree.root))).1
        = .ok members
      ∧ ResolvedMember.shapes members = Declaration.shapes (Declaration.forest tree.root)
      ∧ FaithfulAll a (Declaration.forest tree.root) members
      ∧ ((grantsOf (Declaration.forest tree.root) members).map Grant.token).Nodup := by
  obtain ⟨added, -, h⟩ := serves_of_compile hparse hcompile htypes hmethods
  obtain ⟨members, hrun, hanswers, hgrants⟩ := h.resolves log
  refine ⟨members, congrArg Prod.fst hrun, ?_, ?_, ?_⟩
  · exact shapes_of_answers _ members hanswers (Declaration.allOnlyTypesNest_forest tree.root)
  · apply faithfulAll_of_answers h.renders _ members hanswers h.types
    intro g hg
    rw [hgrants] at hg
    exact method_of_methodsNamed h.renders (token_mem_methodsNamed hg)
  · rw [hgrants]
    refine nodup_tokens_of_serve (nodup_methodsNamed h.renders) ?_
    intro token type name type' name' hmem hmem'
    exact methodsNamed_apart h.renders hmem hmem'

/-- A file with overloads, an explicit interface, an indexer, an init
accessor, a partial type and a partial method. -/
def mixedSource : String :=
  "interface I<T> \x7b \x7d partial class C \x7b C() \x7b \x7d ~C() \x7b \x7d\n"
    ++ "void I<N.D>.M() \x7b \x7d T M<T>(T x) \x7b return x; \x7d partial void Q();\n"
    ++ "int this[int i] => i; int P \x7b init \x7b \x7d \x7d \x7d partial class C \x7b\n"
    ++ "partial void Q() \x7b \x7d void M(int n) \x7b \x7d \x7d namespace N \x7b class D \x7b \x7d \x7d"

/-- The file with all kinds of members resolves in the module that it
compiles to. -/
theorem faithful_of_mixedSource : ∃ tree a,
    (Run.outcome (Tree.parse mixedSource)).1 = .ok tree
      ∧ (Run.outcome (compile "Mixed" tree ⟨false⟩)).1 = .ok a
      ∧ ∃ members,
        (Run.upshot ⟨.start, []⟩ (Resolver.resolve a (Declaration.forest tree.root))).1
          = .ok members
        ∧ FaithfulAll a (Declaration.forest tree.root) members
        ∧ ((grantsOf (Declaration.forest tree.root) members).map Grant.token).Nodup := by
  have hruns : compilesTo mixedSource "Mixed" (fun _ _ => true) = true := by decide +kernel
  obtain ⟨tree, a, hparse, hcompile, htypes, hmethods, -⟩ := of_compilesTo hruns
  obtain ⟨members, hrun, -, hfaithful, hnodup⟩ :=
    faithful_of_compile hparse hcompile htypes hmethods []
  exact ⟨tree, a, hparse, hcompile, members, hrun, hfaithful, hnodup⟩

end Binding

end ClrListing
