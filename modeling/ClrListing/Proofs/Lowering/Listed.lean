/-
The forest of a file, found again in its script.

The forest and the script are two walks over the same declarations.
`calls` is the walk of a resolver over the forest, by paths instead of
tokens; the members it calls for are, one by one and in order, the sources
of the script's methods, and the types it calls for are among those that
the script enters (`follows_script`). A method with a source stands for
it: the two have the same name to be grouped under and the same number of
parameters (`standsFor_of_script`).
-/
import ClrListing.Proofs.Lowering.Walk

namespace ClrListing.Lowering

open Assembly Metadata Source Syntax

-- ======================================================== standing for

/-- What a compiled method and the declaration it stands for have in
common. -/
structure StandsFor (m : MethodDef) (d : Declaration) : Prop where
  kept : m.isGenerated = false
  name : m.canonicalName = d.canonicalName
  params : d.paramCount? = some m.signature.params.length
  member : d.isType = false

/-- The methods that the accessors of an owner with a name are lowered to
stand for the accessors that are listed. -/
theorem standsFor_accessorsLowered {s : Surroundings} (hnamed : TypesNamed s.scope.types)
    {o : AccessorOwner} {interface : Option TypeExpr} (hinterface : NamesInterface interface)
    (hstart : o.interface = interfaceStart s.scope interface) (hname : '.' ∉ o.name.toList)
    {indexCount : Nat} (hindex : o.indexTypes.length = indexCount) (accessors : List Accessor)
    (expressionBody : Option Body) (span : Span) :
    ∀ l ∈ accessorsLowered s o interface indexCount accessors expressionBody span, ∀ d,
      l.source = some d → StandsFor l.method d := by
  have hplain : ∀ kind : AccessorKind,
      MethodDef.plainName (o.interface ++ kind.methodStart ++ o.name)
        = kind.methodStart ++ o.name := by
    intro kind
    rw [hstart, String.append_assoc]
    refine plainName_interfaceStart hnamed hinterface ?_
    rw [String.toList_append, List.mem_append]
    rintro (hdot | hdot)
    · cases kind <;> exact absurd hdot (by decide)
    · exact hname hdot
  have hone : ∀ (kind : AccessorKind) (own : Modifiers) (hasBody : Bool) (at_ : Span),
      StandsFor (o.method s kind own hasBody false)
        (Declaration.ofAccessor o.name (interface.map TypeExpr.display) indexCount kind at_) := by
    intro kind own hasBody at_
    constructor
    · unfold AccessorOwner.method
      split
      rfl
    · have hcanonical : (o.method s kind own hasBody false).canonicalName
          = MethodDef.plainName (o.interface ++ kind.methodStart ++ o.name) := by
        unfold AccessorOwner.method MethodDef.canonicalName AccessorOwner.signature
        cases kind <;> rfl
      rw [hcanonical, hplain]
      rfl
    · unfold AccessorOwner.method AccessorOwner.signature
      cases kind <;>
        simp [Declaration.ofAccessor, Declaration.leaf, Declaration.paramCount?,
          Declaration.Kind.paramCount?, Declaration.accessorParamCount, MethodDef.ofSignature,
          hindex]
    · rfl
  intro l hl d hsource
  unfold accessorsLowered at hl
  simp only [] at hl
  split at hl
  · rw [List.mem_singleton] at hl
    subst hl
    cases hsource
    exact hone .get [] true span
  · obtain ⟨a, ha, rfl⟩ := List.mem_map.mp hl
    simp only [] at hsource ⊢
    split at hsource
    · next hlisted =>
      cases hsource
      -- an accessor with a body is not among automatic ones
      have hbody : a.body.isSome = true := by
        unfold Declaration.isListed at hlisted
        rw [Bool.and_eq_true] at hlisted
        exact hlisted.1
      have hwritten : o.isAutomatic s accessors = false := by
        unfold AccessorOwner.isAutomatic
        have hall : (accessors.all fun a => a.body.isNone) = false := by
          rw [List.all_eq_false]
          refine ⟨a, ha, ?_⟩
          cases hb : a.body with
          | none =>
            rw [hb] at hbody
            cases hbody
          | some body => exact Bool.false_ne_true
        rw [hall, Bool.and_false]
      rw [hwritten]
      exact hone a.kind a.modifiers _ a.span
    · cases hsource

/-- The methods that a member is lowered to stand for the declarations
that are their sources. -/
theorem standsFor_memberLowered {s : Surroundings} (hnamed : TypesNamed s.scope.types)
    {m : Member} (hw : m.WellNamed) :
    ∀ l ∈ memberLowered s m, ∀ d, l.source = some d → StandsFor l.method d := by
  have hunlisted : ∀ ms : List MethodDef, ∀ l ∈ ms.map Lowered.unlisted, ∀ d,
      l.source = some d → StandsFor l.method d := by
    intro ms l hl d hsource
    obtain ⟨m, -, rfl⟩ := List.mem_map.mp hl
    cases hsource
  cases m with
  | constructor c =>
    intro l hl d hsource
    rw [memberLowered, List.mem_singleton] at hl
    subst hl
    cases hsource
    have hcount : (s.scope.parameterTypes c.params).length = c.params.length := List.length_map _
    unfold constructorMethod Declaration.ofConstructor
    cases c.modifiers.has .isStatic with
    | true =>
      refine ⟨rfl, ?_, congrArg some hcount.symm, rfl⟩
      show Text.arityName (MethodDef.plainName ".cctor") 0 = ".cctor"
      decide
    | false =>
      refine ⟨rfl, ?_, congrArg some hcount.symm, rfl⟩
      show Text.arityName (MethodDef.plainName ".ctor") 0 = ".ctor"
      decide
  | method m =>
    intro l hl d hsource
    rw [Member.WellNamed] at hw
    rw [memberLowered] at hl
    obtain ⟨d', hd', rfl⟩ := List.mem_map.mp hl
    cases hsource
    unfold Declaration.ofMethod at hd'
    split at hd'
    · cases hd'
    · rw [List.mem_singleton] at hd'
      subst hd'
      have hinside : TypesNamed (s.scope.inMethod m.typeParams).types := hnamed
      have hplain := plainName_interfaceStart hinside hw.2 hw.1.no_dot
      constructor
      · unfold methodOf
        rfl
      · have hcanonical : (methodOf s m).canonicalName
            = Text.arityName (MethodDef.plainName
                (interfaceStart (s.scope.inMethod m.typeParams) m.explicitInterface ++ m.name))
              m.typeParams.length := by
          unfold methodOf MethodDef.canonicalName
          rfl
        rw [hcanonical, hplain]
        rfl
      · unfold methodOf
        simp [Declaration.leaf, Declaration.paramCount?, Declaration.Kind.paramCount?,
          MethodDef.ofSignature, Scope.parameterTypes]
      · rfl
  | property p =>
    rw [Member.WellNamed] at hw
    exact standsFor_accessorsLowered hnamed hw.2 rfl hw.1.no_dot rfl _ _ _
  | indexer i =>
    rw [Member.WellNamed] at hw
    have hitem : '.' ∉ "Item".toList := by decide
    have hindex : (indexerOwner s i).indexTypes.length = i.params.length := List.length_map _
    exact standsFor_accessorsLowered hnamed hw rfl hitem hindex _ _ _
  | type decl => exact hunlisted _
  | field f => exact hunlisted _
  | destructor d => exact hunlisted _
  | event e => exact hunlisted _
  | operator o => exact hunlisted _

-- ============================================================== origins

/-- Where the methods of a script come from: those with a source are what
a well named member of the file is lowered to. -/
def FromMembers (types : List DeclaredType) (steps : List Step) : Prop :=
  ∀ p ∈ pushed steps, p.2.source ≠ none →
    ∃ s m, s.scope.types = types ∧ m.WellNamed ∧ p.2 ∈ memberLowered s m

variable {types : List DeclaredType} {steps more : List Step}

theorem FromMembers.append (h : FromMembers types steps) (h' : FromMembers types more) :
    FromMembers types (steps ++ more) := by
  intro p hp
  rw [pushed_append] at hp
  rcases List.mem_append.mp hp with hp | hp
  · exact h p hp
  · exact h' p hp

theorem fromMembers_pushAll {b : Around} {ls : List Lowered}
    (h : ∀ l ∈ ls, l.source ≠ none →
      ∃ s m, s.scope.types = types ∧ m.WellNamed ∧ l ∈ memberLowered s m) :
    FromMembers types (pushAll b ls) := by
  intro p hp hsource
  rw [pushed_pushAll] at hp
  obtain ⟨l, hl, rfl⟩ := List.mem_map.mp hp
  simp only [] at hsource ⊢
  split at hsource
  · next hlisted =>
    rw [if_pos hlisted]
    exact h l hl hsource
  · exact absurd rfl hsource

theorem fromMembers_member {b : Around} (htypes : b.surroundings.scope.types = types) {m : Member}
    (hw : m.WellNamed) : FromMembers types (pushAll b (memberLowered b.surroundings m)) :=
  fromMembers_pushAll fun _ hl _ => ⟨b.surroundings, m, htypes, hw, hl⟩

/-- What is done at a stop comes from members, as its work does. -/
theorem fromMembers_steps {stop : Stop} (h : stop.Named types) : FromMembers types stop.steps := by
  cases stop with
  | type path decl =>
    intro p hp
    cases hp
  | work b w =>
    cases w with
    | member m => exact fromMembers_member h.1 (h.2 m rfl)
    | delegate signature span =>
      refine fromMembers_pushAll fun l hl hsource => ?_
      simp only [Work.lowered, delegateLowered] at hl
      split at hl
      · obtain ⟨m, -, rfl⟩ := List.mem_map.mp hl
        exact absurd rfl hsource
      · cases hl

theorem fromMembers_script {unit : CompilationUnit} (hw : unit.WellNamed) :
    FromMembers (declaredTypes unit) (script unit) := by
  have hsteps : ∀ stops : List Stop, (∀ stop ∈ stops, stop.Named (declaredTypes unit)) →
      FromMembers (declaredTypes unit) (stops.flatMap Stop.steps) := by
    intro stops hnamed
    induction stops with
    | nil =>
      intro p hp
      cases hp
    | cons stop rest ih =>
      obtain ⟨hfirst, hrest⟩ := List.forall_mem_cons.mp hnamed
      rw [List.flatMap_cons]
      exact (fromMembers_steps hfirst).append (ih hrest)
  rw [script_eq]
  exact hsteps (walk unit) (named_walk hw)

/-- The methods of a script stand for their sources. -/
theorem standsFor_of_script {unit : CompilationUnit} (hw : unit.WellNamed)
    {p : TypePath × Lowered} (hp : p ∈ pushed (script unit)) {d : Declaration}
    (hsource : p.2.source = some d) : StandsFor p.2.method d := by
  obtain ⟨s, m, htypes, hm, hl⟩ :=
    fromMembers_script hw p hp (by rw [hsource]; exact Option.some_ne_none d)
  have hnamed : TypesNamed s.scope.types := by
    rw [htypes]
    exact typesNamed_declaredTypes hw
  exact standsFor_memberLowered hnamed hm p.2 hl d hsource

-- ================================================================ calls

/-- What a walk over a forest calls for: a type inside another or at the
top, or a method of a type. -/
inductive Call where
  | type (outer : Option TypePath) (d : Declaration)
  | member (owner : TypePath) (d : Declaration)

/-- The path of the type that a declaration names. -/
def pathIn (outer : Option TypePath) (d : Declaration) : TypePath :=
  match outer with
  | some path => .inner path d.canonicalName
  | none =>
    match d.kind with
    | .type space .. => .top space d.canonicalName
    | _ => .top "" d.canonicalName

mutual

/-- The calls of a declaration that has to be a type. -/
def callsOfType (outer : Option TypePath) : Declaration → List Call
  | ⟨kind, span, children⟩ =>
    .type outer ⟨kind, span, children⟩
      :: callsInside (pathIn outer ⟨kind, span, children⟩) children

/-- The calls of the declarations inside a type. -/
def callsInside (owner : TypePath) : List Declaration → List Call
  | [] => []
  | d :: rest =>
    (if d.isType then callsOfType (some owner) d else [.member owner d])
      ++ callsInside owner rest

end

/-- The calls of a forest, in pre-order. -/
def calls : List Declaration → List Call
  | [] => []
  | d :: rest => callsOfType none d ++ calls rest

/-- The methods that are called for. -/
def memberCalls (cs : List Call) : List (TypePath × Declaration) :=
  cs.filterMap fun
    | .type _ _ => none
    | .member owner d => some (owner, d)

/-- The declarations that methods of a script stand for, each with the
path of its type. -/
def sourcesOf (steps : List Step) : List (TypePath × Declaration) :=
  (pushed steps).filterMap fun p => p.2.source.map fun d => (p.1, d)

theorem sourcesOf_append : sourcesOf (steps ++ more) = sourcesOf steps ++ sourcesOf more := by
  unfold sourcesOf
  rw [pushed_append, List.filterMap_append]

theorem memberCalls_append (xs ys : List Call) :
    memberCalls (xs ++ ys) = memberCalls xs ++ memberCalls ys :=
  List.filterMap_append

theorem callsInside_append (owner : TypePath) (xs ys : List Declaration) :
    callsInside owner (xs ++ ys) = callsInside owner xs ++ callsInside owner ys := by
  induction xs with
  | nil =>
    rw [List.nil_append, callsInside, List.nil_append]
  | cons d rest ih =>
    rw [List.cons_append, callsInside, callsInside, ih, List.append_assoc]

theorem calls_append (xs ys : List Declaration) : calls (xs ++ ys) = calls xs ++ calls ys := by
  induction xs with
  | nil =>
    rw [List.nil_append, calls, List.nil_append]
  | cons d rest ih =>
    rw [List.cons_append, calls, calls, ih, List.append_assoc]

/-- The declarations of a forest are called for as types. -/
theorem mem_calls {forest : List Declaration} {d : Declaration} (h : d ∈ forest) :
    Call.type none d ∈ calls forest := by
  induction forest with
  | nil => cases h
  | cons d' rest ih =>
    rw [calls, List.mem_append]
    rcases List.mem_cons.mp h with rfl | h
    · left
      obtain ⟨kind, span, children⟩ := d
      rw [callsOfType]
      exact List.mem_cons_self
    · exact .inr (ih h)

-- ============================================ the forest in the script

/-- Calls that follow a script: for its listed methods, one by one, and
for types that it enters. -/
structure Follows (cs : List Call) (steps : List Step) : Prop where
  members : memberCalls cs = sourcesOf steps
  types : ∀ outer d, Call.type outer d ∈ cs →
    d.isType = true ∧ pathIn outer d ∈ (entered steps).map Prod.fst

theorem follows_nil : Follows [] [] := ⟨rfl, fun _ _ h => (List.not_mem_nil h).elim⟩

theorem Follows.append {cs cs' : List Call} (h : Follows cs steps) (h' : Follows cs' more) :
    Follows (cs ++ cs') (steps ++ more) := by
  constructor
  · rw [memberCalls_append, sourcesOf_append, h.members, h'.members]
  · intro outer d hcall
    rw [entered_append, List.map_append, List.mem_append]
    rcases List.mem_append.mp hcall with hcall | hcall
    · exact ⟨(h.types outer d hcall).1, .inl (h.types outer d hcall).2⟩
    · exact ⟨(h'.types outer d hcall).1, .inr (h'.types outer d hcall).2⟩

/-- Calls for a type and what is inside it follow the script that enters
the type. -/
theorem Follows.enter {cs : List Call} {outer : Option TypePath} {d : Declaration}
    {path : TypePath} {decl : TypeDecl} (h : Follows cs steps) (htype : d.isType = true)
    (hpath : pathIn outer d = path) :
    Follows (.type outer d :: cs) (.enter path decl :: steps) := by
  constructor
  · exact h.members
  · intro outer' d' hcall
    rw [show entered (.enter path decl :: steps) = (path, decl) :: entered steps from rfl,
      List.map_cons, List.mem_cons]
    rcases List.mem_cons.mp hcall with heq | hcall
    · cases heq
      exact ⟨htype, .inl hpath⟩
    · exact ⟨(h.types outer' d' hcall).1, .inr (h.types outer' d' hcall).2⟩

theorem sourcesOf_pushAll_unlisted {b : Around} (hb : b.listed = false) (ls : List Lowered) :
    sourcesOf (pushAll b ls) = [] := by
  unfold sourcesOf
  rw [pushed_pushAll, List.filterMap_map, List.filterMap_eq_nil_iff]
  intro l _
  rw [Function.comp_apply, hb]
  rfl

/-- Calls for the members that methods stand for follow the script that
adds the methods. -/
theorem follows_pushAll {b : Around} (hb : b.listed = true) {ls : List Lowered}
    {ds : List Declaration} (hsources : ls.filterMap Lowered.source = ds) :
    Follows (ds.map (.member b.path)) (pushAll b ls) := by
  constructor
  · have hmembers : memberCalls (ds.map (.member b.path)) = ds.map fun d => (b.path, d) := by
      unfold memberCalls
      rw [List.filterMap_map]
      exact congrFun List.filterMap_eq_map ds
    unfold sourcesOf
    rw [hmembers, pushed_pushAll, List.filterMap_map, ← hsources, List.map_filterMap]
    congr 1
    funext l
    rw [Function.comp_apply, hb, if_pos rfl]
  · intro outer d hcall
    obtain ⟨d', -, heq⟩ := List.mem_map.mp hcall
    cases heq

/-- The declarations that the forest holds for a member that is no type
are no types and hold nothing. -/
theorem leaf_of_mem_ofMember {m : Member} (hm : ∀ decl, m ≠ .type decl) :
    ∀ d ∈ Declaration.ofMember m, d.isType = false ∧ d.children = [] := by
  have haccessors : ∀ property interface indexCount accessors expressionBody span,
      ∀ d ∈ Declaration.ofAccessors property interface indexCount accessors expressionBody span,
        d.isType = false ∧ d.children = [] := by
    intro property interface indexCount accessors expressionBody span d hd
    unfold Declaration.ofAccessors at hd
    simp only [] at hd
    split at hd
    · rw [List.mem_singleton] at hd
      subst hd
      exact ⟨rfl, rfl⟩
    · obtain ⟨a, -, rfl⟩ := List.mem_map.mp hd
      exact ⟨rfl, rfl⟩
  intro d hd
  cases m with
  | type decl => exact absurd rfl (hm decl)
  | constructor c =>
    rw [Declaration.ofMember, List.mem_singleton] at hd
    subst hd
    exact ⟨rfl, rfl⟩
  | method m =>
    rw [Declaration.ofMember, Declaration.ofMethod] at hd
    split at hd
    · cases hd
    · rw [List.mem_singleton] at hd
      subst hd
      exact ⟨rfl, rfl⟩
  | property p =>
    rw [Declaration.ofMember] at hd
    exact haccessors _ _ _ _ _ _ d hd
  | indexer i =>
    rw [Declaration.ofMember] at hd
    exact haccessors _ _ _ _ _ _ d hd
  | field f => cases hd
  | destructor x => cases hd
  | event e => cases hd
  | operator o => cases hd

/-- The calls for a member that is no type are for methods. -/
theorem callsInside_ofMember (owner : TypePath) {m : Member} (hm : ∀ decl, m ≠ .type decl) :
    callsInside owner (Declaration.ofMember m) = (Declaration.ofMember m).map (.member owner) := by
  have hall : ∀ ds : List Declaration, (∀ d ∈ ds, d.isType = false) →
      callsInside owner ds = ds.map (.member owner) := by
    intro ds hds
    induction ds with
    | nil => rw [callsInside, List.map_nil]
    | cons d rest ih =>
      rw [callsInside, hds d List.mem_cons_self,
        ih fun d' hd' => hds d' (List.mem_cons_of_mem _ hd')]
      rfl
  exact hall _ fun d hd => (leaf_of_mem_ofMember hm d hd).1

mutual

/-- Nothing inside a type that the forest leaves out is listed. -/
theorem sourcesOf_scriptOfType_unlisted :
    ∀ (decl : TypeDecl) (scope : Scope) (around : Option Around) (place : Nat),
      (aroundOf scope around place decl).listed = false →
      sourcesOf (scriptOfType scope around place decl) = []
  | ⟨kind, name, typeParams, modifiers, bases, members, enumerators, delegate, span⟩,
      scope, around, place, hb => by
    have henter : ∀ path decl steps,
        sourcesOf (.enter path decl :: steps) = sourcesOf steps := fun _ _ _ => rfl
    cases kind with
    | delegateType =>
      rw [scriptOfType, henter]
      exact sourcesOf_pushAll_unlisted hb _
    | enumType =>
      rw [scriptOfType, henter]
      rfl
    | classType =>
      rw [scriptOfType, henter]
      exact sourcesOf_scriptOfMembers_unlisted members _ _ hb
    | structType =>
      rw [scriptOfType, henter]
      exact sourcesOf_scriptOfMembers_unlisted members _ _ hb
    | interfaceType =>
      rw [scriptOfType, henter]
      exact sourcesOf_scriptOfMembers_unlisted members _ _ hb

theorem sourcesOf_scriptOfMembers_unlisted :
    ∀ (members : List Member) (inside : Around) (place : Nat), inside.listed = false →
      sourcesOf (scriptOfMembers inside place members) = []
  | [], inside, place, _ => by
    rw [scriptOfMembers]
    rfl
  | m :: rest, inside, place, hb => by
    rw [scriptOfMembers, sourcesOf_append, sourcesOf_scriptOfMember_unlisted m inside place hb,
      sourcesOf_scriptOfMembers_unlisted rest inside _ hb]
    rfl

theorem sourcesOf_scriptOfMember_unlisted :
    ∀ (m : Member) (inside : Around) (place : Nat), inside.listed = false →
      sourcesOf (scriptOfMember inside place m) = []
  | .type decl, inside, place, hb => by
    rw [scriptOfMember]
    refine sourcesOf_scriptOfType_unlisted decl _ (some inside) place ?_
    unfold aroundOf
    simp only [Option.all_some]
    rw [hb, Bool.false_and]
  | .field _, _, _, hb => sourcesOf_pushAll_unlisted hb _
  | .constructor _, _, _, hb => sourcesOf_pushAll_unlisted hb _
  | .destructor _, _, _, hb => sourcesOf_pushAll_unlisted hb _
  | .method _, _, _, hb => sourcesOf_pushAll_unlisted hb _
  | .property _, _, _, hb => sourcesOf_pushAll_unlisted hb _
  | .indexer _, _, _, hb => sourcesOf_pushAll_unlisted hb _
  | .event _, _, _, hb => sourcesOf_pushAll_unlisted hb _
  | .operator _, _, _, hb => sourcesOf_pushAll_unlisted hb _

end

theorem follows_plain {inside : Around} (hb : inside.listed = true) {m : Member}
    (hm : ∀ decl, m ≠ .type decl) :
    Follows (callsInside inside.path (Declaration.ofMember m))
      (pushAll inside (memberLowered inside.surroundings m)) := by
  rw [callsInside_ofMember inside.path hm]
  exact follows_pushAll hb (sources_memberLowered inside.surroundings m hm)

/-- Calls that there are none of follow a script in which nothing is
listed. -/
theorem follows_unlisted (h : sourcesOf steps = []) : Follows [] steps :=
  ⟨h.symm, fun _ _ hcall => (List.not_mem_nil hcall).elim⟩

/-- A type of a kind that is listed is one declaration, any other none. -/
theorem flatMap_ofType (f : Declaration → List Call) (space : String) (kind : TypeKind)
    (name : String) (typeParams : List String) (modifiers : Modifiers) (bases : List TypeExpr)
    (members : List Member) (enumerators : List String) (delegate : Option DelegateSignature)
    (span : Span) :
    (Declaration.ofType space
        ⟨kind, name, typeParams, modifiers, bases, members, enumerators, delegate, span⟩).flatMap f
      = if Declaration.isListedKind kind then
          f ⟨.type space name typeParams.length, span, Declaration.ofMembers members⟩
        else [] := by
  rw [Declaration.ofType]
  cases Declaration.isListedKind kind with
  | true => exact List.flatMap_singleton _ _
  | false => rfl

mutual

/-- The walk over a type in the forest follows its script. -/
theorem follows_scriptOfType :
    ∀ (decl : TypeDecl) (scope : Scope) (around : Option Around) (place : Nat) (space : String),
      around.all Around.listed = true → (around.isSome ∨ space = scope.space) →
      Follows ((Declaration.ofType space decl).flatMap (callsOfType (around.map Around.path)))
        (scriptOfType scope around place decl)
  | ⟨kind, name, typeParams, modifiers, bases, members, enumerators, delegate, span⟩,
      scope, around, place, space, hb, hspace => by
    have hpath : pathIn (around.map Around.path)
          ⟨.type space name typeParams.length, span, Declaration.ofMembers members⟩
        = (aroundOf scope around place
            ⟨kind, name, typeParams, modifiers, bases, members, enumerators, delegate, span⟩).path
        := by
      cases around with
      | some b => rfl
      | none =>
        rcases hspace with h | h
        · cases h
        · rw [h]
          rfl
    have hlisted : Declaration.isListedKind kind = true →
        (aroundOf scope around place ⟨kind, name, typeParams, modifiers, bases, members,
          enumerators, delegate, span⟩).listed = true := by
      intro hkind
      unfold aroundOf
      simp only []
      rw [hb, hkind, Bool.and_self]
    have hclosed : Declaration.isListedKind kind = false →
        Follows [] (scriptOfType scope around place
          ⟨kind, name, typeParams, modifiers, bases, members, enumerators, delegate, span⟩) := by
      intro hkind
      refine follows_unlisted (sourcesOf_scriptOfType_unlisted _ scope around place ?_)
      unfold aroundOf
      simp only []
      rw [hkind, Bool.and_false]
    rw [flatMap_ofType]
    cases kind with
    | delegateType => exact hclosed rfl
    | enumType => exact hclosed rfl
    | interfaceType => exact hclosed rfl
    | classType =>
      have hinside := follows_scriptOfMembers members _ (place + 1) (hlisted rfl)
      have hkind : Declaration.isListedKind .classType = true := rfl
      rw [← hpath] at hinside
      rw [scriptOfType, if_pos hkind, callsOfType]
      exact hinside.enter rfl hpath
    | structType =>
      have hinside := follows_scriptOfMembers members _ (place + 1) (hlisted rfl)
      have hkind : Declaration.isListedKind .structType = true := rfl
      rw [← hpath] at hinside
      rw [scriptOfType, if_pos hkind, callsOfType]
      exact hinside.enter rfl hpath

theorem follows_scriptOfMembers :
    ∀ (members : List Member) (inside : Around) (place : Nat), inside.listed = true →
      Follows (callsInside inside.path (Declaration.ofMembers members))
        (scriptOfMembers inside place members)
  | [], inside, place, _ => by
    rw [Declaration.ofMembers, callsInside, scriptOfMembers]
    exact follows_nil
  | m :: rest, inside, place, hb => by
    rw [Declaration.ofMembers, callsInside_append, scriptOfMembers]
    exact (follows_scriptOfMember m inside place hb).append
      (follows_scriptOfMembers rest inside _ hb)

theorem follows_scriptOfMember :
    ∀ (m : Member) (inside : Around) (place : Nat), inside.listed = true →
      Follows (callsInside inside.path (Declaration.ofMember m)) (scriptOfMember inside place m)
  | .type decl, inside, place, hb => by
    have htype := follows_scriptOfType decl inside.surroundings.scope (some inside) place "" hb
      (.inl rfl)
    have hcalls : callsInside inside.path (Declaration.ofType "" decl)
        = (Declaration.ofType "" decl).flatMap (callsOfType (some inside.path)) := by
      obtain ⟨kind, name, typeParams, modifiers, bases, members, enumerators, delegate, span⟩ :=
        decl
      rw [Declaration.ofType]
      cases Declaration.isListedKind kind with
      | true =>
        rw [if_pos rfl, callsInside, callsInside, List.append_nil, List.flatMap_singleton]
        rfl
      | false =>
        rw [if_neg Bool.false_ne_true, callsInside]
        rfl
    rw [Declaration.ofMember, scriptOfMember, hcalls]
    exact htype
  | .field _, _, _, hb => follows_plain hb (by simp)
  | .constructor _, _, _, hb => follows_plain hb (by simp)
  | .destructor _, _, _, hb => follows_plain hb (by simp)
  | .method _, _, _, hb => follows_plain hb (by simp)
  | .property _, _, _, hb => follows_plain hb (by simp)
  | .indexer _, _, _, hb => follows_plain hb (by simp)
  | .event _, _, _, hb => follows_plain hb (by simp)
  | .operator _, _, _, hb => follows_plain hb (by simp)

end

mutual

theorem follows_scriptOfSpace :
    ∀ (members : List NamespaceMember) (scope : Scope) (place : Nat),
      Follows (calls (Declaration.ofSpaceMembers scope.space members))
        (scriptOfSpace scope place members)
  | [], scope, place => by
    rw [Declaration.ofSpaceMembers, calls, scriptOfSpace]
    exact follows_nil
  | m :: rest, scope, place => by
    rw [Declaration.ofSpaceMembers, calls_append, scriptOfSpace]
    exact (follows_scriptOfSpaceMember m scope place).append (follows_scriptOfSpace rest scope _)

theorem follows_scriptOfSpaceMember :
    ∀ (m : NamespaceMember) (scope : Scope) (place : Nat),
      Follows (calls (Declaration.ofSpaceMember scope.space m))
        (scriptOfSpaceMember scope place m)
  | .space ⟨name, _, usings, members, _⟩, scope, place => by
    rw [Declaration.ofSpaceMember, scriptOfSpaceMember]
    exact follows_scriptOfSpace members ((scope.inSpace name).importing usings) place
  | .type decl, scope, place => by
    have htype := follows_scriptOfType decl scope none place scope.space rfl (.inr rfl)
    have hcalls : ∀ ds, calls ds = ds.flatMap (callsOfType none) := by
      intro ds
      induction ds with
      | nil => rw [calls, List.flatMap_nil]
      | cons d rest ih => rw [calls, List.flatMap_cons, ih]
    rw [Declaration.ofSpaceMember, scriptOfSpaceMember, hcalls]
    exact htype

end

/-- The walk over the forest of a file follows its script. -/
theorem follows_script (unit : CompilationUnit) :
    Follows (calls (Declaration.forest unit)) (script unit) :=
  follows_scriptOfSpace unit.members (topScope unit) 0

end ClrListing.Lowering
