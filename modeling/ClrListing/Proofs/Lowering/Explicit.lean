/-
The names of members that implement an interface explicitly.

A method, property or indexer keeps the interface that is written before its
name, so its methods are named after that interface as it is called in the
scope of the member, type arguments included, and members of two constructions
of one interface have no key in common (`ExplicitNames.apart`). An event keeps
the interface without its type arguments: its methods have the names that the
text gives them if and only if there are none (`NamedAfter.asWritten_iff`),
and the events of two constructions are taken for one and the same
(`constructed_events_repeated`).
-/
import ClrListing.Proofs.Lowering.Constructions
import ClrListing.Proofs.Lowering.Methods

namespace ClrListing.Lowering

open Assembly Metadata Source Syntax

variable {s : Surroundings} {m : Member} {I : TypeExpr}

/-- The scope that a member is read in; in a method, its own type parameters
are in effect. -/
def memberScope (s : Surroundings) : Member → Scope
  | .method m => s.scope.inMethod m.typeParams
  | _ => s.scope

theorem types_memberScope : (memberScope s m).types = s.scope.types := by
  cases m <;> rfl

-- ============================================================ the names

/-- The names of the methods that a member is compiled to. -/
def compiledNames (s : Surroundings) (m : Member) : List String :=
  (compiledMember s m).map fun c => c.method.name

theorem names_compiledAccessors (o : AccessorOwner) (fillsIn : Bool) (accessors : List Accessor)
    (body : Option Body) :
    ((compiledAccessors s o fillsIn accessors body).map fun c => c.method.name)
      = (if body.isSome then [AccessorKind.get] else accessors.map Accessor.kind).map fun kind =>
        o.interface ++ kind.methodStart ++ o.name := by
  unfold compiledAccessors
  split
  · rfl
  · rw [List.map_map, List.map_map]
    rfl

/-- Accessors are named as if their owner had no interface, behind the
interface. -/
theorem names_compiledAccessors_prefix (o : AccessorOwner) (fillsIn : Bool)
    (accessors : List Accessor) (body : Option Body) :
    ((compiledAccessors s o fillsIn accessors body).map fun c => c.method.name)
      = ((compiledAccessors s { o with interface := "" } fillsIn accessors body).map fun c =>
        c.method.name).map (o.interface ++ ·) := by
  rw [names_compiledAccessors, names_compiledAccessors, List.map_map]
  refine List.map_congr_left fun kind _ => ?_
  show _ = o.interface ++ (("" ++ kind.methodStart) ++ o.name)
  rw [String.empty_append, String.append_assoc]

theorem names_compiledEvent (e : Event) (name : String) :
    ((compiledEvent s e name).map fun c => c.method.name)
      = ((compiledEvent s { e with explicitInterface := none } name).map fun c =>
        c.method.name).map (interfaceStart s.scope e.explicitInterface ++ ·) := by
  unfold compiledEvent
  dsimp only
  split
  · rw [List.map_map, List.map_map, List.map_map]
    refine List.map_congr_left fun kind _ => ?_
    show interfaceStart s.scope e.explicitInterface ++ kind.methodStart ++ name
      = interfaceStart s.scope e.explicitInterface ++ (("" ++ kind.methodStart) ++ name)
    rw [String.empty_append, String.append_assoc]
  · exact names_compiledAccessors_prefix (eventOwner s e name) false _ _

/-- A member's methods are named as if it implemented no interface, behind the
name of the interface and a dot. -/
theorem compiledNames_of_interface (h : m.interface = some I) :
    compiledNames s m = (compiledNames s m.withoutInterface).map
      ((memberScope s m).interfaceName I ++ "." ++ ·) := by
  have hstart : interfaceStart (memberScope s m) m.interface
      = (memberScope s m).interfaceName I ++ "." := by
    rw [h]
    rfl
  rw [← hstart]
  unfold compiledNames
  cases m with
  | method m =>
    show (compiledMember s (.method m)).map _ = ((compiledMember s (.method { m with
      explicitInterface := none })).map fun c => c.method.name).map _
    simp only [compiledMember]
    split
    · rfl
    · show [interfaceStart (s.scope.inMethod m.typeParams) m.explicitInterface ++ m.name]
        = [interfaceStart (s.scope.inMethod m.typeParams) m.explicitInterface ++ ("" ++ m.name)]
      rw [String.empty_append]
  | property p => exact names_compiledAccessors_prefix (propertyOwner s p) _ _ _
  | indexer i => exact names_compiledAccessors_prefix (indexerOwner s i) _ _ _
  | event e =>
    show (e.names.flatMap (compiledEvent s e)).map _ = ((e.names.flatMap
      (compiledEvent s { e with explicitInterface := none })).map fun c => c.method.name).map _
    rw [List.map_flatMap, List.map_flatMap, List.map_flatMap]
    exact List.flatMap_congr fun name _ => names_compiledEvent e name
  | type decl => cases h
  | field f => cases h
  | constructor c => cases h
  | destructor d => cases h
  | operator o => cases h

-- ============================================================= the keys

theorem dot_not_mem_accessor {kind : AccessorKind} {name : String} (h : '.' ∉ name.toList) :
    '.' ∉ ("" ++ kind.methodStart ++ name).toList := by
  rw [String.empty_append, String.toList_append, List.mem_append, not_or]
  exact ⟨by cases kind <;> decide, h⟩

/-- Methods, properties and indexers without an interface have no dot in their
names. -/
theorem dot_not_mem_plain (hw : m.WellNamed) (hmay : m.MayImplement) (hevent : ¬ m.IsEvent) :
    ∀ plain ∈ compiledNames s m.withoutInterface, '.' ∉ plain.toList := by
  have haccessors : ∀ {o : AccessorOwner} {fillsIn accessors body}, o.interface = "" →
      '.' ∉ o.name.toList →
      ∀ plain ∈ (compiledAccessors s o fillsIn accessors body).map fun c => c.method.name,
        '.' ∉ plain.toList := by
    intro o fillsIn accessors body hinterface hname plain hplain
    rw [names_compiledAccessors, hinterface] at hplain
    obtain ⟨kind, -, rfl⟩ := List.mem_map.mp hplain
    exact dot_not_mem_accessor hname
  unfold compiledNames
  cases m with
  | method m =>
    rw [Member.WellNamed] at hw
    simp only [compiledMember, Member.withoutInterface]
    intro plain hplain
    split at hplain
    · cases hplain
    · obtain rfl := List.mem_singleton.mp hplain
      show '.' ∉ ("" ++ m.name).toList
      rw [String.empty_append]
      exact hw.1.no_dot
  | property p =>
    rw [Member.WellNamed] at hw
    exact haccessors rfl hw.1.no_dot
  | indexer i => exact haccessors rfl (show '.' ∉ "Item".toList by decide)
  | event e => exact absurd trivial hevent
  | type decl => exact hmay.elim
  | field f => exact hmay.elim
  | constructor c => exact hmay.elim
  | destructor d => exact hmay.elim
  | operator o => exact hmay.elim

/-- The name of an explicit method tells the interface that is before it. -/
theorem interfaceName_eq_of_append_eq {start start' plain plain' : String}
    (hdot : '.' ∉ plain.toList) (hdot' : '.' ∉ plain'.toList)
    (h : start ++ "." ++ plain = start' ++ "." ++ plain') : start = start' := by
  have hchars := congrArg String.toList h
  rw [String.toList_append, String.toList_append, String.toList_append, String.toList_append,
    List.append_assoc, List.append_assoc] at hchars
  have hlonger : ∀ {more plain plain' : List Char}, '.' ∉ plain →
      more ++ ('.' :: plain') = '.' :: plain → more = [] := by
    intro more plain plain' hdot heq
    cases more with
    | nil => rfl
    | cons c more =>
      obtain ⟨-, rfl⟩ := List.cons.inj heq
      simp at hdot
  rcases List.append_eq_append_iff.mp hchars with ⟨more, hstart, heq⟩ | ⟨more, hstart, heq⟩
  · obtain rfl := hlonger hdot heq.symm
    exact (String.toList_inj.mp (by simpa using hstart)).symm
  · obtain rfl := hlonger hdot' heq.symm
    exact String.toList_inj.mp (by simpa using hstart)

/-- Methods with one name are behind interfaces with one name. -/
theorem interfaceName_eq_of_name_eq {s' : Surroundings} {m' : Member} {I' : TypeExpr}
    {c c' : Compiled} (hw : m.WellNamed) (hw' : m'.WellNamed) (hevent : ¬ m.IsEvent)
    (hevent' : ¬ m'.IsEvent) (hI : m.interface = some I) (hI' : m'.interface = some I')
    (hc : c ∈ compiledMember s m) (hc' : c' ∈ compiledMember s' m')
    (h : c.method.name = c'.method.name) :
    (memberScope s m).interfaceName I = (memberScope s' m').interfaceName I' := by
  have hplain : ∀ {s : Surroundings} {m I} {c : Compiled}, m.WellNamed → ¬ m.IsEvent →
      m.interface = some I → c ∈ compiledMember s m →
      ∃ plain : String, '.' ∉ plain.toList
        ∧ (memberScope s m).interfaceName I ++ "." ++ plain = c.method.name := by
    intro s m I c hw hevent hI hc
    have hname : c.method.name ∈ compiledNames s m := List.mem_map_of_mem hc
    rw [compiledNames_of_interface hI] at hname
    obtain ⟨plain, hmem, heq⟩ := List.mem_map.mp hname
    exact ⟨plain, dot_not_mem_plain hw (Member.mayImplement_of_interface hI) hevent plain hmem, heq⟩
  obtain ⟨plain, hdot, heq⟩ := hplain hw hevent hI hc
  obtain ⟨plain', hdot', heq'⟩ := hplain hw' hevent' hI' hc'
  exact interfaceName_eq_of_append_eq hdot hdot' (heq.trans (h.trans heq'.symm))

-- ============================================================ the walk

theorem inherited_every (P : Member → Prop) :
    Inherited (TypeDecl.Every P) (Member.Every P) (NamespaceMember.Every P) P where
  members := by
    rintro ⟨_, _, _, _, _, members, _, _, _⟩ h
    rw [TypeDecl.Every] at h
    exact everyMember_iff.mp h
  type _ h := by rwa [Member.Every] at h
  plain := by
    intro m hplain h
    cases m
    case type decl => exact absurd rfl (hplain decl)
    all_goals rwa [Member.Every] at h
  spaceMembers := by
    rintro ⟨_, _, _, members, _⟩ h
    rw [NamespaceMember.Every] at h
    exact everySpaceMember_iff.mp h
  spaceType _ h := by rwa [NamespaceMember.Every] at h

/-- What all members of a file satisfy, those that are worked on do. -/
theorem every_walk {unit : CompilationUnit} {P : Member → Prop} {b : Around}
    (h : EverySpaceMember P unit.members) (hmem : .work b (.member m) ∈ walk unit) : P m :=
  ((inherited_every P).of_walk (everySpaceMember_iff.mp h) _ hmem).2 m rfl

-- ============================================================== a file

/-- How the methods of a member are named before which an interface is
written. -/
structure NamedAfter (s : Surroundings) (m : Member) (written : TypeExpr) : Prop where
  /-- Behind the name, in the scope of the member, of what is kept of it. -/
  names_eq : compiledNames s m = (compiledNames s m.withoutInterface).map
    ((memberScope s m).interfaceName (m.kept written) ++ "." ++ ·)
  /-- That is its name as it is written, but for events with type arguments
  before their names. -/
  asWritten_iff : (memberScope s m).interfaceName (m.kept written)
      = (memberScope s m).interfaceName written
    ↔ (m.IsEvent → written.bare = written)

/-- A member that keeps what it can of the interface before it has its methods
named after what it keeps. -/
theorem namedAfter_of_clean {s : Surroundings} {m : Member} {segments : List NameSegment}
    (hinterface : m.interface = some (m.kept (.named none segments)))
    (htypes : TypesUnbracketed (memberScope s m).types)
    (hclean : TypeExpr.SegmentsClean segments) : NamedAfter s m (.named none segments) := by
  refine ⟨compiledNames_of_interface hinterface, ?_⟩
  by_cases hevent : m.IsEvent
  · rw [Member.kept_of_isEvent hevent, Scope.interfaceName_bare_eq_iff htypes hclean]
    exact ⟨fun hbare _ => hbare, fun hbare => hbare hevent⟩
  · rw [Member.kept_of_not_isEvent hevent]
    exact iff_of_true rfl fun h => absurd h hevent

/-- How the methods of explicit members of a file are named, whose lexemes are
those of a cursor. -/
structure ExplicitNames (top : Cursor) (tree : Tree) : Prop where
  /-- Before a member stands some interface or none, which is what is kept of
  it, and its methods are named after it. -/
  named : ∀ b m, Stop.work b (.member m) ∈ walk tree.root → m.MayImplement →
    ∃ written, Parser.WrittenBefore top m written ∧ m.interface = written.map m.kept
      ∧ ∀ t ∈ written, NamedAfter b.surroundings m t
  /-- Of two constructions of one interface, methods, properties and indexers
  have no keys in common. -/
  apart : ∀ b m b' m' t t', Stop.work b (.member m) ∈ walk tree.root →
    Stop.work b' (.member m') ∈ walk tree.root → ¬ m.IsEvent → ¬ m'.IsEvent →
    m.interface = some t → m'.interface = some t' →
    ((memberScope b.surroundings m).construction t).OfOneType
      ((memberScope b'.surroundings m').construction t') →
    (memberScope b.surroundings m).construction t
      ≠ (memberScope b'.surroundings m').construction t' →
    ∀ c ∈ compiledMember b.surroundings m, ∀ c' ∈ compiledMember b'.surroundings m',
      ∀ declaring, MethodKey.of declaring c.method ≠ MethodKey.of declaring c'.method
  /-- What is compiled of members keeps its name in the module. -/
  emitted : ∀ module options a, (Run.outcome (compile module tree options)).1 = .ok a →
    ∃ added, (∀ name ∈ added, NamesConstructor name)
      ∧ a.methods.map MethodDef.name
        = ((compiledIn tree.root).map fun x => x.2.method.name) ++ added

/-- The names of a module are those of what the members of its file are
compiled to, and those of added constructors. -/
theorem names_of_compile {module : String} {tree : Tree} {options : CompileOptions} {a : Assembly}
    (hcompile : (Run.outcome (compile module tree options)).1 = .ok a) :
    ∃ added, (∀ name ∈ added, NamesConstructor name)
      ∧ a.methods.map MethodDef.name
        = ((compiledIn tree.root).map fun x => x.2.method.name) ++ added := by
  obtain ⟨hclean, rfl⟩ := build_of_compile hcompile
  let setting : Setting := ⟨tree.source, options⟩
  let e := emitSpaceMembers setting (topScope tree.root) tree.root.members (.start module)
  have hemission : emission module tree options = e.complete setting := rfl
  rw [hemission] at hclean ⊢
  have h : Reaches setting module (deedsOf tree.root) e :=
    reaches_emission ((grows_foldl_completeType setting e.types e).clean hclean)
  have hpushed : ∀ {xs : List Placed} {ms : List MethodDef},
      List.Forall₂ IsPushed (xs.map Placed.push) ms →
      ms.map MethodDef.name = xs.map fun x => x.compiled.method.name := by
    intro xs ms hall
    induction xs generalizing ms with
    | nil =>
      cases hall
      rfl
    | cons x rest ih =>
      cases hall with
      | cons hone hrest => rw [List.map_cons, List.map_cons, ih hrest, hone.name_eq]; rfl
  refine ⟨(addedTo e.types).map fun x => x.compiled.method.name, ?_, ?_⟩
  · intro name hname
    obtain ⟨x, hx, rfl⟩ := List.mem_map.mp hname
    exact (namesConstructor_of_mem_addedTo hx).2
  · refine (hpushed (filled_placed h setting).methods).trans ?_
    rw [List.map_append, placedIn, List.map_map]
    rfl

/-- In every file that parses, methods, properties and indexers that implement
an interface explicitly are named after it as it is written, and events after
it without its type arguments. -/
theorem explicitNames_of_parse {source : String} {tree : Tree}
    (hparse : (Run.outcome (Tree.parse source)).1 = .ok tree) :
    ∃ ls, lexemes source = .ok ls ∧ ExplicitNames (Cursor.top source ls) tree := by
  have hw := wellNamed_of_parse hparse
  have hunbracketed := typesUnbracketed_declaredTypes hw
  obtain ⟨ls, hlexemes, hwritten⟩ := writtenBefore_of_parse hparse
  have hclean : ∀ {m t}, Parser.WrittenBefore (Cursor.top source ls) m (some t) →
      ∃ segments, t = .named none segments ∧ TypeExpr.SegmentsClean segments :=
    Parser.clean_of_writtenBefore (worded_of_lexemes hlexemes)
  have htypes : ∀ b m, Stop.work b (.member m) ∈ walk tree.root →
      b.surroundings.scope.types = declaredTypes tree.root ∧ m.WellNamed := by
    intro b m hstop
    obtain ⟨hscope, hnamed⟩ := named_walk hw _ hstop
    exact ⟨hscope, hnamed m rfl⟩
  have hscopes : ∀ b m, Stop.work b (.member m) ∈ walk tree.root →
      TypesUnbracketed (memberScope b.surroundings m).types := by
    intro b m hstop
    rwa [types_memberScope, (htypes b m hstop).1]
  refine ⟨ls, hlexemes, ?_, ?_, fun module options a => names_of_compile⟩
  · intro b m hstop hmay
    obtain ⟨written, hbefore, hinterface⟩ := every_walk hwritten hstop hmay
    refine ⟨written, hbefore, hinterface, fun t ht => ?_⟩
    obtain rfl : written = some t := ht
    obtain ⟨segments, rfl, hsegments⟩ := hclean hbefore
    exact namedAfter_of_clean hinterface (hscopes b m hstop) hsegments
  · intro b m b' m' t t' hstop hstop' hevent hevent' ht ht' hof hne c hc c' hc' declaring hkey
    have hsegments : ∀ b m t, Stop.work b (.member m) ∈ walk tree.root → ¬ m.IsEvent →
        m.interface = some t → ∃ segments, t = .named none segments
          ∧ TypeExpr.SegmentsClean segments := by
      intro b m t hstop hevent ht
      obtain ⟨written, hbefore, hinterface⟩ :=
        every_walk hwritten hstop (Member.mayImplement_of_interface ht)
      rw [Member.kept_of_not_isEvent hevent, Option.map_id_fun, id, ht] at hinterface
      exact hclean (hinterface ▸ hbefore)
    obtain ⟨segments, rfl, hone⟩ := hsegments b m t hstop hevent ht
    obtain ⟨segments', rfl, htwo⟩ := hsegments b' m' t' hstop' hevent' ht'
    have hsame : c.method.name = c'.method.name := congrArg MethodKey.name hkey
    refine Scope.interfaceName_ne ?_ (hscopes b m hstop) hone htwo hof hne
      (interfaceName_eq_of_name_eq (htypes b m hstop).2 (htypes b' m' hstop').2 hevent hevent' ht
        ht' hc hc' hsame)
    rw [types_memberScope, types_memberScope, (htypes b m hstop).1, (htypes b' m' hstop').1]

/-- A file with a method of two constructions of an interface and an event of
one. -/
def explicitSource : String :=
  "interface I<T> \x7b \x7d class C \x7b void I<int>.M() \x7b \x7d void I<string>.M() \x7b \x7d"
    ++ " event H I<int>.E \x7b add \x7b \x7d remove \x7b \x7d \x7d \x7d"

/-- It compiles, with all names apart. -/
theorem explicitNames_of_explicitSource : ∃ tree a ls,
    (Run.outcome (Tree.parse explicitSource)).1 = .ok tree
      ∧ (Run.outcome (compile "Explicit" tree ⟨false⟩)).1 = .ok a
      ∧ a.methods.map MethodDef.name
        = ["I<System.Int32>.M", "I<System.String>.M", "I.add_E", "I.remove_E", ".ctor"]
      ∧ lexemes explicitSource = .ok ls ∧ ExplicitNames (Cursor.top explicitSource ls) tree := by
  have hruns : compilesTo explicitSource "Explicit" (fun _ a => a.methods.map MethodDef.name
      = ["I<System.Int32>.M", "I<System.String>.M", "I.add_E", "I.remove_E", ".ctor"]) = true := by
    decide +kernel
  obtain ⟨tree, a, hparse, hcompile, -, -, hnames⟩ := of_compilesTo hruns
  obtain ⟨ls, hlexemes, hexplicit⟩ := explicitNames_of_parse hparse
  exact ⟨tree, a, ls, hparse, hcompile, of_decide_eq_true hnames, hlexemes, hexplicit⟩

/-- Whether the interface that is written behind so many lexemes of a text
passes a test. -/
def writesInterface (source : String) (n : Nat) (check : TypeExpr → Bool) : Bool :=
  match lexemes source with
  | .ok ls =>
    match Parser.writtenInterface ((Cursor.top source ls).skip n) with
    | .ok (some t, _) => check t
    | _ => false
  | .error _ => false

theorem of_writesInterface {source : String} {n : Nat} {check : TypeExpr → Bool}
    (h : writesInterface source n check = true) :
    ∃ ls t d, lexemes source = .ok ls
      ∧ Parser.writtenInterface ((Cursor.top source ls).skip n) = .ok (some t, d)
      ∧ check t = true := by
  unfold writesInterface at h
  split at h
  · next ls hls =>
    split at h
    · next t d hwritten => exact ⟨ls, t, d, hls, hwritten, h⟩
    · cases h
  · cases h

/-- Whether a text is a file of which the compiler complains with codes. -/
def failsWith (source module : String) (codes : List String) : Bool :=
  match (Run.outcome (Tree.parse source)).1 with
  | .ok tree =>
    match (Run.outcome (compile module tree ⟨false⟩)).1 with
    | .error (.compilation ds) => ds.map Diagnostic.code = codes
    | _ => false
  | .error _ => false

theorem of_failsWith {source module : String} {codes : List String}
    (h : failsWith source module codes = true) :
    ∃ tree ds, (Run.outcome (Tree.parse source)).1 = .ok tree
      ∧ (Run.outcome (compile module tree ⟨false⟩)).1 = .error (.compilation ds)
      ∧ ds.map Diagnostic.code = codes := by
  unfold failsWith at h
  split at h
  · next tree hparse =>
    split at h
    · next ds hcompile => exact ⟨tree, ds, hparse, hcompile, of_decide_eq_true h⟩
    · cases h
  · cases h

/-- A file with an event of a constructed interface. -/
def eventSource : String :=
  "interface I<T> \x7b \x7d class C \x7b"
    ++ " event H I<int>.E \x7b add \x7b \x7d remove \x7b \x7d \x7d \x7d"

/-- A file with an event of each of two constructions of an interface. -/
def eventsSource : String :=
  "interface I<T> \x7b \x7d class C \x7b"
    ++ " event H I<int>.E \x7b add \x7b \x7d remove \x7b \x7d \x7d"
    ++ " event H I<string>.E \x7b add \x7b \x7d remove \x7b \x7d \x7d \x7d"

/-- Before an event stands an interface that is called `I<System.Int32>` in
its scope, but the event's methods are named after `I`; and the events of two
constructions are complained of as one declared twice. -/
theorem constructed_events_repeated :
    (∃ tree a ls t d, (Run.outcome (Tree.parse eventSource)).1 = .ok tree
      ∧ (Run.outcome (compile "Events" tree ⟨false⟩)).1 = .ok a
      ∧ lexemes eventSource = .ok ls
      ∧ Parser.writtenInterface ((Cursor.top eventSource ls).skip 10) = .ok (some t, d)
      ∧ (∀ b m, Stop.work b (.member m) ∈ walk tree.root →
        (memberScope b.surroundings m).interfaceName t = "I<System.Int32>")
      ∧ a.methods.map MethodDef.name = ["I.add_E", "I.remove_E", ".ctor"])
    ∧ ∃ tree ds, (Run.outcome (Tree.parse eventsSource)).1 = .ok tree
      ∧ (Run.outcome (compile "Events" tree ⟨false⟩)).1 = .error (.compilation ds)
      ∧ ds.map Diagnostic.code = ["CS0111", "CS0111"] := by
  refine ⟨?_, of_failsWith (by decide +kernel)⟩
  have hruns : compilesTo eventSource "Events" (fun tree a =>
      decide (a.methods.map MethodDef.name = ["I.add_E", "I.remove_E", ".ctor"])
        && writesInterface eventSource 10 fun t => (walk tree.root).all fun
          | .work b (.member m) =>
            decide ((memberScope b.surroundings m).interfaceName t = "I<System.Int32>")
          | _ => true) = true := by
    decide +kernel
  obtain ⟨tree, a, hparse, hcompile, -, -, hcheck⟩ := of_compilesTo hruns
  rw [Bool.and_eq_true, decide_eq_true_eq] at hcheck
  obtain ⟨ls, t, d, hlexemes, hwritten, hscopes⟩ := of_writesInterface hcheck.2
  refine ⟨tree, a, ls, t, d, hparse, hcompile, hlexemes, hwritten, fun b m hstop => ?_, hcheck.1⟩
  exact of_decide_eq_true (List.all_eq_true.mp hscopes _ hstop)

end ClrListing.Lowering
