/-
Which methods of a member have bodies, and where these come from.

`compiledMember` reads it off the member: a body is written, or filled in
for the accessors of an automatic property, or for those of an event that
is declared like a field. That is what the member's effects declare, if
there is no complaint about them (`bodiesBy_memberEffects`). What can be
said of each compiled method follows from the forms that there are for it
(`HasForm`).

Constructors are marked when they are declared, and nothing else has their
names (`Announces`): accessors and operators have an underscore in their
names, and methods are called by names, which have no dot.
-/
import ClrListing.Proofs.Lowering.Walk

namespace ClrListing.Lowering

open Assembly Metadata Source Syntax

-- ============================================================= origins

/-- Where the body of a method comes from. -/
inductive BodyOrigin where
  /-- It is written in the source. -/
  | written
  /-- It is filled in for an accessor of an automatic property. -/
  | automatic
  /-- It is filled in for an event that is declared like a field. -/
  | fieldLike
  /-- The compiler adds the method. -/
  | added
  deriving DecidableEq, Repr

/-- A compiled method, and where its body comes from if it has one. -/
structure Compiled where
  method : MethodDef
  origin : Option BodyOrigin

/-- A body that is written, if there is one. -/
def writtenBody (body : Option Body) : Option BodyOrigin := body.map fun _ => .written

/-- The accessors of an owner, those without bodies filled in or not. -/
def compiledAccessors (s : Surroundings) (o : AccessorOwner) (fillsIn : Bool)
    (accessors : List Accessor) (expressionBody : Option Body) : List Compiled :=
  if expressionBody.isSome then [⟨o.method s .get [] true false, some .written⟩]
  else accessors.map fun a =>
    ⟨o.method s a.kind a.modifiers (a.body.isSome || fillsIn) fillsIn,
      if a.body.isSome then some .written else if fillsIn then some .automatic else none⟩

/-- Whether the accessors of a property are filled in: none is written, and
they may not stay without bodies as in an interface. -/
def fillsInProperty (s : Surroundings) (p : Property) : Bool :=
  (p.accessors.all fun a => a.body.isNone) && !s.isInterface && !p.modifiers.has .isAbstract
    && !p.modifiers.has .isExternal

/-- Whether an event without accessors gets bodies. -/
def fillsInEvent (s : Surroundings) (ev : Event) : Bool :=
  !s.isInterface && !ev.modifiers.has .isAbstract

/-- The methods of one of the events of a declaration. -/
def compiledEvent (s : Surroundings) (ev : Event) (name : String) : List Compiled :=
  let owner := eventOwner s ev name
  if ev.accessors.isEmpty then
    [AccessorKind.add, .remove].map fun kind =>
      ⟨owner.method s kind [] (fillsInEvent s ev) (fillsInEvent s ev),
        if fillsInEvent s ev then some .fieldLike else none⟩
  else compiledAccessors s owner false ev.accessors none

/-- The methods that a member of a type is compiled to if nothing is wrong
with it. -/
def compiledMember (s : Surroundings) : Member → List Compiled
  | .type _ | .field _ => []
  | .constructor c => [⟨constructorMethod s c, writtenBody c.body⟩]
  | .destructor d => [⟨finalizer, writtenBody d.body⟩]
  | .method m =>
    if m.body.isNone && m.modifiers.has .isPartial then []
    else [⟨methodOf s m, writtenBody m.body⟩]
  | .property p =>
    compiledAccessors s (propertyOwner s p) (fillsInProperty s p) p.accessors p.expressionBody
  | .indexer i => compiledAccessors s (indexerOwner s i) false i.accessors i.expressionBody
  | .event ev => ev.names.flatMap (compiledEvent s ev)
  | .operator o =>
    match operatorMethodName o with
    | .ok name => [⟨operatorMethod s o name, writtenBody o.body⟩]
    | .error _ => []

/-- The methods that work is compiled to; those of a delegate have no
bodies. -/
def Work.compiled (s : Surroundings) : Work → List Compiled
  | .member m => compiledMember s m
  | .delegate (some d) _ => (delegateMethods s d).map fun m => ⟨m, none⟩
  | .delegate none _ => []

-- ============================================================= effects

/-- The methods that effects declare, each with whether it has a body. -/
def bodiesBy (effects : List Effect) : List (MethodDef × Bool) :=
  effects.filterMap fun
    | .declare m hasBody _ => some (m, hasBody)
    | _ => none

/-- What effects declare of a compiled method. -/
def Compiled.declared (c : Compiled) : MethodDef × Bool := (c.method, c.origin.isSome)

variable {s : Surroundings} {xs ys : List Effect}

theorem bodiesBy_append : bodiesBy (xs ++ ys) = bodiesBy xs ++ bodiesBy ys :=
  List.filterMap_append

theorem bodiesBy_flatMap {f : α → List Effect} {g : α → List Compiled} {items : List α}
    (h : ∀ x, bodiesBy (f x) = (g x).map Compiled.declared) :
    bodiesBy (items.flatMap f) = (items.flatMap g).map Compiled.declared := by
  induction items with
  | nil => rfl
  | cons x rest ih =>
    rw [List.flatMap_cons, List.flatMap_cons, bodiesBy_append, List.map_append, h, ih]

theorem bodiesBy_requireBody (body : Option Body) (allowed : Bool) (member : String)
    (span : Span) : bodiesBy (requireBody body allowed member span) = [] := by
  unfold requireBody
  split <;> rfl

/-- A method that is declared as it is written. -/
theorem bodiesBy_written {body : Option Body} {allowed : Bool} {member : String}
    {span at_ : Span} {m : MethodDef} :
    bodiesBy (requireBody body allowed member span ++ [.declare m body.isSome at_])
      = [Compiled.declared ⟨m, writtenBody body⟩] := by
  rw [bodiesBy_append, bodiesBy_requireBody]
  cases body <;> rfl

theorem bodiesBy_ownerEffects (o : AccessorOwner) {fillsIn : Bool} {accessors : List Accessor}
    (hfills : o.isAutomatic s accessors = fillsIn) (expressionBody : Option Body) (span : Span) :
    bodiesBy (o.effects s accessors expressionBody.isSome span)
      = (compiledAccessors s o fillsIn accessors expressionBody).map Compiled.declared := by
  unfold AccessorOwner.effects compiledAccessors
  by_cases hexpression : expressionBody.isSome = true
  · rw [if_pos hexpression, if_pos hexpression]
    rfl
  · rw [if_neg hexpression, if_neg hexpression, hfills]
    clear hfills
    induction accessors with
    | nil => rfl
    | cons a rest ih =>
      rw [List.flatMap_cons, List.map_cons, List.map_cons, bodiesBy_append, ih]
      unfold AccessorOwner.accessorEffects
      rw [bodiesBy_append, bodiesBy_requireBody]
      cases a.body <;> cases fillsIn <;> rfl

theorem isAutomatic_propertyOwner (s : Surroundings) (p : Property) :
    (propertyOwner s p).isAutomatic s p.accessors = fillsInProperty s p := by
  have hany : p.modifiers.hasAny [.isAbstract, .isExternal]
      = (p.modifiers.has .isAbstract || p.modifiers.has .isExternal) := by
    unfold Modifiers.hasAny
    simp [Modifiers.has]
  unfold AccessorOwner.isAutomatic AccessorOwner.bodiesOptional propertyOwner fillsInProperty
  simp only [hany]
  generalize (p.accessors.all fun a => a.body.isNone) = unwritten
  cases s.isInterface <;> cases p.modifiers.has .isAbstract <;>
    cases p.modifiers.has .isExternal <;> cases unwritten <;> rfl

/-- The effects of a member that there is no complaint about declare what
it is compiled to. -/
theorem bodiesBy_memberEffects {m : Member} (h : Uncontested (memberEffects s m)) :
    bodiesBy (memberEffects s m) = (compiledMember s m).map Compiled.declared := by
  cases m with
  | type decl => rfl
  | field f =>
    simp only [memberEffects, fieldEffects]
    split <;> rfl
  | constructor c =>
    simp only [memberEffects, constructorEffects] at h ⊢
    by_cases hname : c.name = s.simpleName
    · rw [if_neg (not_not_intro hname), bodiesBy_append, bodiesBy_requireBody]
      simp only [compiledMember, writtenBody]
      cases c.body <;> rfl
    · rw [if_pos hname] at h
      exact absurd List.mem_cons_self (h _ _)
  | destructor d => exact bodiesBy_written
  | method m =>
    simp only [memberEffects, methodEffects, compiledMember]
    split
    · rfl
    · exact bodiesBy_written
  | property p =>
    simp only [memberEffects, propertyEffects]
    rw [bodiesBy_append, bodiesBy_ownerEffects _ (isAutomatic_propertyOwner s p)]
    split <;> rfl
  | indexer i => exact bodiesBy_ownerEffects _ rfl _ _
  | event ev =>
    refine bodiesBy_flatMap fun name => ?_
    unfold oneEventEffects compiledEvent
    simp only []
    split
    · cases hfills : fillsInEvent s ev with
      | true =>
        have hgenerated : (!s.isInterface && !ev.modifiers.has .isAbstract) = true := hfills
        rw [hgenerated]
        rfl
      | false =>
        have hgenerated : (!s.isInterface && !ev.modifiers.has .isAbstract) = false := hfills
        rw [hgenerated]
        rfl
    · exact bodiesBy_ownerEffects (eventOwner s ev name) rfl none ev.span
  | operator o =>
    simp only [memberEffects, operatorEffects, compiledMember]
    cases operatorMethodName o with
    | ok name => exact bodiesBy_written
    | error d => rfl

/-- So do the effects of all work. -/
theorem bodiesBy_effects {w : Work} (h : Uncontested (w.effects s)) :
    bodiesBy (w.effects s) = (w.compiled s).map Compiled.declared := by
  cases w with
  | member m => exact bodiesBy_memberEffects h
  | delegate signature span =>
    cases signature with
    | none => rfl
    | some d => rfl

/-- Complaints about work are errors. -/
theorem onlyErrors_effects (w : Work) : OnlyErrors (w.effects s) := by
  cases w with
  | member m => exact onlyErrors_memberEffects s m
  | delegate signature span =>
    refine .of_uncontested fun d at_ h => ?_
    cases signature with
    | none => cases h
    | some d =>
      rcases List.mem_cons.mp h with h | h
      · cases h
      · obtain ⟨m, -, heq⟩ := List.mem_map.mp h
        cases heq

-- =============================================================== forms

/-- The forms that the methods of a member have. -/
inductive HasForm (s : Surroundings) : Member → MethodDef → Prop
  | constructor (c : Constructor) : HasForm s (.constructor c) (constructorMethod s c)
  | finalizer (d : Destructor) : HasForm s (.destructor d) finalizer
  | method (m : Method) : HasForm s (.method m) (methodOf s m)
  | accessor (m : Member) (o : AccessorOwner) (kind : AccessorKind) (own : Modifiers)
      (hasBody generated : Bool) : HasForm s m (o.method s kind own hasBody generated)
  | operator {o : Operator} {name : String} (hname : operatorMethodName o = .ok name) :
      HasForm s (.operator o) (operatorMethod s o name)

theorem hasForm_of_mem_compiledAccessors {m : Member} {o : AccessorOwner} {fillsIn : Bool}
    {accessors : List Accessor} {expressionBody : Option Body} {c : Compiled}
    (hc : c ∈ compiledAccessors s o fillsIn accessors expressionBody) :
    HasForm s m c.method := by
  unfold compiledAccessors at hc
  split at hc
  · rw [List.mem_singleton] at hc
    subst hc
    exact .accessor ..
  · obtain ⟨a, -, rfl⟩ := List.mem_map.mp hc
    exact .accessor ..

/-- Whatever a member is compiled to has one of the forms. -/
theorem hasForm_of_mem {m : Member} {c : Compiled} (hc : c ∈ compiledMember s m) :
    HasForm s m c.method := by
  cases m with
  | type decl => cases hc
  | field f => cases hc
  | constructor k =>
    obtain rfl := List.mem_singleton.mp hc
    exact .constructor k
  | destructor d =>
    obtain rfl := List.mem_singleton.mp hc
    exact .finalizer d
  | method m =>
    simp only [compiledMember] at hc
    split at hc
    · cases hc
    · obtain rfl := List.mem_singleton.mp hc
      exact .method m
  | property p => exact hasForm_of_mem_compiledAccessors hc
  | indexer i => exact hasForm_of_mem_compiledAccessors hc
  | event ev =>
    obtain ⟨name, -, hin⟩ := List.mem_flatMap.mp hc
    unfold compiledEvent at hin
    simp only [] at hin
    split at hin
    · obtain ⟨kind, -, rfl⟩ := List.mem_map.mp hin
      exact .accessor ..
    · exact hasForm_of_mem_compiledAccessors hin
  | operator o =>
    simp only [compiledMember] at hc
    split at hc
    · next name hname =>
      obtain rfl := List.mem_singleton.mp hc
      exact .operator hname
    · cases hc

theorem HasForm.bodyAddress {m : Member} {d : MethodDef} (h : HasForm s m d) :
    d.bodyAddress = 0 := by
  cases h with
  | constructor c =>
    unfold constructorMethod
    simp only []
    split <;> rfl
  | finalizer d => rfl
  | method m => rfl
  | accessor o kind own hasBody generated => rfl
  | operator hname => rfl

/-- No compiled method has an address before it is added to a module. -/
theorem bodyAddress_compiled (w : Work) : ∀ c ∈ w.compiled s, c.method.bodyAddress = 0 := by
  intro c hc
  cases w with
  | member m => exact (hasForm_of_mem hc).bodyAddress
  | delegate signature span =>
    cases signature with
    | none => cases hc
    | some d =>
      obtain ⟨m, hm, rfl⟩ := List.mem_map.mp hc
      simp only [delegateMethods, List.map_cons, List.map_nil, List.mem_cons, List.not_mem_nil,
        or_false] at hm
      rcases hm with rfl | rfl | rfl | rfl <;> rfl

-- ======================================================== constructors

/-- The name of the constructors that a mark is set for. -/
def Mark.constructorName : Mark → Option String
  | .instanceConstructor => some ".ctor"
  | .typeConstructor => some ".cctor"
  | .staticInitializer => none

/-- Whether a method is named like a constructor. -/
def NamesConstructor (name : String) : Prop := name = ".ctor" ∨ name = ".cctor"

/-- Whether constructors are marked if and only if they are declared. -/
def Announces (effects : List Effect) : Prop :=
  ∀ mark name, mark.constructorName = some name →
    (Effect.mark mark ∈ effects ↔ ∃ x ∈ bodiesBy effects, x.1.name = name)

theorem namesConstructor_of_constructorName {mark : Mark} {name : String}
    (h : mark.constructorName = some name) : NamesConstructor name := by
  cases mark <;> cases h
  · exact .inl rfl
  · exact .inr rfl

theorem not_namesConstructor_of_underscore {name : String} (h : '_' ∈ name.toList) :
    ¬ NamesConstructor name := by
  rintro (rfl | rfl)
  · exact absurd h (by decide)
  · exact absurd h (by decide)

theorem not_namesConstructor_of_no_dot {name : String} (h : '.' ∉ name.toList) :
    ¬ NamesConstructor name := by
  rintro (rfl | rfl)
  · exact h (by decide)
  · exact h (by decide)

/-- A member that neither marks nor declares a constructor. -/
theorem announces_of_plain (hmarks : ∀ mark, Effect.mark mark ∈ xs → mark = .staticInitializer)
    (hnames : ∀ x ∈ bodiesBy xs, ¬ NamesConstructor x.1.name) : Announces xs := by
  intro mark name hname
  refine iff_of_false (fun hmark => ?_) ?_
  · rw [hmarks mark hmark] at hname
    cases hname
  · rintro ⟨x, hx, rfl⟩
    exact hnames x hx (namesConstructor_of_constructorName hname)

theorem underscore_mem_accessor (o : AccessorOwner) (kind : AccessorKind) (own : Modifiers)
    (hasBody generated : Bool) :
    '_' ∈ (o.method s kind own hasBody generated).name.toList := by
  show '_' ∈ (o.interface ++ kind.methodStart ++ o.name).toList
  rw [String.toList_append, String.toList_append, List.mem_append, List.mem_append]
  refine .inl (.inr ?_)
  cases kind <;> decide

theorem not_mark_mem_requireBody {body : Option Body} {allowed : Bool} {member : String}
    {span : Span} {mark : Mark} : Effect.mark mark ∉ requireBody body allowed member span := by
  unfold requireBody
  split <;> simp

/-- A method that is declared as it is written leaves no mark. -/
theorem not_mark_mem_written {body : Option Body} {allowed : Bool} {member : String}
    {span at_ : Span} {m : MethodDef} {hasBody : Bool} {mark : Mark} :
    Effect.mark mark
      ∉ requireBody body allowed member span ++ [.declare m hasBody at_] := by
  intro h
  rcases List.mem_append.mp h with h | h
  · exact not_mark_mem_requireBody h
  · rw [List.mem_singleton] at h
    cases h

theorem not_mark_mem_ownerEffects {o : AccessorOwner} {accessors : List Accessor}
    {hasExpressionBody : Bool} {span : Span} {mark : Mark} :
    Effect.mark mark ∉ o.effects s accessors hasExpressionBody span := by
  unfold AccessorOwner.effects
  split
  · simp
  · intro h
    obtain ⟨a, -, hin⟩ := List.mem_flatMap.mp h
    exact not_mark_mem_written hin

theorem underscore_mem_operatorName? {spelling : String} {operands : Nat} {name : String}
    (h : operatorName? spelling operands = some name) : '_' ∈ name.toList := by
  unfold operatorName? at h
  simp only [] at h
  obtain ⟨entry, hfind, rfl⟩ := Option.map_eq_some_iff.mp h
  have hmem := List.mem_of_find?_eq_some hfind
  clear hfind h
  revert entry
  split
  · decide
  · split
    · decide
    · exact fun _ hmem => (List.not_mem_nil hmem).elim

/-- Operators have an underscore in their names. -/
theorem underscore_mem_operator {o : Operator} {name : String}
    (h : operatorMethodName o = .ok name) : '_' ∈ name.toList := by
  unfold operatorMethodName at h
  split at h
  · cases h
    decide
  · cases h
    decide
  · split at h
    · next hname =>
      cases h
      exact underscore_mem_operatorName? hname
    · split at h <;> cases h

/-- A method that is called by a name is no constructor. -/
theorem not_namesConstructor_method (hnamed : TypesNamed s.scope.types) {m : Method}
    (hname : IsName m.name) (hinterface : NamesInterface m.explicitInterface) :
    ¬ NamesConstructor (methodOf s m).name := by
  intro h
  have hinside : TypesNamed (s.scope.inMethod m.typeParams).types := hnamed
  have hplain : MethodDef.plainName (methodOf s m).name = m.name := by
    unfold methodOf
    exact plainName_interfaceStart hinside hinterface hname.no_dot
  have hself : MethodDef.plainName (methodOf s m).name = (methodOf s m).name := by
    rcases h with h | h <;> rw [h] <;> decide
  rw [← hself, hplain] at h
  exact not_namesConstructor_of_no_dot hname.no_dot h

/-- A constructor is marked as what it is named. -/
theorem announces_constructor {c : Constructor} (h : Uncontested (constructorEffects s c)) :
    Announces (constructorEffects s c) := by
  unfold constructorEffects at h ⊢
  by_cases hname : c.name = s.simpleName
  · rw [if_neg (not_not_intro hname)]
    intro mark name hconstructor
    rw [bodiesBy_append, bodiesBy_requireBody, List.mem_append,
      or_iff_right not_mark_mem_requireBody]
    have hdeclared : ∀ m : Mark, bodiesBy [.mark m,
        .declare (constructorMethod s c) c.body.isSome c.span]
          = [(constructorMethod s c, c.body.isSome)] := fun _ => rfl
    rw [hdeclared, List.nil_append]
    simp only [List.mem_cons, List.not_mem_nil, or_false, exists_eq_left, reduceCtorEq,
      Effect.mark.injEq]
    unfold constructorMethod
    cases c.modifiers.has .isStatic <;> cases mark <;> cases hconstructor <;>
      simp [runtimeNamed, MethodDef.ofSignature]
  · rw [if_pos hname] at h
    exact absurd List.mem_cons_self (h _ _)

/-- Of the methods of members, only constructors are named like them. -/
theorem HasForm.not_namesConstructor (hnamed : TypesNamed s.scope.types) {m : Member}
    {d : MethodDef} (h : HasForm s m d) (hw : m.WellNamed)
    (hother : ∀ c, m ≠ .constructor c) : ¬ NamesConstructor d.name := by
  cases h with
  | constructor c => exact absurd rfl (hother c)
  | finalizer d => exact not_namesConstructor_of_no_dot (show '.' ∉ "Finalize".toList by decide)
  | method m =>
    rw [Member.WellNamed] at hw
    exact not_namesConstructor_method hnamed hw.1 hw.2
  | accessor o kind own hasBody generated =>
    exact not_namesConstructor_of_underscore (underscore_mem_accessor ..)
  | operator hname =>
    exact not_namesConstructor_of_underscore (underscore_mem_operator hname)

/-- The only marks of other members are those of static initializers. -/
theorem mark_of_mem_memberEffects {m : Member} (hother : ∀ c, m ≠ .constructor c) {mark : Mark}
    (hmark : Effect.mark mark ∈ memberEffects s m) : mark = .staticInitializer := by
  cases m with
  | type decl => cases hmark
  | field f =>
    simp only [memberEffects, fieldEffects] at hmark
    split at hmark
    · exact Effect.mark.inj (List.mem_singleton.mp hmark)
    · cases hmark
  | constructor c => exact absurd rfl (hother c)
  | destructor d => exact absurd hmark not_mark_mem_written
  | method m =>
    simp only [memberEffects, methodEffects] at hmark
    split at hmark
    · cases hmark
    · exact absurd hmark not_mark_mem_written
  | property p =>
    rcases List.mem_append.mp hmark with hmark | hmark
    · split at hmark
      · exact Effect.mark.inj (List.mem_singleton.mp hmark)
      · cases hmark
    · exact absurd hmark not_mark_mem_ownerEffects
  | indexer i => exact absurd hmark not_mark_mem_ownerEffects
  | event ev =>
    obtain ⟨name, -, hin⟩ := List.mem_flatMap.mp hmark
    unfold oneEventEffects at hin
    simp only [] at hin
    split at hin
    · obtain ⟨kind, -, heq⟩ := List.mem_map.mp hin
      cases heq
    · exact absurd hin not_mark_mem_ownerEffects
  | operator o =>
    simp only [memberEffects, operatorEffects] at hmark
    split at hmark
    · cases List.mem_singleton.mp hmark
    · exact absurd hmark not_mark_mem_written

/-- A member of a file whose types are named announces its constructors. -/
theorem announces_memberEffects (hnamed : TypesNamed s.scope.types) {m : Member}
    (hw : m.WellNamed) (h : Uncontested (memberEffects s m)) :
    Announces (memberEffects s m) := by
  by_cases hconstructor : ∃ c, m = .constructor c
  · obtain ⟨c, rfl⟩ := hconstructor
    exact announces_constructor h
  · have hother : ∀ c, m ≠ .constructor c := fun c heq => hconstructor ⟨c, heq⟩
    refine announces_of_plain (fun mark => mark_of_mem_memberEffects hother) fun x hx => ?_
    rw [bodiesBy_memberEffects h] at hx
    obtain ⟨c, hc, rfl⟩ := List.mem_map.mp hx
    exact (hasForm_of_mem hc).not_namesConstructor hnamed hw hother

/-- So does a delegate. -/
theorem announces_delegateEffects (s : Surroundings) (signature : Option DelegateSignature)
    (span : Span) : Announces (delegateEffects s signature span) := by
  intro mark name hname
  cases signature with
  | none => exact iff_of_false List.not_mem_nil fun ⟨_, hx, _⟩ => List.not_mem_nil hx
  | some d =>
    cases mark with
    | staticInitializer => cases hname
    | instanceConstructor =>
      cases hname
      exact iff_of_true List.mem_cons_self ⟨_, List.mem_cons_self, rfl⟩
    | typeConstructor =>
      cases hname
      refine iff_of_false ?_ ?_
      · simp [delegateEffects]
      · simp [delegateEffects, bodiesBy, delegateMethods, runtimeMethod, MethodDef.ofSignature]

/-- All work in a file whose types are named announces its
constructors. -/
theorem announces_effects {types : List DeclaredType} (htypes : TypesNamed types) {b : Around}
    {w : Work} (hw : (Stop.work b w).Named types)
    (h : Uncontested (w.effects b.surroundings)) : Announces (w.effects b.surroundings) := by
  cases w with
  | member m => exact announces_memberEffects (hw.1 ▸ htypes) (hw.2 m rfl) h
  | delegate signature span => exact announces_delegateEffects _ signature span

end ClrListing.Lowering
