/-
How a compilation gets where it is.

Between two states of an emission lies either the declaration of a type
that is opened or one effect of a member. `Reaches` collects these deeds in
order, and `reaches_emission` says that a file without errors is emitted by
the deeds of the walk through it. What holds of the emitted tables can then
be shown deed by deed, for entering a type and for one effect, and not by
one more recursion on declarations.

A type is known by the place of its record. `recordAt?` finds it from a
path, the records of the types around it first; that works however many
types there are, also if their tokens no longer tell them apart.
-/
import ClrListing.Proofs.Lowering.Records
import ClrListing.Proofs.Lowering.Walk

namespace ClrListing.Lowering

open Assembly Metadata Source Syntax

-- ============================================================= records

/-- The place of the record of the type at a path. -/
def recordAt? (e : Emission) : TypePath → Option Nat
  | .top space name => e.findRecord? ⟨none, space, name⟩
  | .inner outer name =>
    ((recordAt? e outer).bind fun i => e.types[i]?).bind fun r =>
      e.findRecord? ⟨some r.token, "", name⟩

/-- The record of the type at a path stands at a place and has a token. -/
structure HousedAt (e : Emission) (path : TypePath) (record : Nat) (token : Token) : Prop where
  found : recordAt? e path = some record
  holds : ∃ r, e.types[record]? = some r ∧ r.token = token

variable {e e' : Emission} {path : TypePath} {record : Nat} {token : Token}

/-- A type that is found stays where it is. -/
theorem Keeps.recordAt? (h : Keeps e e') (hfound : recordAt? e path = some record) :
    recordAt? e' path = some record := by
  induction path generalizing record with
  | top space name => exact h.findRecord? hfound
  | inner outer name ih =>
    rw [Lowering.recordAt?] at hfound ⊢
    obtain ⟨r, hr, hinner⟩ := Option.bind_eq_some_iff.mp hfound
    obtain ⟨i, hi, hri⟩ := Option.bind_eq_some_iff.mp hr
    obtain ⟨r', hr', hkept⟩ := h i r hri
    rw [ih hi, Option.bind_some, hr', Option.bind_some, hkept.token]
    exact h.findRecord? hinner

theorem HousedAt.keeps (hat : HousedAt e path record token) (h : Keeps e e') :
    HousedAt e' path record token where
  found := h.recordAt? hat.found
  holds := by
    obtain ⟨r, hr, htoken⟩ := hat.holds
    obtain ⟨r', hr', hkept⟩ := h record r hr
    exact ⟨r', hr', hkept.token.trans htoken⟩

/-- What is declared in a type knows of it what the walk does. -/
structure Housed (e : Emission) (o : Enclosing) (b : Around) : Prop where
  surroundings : o.surroundings = b.surroundings
  record : HousedAt e b.path o.record o.token

/-- Both are in a type, the same, or neither is. -/
def HousedAround (e : Emission) : Option Enclosing → Option Around → Prop
  | none, none => True
  | some o, some b => Housed e o b
  | _, _ => False

theorem Housed.keeps {o : Enclosing} {b : Around} (hin : Housed e o b) (h : Keeps e e') :
    Housed e' o b :=
  ⟨hin.surroundings, hin.record.keeps h⟩

section Opening

variable {setting : Setting} {scope : Scope} {outer : Option Enclosing} {around : Option Around}
variable {decl : TypeDecl} {inside : Enclosing}

theorem HousedAround.displayOf_eq (h : HousedAround e outer around) (name : String) :
    displayOf scope outer name = displayIn scope around name := by
  cases outer <;> cases around
  case none.none => rfl
  case none.some => exact h.elim
  case some.none => exact h.elim
  case some.some o b =>
    unfold displayOf displayIn
    simp only []
    rw [h.surroundings]

/-- The key of a declaration is found where its path leads. -/
theorem HousedAround.recordAt?_ofDecl (h : HousedAround e outer around)
    (hfound : e.findRecord? (keyOf scope outer decl.name decl.arity) = some record) :
    recordAt? e (.ofDecl scope.space (around.map Around.path) decl) = some record := by
  cases outer <;> cases around
  case none.none => exact hfound
  case none.some => exact h.elim
  case some.none => exact h.elim
  case some.some o b =>
    obtain ⟨r, hr, htoken⟩ := h.record.holds
    show recordAt? e (.inner b.path _) = _
    rw [recordAt?, h.record.found, Option.bind_some, hr, Option.bind_some, htoken]
    exact hfound

/-- A type that is opened is housed at its path. -/
theorem housed_openType (h : HousedAround e outer around)
    (hopen : (openType setting scope outer decl e).2 = some inside) :
    Housed (openType setting scope outer decl e).1 inside (aroundOf scope around e.place decl) := by
  have hhosts := hosts_openType hopen
  have hlater : HousedAround (openType setting scope outer decl e).1 outer around := by
    cases outer <;> cases around
    case none.none => trivial
    case none.some => exact h.elim
    case some.none => exact h.elim
    case some.some o b => exact Housed.keeps h (keeps_openType setting scope (some o) decl e)
  constructor
  · rw [surroundings_openType hopen, h.displayOf_eq]
    rfl
  · obtain ⟨r, hr, htoken, -⟩ := hhosts.agrees
    exact ⟨hlater.recordAt?_ofDecl hhosts.found, r, hr, htoken⟩

end Opening

-- =============================================================== deeds

/-- One thing that is done in a compilation. -/
inductive Deed where
  /-- The declaration of the type at a path is opened. -/
  | enter (path : TypePath) (decl : TypeDecl)
  /-- An effect is brought about in the type at a path. -/
  | effect (path : TypePath) (effect : Effect)

/-- The path of the type that a deed is about. -/
def Deed.site : Deed → TypePath
  | .enter path _ => path
  | .effect path _ => path

/-- What is done at a stop. -/
def Stop.deeds : Stop → List Deed
  | .type path decl => [.enter path decl]
  | .work b w => (w.effects b.surroundings).map (.effect b.path)

/-- The type declarations that are entered. -/
def entries (deeds : List Deed) : List (TypePath × TypeDecl) :=
  deeds.filterMap fun
    | .enter path decl => some (path, decl)
    | .effect _ _ => none

theorem entries_append {deeds more : List Deed} :
    entries (deeds ++ more) = entries deeds ++ entries more :=
  List.filterMap_append

theorem mem_entries_iff {deeds : List Deed} {decl : TypeDecl} :
    (path, decl) ∈ entries deeds ↔ Deed.enter path decl ∈ deeds := by
  unfold entries
  rw [List.mem_filterMap]
  constructor
  · rintro ⟨deed, hmem, heq⟩
    cases deed with
    | enter p d =>
      cases heq
      exact hmem
    | effect p effect => cases heq
  · intro hmem
    exact ⟨_, hmem, rfl⟩

/-- What is entered on a walk are its openings. -/
theorem entries_deeds (stops : List Stop) : entries (stops.flatMap Stop.deeds) = openings stops := by
  induction stops with
  | nil => rfl
  | cons stop rest ih =>
    rw [List.flatMap_cons, entries_append, ih]
    cases stop with
    | type path decl => rfl
    | work b w =>
      have hnone : entries ((w.effects b.surroundings).map (.effect b.path)) = [] := by
        unfold entries
        rw [List.filterMap_map]
        exact List.filterMap_eq_nil_iff.mpr fun _ _ => rfl
      rw [Stop.deeds, hnone]
      rfl

/-- The states that a compilation without errors gets to, each with what
was done on the way. -/
inductive Reaches (setting : Setting) (module : String) : List Deed → Emission → Prop
  | start : Reaches setting module [] (.start module)
  /-- A type is opened, in the type around it if there is one. -/
  | enter {deeds : List Deed} {e : Emission} {scope : Scope} {outer : Option Enclosing}
      {around : Option Around} {decl : TypeDecl} {inside : Enclosing} :
      Reaches setting module deeds e → HousedAround e outer around →
      (openType setting scope outer decl e).2 = some inside →
      Reaches setting module
        (deeds ++ [.enter (.ofDecl scope.space (around.map Around.path) decl) decl])
        (openType setting scope outer decl e).1
  /-- An effect is brought about in a type that has a record. -/
  | effect {deeds : List Deed} {e : Emission} {path : TypePath} {record : Nat} {token : Token}
      (s : Surroundings) (effect : Effect) :
      Reaches setting module deeds e → HousedAt e path record token →
      (Emission.apply setting s record token e effect).diagnostics.hasErrors = false →
      Reaches setting module (deeds ++ [.effect path effect])
        (Emission.apply setting s record token e effect)

variable {setting : Setting} {module : String} {deeds : List Deed}

/-- The next place is the number of types entered. -/
theorem Reaches.place (h : Reaches setting module deeds e) : e.place = (entries deeds).length := by
  induction h with
  | start => rfl
  | @enter deeds e scope outer around decl inside _ _ hopen ih =>
    have hplace : (openType setting scope outer decl e).1.place = e.place + 1 := by
      unfold openType at hopen ⊢
      simp only [] at hopen ⊢
      split at hopen
      · rfl
      · rfl
      · cases hopen
    rw [hplace, ih, entries_append, List.length_append]
    rfl
  | @effect deeds e path record token s effect _ _ _ ih =>
    have hplace : (Emission.apply setting s record token e effect).place = e.place := by
      cases effect with
      | complain d span => rfl
      | mark m => rfl
      | declare m hasBody span =>
        show (Emission.declareMethod e setting s token m hasBody span).place = _
        unfold Emission.declareMethod
        simp only []
        split <;> rfl
    rw [hplace, ih, entries_append]
    exact (congrArg List.length (List.append_nil _)).symm

/-- Effects in a row are deeds in a row. -/
theorem Reaches.applyAll {s : Surroundings} {effects : List Effect}
    (h : Reaches setting module deeds e) (hat : HousedAt e path record token)
    (hclean : (e.applyAll setting s record token effects).diagnostics.hasErrors = false) :
    Reaches setting module (deeds ++ effects.map (.effect path))
      (e.applyAll setting s record token effects) := by
  induction effects generalizing deeds e with
  | nil =>
    rw [List.map_nil, List.append_nil]
    exact h
  | cons effect rest ih =>
    have hone := (grows_applyAll (Emission.apply setting s record token e effect) setting s record
      token rest).clean hclean
    rw [List.map_cons, List.append_cons]
    exact ih (.effect s effect h hat hone) (hat.keeps (keeps_apply setting e s record token effect))
      hclean

-- ====================================================== the whole file

/-- Work in a type is done by its effects. -/
theorem reaches_work {inside : Enclosing} {b : Around} (w : Work)
    (h : Reaches setting module deeds e) (hin : Housed e inside b)
    (hclean : (e.applyAll setting inside.surroundings inside.record inside.token
      (w.effects inside.surroundings)).diagnostics.hasErrors = false) :
    Reaches setting module (deeds ++ [Stop.work b w].flatMap Stop.deeds)
      (e.applyAll setting inside.surroundings inside.record inside.token
        (w.effects inside.surroundings)) := by
  rw [List.flatMap_singleton, Stop.deeds, ← hin.surroundings]
  exact h.applyAll hin.record hclean

mutual

theorem reaches_emitType :
    ∀ (decl : TypeDecl) (scope : Scope) (outer : Option Enclosing) (around : Option Around)
      (e : Emission) (deeds : List Deed), Reaches setting module deeds e →
      HousedAround e outer around →
      (emitType setting scope outer decl e).diagnostics.hasErrors = false →
      Reaches setting module (deeds ++ (walkOfType scope around e.place decl).flatMap Stop.deeds)
        (emitType setting scope outer decl e)
  | ⟨kind, name, typeParams, modifiers, bases, members, enumerators, delegate, span⟩,
      scope, outer, around, e, deeds, h, hst, hclean => by
    let decl : TypeDecl :=
      ⟨kind, name, typeParams, modifiers, bases, members, enumerators, delegate, span⟩
    obtain ⟨o, ho⟩ :=
      exists_inside_of_clean ((grows_inside setting scope outer decl e).clean hclean)
    have hopened := Reaches.enter h hst ho
    have hin := housed_openType hst ho
    have hplace : (openType setting scope outer decl e).1.place = e.place + 1 := by
      rw [hopened.place, h.place, entries_append, List.length_append]
      rfl
    have hpair : openType setting scope outer decl e
        = ((openType setting scope outer decl e).1, some o) := Prod.ext rfl ho
    simp only [emitType] at hclean ⊢
    rw [hpair] at hclean ⊢
    cases kind with
    | delegateType =>
      rw [walkOfType, List.flatMap_cons, ← List.append_assoc]
      exact reaches_work (.delegate delegate span) hopened hin hclean
    | enumType =>
      rw [walkOfType, List.flatMap_singleton]
      exact hopened
    | classType =>
      rw [walkOfType, List.flatMap_cons, ← List.append_assoc, ← hplace]
      exact reaches_emitMembers members o _ _ _ hopened hin hclean
    | structType =>
      rw [walkOfType, List.flatMap_cons, ← List.append_assoc, ← hplace]
      exact reaches_emitMembers members o _ _ _ hopened hin hclean
    | interfaceType =>
      rw [walkOfType, List.flatMap_cons, ← List.append_assoc, ← hplace]
      exact reaches_emitMembers members o _ _ _ hopened hin hclean

theorem reaches_emitMembers :
    ∀ (members : List Member) (inside : Enclosing) (b : Around) (e : Emission)
      (deeds : List Deed), Reaches setting module deeds e → Housed e inside b →
      (emitMembers setting inside members e).diagnostics.hasErrors = false →
      Reaches setting module (deeds ++ (walkOfMembers b e.place members).flatMap Stop.deeds)
        (emitMembers setting inside members e)
  | [], inside, b, e, deeds, h, hin, hclean => by
    rw [emitMembers, walkOfMembers, List.flatMap_nil, List.append_nil]
    exact h
  | m :: rest, inside, b, e, deeds, h, hin, hclean => by
    rw [emitMembers] at hclean ⊢
    have hone := reaches_emitMember m inside b e deeds h hin
      ((grows_emitMembers setting inside rest _).clean hclean)
    have hrest := reaches_emitMembers rest inside b _ _ hone
      (hin.keeps ((progress_keeps setting).emitMember m inside e)) hclean
    rw [hone.place, entries_append, entries_deeds, List.length_append, ← h.place,
      List.append_assoc] at hrest
    rw [walkOfMembers, List.flatMap_append]
    exact hrest

theorem reaches_emitMember :
    ∀ (m : Member) (inside : Enclosing) (b : Around) (e : Emission) (deeds : List Deed),
      Reaches setting module deeds e → Housed e inside b →
      (emitMember setting inside m e).diagnostics.hasErrors = false →
      Reaches setting module (deeds ++ (walkOfMember b e.place m).flatMap Stop.deeds)
        (emitMember setting inside m e)
  | .type decl, inside, b, e, deeds, h, hin, hclean => by
    rw [emitMember] at hclean ⊢
    rw [walkOfMember, ← hin.surroundings]
    exact reaches_emitType decl _ (some inside) (some b) e deeds h hin hclean
  | .field f, _, _, _, _, h, hin, hclean => reaches_work (.member (.field f)) h hin hclean
  | .constructor c, _, _, _, _, h, hin, hclean =>
    reaches_work (.member (.constructor c)) h hin hclean
  | .destructor d, _, _, _, _, h, hin, hclean =>
    reaches_work (.member (.destructor d)) h hin hclean
  | .method m, _, _, _, _, h, hin, hclean => reaches_work (.member (.method m)) h hin hclean
  | .property p, _, _, _, _, h, hin, hclean => reaches_work (.member (.property p)) h hin hclean
  | .indexer i, _, _, _, _, h, hin, hclean => reaches_work (.member (.indexer i)) h hin hclean
  | .event ev, _, _, _, _, h, hin, hclean => reaches_work (.member (.event ev)) h hin hclean
  | .operator o, _, _, _, _, h, hin, hclean => reaches_work (.member (.operator o)) h hin hclean

end

mutual

theorem reaches_emitSpaceMembers :
    ∀ (members : List NamespaceMember) (scope : Scope) (e : Emission) (deeds : List Deed),
      Reaches setting module deeds e →
      (emitSpaceMembers setting scope members e).diagnostics.hasErrors = false →
      Reaches setting module (deeds ++ (walkOfSpace scope e.place members).flatMap Stop.deeds)
        (emitSpaceMembers setting scope members e)
  | [], scope, e, deeds, h, hclean => by
    rw [emitSpaceMembers, walkOfSpace, List.flatMap_nil, List.append_nil]
    exact h
  | m :: rest, scope, e, deeds, h, hclean => by
    rw [emitSpaceMembers] at hclean ⊢
    have hone := reaches_emitSpaceMember m scope e deeds h
      ((grows_emitSpaceMembers setting scope rest _).clean hclean)
    have hrest := reaches_emitSpaceMembers rest scope _ _ hone hclean
    rw [hone.place, entries_append, entries_deeds, List.length_append, ← h.place,
      List.append_assoc] at hrest
    rw [walkOfSpace, List.flatMap_append]
    exact hrest

theorem reaches_emitSpaceMember :
    ∀ (m : NamespaceMember) (scope : Scope) (e : Emission) (deeds : List Deed),
      Reaches setting module deeds e →
      (emitSpaceMember setting scope m e).diagnostics.hasErrors = false →
      Reaches setting module (deeds ++ (walkOfSpaceMember scope e.place m).flatMap Stop.deeds)
        (emitSpaceMember setting scope m e)
  | .space ⟨name, _, usings, members, _⟩, scope, e, deeds, h, hclean => by
    rw [emitSpaceMember] at hclean ⊢
    rw [walkOfSpaceMember]
    exact reaches_emitSpaceMembers members _ e deeds h hclean
  | .type decl, scope, e, deeds, h, hclean => by
    rw [emitSpaceMember] at hclean ⊢
    rw [walkOfSpaceMember]
    exact reaches_emitType decl scope none none e deeds h trivial hclean

end

/-- The types and members of a file without errors are emitted by what is
done on the walk through it. -/
theorem reaches_emission {module : String} {tree : Tree} {setting : Setting}
    (hclean : (emitSpaceMembers setting (topScope tree.root) tree.root.members
      (.start module)).diagnostics.hasErrors = false) :
    Reaches setting module ((walk tree.root).flatMap Stop.deeds)
      (emitSpaceMembers setting (topScope tree.root) tree.root.members (.start module)) :=
  reaches_emitSpaceMembers tree.root.members (topScope tree.root) (.start module) [] .start hclean

end ClrListing.Lowering
