/-
The module that a file compiles to.

`Renders a steps` says that the tables of a finished module are those that
a script spells out, small enough for tokens to number them. Every file
that parses and compiles renders its own script, with methods behind it
that no declaration stands for (`renders_of_compile`). What follows reads
the finished module by tokens: the row of a type, the rows of its methods,
and that rows are numbered by their places.
-/
import ClrListing.Proofs.Lowering.Simulation
import ClrListing.Proofs.Syntax.WellNamed
import ClrListing.Proofs.Text.Search
import Mathlib.Data.List.Nodup

namespace ClrListing.Lowering

open Assembly Metadata Source Syntax

-- ================================================= entering a file

mutual

/-- The script of a well named type enters what is declared. -/
theorem entered_scriptOfType :
    ∀ (decl : TypeDecl) (scope : Scope) (around : Option Around) (place : Nat)
      (space : String), decl.WellNamed →
      (around.isSome ∨ space = scope.space) →
      entered (scriptOfType scope around place decl)
        = declarationsOfType space (around.map Around.path) decl
  | ⟨kind, name, typeParams, modifiers, bases, members, enumerators, delegate, span⟩,
      scope, around, place, space, hw, hspace => by
    rw [TypeDecl.WellNamed] at hw
    have hpath : ∀ decl, TypePath.ofDecl scope.space (around.map Around.path) decl
        = .ofDecl space (around.map Around.path) decl := by
      intro decl
      cases around with
      | some b => rfl
      | none =>
        rcases hspace with h | h
        · cases h
        · rw [h]
    have hcons : ∀ path decl steps,
        entered (.enter path decl :: steps) = (path, decl) :: entered steps := fun _ _ _ => rfl
    rw [declarationsOfType, ← hpath]
    cases kind with
    | delegateType =>
      rw [scriptOfType, hcons, entered_pushAll, hw.2.1 (.inr rfl), declarationsOfMembers]
      rfl
    | enumType =>
      rw [scriptOfType, hcons, hw.2.1 (.inl rfl), declarationsOfMembers]
      rfl
    | classType =>
      rw [scriptOfType, hcons, entered_scriptOfMembers members _ _ hw.2.2]
      rfl
    | structType =>
      rw [scriptOfType, hcons, entered_scriptOfMembers members _ _ hw.2.2]
      rfl
    | interfaceType =>
      rw [scriptOfType, hcons, entered_scriptOfMembers members _ _ hw.2.2]
      rfl

theorem entered_scriptOfMembers :
    ∀ (members : List Member) (inside : Around) (place : Nat), AllWellNamed members →
      entered (scriptOfMembers inside place members) = declarationsOfMembers inside.path members
  | [], inside, place, _ => by
    rw [scriptOfMembers, declarationsOfMembers]
    rfl
  | m :: rest, inside, place, hw => by
    rw [AllWellNamed] at hw
    rw [scriptOfMembers, declarationsOfMembers, entered_append,
      entered_scriptOfMember m inside place hw.1, entered_scriptOfMembers rest inside _ hw.2]

theorem entered_scriptOfMember :
    ∀ (m : Member) (inside : Around) (place : Nat), m.WellNamed →
      entered (scriptOfMember inside place m) = declarationsOfMember inside.path m
  | .type decl, inside, place, hw => by
    rw [Member.WellNamed] at hw
    rw [scriptOfMember, declarationsOfMember]
    exact entered_scriptOfType decl _ (some inside) place "" hw (.inl rfl)
  | .field _, inside, _, _ => entered_pushAll inside _
  | .constructor _, inside, _, _ => entered_pushAll inside _
  | .destructor _, inside, _, _ => entered_pushAll inside _
  | .method _, inside, _, _ => entered_pushAll inside _
  | .property _, inside, _, _ => entered_pushAll inside _
  | .indexer _, inside, _, _ => entered_pushAll inside _
  | .event _, inside, _, _ => entered_pushAll inside _
  | .operator _, inside, _, _ => entered_pushAll inside _

end

mutual

theorem entered_scriptOfSpace :
    ∀ (members : List NamespaceMember) (scope : Scope) (place : Nat), SpaceWellNamed members →
      entered (scriptOfSpace scope place members) = declarationsOfSpace scope.space members
  | [], scope, place, _ => by
    rw [scriptOfSpace, declarationsOfSpace]
    rfl
  | m :: rest, scope, place, hw => by
    rw [SpaceWellNamed] at hw
    rw [scriptOfSpace, declarationsOfSpace, entered_append,
      entered_scriptOfSpaceMember m scope place hw.1, entered_scriptOfSpace rest scope _ hw.2]

theorem entered_scriptOfSpaceMember :
    ∀ (m : NamespaceMember) (scope : Scope) (place : Nat), m.WellNamed →
      entered (scriptOfSpaceMember scope place m) = declarationsOfSpaceMember scope.space m
  | .space ⟨name, _, usings, members, _⟩, scope, place, hw => by
    rw [NamespaceMember.WellNamed] at hw
    rw [scriptOfSpaceMember, declarationsOfSpaceMember]
    exact entered_scriptOfSpace members ((scope.inSpace name).importing usings) place hw.2
  | .type decl, scope, place, hw => by
    rw [NamespaceMember.WellNamed] at hw
    rw [scriptOfSpaceMember, declarationsOfSpaceMember]
    exact entered_scriptOfType decl scope none place scope.space hw (.inr rfl)

end

/-- A property that the paths of declarations have, as the names along them
are those of the source: `Space` holds of namespaces, `Good` of paths. -/
structure PathRule (Space : String → Prop) (Good : TypePath → Prop) : Prop where
  space : ∀ space name, Space space → IsDottedName name → Space (Text.qualify space name)
  top : ∀ space name arity, Space space → IsName name →
    Good (.top space (Text.arityName name arity))
  inner : ∀ outer name arity, Good outer → IsName name →
    Good (.inner outer (Text.arityName name arity))

namespace PathRule

variable {Space : String → Prop} {Good : TypePath → Prop}

mutual

theorem of_declarationsOfType (rule : PathRule Space Good) :
    ∀ (decl : TypeDecl) (space : String) (outer : Option TypePath), decl.WellNamed →
      (outer = none → Space space) → (∀ path, outer = some path → Good path) →
      ∀ x ∈ declarationsOfType space outer decl, Good x.1
  | ⟨kind, name, typeParams, modifiers, bases, members, enumerators, delegate, span⟩,
      space, outer, hw, hspace, houter => by
    rw [TypeDecl.WellNamed] at hw
    rw [declarationsOfType]
    have hown : Good (.ofDecl space outer
        ⟨kind, name, typeParams, modifiers, bases, members, enumerators, delegate, span⟩) := by
      cases outer with
      | none => exact rule.top space name typeParams.length (hspace rfl) hw.1
      | some path => exact rule.inner path name typeParams.length (houter path rfl) hw.1
    intro x hx
    rcases List.mem_cons.mp hx with rfl | hx
    · exact hown
    · exact rule.of_declarationsOfMembers members _ hw.2.2 hown x hx

theorem of_declarationsOfMembers (rule : PathRule Space Good) :
    ∀ (members : List Member) (path : TypePath), AllWellNamed members → Good path →
      ∀ x ∈ declarationsOfMembers path members, Good x.1
  | [], path, _, _ => by
    rw [declarationsOfMembers]
    intro x hx
    cases hx
  | m :: rest, path, hw, hpath => by
    rw [AllWellNamed] at hw
    rw [declarationsOfMembers]
    intro x hx
    rcases List.mem_append.mp hx with hx | hx
    · exact rule.of_declarationsOfMember m path hw.1 hpath x hx
    · exact rule.of_declarationsOfMembers rest path hw.2 hpath x hx

theorem of_declarationsOfMember (rule : PathRule Space Good) :
    ∀ (m : Member) (path : TypePath), m.WellNamed → Good path →
      ∀ x ∈ declarationsOfMember path m, Good x.1
  | .type decl, path, hw, hpath => by
    rw [Member.WellNamed] at hw
    rw [declarationsOfMember]
    refine rule.of_declarationsOfType decl "" (some path) hw nofun ?_
    rintro _ ⟨⟩
    exact hpath
  | .field _, _, _, _ | .constructor _, _, _, _ | .destructor _, _, _, _ | .method _, _, _, _
  | .property _, _, _, _ | .indexer _, _, _, _ | .event _, _, _, _ | .operator _, _, _, _ =>
    fun _ hx => (List.not_mem_nil hx).elim

end

mutual

theorem of_declarationsOfSpace (rule : PathRule Space Good) :
    ∀ (members : List NamespaceMember) (space : String), SpaceWellNamed members → Space space →
      ∀ x ∈ declarationsOfSpace space members, Good x.1
  | [], space, _, _ => by
    rw [declarationsOfSpace]
    intro x hx
    cases hx
  | m :: rest, space, hw, hspace => by
    rw [SpaceWellNamed] at hw
    rw [declarationsOfSpace]
    intro x hx
    rcases List.mem_append.mp hx with hx | hx
    · exact rule.of_declarationsOfSpaceMember m space hw.1 hspace x hx
    · exact rule.of_declarationsOfSpace rest space hw.2 hspace x hx

theorem of_declarationsOfSpaceMember (rule : PathRule Space Good) :
    ∀ (m : NamespaceMember) (space : String), m.WellNamed → Space space →
      ∀ x ∈ declarationsOfSpaceMember space m, Good x.1
  | .space ⟨name, _, _, members, _⟩, space, hw, hspace => by
    rw [NamespaceMember.WellNamed] at hw
    rw [declarationsOfSpaceMember]
    exact rule.of_declarationsOfSpace members _ hw.2 (rule.space space name hspace hw.1)
  | .type decl, space, hw, hspace => by
    rw [NamespaceMember.WellNamed] at hw
    rw [declarationsOfSpaceMember]
    exact rule.of_declarationsOfType decl space none hw (fun _ => hspace) nofun

end

/-- The property holds of the paths of all declarations of a file. -/
theorem of_declarations (rule : PathRule Space Good) {unit : CompilationUnit}
    (hw : unit.WellNamed) (hnone : Space "") :
    ∀ path ∈ (declarations unit).map Prod.fst, Good path := by
  intro path hpath
  obtain ⟨x, hx, rfl⟩ := List.mem_map.mp hpath
  exact rule.of_declarationsOfSpace unit.members "" hw hnone x hx

end PathRule

/-- A path ends in a name, with the number of type parameters. -/
def EndsInName (path : TypePath) : Prop :=
  ∃ name arity, IsName name ∧ path.name = Text.arityName name arity

theorem pathRule_endsInName : PathRule (fun _ => True) EndsInName where
  space _ _ _ _ := trivial
  top _ name arity _ hname := ⟨name, arity, hname, rfl⟩
  inner _ name arity _ hname := ⟨name, arity, hname, rfl⟩

/-- A name with the number of type parameters is the name and characters
that separate nothing. -/
theorem exists_arityName (name : String) (arity : Nat) :
    ∃ suffix, (Text.arityName name arity).toList = name.toList ++ suffix
      ∧ '+' ∉ suffix ∧ '.' ∉ suffix := by
  unfold Text.arityName
  by_cases hzero : arity = 0
  · rw [if_pos hzero]
    exact ⟨[], (List.append_nil _).symm, List.not_mem_nil, List.not_mem_nil⟩
  · rw [if_neg hzero, String.toList_append, String.toList_append, List.append_assoc]
    refine ⟨_, rfl, ?_, ?_⟩
    · rw [List.mem_append, not_or]
      exact ⟨by decide, Text.not_mem_repr arity (by decide)⟩
    · rw [List.mem_append, not_or]
      exact ⟨by decide, Text.not_mem_repr arity (by decide)⟩

/-- No declared type is named like the row of the module itself. -/
theorem name_ne_module {unit : CompilationUnit} (hw : unit.WellNamed) :
    ∀ path ∈ (declarations unit).map Prod.fst, path.name ≠ "<Module>" := by
  intro path hpath heq
  obtain ⟨name, arity, hname, harity⟩ := pathRule_endsInName.of_declarations hw trivial path hpath
  obtain ⟨rest, hrest, -⟩ := exists_arityName name arity
  obtain ⟨c, others, hchars, -⟩ := hname.exists_cons
  rw [← harity, heq, hchars, List.cons_append] at hrest
  have hc : c = '<' := (List.cons.inj hrest).1.symm
  exact hname.no_angle (hchars ▸ hc ▸ List.mem_cons_self)

theorem Unlisted.entered_eq {steps : List Step} (h : Unlisted steps) : entered steps = [] := by
  unfold entered
  rw [List.filterMap_eq_nil_iff]
  intro step hstep
  obtain ⟨path, m, rfl⟩ := h step hstep
  rfl

theorem Unlisted.source_eq_none {steps : List Step} (h : Unlisted steps)
    {p : TypePath × Lowered} (hp : p ∈ pushed steps) : p.2.source = none := by
  obtain ⟨step, hstep, heq⟩ := List.mem_filterMap.mp hp
  obtain ⟨path, m, rfl⟩ := h step hstep
  cases heq
  rfl

/-- What the script of a file enters are the declarations of the file. -/
theorem entered_script {unit : CompilationUnit} {added : List Step} (hw : unit.WellNamed)
    (hadded : Unlisted added) : entered (script unit ++ added) = declarations unit := by
  rw [entered_append, hadded.entered_eq, List.append_nil]
  exact entered_scriptOfSpace unit.members (topScope unit) 0 hw

-- ==================================================== finished modules

/-- The tables of a module are those that steps spell out, and tokens can
number them. -/
structure Renders (a : Assembly) (steps : List Step) : Prop where
  types : a.types = typesIn steps
  methods : a.methods.map bare = methodsIn steps
  grounded : Grounded steps
  typesFit : a.types.length < Token.rowLimit
  methodsFit : a.methods.length < Token.rowLimit

/-- The types of a module are those that steps spell out, and tokens can
number them. -/
structure RendersTypes (a : Assembly) (steps : List Step) : Prop where
  types : a.types = typesIn steps
  grounded : Grounded steps
  typesFit : a.types.length < Token.rowLimit

/-- A compilation that succeeds ends without errors, and its module is
what was built. -/
theorem build_of_compile {module : String} {tree : Tree} {options : CompileOptions}
    {a : Assembly} (h : (Run.outcome (compile module tree options)).1 = .ok a) :
    (emission module tree options).diagnostics.hasErrors = false
      ∧ a = (emission module tree options).builder.build := by
  rw [Run.outcome_eq] at h
  unfold compile at h
  simp only [Run.upshot_bind, Run.upshot_debug, Run.upshot_log] at h
  cases herrors : (emission module tree options).diagnostics.hasErrors with
  | true =>
    rw [herrors, if_pos rfl, Run.upshot_bind, Run.upshot_throw] at h
    cases h
  | false =>
    rw [herrors, if_neg Bool.false_ne_true] at h
    simp only [Run.upshot_bind, Run.upshot_info, Run.upshot_pure] at h
    exact ⟨rfl, (Except.ok.inj h).symm⟩

/-- A file that compiles renders its script, and added constructors
behind it. -/
theorem renders_of_compile {module : String} {tree : Tree} {options : CompileOptions}
    {a : Assembly} (h : (Run.outcome (compile module tree options)).1 = .ok a)
    (htypes : a.types.length < Token.rowLimit) (hmethods : a.methods.length < Token.rowLimit) :
    ∃ added, Unlisted added ∧ Renders a (script tree.root ++ added) := by
  obtain ⟨hclean, rfl⟩ := build_of_compile h
  obtain ⟨added, hadded, hm⟩ := mirrors_emission ⟨hclean, htypes⟩
  exact ⟨added, hadded, hm.types, hm.methods, hm.grounded, htypes, hmethods⟩

/-- The types of a file that compiles are those that its script spells out,
however many methods there are. -/
theorem rendersTypes_of_compile {module : String} {tree : Tree} {options : CompileOptions}
    {a : Assembly} (h : (Run.outcome (compile module tree options)).1 = .ok a)
    (htypes : a.types.length < Token.rowLimit) :
    ∃ added, Unlisted added ∧ RendersTypes a (script tree.root ++ added) := by
  obtain ⟨hclean, rfl⟩ := build_of_compile h
  obtain ⟨added, hadded, hm⟩ := mirrors_emission ⟨hclean, htypes⟩
  exact ⟨added, hadded, hm.types, hm.grounded, htypes⟩

/-- Whether a text is a file that compiles to a module, not too large, of
which a check holds. -/
def compilesTo (source module : String) (check : Tree → Assembly → Bool) : Bool :=
  match (Run.outcome (Tree.parse source)).1 with
  | .ok tree =>
    match (Run.outcome (compile module tree ⟨false⟩)).1 with
    | .ok a =>
      decide (a.types.length < Token.rowLimit ∧ a.methods.length < Token.rowLimit)
        && check tree a
    | .error _ => false
  | .error _ => false

theorem of_compilesTo {source module : String} {check : Tree → Assembly → Bool}
    (h : compilesTo source module check = true) :
    ∃ tree a, (Run.outcome (Tree.parse source)).1 = .ok tree
      ∧ (Run.outcome (compile module tree ⟨false⟩)).1 = .ok a
      ∧ a.types.length < Token.rowLimit ∧ a.methods.length < Token.rowLimit
      ∧ check tree a = true := by
  unfold compilesTo at h
  split at h
  · next tree hparse =>
    split at h
    · next a hcompile =>
      rw [Bool.and_eq_true, decide_eq_true_eq] at h
      exact ⟨tree, a, hparse, hcompile, h.1.1, h.1.2, h.2⟩
    · cases h
  · cases h

/-- The row of a type stands behind those of the types before it, and that
of the module itself. -/
theorem getElem?_typesIn {steps : List Step} {path : TypePath} (hmem : path ∈ rowsOf steps) :
    (typesIn steps)[(rowsOf steps).idxOf path + 2 - 1]? = some (typeRow steps path) := by
  have hlt := List.idxOf_lt_length_of_mem hmem
  rw [typesIn, show (rowsOf steps).idxOf path + 2 - 1 = (rowsOf steps).idxOf path + 1 by omega,
    List.getElem?_cons_succ, List.getElem?_map, List.getElem?_eq_getElem hlt,
    List.getElem_idxOf hlt, Option.map_some]

namespace RendersTypes

variable {a : Assembly} {steps : List Step} {path : TypePath}

theorem fits (h : RendersTypes a steps) : Fits (rowsOf steps) := by
  have hlen := h.typesFit
  rwa [h.types, typesIn, List.length_cons, List.length_map] at hlen

/-- The row of a type is found under its token. -/
theorem type?_tokenIn (h : RendersTypes a steps) (hmem : path ∈ rowsOf steps) :
    a.type? (tokenIn (rowsOf steps) path) = some (typeRow steps path) := by
  have hin : (tokenIn (rowsOf steps) path).isIn .typeDef = true := Token.isIn_ofRow _ _
  unfold Assembly.type? atRow?
  rw [if_pos hin, row_tokenIn h.fits hmem, if_neg (by omega), h.types]
  exact getElem?_typesIn hmem

end RendersTypes

namespace Renders

variable {a : Assembly} {steps : List Step} {path : TypePath}

theorem rows (h : Renders a steps) : RendersTypes a steps := ⟨h.types, h.grounded, h.typesFit⟩

theorem fits (h : Renders a steps) : Fits (rowsOf steps) := h.rows.fits

theorem type?_tokenIn (h : Renders a steps) (hmem : path ∈ rowsOf steps) :
    a.type? (tokenIn (rowsOf steps) path) = some (typeRow steps path) :=
  h.rows.type?_tokenIn hmem

theorem length_methods (h : Renders a steps) : a.methods.length = (pushed steps).length := by
  have hlen := congrArg List.length h.methods
  rwa [List.length_map, methodsIn, List.length_map, List.length_zipIdx] at hlen

/-- The method at an index is what was pushed there. -/
theorem method_at (h : Renders a steps) {i : Nat} {m : MethodDef} (hm : a.methods[i]? = some m) :
    ∃ p, (pushed steps)[i]? = some p ∧ bare m = methodRow (rowsOf steps) (p, i) := by
  have hget : (a.methods.map bare)[i]? = some (bare m) := by
    rw [List.getElem?_map, hm, Option.map_some]
  rw [h.methods, methodsIn, List.getElem?_map, List.getElem?_zipIdx] at hget
  obtain ⟨⟨p, j⟩, hp, heq⟩ := Option.map_eq_some_iff.mp hget
  obtain ⟨q, hq, hqp⟩ := Option.map_eq_some_iff.mp hp
  obtain ⟨rfl, rfl⟩ := Prod.mk.inj hqp
  rw [Nat.zero_add] at heq
  exact ⟨q, hq, heq.symm⟩

theorem token_at (h : Renders a steps) {i : Nat} {m : MethodDef} (hm : a.methods[i]? = some m) :
    m.token = .ofRow .methodDef (i + 1) := by
  obtain ⟨p, -, hbare⟩ := h.method_at hm
  exact congrArg MethodDef.token hbare

/-- The types of the module are numbered by their places. -/
theorem token_rowsOf (hn : (rowsOf steps).Nodup) {i : Nat}
    (hi : (rowsOf steps)[i]? = some path) :
    tokenIn (rowsOf steps) path = .ofRow .typeDef (i + 2) := by
  obtain ⟨hlt, rfl⟩ := List.getElem?_eq_some_iff.mp hi
  unfold tokenIn
  rw [hn.idxOf_getElem i hlt]

/-- Rows are numbered by their places. -/
theorem numbered (h : Renders a steps) : a.Numbered where
  types := by
    intro i t ht
    rw [h.types, typesIn] at ht
    cases i with
    | zero =>
      cases ht
      rfl
    | succ i =>
      rw [List.getElem?_cons_succ, List.getElem?_map] at ht
      obtain ⟨path, hpath, rfl⟩ := Option.map_eq_some_iff.mp ht
      exact token_rowsOf (nodup_rowsOf steps) hpath
  methods := fun i m hm => h.token_at hm
  typesFit := h.typesFit
  methodsFit := h.methodsFit

/-- A token of a method's row gives the method. -/
theorem method?_ofRow (h : Renders a steps) {i : Nat} {m : MethodDef}
    (hm : a.methods[i]? = some m) : a.method? (.ofRow .methodDef (i + 1)) = some m := by
  have hlt := (List.getElem?_eq_some_iff.mp hm).1
  have hfit := h.methodsFit
  unfold Assembly.method? atRow?
  rw [if_pos (Token.isIn_ofRow _ _), Token.row_ofRow (by omega), if_neg (by omega),
    Nat.add_sub_cancel, hm]

theorem nodup_tokens (h : Renders a steps) : (a.methods.map MethodDef.token).Nodup := by
  rw [List.nodup_iff_getElem?_ne_getElem?]
  intro i j hij hj heq
  rw [List.length_map] at hj
  have hi : i < a.methods.length := Nat.lt_trans hij hj
  have hfit := h.methodsFit
  rw [List.getElem?_map, List.getElem?_map, List.getElem?_eq_getElem hi,
    List.getElem?_eq_getElem hj, Option.map_some, Option.map_some, Option.some.injEq,
    h.token_at (List.getElem?_eq_getElem hi), h.token_at (List.getElem?_eq_getElem hj)] at heq
  have hrow := Token.ofRow_inj (by omega) (by omega) heq
  omega

/-- A type lists the methods that it declares, in the order of their
rows. -/
theorem methodTokens_eq (h : Renders a steps) (hmem : path ∈ rowsOf steps) :
    methodTokens steps path
      = (a.methods.filter fun m => m.declaringType = tokenIn (rowsOf steps) path).map
          MethodDef.token := by
  have hbare : (a.methods.filter fun m => m.declaringType = tokenIn (rowsOf steps) path).map
        MethodDef.token
      = ((a.methods.map bare).filter fun m =>
          m.declaringType = tokenIn (rowsOf steps) path).map MethodDef.token := by
    rw [List.filter_map, List.map_map]
    rfl
  rw [hbare, h.methods, methodsIn, List.filter_map, List.map_map, methodTokens]
  congr 1
  refine List.filter_congr fun x hx => ?_
  have hin : x.1 ∈ pushed steps := by
    obtain ⟨p, i⟩ := x
    exact List.fst_mem_of_mem_zipIdx hx
  rw [Function.comp_apply, decide_eq_decide]
  constructor
  · intro heq
    rw [← heq]
    rfl
  · exact tokenIn_inj h.fits (h.grounded.housed x.1 hin) hmem

end Renders

end ClrListing.Lowering
