/-
Files in which a type is cut in parts.

A file that compiles still compiles to the same module if one of its types
is written in parts, as long as names stay what they mean and a
constructor of the type itself, if there is one, stands in the first part.
Two parts are compared with the whole type declaration by declaration; more
are cut off one at a time from the end, and a single part is the first of
two of which the second is empty.

Both conditions are there because the compiler looks at one part alone:
the attributes of a type are those of its first part, and a name in one
part does not see the nested types of another.

The way back has one exception. A type that is partial may be declared
again under a name that is taken, so that a file in parts can compile where
the whole file, its type not partial, is refused.
-/
import ClrListing.Proofs.Lowering.Parts
import ClrListing.Proofs.Run
import Mathlib.Data.List.Induction

namespace ClrListing.Lowering

open Assembly Metadata Source Syntax

-- ============================================================ outcomes

/-- When a file compiles, and to what. -/
theorem compile_eq_ok {module : String} {tree : Tree} {options : CompileOptions} {a : Assembly} :
    (Run.outcome (compile module tree options)).1 = .ok a
      ↔ (emission module tree options).diagnostics.hasErrors = false
        ∧ a = (emission module tree options).builder.build := by
  refine ⟨build_of_compile, fun ⟨hclean, ha⟩ => ?_⟩
  rw [Run.outcome_eq]
  unfold compile
  simp only [Run.upshot_bind, Run.upshot_debug, Run.upshot_log]
  rw [hclean, if_neg Bool.false_ne_true]
  simp only [Run.upshot_bind, Run.upshot_info, Run.upshot_pure, ha]

theorem compile_eq_error {module : String} {tree : Tree} {options : CompileOptions}
    (h : (emission module tree options).diagnostics.hasErrors = true) :
    (Run.outcome (compile module tree options)).1
      = .error (.compilation (emission module tree options).diagnostics) := by
  rw [Run.outcome_eq]
  unfold compile
  simp only [Run.upshot_bind, Run.upshot_debug, Run.upshot_log]
  rw [h, if_pos rfl, Run.upshot_bind, Run.upshot_throw]

section Completion

variable {back : Prop} {setting setting' : Setting} {e e' : Emission} {r r' : TypeRecord}

theorem Alike.completeType (hoptions : setting'.options = setting.options) (h : Alike back e e')
    (hr : RecordAlike back r r') :
    Alike back (Emission.completeType setting e r) (Emission.completeType setting' e' r') := by
  have hinstance : Emission.needsConstructor r' = Emission.needsConstructor r := by
    rw [hr.same]
    rfl
  have htype : Emission.needsTypeConstructor r' = Emission.needsTypeConstructor r := by
    rw [hr.same]
    rfl
  have hadded : Emission.addedConstructor r' = Emission.addedConstructor r := by
    rw [hr.same]
    rfl
  have htoken : r'.token = r.token := by rw [hr.same]
  unfold Emission.completeType
  simp only [hinstance, htype, hadded, htoken]
  have hfirst : Alike back
      (if Emission.needsConstructor r then
        e.pushMethod setting r.token (Emission.addedConstructor r) true else e)
      (if Emission.needsConstructor r then
        e'.pushMethod setting' r.token (Emission.addedConstructor r) true else e') := by
    split
    · exact h.pushMethod hoptions _ _ _
    · exact h
  split
  · exact hfirst.pushMethod hoptions _ _ _
  · exact hfirst

theorem Alike.complete (hoptions : setting'.options = setting.options) (h : Alike back e e') :
    Alike back (e.complete setting) (e'.complete setting') := by
  have hall : ∀ {rs rs' : List TypeRecord}, List.Forall₂ (RecordAlike back) rs rs' →
      ∀ {f f' : Emission}, Alike back f f' →
        Alike back (rs.foldl (Emission.completeType setting) f)
          (rs'.foldl (Emission.completeType setting') f') := by
    intro rs rs' hrs
    induction hrs with
    | nil => exact fun hf => hf
    | cons hr _ ih => exact fun hf => ih (hf.completeType hoptions hr)
  exact hall h.types h

end Completion

/-- All that the declarations of a file make a compiler emit, before
constructors are added. -/
def emitted (module : String) (tree : Tree) (options : CompileOptions) : Emission :=
  emitSpaceMembers ⟨tree.source, options⟩ (topScope tree.root) tree.root.members (.start module)

/-- Whether what a file compiles to, another compiles to as well, and the
other way round, but for names that are taken in the first; if `back`
holds, without exception. -/
def CarriesOver (back : Prop) (module : String) (options : CompileOptions) (tree tree' : Tree) :
    Prop :=
  ∀ a : Assembly,
    ((Run.outcome (compile module tree options)).1 = .ok a →
        (Run.outcome (compile module tree' options)).1 = .ok a)
      ∧ ((Run.outcome (compile module tree' options)).1 = .ok a →
        (Run.outcome (compile module tree options)).1 = .ok a
          ∨ ¬ back ∧ ∃ ds, (Run.outcome (compile module tree options)).1
              = .error (.compilation ds) ∧ NameTaken ds)

namespace CarriesOver

variable {back back' : Prop} {module : String} {options : CompileOptions}
variable {tree tree' tree'' : Tree}

theorem trans (h : CarriesOver back module options tree tree')
    (h' : CarriesOver back' module options tree' tree'') (hback : back') :
    CarriesOver back module options tree tree'' := by
  refine fun a => ⟨fun ha => (h' a).1 ((h a).1 ha), fun ha => (h a).2 ?_⟩
  exact ((h' a).2 ha).resolve_right fun hno => hno.1 hback

theorem symm (h : CarriesOver back module options tree tree') (hback : back) :
    CarriesOver True module options tree' tree :=
  fun a => ⟨fun ha => ((h a).2 ha).resolve_right fun hno => hno.1 hback,
    fun ha => .inl ((h a).1 ha)⟩

/-- Two compilations that are in step before constructors are added give
the same module, or none. -/
theorem of_inStep {n n' : Nat}
    (h : InStep back n n' (emitted module tree options) (emitted module tree' options)) :
    CarriesOver back module options tree tree' := by
  intro a
  rw [compile_eq_ok, compile_eq_ok]
  rcases h with hbroken | ⟨halike, -, -⟩
  · have hall : Broken back (emission module tree options) (emission module tree' options) :=
      hbroken.grows (grows_foldl_completeType _ _ _) (grows_foldl_completeType _ _ _)
    refine ⟨fun hok => ?_, fun hok => .inr ?_⟩
    · cases hok.1.symm.trans hall.errors
    · rcases hall.errors' with herrors | ⟨hback, htaken⟩
      · cases hok.1.symm.trans herrors
      · exact ⟨hback, _, compile_eq_error hall.errors, htaken⟩
  · have hall : Alike back (emission module tree options) (emission module tree' options) :=
      halike.complete rfl
    rw [hall.builder]
    exact ⟨fun hok => ⟨hall.clean', hok.2⟩, fun hok => .inl ⟨hall.clean, hok.2⟩⟩

end CarriesOver

-- ====================================================== without places

/-- A list of types collapses to itself. -/
theorem Outward.collapses {types : List DeclaredType} (h : Outward types) (p : Nat) :
    Collapses types types id p where
  entry := by
    intro q t ht
    rw [id, ht, Option.map_id]
    rfl
  outward := h
  outward' := h
  top := fun _ _ => Option.map_id_apply
  nested := fun _ _ _ => Option.map_id_apply
  firstTop := fun _ _ _ _ hq => hq
  firstNested := fun _ _ _ _ hq => hq

theorem alike_start (back : Prop) (module : String) : Alike back (.start module) (.start module) :=
  ⟨rfl, .nil, rfl, rfl, rfl, rfl⟩

theorem topScope_unplaced (unit : CompilationUnit) : topScope unit.unplaced = topScope unit := by
  unfold topScope
  rw [declaredTypes_unplaced]
  rfl

/-- The scope at the top of a file has no type around it, so that only its
types are others in another list. -/
theorem collapsed_topScope {unit unit' : CompilationUnit} (c : Nat → Nat)
    (h : unit'.usings = unit.usings) :
    (topScope unit').collapsed (declaredTypes unit) c = topScope unit := by
  unfold topScope
  rw [h]
  rfl

/-- Forgetting places keeps a compilation in step. -/
theorem inStep_unplaced (module : String) (options : CompileOptions) {tree tree' : Tree}
    (hw : tree.root.WellNamed) (hroot : tree'.root = tree.root.unplaced) :
    InStep True (0 + spaceTypeCount tree.root.members) (0 + spaceTypeCount tree.root.members)
      (emitted module tree options) (emitted module tree' options) := by
  -- no place is the last, so that nothing needs to be found alike
  have hc : Collapses (declaredTypes tree.root) (topScope tree.root).types id
      (declaredTypes tree.root).length := (outward_declaredTypes _).collapses _
  have hstands : StandsAt (topScope tree.root).types id (declaredTypes tree.root).length 0 0
      (declaredInSpace "" 0 tree.root.members) := by
    intro i t ht
    have hlt : i < (declaredTypes tree.root).length := (List.getElem?_eq_some_iff.mp ht).1
    rw [Nat.zero_add]
    exact ⟨ht, rfl, Nat.ne_of_lt hlt⟩
  have hdots : ∀ name ∈ namesInSpace tree.root.members,
      DotsAlike (declaredTypes tree.root) id (declaredTypes tree.root).length
        (topScope tree.root) name := by
    intro name _ segment next _ t ht
    exact absurd (Scope.getElem?_lt ht) (Nat.lt_irrefl _)
  have hoptions : (Setting.mk tree'.source options).options
      = (Setting.mk tree.source options).options := rfl
  have hall : InStep True _ _
      (emitSpaceMembers ⟨tree.source, options⟩
        ((topScope tree.root).collapsed (declaredTypes tree.root) id) tree.root.members
        (.start module))
      (emitSpaceMembers ⟨tree'.source, options⟩ (topScope tree.root)
        (spaceUnplaced tree.root.members) (.start module)) :=
    InStep.emitSpaceMembers hoptions tree.root.members (topScope tree.root)
      (.of_alike (alike_start True module) rfl rfl) hc rfl hw hstands hdots
  rw [collapsed_topScope id rfl] at hall
  unfold emitted
  rw [hroot, topScope_unplaced]
  exact hall

theorem wellNamed_of_unplaced {unit unit' : CompilationUnit} (hw : unit.WellNamed)
    (h : unit'.unplaced = unit.unplaced) : unit'.WellNamed := by
  unfold CompilationUnit.WellNamed at hw ⊢
  have hmembers : spaceUnplaced unit'.members = spaceUnplaced unit.members :=
    congrArg CompilationUnit.members h
  rwa [← spaceWellNamed_unplaced, hmembers, spaceWellNamed_unplaced]

/-- What a file compiles to does not depend on where things stand in it. -/
theorem carriesOver_unplaced (module : String) (options : CompileOptions) {tree tree' : Tree}
    (hw : tree.root.WellNamed) (hroot : tree'.root.unplaced = tree.root.unplaced) :
    CarriesOver True module options tree tree' := by
  have hw' := wellNamed_of_unplaced hw hroot
  -- both are in step with the file without places
  let bare : Tree := ⟨tree.source, tree.root.unplaced⟩
  have hforget : CarriesOver True module options tree bare :=
    .of_inStep (inStep_unplaced module options hw rfl)
  have hforget' : CarriesOver True module options tree' bare :=
    .of_inStep (inStep_unplaced module options hw' hroot.symm)
  exact hforget.trans (hforget'.symm trivial) trivial

-- =========================================================== two parts

section TwoParts

variable {tree tree' : Tree} {site : UnitSite} {decl part part' : TypeDecl} {p s : Nat}

theorem declares_first_of_zero {segment : NameSegment}
    (h : ∀ i, firstDeclaring? [part, part'] segment = some i → i = 0)
    (hsecond : DeclaresType part'.members segment = true) :
    DeclaresType part.members segment = true := by
  unfold firstDeclaring? at h
  rw [List.findIdx?_cons, List.findIdx?_cons, hsecond] at h
  cases hfirst : DeclaresType part.members segment with
  | true => rfl
  | false =>
    rw [hfirst] at h
    exact absurd (h 1 rfl) Nat.one_ne_zero

theorem not_declares_first_of_one {segment : NameSegment}
    (h : ∀ i, firstDeclaring? [part, part'] segment = some i → i = 1) :
    DeclaresType part.members segment = false := by
  unfold firstDeclaring? at h
  rw [List.findIdx?_cons] at h
  cases hfirst : DeclaresType part.members segment with
  | false => rfl
  | true =>
    rw [hfirst] at h
    exact absurd (h 0 rfl) Nat.zero_ne_one

section Halving

variable {x : DeclaredType} {whole cut head behind : List DeclaredType}

/-- Names that stay are found alike in the two parts. -/
theorem Halves.cutAt (h : Halves p s x part.members part'.members whole cut head behind)
    (ho : Outward whole) (hs : p + 1 + typeCount part.members = s) {unit : CompilationUnit}
    (hcut : IsCut decl [part, part']) (hkind : decl.HasMembers)
    (hnames : NamesStay unit decl [part, part'])
    (hfirst : part.members.any isTypeConstructor = decl.members.any isTypeConstructor) :
    CutAt (decl.modifiers.has .isPartial = true) whole cut decl part part' p s where
  parts := hcut
  hasMembers := hkind
  back := id
  constructors := hfirst
  at_cut := hs
  collapses := h.collapses ho
  inFirst := fun name hin segment hsegment => h.findsAlike_first ho
    (declares_first_of_zero (hnames.starts 0 part rfl name hin segment hsegment))
  inSecond := fun name hin segment hsegment => h.findsAlike_second ho
    (not_declares_first_of_one (hnames.starts 1 part' rfl name hin segment hsegment))

theorem Halves.dotsAlike (h : Halves p s x part.members part'.members whole cut head behind)
    (ho : Outward whole) (hname : x.name = decl.name) (harity : x.arity = decl.arity)
    {unit : CompilationUnit} (hnames : NamesStay unit decl [part, part']) {sc : Scope}
    (hsc : sc.types = cut) {name : List NameSegment} (hin : name ∈ unit.names) :
    DotsAlike whole (collapse p s) p sc name := by
  intro segment next hpair t ht htname htarity
  rw [hsc, h.getElem?_cut_of_lt h.lt, h.at_type] at ht
  obtain rfl : x = t := Option.some.inj ht
  rw [hsc]
  exact h.findsAlike_first ho (declares_first_of_zero (hnames.follows name hin segment next hpair
    (hname.symm.trans htname) (harity.symm.trans htarity)))

end Halving

/-- Cutting a type in two keeps a compilation in step. -/
theorem inStep_cut (module : String) (options : CompileOptions) (hw : tree.root.WellNamed)
    (hroot : tree.root = site.fill [decl])
    (hroot' : tree'.root = (site.fill [part, part']).unplaced) (hcut : IsCut decl [part, part'])
    (hkind : decl.HasMembers) (hnames : NamesStay tree.root decl [part, part'])
    (hfirst : part.members.any isTypeConstructor = decl.members.any isTypeConstructor) :
    InStep (decl.modifiers.has .isPartial = true) (0 + spaceTypeCount (site.site.fill [decl]))
      (0 + spaceTypeCount (site.site.fill [decl]) + 1) (emitted module tree options)
      (emitted module tree' options) := by
  rw [hroot] at hw hnames
  obtain ⟨p, hp⟩ : ∃ p, 0 + offsetInSpace site.site = p := ⟨_, rfl⟩
  obtain ⟨s, hs⟩ : ∃ s, p + 1 + typeCount part.members = s := ⟨_, rfl⟩
  obtain ⟨x, hname, harity, hd⟩ := divided_declaredInSpace hcut hs site.site "" 0 hp
  obtain ⟨head, behind, hhalves⟩ := hd.exists_halves
  let whole : List DeclaredType := declaredTypes (site.fill [decl])
  let sc : Scope := topScope (site.fill [part, part'])
  have ho : Outward whole := outward_declaredTypes _
  have hscope : sc.collapsed whole (collapse p s) = topScope (site.fill [decl]) :=
    collapsed_topScope _ rfl
  have hoptions : (Setting.mk tree'.source options).options
      = (Setting.mk tree.source options).options := rfl
  have hall : InStep _ _ _
      (emitSpaceMembers ⟨tree.source, options⟩ (sc.collapsed whole (collapse p s))
        (site.site.fill [decl]) (.start module))
      (emitSpaceMembers ⟨tree'.source, options⟩ sc (spaceUnplaced (site.site.fill [part, part']))
        (.start module)) :=
    InStep.emitSpaceSite hoptions site.site sc "" 0 _ _ (.of_alike (alike_start _ module) rfl rfl)
      (hhalves.cutAt ho hs hcut hkind hnames hfirst) rfl hp hw (List.prefix_refl _)
      fun name hin => hhalves.dotsAlike ho hname harity hnames rfl hin
  rw [hscope] at hall
  unfold emitted
  rw [hroot, hroot', topScope_unplaced]
  exact hall

/-- A type may be cut in two. -/
theorem carriesOver_two (module : String) (options : CompileOptions) (hw : tree.root.WellNamed)
    (hroot : tree.root = site.fill [decl])
    (hroot' : tree'.root.unplaced = (site.fill [part, part']).unplaced)
    (hcut : IsCut decl [part, part']) (hkind : decl.HasMembers)
    (hnames : NamesStay tree.root decl [part, part'])
    (hfirst : part.members.any isTypeConstructor = decl.members.any isTypeConstructor) :
    CarriesOver (decl.modifiers.has .isPartial = true) module options tree tree' := by
  have hfill : (site.fill [part, part']).WellNamed := by
    rw [hroot] at hw
    exact SpaceSite.wellNamed_fill hcut.wellNamed site.site hw
  -- the file in parts, and the same without places
  let full : Tree := ⟨tree.source, site.fill [part, part']⟩
  let bare : Tree := ⟨tree.source, (site.fill [part, part']).unplaced⟩
  have hstep : CarriesOver _ module options tree bare :=
    .of_inStep (inStep_cut module options hw hroot rfl hcut hkind hnames hfirst)
  have hforget : CarriesOver True module options full bare :=
    .of_inStep (inStep_unplaced module options hfill rfl)
  have hplaced : CarriesOver True module options full tree' :=
    carriesOver_unplaced module options hfill hroot'
  exact (hstep.trans (hforget.symm trivial) trivial).trans hplaced trivial

end TwoParts

-- ========================================================= many parts

/-- Whether a constructor of a type itself stands in the first of its
parts, if there is one. -/
def TypeConstructorFirst (decl : TypeDecl) (parts : List TypeDecl) : Prop :=
  decl.members.any isTypeConstructor = true →
    ∀ first ∈ parts.head?, first.members.any isTypeConstructor = true

instance (decl : TypeDecl) (parts : List TypeDecl) : Decidable (TypeConstructorFirst decl parts) :=
  inferInstanceAs (Decidable (_ → ∀ first ∈ parts.head?, _))

section ManyParts

variable {decl part last : TypeDecl} {init : List TypeDecl}

theorem any_isTypeConstructor_of_subset {ms more : List Member} (h : ms ⊆ more)
    (hany : ms.any isTypeConstructor = true) : more.any isTypeConstructor = true := by
  obtain ⟨m, hm, hconstructor⟩ := List.any_eq_true.mp hany
  exact List.any_eq_true.mpr ⟨m, h hm, hconstructor⟩

/-- All parts but the last have the constructor, too. -/
theorem TypeConstructorFirst.joined (h : TypeConstructorFirst decl (init ++ [last]))
    (hcut : IsCut decl (init ++ [last])) (hinit : init ≠ []) :
    (init.flatMap TypeDecl.members).any isTypeConstructor
      = decl.members.any isTypeConstructor := by
  obtain ⟨first, rest, rfl⟩ := List.exists_cons_of_ne_nil hinit
  rw [Bool.eq_iff_iff]
  refine ⟨any_isTypeConstructor_of_subset ?_, fun hany => ?_⟩
  · exact hcut.joined.members_subset List.mem_cons_self
  · refine any_isTypeConstructor_of_subset (fun m hm => ?_) (h hany first rfl)
    exact List.mem_flatMap.mpr ⟨first, List.mem_cons_self, hm⟩

theorem TypeConstructorFirst.dropLast (h : TypeConstructorFirst decl (init ++ [last]))
    (hcut : IsCut decl (init ++ [last])) (hinit : init ≠ []) :
    TypeConstructorFirst (decl.part (init.flatMap TypeDecl.members)) init := by
  obtain ⟨first, rest, rfl⟩ := List.exists_cons_of_ne_nil hinit
  intro hany
  exact h ((h.joined hcut hinit).symm.trans hany)

/-- A type may be declared partial. -/
theorem carriesOver_single (module : String) (options : CompileOptions) {site : UnitSite}
    {tree tree' : Tree} (hw : tree.root.WellNamed) (hroot : tree.root = site.fill [decl])
    (hroot' : tree'.root.unplaced = (site.fill [part]).unplaced) (hpart : IsPart decl part)
    (hms : part.members = decl.members) (hkind : decl.HasMembers) :
    CarriesOver (decl.modifiers.has .isPartial = true) module options tree tree' := by
  -- an empty part may stand behind the whole type, and behind the part
  let full : Tree := ⟨tree.source, site.fill [part, decl.part []]⟩
  let single : Tree := ⟨tree.source, site.fill [part]⟩
  have hempty := decl.isPart_part []
  have hcut : IsCut decl [part, decl.part []] := .whole hpart hempty hms rfl
  have hcut' : IsCut part [part, decl.part []] :=
    .whole (hpart.sibling hpart) (hpart.sibling hempty) rfl rfl
  have hwsingle : single.root.WellNamed := by
    rw [hroot] at hw
    refine SpaceSite.wellNamed_fill (fun hdecl d hd => ?_) site.site hw
    rw [List.mem_singleton.mp hd]
    exact hcut.wellNamed hdecl part List.mem_cons_self
  have hkind' : part.HasMembers := by
    unfold TypeDecl.HasMembers
    rwa [hpart.kind]
  have hdecl : CarriesOver _ module options tree full :=
    carriesOver_two module options hw hroot rfl hcut hkind (.whole rfl) (by rw [hms])
  have hsingle : CarriesOver _ module options single full :=
    carriesOver_two module options hwsingle rfl rfl hcut' hkind' (.whole rfl) rfl
  have hplaced := carriesOver_unplaced module options hwsingle hroot'
  exact (hdecl.trans (hsingle.symm hpart.isPartial) trivial).trans hplaced trivial

/-- A type may be cut in any number of parts. -/
theorem carriesOver_parts (module : String) (options : CompileOptions) (parts : List TypeDecl) :
    ∀ {site : UnitSite} {decl : TypeDecl} {tree tree' : Tree}, tree.root.WellNamed →
    tree.root = site.fill [decl] → tree'.root.unplaced = (site.fill parts).unplaced →
    IsCut decl parts → decl.HasMembers → NamesStay tree.root decl parts →
    TypeConstructorFirst decl parts →
    CarriesOver (decl.modifiers.has .isPartial = true) module options tree tree' := by
  induction parts using List.reverseRecOn with
  | nil =>
    intro _ _ _ _ _ _ _ hcut
    exact absurd rfl hcut.nonempty
  | append_singleton init last ih =>
    intro site decl tree tree' hw hroot hroot' hcut hkind hnames hfirst
    by_cases hinit : init = []
    · subst hinit
      refine carriesOver_single module options hw hroot hroot'
        (hcut.isPart last List.mem_cons_self) ?_ hkind
      rw [← hcut.members, List.nil_append, List.flatMap_singleton]
    -- the last part is cut off, then the others are cut apart
    let joined : TypeDecl := decl.part (init.flatMap TypeDecl.members)
    let middle : Tree := ⟨tree.source, site.fill [joined, last]⟩
    have hlast : CarriesOver _ module options tree middle :=
      carriesOver_two module options hw hroot rfl hcut.joined hkind (hnames.joined hinit)
        (hfirst.joined hcut hinit)
    have hmiddle : middle.root = (site.before last).fill [joined] :=
      (UnitSite.fill_before [joined] last site).symm
    have hwmiddle : middle.root.WellNamed := by
      rw [hroot] at hw
      exact SpaceSite.wellNamed_fill hcut.joined.wellNamed site.site hw
    have hsubset : middle.root.names ⊆ tree.root.names := by
      rw [hroot]
      exact SpaceSite.names_fill hcut.joined.names_subset site.site
    rw [← UnitSite.fill_before] at hroot'
    have hothers := ih hwmiddle hmiddle hroot' (hcut.dropLast hinit) hkind
      (hnames.dropLast hsubset _) (hfirst.dropLast hcut hinit)
    exact hlast.trans hothers rfl

end ManyParts

-- ======================================================= cut files

/-- Whether the first type of a file, cut behind its first `k` members,
satisfies a condition. -/
def firstTypeCut (k : Nat) (condition : UnitSite → TypeDecl → List TypeDecl → Bool) :
    CompilationUnit → Bool
  | ⟨aliases, usings, .type decl :: rest⟩ =>
    condition ⟨aliases, usings, .here rest⟩ decl (decl.halves k)
  | _ => false

theorem of_firstTypeCut {k : Nat} {condition : UnitSite → TypeDecl → List TypeDecl → Bool}
    {unit : CompilationUnit} (h : firstTypeCut k condition unit = true) :
    ∃ site decl, unit = site.fill [decl] ∧ condition site decl (decl.halves k) = true := by
  unfold firstTypeCut at h
  split at h
  · next aliases usings decl rest => exact ⟨⟨aliases, usings, .here rest⟩, decl, rfl, h⟩
  · cases h

/-- Whichever type of a file is cut in parts: a file that compiles still
does, to the same module, if names stay what they mean and a constructor of
the type itself stands in the first part. The other way round, the file in
parts compiles to nothing else than the whole one; but if the type was not
partial, the whole file may be refused, where the name of a type is taken. -/
theorem compile_of_cut {source module : String} {options : CompileOptions} {site : UnitSite}
    {tree tree' : Tree} {decl : TypeDecl} {parts : List TypeDecl}
    (hparse : (Run.outcome (Tree.parse source)).1 = .ok tree)
    (hroot : tree.root = site.fill [decl])
    (hroot' : tree'.root.unplaced = (site.fill parts).unplaced) (hkind : decl.HasMembers)
    (hcut : IsCut decl parts) (hnames : NamesStay tree.root decl parts)
    (hfirst : TypeConstructorFirst decl parts) (a : Assembly) :
    ((Run.outcome (compile module tree options)).1 = .ok a →
        (Run.outcome (compile module tree' options)).1 = .ok a)
      ∧ ((Run.outcome (compile module tree' options)).1 = .ok a →
        (Run.outcome (compile module tree options)).1 = .ok a
          ∨ decl.modifiers.has .isPartial = false
            ∧ ∃ ds, (Run.outcome (compile module tree options)).1 = .error (.compilation ds)
              ∧ NameTaken ds) := by
  have hboth := carriesOver_parts module options parts (wellNamed_of_parse hparse) hroot hroot' hcut
    hkind hnames hfirst a
  rwa [Bool.not_eq_true] at hboth

/-- A class whose names mean the same in two parts: the nested type stands
in the first part, and the second calls it by its full name. -/
def cutSource : String :=
  "class C \x7b class D \x7b \x7d static C() \x7b \x7d void M(D d) \x7b \x7d "
    ++ "int F(C.D d) \x7b return 1; \x7d \x7d class E \x7b void N(C.D d) \x7b \x7d \x7d"

theorem compile_cutSource : ∃ (tree : Tree) (site : UnitSite) (decl : TypeDecl) (a : Assembly),
    (Run.outcome (Tree.parse cutSource)).1 = .ok tree
      ∧ tree.root = site.fill [decl] ∧ decl.members.length = 4
      ∧ (Run.outcome (compile "Cut" tree ⟨false⟩)).1 = .ok a
      ∧ (Run.outcome (compile "Cut" ⟨"", site.fill (decl.halves 3)⟩ ⟨false⟩)).1 = .ok a := by
  have hruns : compilesTo cutSource "Cut" (fun tree _ =>
      firstTypeCut 3 (fun _ decl parts => decide (decl.HasMembers ∧ NamesStay tree.root decl parts
        ∧ TypeConstructorFirst decl parts ∧ decl.members.length = 4)) tree.root) = true := by
    decide +kernel
  obtain ⟨tree, a, hparse, hcompile, -, -, hcheck⟩ := of_compilesTo hruns
  obtain ⟨site, decl, hroot, hcheck⟩ := of_firstTypeCut hcheck
  obtain ⟨hkind, hnames, hfirst, hlength⟩ := of_decide_eq_true hcheck
  exact ⟨tree, site, decl, a, hparse, hroot, hlength, hcompile,
    (compile_of_cut hparse hroot rfl hkind (.halves decl 3) hnames hfirst a).1 hcompile⟩

/-- Whether two modules differ in the attributes of a type or in the
parameters of a method. -/
def differ (a b : Assembly) : Bool :=
  a.types.map TypeDef.flags != b.types.map TypeDef.flags
    || (a.methods.map fun m => m.signature.params) != b.methods.map fun m => m.signature.params

theorem ne_of_differ {a b : Assembly} (h : differ a b = true) : a ≠ b := by
  rintro rfl
  unfold differ at h
  simp at h

/-- Whether a text is a file that compiles, and compiles to something else
once its first type, a class, is cut behind the first member. -/
def ChangesInHalves (source : String) : Prop :=
  ∃ (tree : Tree) (site : UnitSite) (decl : TypeDecl) (a a' : Assembly),
    (Run.outcome (Tree.parse source)).1 = .ok tree
      ∧ tree.root = site.fill [decl] ∧ decl.kind = .classType ∧ IsCut decl (decl.halves 1)
      ∧ (Run.outcome (compile "Cut" tree ⟨false⟩)).1 = .ok a
      ∧ (Run.outcome (compile "Cut" ⟨source, site.fill (decl.halves 1)⟩ ⟨false⟩)).1 = .ok a'
      ∧ a ≠ a'

theorem changesInHalves_of_runs {source : String}
    (h : compilesTo source "Cut" (fun tree a =>
      firstTypeCut 1 (fun site decl parts => decide (decl.kind = .classType)
        && (Run.outcome (compile "Cut" ⟨source, site.fill parts⟩ ⟨false⟩)).1.toOption.any
          (differ a)) tree.root) = true) : ChangesInHalves source := by
  obtain ⟨tree, a, hparse, hcompile, -, -, hcheck⟩ := of_compilesTo h
  obtain ⟨site, decl, hroot, hcheck⟩ := of_firstTypeCut hcheck
  rw [Bool.and_eq_true, decide_eq_true_eq] at hcheck
  obtain ⟨a', ha', hdiffer⟩ := (Option.any_eq_true _ _).mp hcheck.2
  exact ⟨tree, site, decl, a, a', hparse, hroot, hcheck.1, .halves decl 1, hcompile,
    Fallible.ok_of_toOption_eq_some ha', ne_of_differ hdiffer⟩

/-- A constructor of the type itself in the second part, a nested type in
the first that the second names, a nested type in the second that is named
after a dot: each changes what the file compiles to. -/
theorem cut_changes_module :
    ChangesInHalves "class C \x7b int n; static C() \x7b \x7d \x7d"
      ∧ ChangesInHalves "class C \x7b class D \x7b \x7d void M(D d) \x7b \x7d \x7d"
      ∧ ChangesInHalves
        "class C \x7b int n; class D \x7b \x7d \x7d class E \x7b void M(C.D d) \x7b \x7d \x7d" :=
  ⟨changesInHalves_of_runs (by decide +kernel), changesInHalves_of_runs (by decide +kernel),
    changesInHalves_of_runs (by decide +kernel)⟩

end ClrListing.Lowering
