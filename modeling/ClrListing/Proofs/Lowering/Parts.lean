/-
A type in parts compiles like the whole.

The type is cut in two: the second part is opened at the record of the
first, so that its members follow those of the first as they follow them
in the whole type. What else a file declares is common to both
(`emitParts`, `MembersInStep`, `emitSpaceSite`). More parts are cut off one
by one from the end.
-/
import ClrListing.Proofs.Lowering.Alike
import ClrListing.Proofs.Lowering.Compiled
import ClrListing.Proofs.Lowering.Records

namespace ClrListing.Lowering

open Assembly Metadata Source Syntax

-- ============================================================== places

/-- What stands behind the front of what a list has from a place on. -/
theorem prefix_drop_add {α : Type} {xs ys zs : List α} {n : Nat} (h : xs ++ ys <+: zs.drop n) :
    ys <+: zs.drop (n + xs.length) := by
  obtain ⟨rest, hrest⟩ := h
  refine ⟨rest, ?_⟩
  rw [← List.drop_drop, ← hrest, List.append_assoc, List.drop_left]

/-- Whether declared types stand in a list from a place on. -/
def StandsIn (types' : List DeclaredType) (n : Nat) (declared : List DeclaredType) : Prop :=
  declared <+: types'.drop n

section Places

variable {types' xs ys declared : List DeclaredType} {n p s : Nat}

theorem StandsIn.left (h : StandsIn types' n (xs ++ ys)) : StandsIn types' n xs :=
  (List.prefix_append xs ys).trans h

theorem StandsIn.right (h : StandsIn types' n (xs ++ ys)) :
    StandsIn types' (n + xs.length) ys :=
  prefix_drop_add h

theorem StandsIn.getElem? (h : StandsIn types' n declared) {i : Nat} {t : DeclaredType}
    (ht : declared[i]? = some t) : types'[n + i]? = some t := by
  obtain ⟨rest, hrest⟩ := h
  rw [← List.getElem?_drop, ← hrest,
    List.getElem?_append_left (List.getElem?_eq_some_iff.mp ht).1, ht]

theorem StandsIn.tail {t : DeclaredType} (h : StandsIn types' n (t :: declared)) :
    StandsIn types' (n + 1) declared := by
  have hright : StandsIn types' (n + [t].length) declared := StandsIn.right h
  exact hright

theorem StandsIn.head {t : DeclaredType} (h : StandsIn types' n (t :: declared)) :
    types'[n]? = some t :=
  h.getElem? (i := 0) rfl

/-- Types before the cut stay where they are. -/
theorem StandsIn.before (h : StandsIn types' n declared) (hs : n + declared.length ≤ s)
    (hp : n + declared.length ≤ p ∨ p < n) : StandsAt types' (collapse p s) p n n declared := by
  intro i t ht
  have hi := (List.getElem?_eq_some_iff.mp ht).1
  exact ⟨h.getElem? ht, collapse_of_lt (by omega), by omega⟩

/-- Types behind the cut have moved by one place. -/
theorem StandsIn.behind (h : StandsIn types' (n + 1) declared) (hs : s ≤ n) (hp : p < s) :
    StandsAt types' (collapse p s) p n (n + 1) declared := by
  intro i t ht
  refine ⟨h.getElem? ht, ?_, by omega⟩
  rw [Nat.add_right_comm]
  exact collapse_succ (by omega)

end Places

-- =========================================================== two parts

/-- Whether a type at `p` is cut in two parts, the second at `s`, so that
the names in both are found alike. -/
structure CutAt (back : Prop) (types cut : List DeclaredType) (decl part part' : TypeDecl)
    (p s : Nat) : Prop where
  parts : IsCut decl [part, part']
  hasMembers : decl.HasMembers
  back : back → decl.modifiers.has .isPartial = true
  constructors : part.members.any isTypeConstructor = decl.members.any isTypeConstructor
  at_cut : p + 1 + typeCount part.members = s
  collapses : Collapses types cut (collapse p s) p
  inFirst : ∀ name ∈ namesInMembers part.members, ∀ segment ∈ name.head?,
    FindsAlike types cut (collapse p s) p segment
  inSecond : ∀ name ∈ namesInMembers part'.members, ∀ segment ∈ name.head?,
    FindsAlike types cut (collapse p s) s segment

namespace CutAt

variable {back : Prop} {types cut : List DeclaredType} {decl part part' : TypeDecl} {p s : Nat}

theorem lt (h : CutAt back types cut decl part part' p s) : p < s := by
  have hcut := h.at_cut
  omega

theorem isPart (h : CutAt back types cut decl part part' p s) : IsPart decl part :=
  h.parts.isPart part List.mem_cons_self

theorem isPart' (h : CutAt back types cut decl part part' p s) : IsPart decl part' :=
  h.parts.isPart part' (List.mem_cons_of_mem _ List.mem_cons_self)

theorem members (h : CutAt back types cut decl part part' p s) :
    decl.members = part.members ++ part'.members := by
  rw [← h.parts.members, List.flatMap_cons, List.flatMap_singleton]

theorem typeCount_members (h : CutAt back types cut decl part part' p s) :
    typeCount decl.members = typeCount part.members + typeCount part'.members := by
  rw [h.members, typeCount_append]

theorem wellNamed_members (h : CutAt back types cut decl part part' p s) (hw : decl.WellNamed) :
    AllWellNamed part.members ∧ AllWellNamed part'.members := by
  have hall := (TypeDecl.wellNamed_members hw)
  rw [h.members, allWellNamed_iff] at hall
  exact ⟨allWellNamed_iff.mpr fun m hm => hall m (List.mem_append_left _ hm),
    allWellNamed_iff.mpr fun m hm => hall m (List.mem_append_right _ hm)⟩

theorem headerAlike (h : CutAt back types cut decl part part' p s) :
    HeaderAlike back decl part.unplaced :=
  HeaderAlike.unplaced ⟨h.isPart.kind, h.isPart.name, h.isPart.typeParams, h.isPart.modifiers,
    fun _ => h.isPart.isPartial, fun hback => h.isPart.isPartial.trans (h.back hback).symm,
    h.constructors⟩

end CutAt

section Emitting

variable {setting setting' : Setting}

theorem emitMembers_append (inside : Enclosing) (ms more : List Member) (e : Emission) :
    emitMembers setting inside (ms ++ more) e
      = emitMembers setting inside more (emitMembers setting inside ms e) := by
  induction ms generalizing e with
  | nil => rw [List.nil_append, emitMembers]
  | cons m rest ih => rw [List.cons_append, emitMembers, emitMembers, ih]

theorem emitType_members {sc : Scope} {outer : Option Enclosing} {decl : TypeDecl} {e : Emission}
    {inside : Enclosing} (h : (openType setting sc outer decl e).2 = some inside)
    (hkind : decl.HasMembers) :
    emitType setting sc outer decl e
      = emitMembers setting inside decl.members (openType setting sc outer decl e).1 := by
  rw [emitType_of_opened h]
  obtain ⟨henum, hdelegate⟩ := hkind
  cases hk : decl.kind with
  | enumType => exact absurd hk henum
  | delegateType => exact absurd hk hdelegate
  | classType => rfl
  | structType => rfl
  | interfaceType => rfl

variable {back : Prop} {types : List DeclaredType} {decl part part' : TypeDecl} {p s : Nat}

/-- The members of a part, which stands at a place that is sent to `p`,
keep two compilations in step. -/
theorem InStep.emitPartMembers (hoptions : setting'.options = setting.options) {c : Nat → Nat}
    {sc : Scope} {inside : Enclosing} {ms : List Member} {space : String} {q n n' : Nat}
    {t : DeclaredType} {typeParams : List String} {e e' : Emission} (h : InStep back n n' e e')
    (hc : Collapses types sc.types c p) (hclear : sc.Clear c p)
    (hscope : inside.surroundings.scope = sc.inType q typeParams) (hq : sc.types[q]? = some t)
    (ht : t.enclosing = sc.enclosing) (hw : AllWellNamed ms)
    (hstands : StandsAt sc.types c p n n' (declaredInMembers space q n' ms))
    (hdots : ∀ name ∈ namesInMembers ms, DotsAlike types c p sc name)
    (hstarts : ∀ name ∈ namesInMembers ms, ∀ segment ∈ name.head?,
      FindsAlike types sc.types c q segment) :
    InStep back (n + typeCount ms) (n' + typeCount ms)
      (Lowering.emitMembers setting (inside.collapsed types c) ms e)
      (Lowering.emitMembers setting' inside (allUnplaced ms) e') := by
  have hc' : Collapses types inside.surroundings.scope.types c p := by
    rw [hscope]
    exact hc
  have hvalid : inside.surroundings.scope.Valid := by
    rw [hscope]
    exact Scope.valid_inType hq typeParams
  have hin : inside.surroundings.scope.enclosing = some q := by
    rw [hscope]
    rfl
  have hstands' : StandsAt inside.surroundings.scope.types c p n n'
      (declaredInMembers space q n' ms) := by
    rw [hscope]
    exact hstands
  refine InStep.emitMembers hoptions ms h hc' hvalid hin hw hstands' fun name hname => ?_
  rw [hscope]
  exact (hclear.bound hc (hdots name hname)).inType hc hclear.valid hq ht (hstarts name hname) _

/-- The second part is opened at the record of the first, and its members
keep two compilations in step. -/
theorem InStep.emitSecondPart (hoptions : setting'.options = setting.options) {sc : Scope}
    {outer : Option Enclosing} {inside : Enclosing} {space : String} {e e' : Emission}
    (h : InStep back s s e e') (hcut : CutAt back types sc.types decl part part' p s)
    (hclear : sc.Clear (collapse p s) p) (hw : AllWellNamed part'.members)
    (hhosts : Hosts e' (keyOf sc outer part.unplaced.name part.unplaced.arity) part.unplaced
      inside.record inside.token)
    (hs : inside.surroundings = ⟨part.unplaced.kind, part.unplaced.name,
      displayOf sc outer part.unplaced.name, sc.inType p part.unplaced.typeParams⟩)
    (hstands : StandsIn sc.types s (declaredInType space sc.enclosing s part'))
    (hdots : ∀ name ∈ namesInMembers part'.members, DotsAlike types (collapse p s) p sc name) :
    InStep back (s + typeCount part'.members) (s + typeCount part'.members + 1)
      (Lowering.emitMembers setting (inside.collapsed types (collapse p s)) part'.members e)
      (Lowering.emitType setting' sc outer part'.unplaced e') := by
  have hpart := hcut.isPart
  have hpart' := hcut.isPart'
  have hlt := hcut.lt
  refine h.step (grows_emitMembers _ _ _ _) (grows_emitType _ _ _ _ _) fun halike hn hn' => ?_
  let again : Enclosing := { inside with surroundings :=
    { inside.surroundings with scope := sc.inType s part.unplaced.typeParams } }
  have hagain : openType setting' sc outer part'.unplaced e'
      = ({ e' with place := s + 1 }, some again) := by
    have hopen := openType_again setting' hhosts hs hpart.unplaced.isPartial
      (hpart.sibling hpart').unplaced
    rwa [hn'] at hopen
  -- both parts are the same type in the undivided file
  have hscope : (sc.inType p part.unplaced.typeParams).collapsed types (collapse p s)
      = (sc.inType s part.unplaced.typeParams).collapsed types (collapse p s) := by
    unfold Scope.collapsed Scope.inType
    simp only [Option.map_some, collapse_of_lt hlt, collapse_self]
  have hsame : inside.collapsed types (collapse p s) = again.collapsed types (collapse p s) := by
    unfold Enclosing.collapsed Surroundings.collapsed
    rw [show inside.surroundings.scope = _ from congrArg Surroundings.scope hs, hscope]
  rw [declaredInType_eq] at hstands
  have hplaces : StandsAt sc.types (collapse p s) p s (s + 1)
      (declaredInMembers space s (s + 1) part'.members) := by
    have htail : StandsIn sc.types (s + 1) (declaredInMembers space s (s + 1) part'.members) :=
      hstands.tail
    exact htail.behind (Nat.le_refl s) hlt
  rw [emitType_members (congrArg Prod.snd hagain) (hpart'.hasMembers hcut.hasMembers), hagain,
    TypeDecl.members_unplaced, hsame, Nat.add_right_comm]
  exact InStep.emitPartMembers hoptions (.of_alike { halike with } hn rfl) hcut.collapses hclear
    rfl hstands.head rfl hw hplaces hdots hcut.inSecond

/-- Two parts keep a compilation in step with that of the whole type. -/
theorem InStep.emitParts (hoptions : setting'.options = setting.options) {sc : Scope}
    (outer : Option Enclosing) {space : String} {e e' : Emission} (h : InStep back p p e e')
    (hcut : CutAt back types sc.types decl part part' p s) (hclear : sc.Clear (collapse p s) p)
    (hw : decl.WellNamed)
    (hstands : StandsIn sc.types p (declaredInType space sc.enclosing p part
      ++ declaredInType space sc.enclosing s part'))
    (hdots : ∀ name ∈ namesInMembers decl.members, DotsAlike types (collapse p s) p sc name) :
    InStep back (s + typeCount part'.members) (s + typeCount part'.members + 1)
      (Lowering.emitType setting (sc.collapsed types (collapse p s))
        (outer.map (Enclosing.collapsed types (collapse p s))) decl e)
      (Lowering.emitType setting' sc outer part'.unplaced
        (Lowering.emitType setting' sc outer part.unplaced e')) := by
  have hc := hcut.collapses
  have hlt := hcut.lt
  have hat := hcut.at_cut
  have hpart := hcut.isPart
  have hpart' := hcut.isPart'
  have hopen := h.opened types (collapse p s) sc outer setting setting' hcut.headerAlike
    (collapse_of_lt hlt)
  rcases hopen with hbroken | ⟨inside, hin, hin', hscope, halike, hn, hn'⟩
  · exact .inl (hbroken.grows (grows_inside _ _ _ _ _)
      ((grows_inside _ _ _ _ _).trans (grows_emitType _ _ _ _ _)))
  have hw' := hcut.wellNamed_members hw
  rw [hcut.members, namesInMembers_append] at hdots
  have hstands' := hstands.right
  rw [length_type, show p + (typeCount part.members + 1) = s by omega] at hstands'
  have hstands := hstands.left
  rw [declaredInType_eq] at hstands
  -- the members of the first part follow its opening in both compilations
  have hplaces : StandsAt sc.types (collapse p s) p (p + 1) (p + 1)
      (declaredInMembers space p (p + 1) part.members) := by
    have htail : StandsIn sc.types (p + 1) (declaredInMembers space p (p + 1) part.members) :=
      hstands.tail
    exact htail.before (by rw [length_members]; omega) (.inr (Nat.lt_succ_self p))
  have hfirst := InStep.emitPartMembers hoptions (.of_alike halike hn hn') hc hclear hscope
    hstands.head rfl hw'.1 hplaces (fun name hname => hdots name (List.mem_append_left _ hname))
    hcut.inFirst
  rw [emitType_members hin hcut.hasMembers, hcut.members, emitMembers_append,
    emitType_members hin' (hpart.hasMembers hcut.hasMembers), TypeDecl.members_unplaced]
  rw [hat] at hfirst
  have hhosts := (hosts_openType hin').keeps
    ((progress_keeps setting').emitMembers (allUnplaced part.members) inside _)
  have hsurroundings : inside.surroundings = ⟨part.unplaced.kind, part.unplaced.name,
      displayOf sc outer part.unplaced.name, sc.inType p part.unplaced.typeParams⟩ := by
    rw [← hscope, surroundings_openType hin']
  exact InStep.emitSecondPart hoptions hfirst hcut hclear hw'.2 hhosts hsurroundings hstands'
    fun name hname => hdots name (List.mem_append_right _ hname)

end Emitting

-- =============================================================== sites

section Sites

variable {back : Prop} {types : List DeclaredType} {setting setting' : Setting}
variable {decl part part' : TypeDecl} {n p s : Nat}

theorem typeCount_fill (hcut : IsCut decl [part, part']) (site : MemberSite) :
    typeCount (site.fill [part, part']) = typeCount (site.fill [decl]) + 1 := by
  obtain ⟨x, -, -, hd⟩ := divided_declaredInMembers hcut rfl "" site 0 1 Nat.zero_lt_one rfl
  have hlength := hd.length_cut
  rwa [length_members, length_members] at hlength

theorem cut_le_fill (hcut : IsCut decl [part, part']) (hs : p + 1 + typeCount part.members = s)
    (site : MemberSite) (hp : n + offsetIn site = p) : s ≤ n + typeCount (site.fill [decl]) := by
  have hp' : n + 1 + offsetIn site = p + 1 := by omega
  obtain ⟨x, -, -, hd⟩ := divided_declaredInMembers hcut rfl "" site n (n + 1)
    (Nat.lt_succ_self n) hp'
  have hle := hd.le_length
  rw [length_members] at hle
  omega

theorem spaceTypeCount_fill (hcut : IsCut decl [part, part']) (site : SpaceSite) :
    spaceTypeCount (site.fill [part, part']) = spaceTypeCount (site.fill [decl]) + 1 := by
  obtain ⟨x, -, -, hd⟩ := divided_declaredInSpace hcut rfl site "" 0 rfl
  have hlength := hd.length_cut
  rwa [length_space, length_space] at hlength

theorem cut_le_fillSpace (hcut : IsCut decl [part, part'])
    (hs : p + 1 + typeCount part.members = s) (site : SpaceSite)
    (hp : n + offsetInSpace site = p) : s ≤ n + spaceTypeCount (site.fill [decl]) := by
  obtain ⟨x, -, -, hd⟩ := divided_declaredInSpace hcut hs site "" n hp
  have hle := hd.le_length
  rwa [length_space] at hle

theorem any_isTypeConstructor_fill (decls : List TypeDecl) (site : MemberSite) :
    (site.fill decls).any isTypeConstructor = (site.fill []).any isTypeConstructor := by
  induction site with
  | here rest =>
    have hnone : (decls.map Member.type).any isTypeConstructor = false := by
      rw [List.any_map]
      exact List.any_eq_false.mpr fun d _ => Bool.false_ne_true
    rw [MemberSite.fill, MemberSite.fill, List.any_append, hnone]
    rfl
  | inside outer site rest => rfl
  | later m site ih => rw [MemberSite.fill, MemberSite.fill, List.any_cons, List.any_cons, ih]

/-- Whether the members around a place keep two compilations in step, the
type being whole in one and in parts in the other. -/
def MembersInStep (back : Prop) (types : List DeclaredType) (setting setting' : Setting)
    (decl part part' : TypeDecl) (p s : Nat) (site : MemberSite) : Prop :=
  ∀ (inside : Enclosing) (space : String) (outer n : Nat) (e e' : Emission),
    InStep back n n e e' →
    CutAt back types inside.surroundings.scope.types decl part part' p s →
    inside.surroundings.scope.Clear (collapse p s) p →
    inside.surroundings.scope.enclosing = some outer → n + offsetIn site = p →
    AllWellNamed (site.fill [decl]) →
    StandsIn inside.surroundings.scope.types n
      (declaredInMembers space outer n (site.fill [part, part'])) →
    (∀ name ∈ namesInMembers (site.fill [decl]),
      DotsAlike types (collapse p s) p inside.surroundings.scope name) →
    InStep back (n + typeCount (site.fill [decl])) (n + typeCount (site.fill [decl]) + 1)
      (emitMembers setting (inside.collapsed types (collapse p s)) (site.fill [decl]) e)
      (emitMembers setting' inside (allUnplaced (site.fill [part, part'])) e')

/-- A type around the place. -/
theorem MembersInStep.emitType {site : MemberSite}
    (ih : MembersInStep back types setting setting' decl part part' p s site)
    (outerDecl : TypeDecl) (outer : Option Enclosing) {sc : Scope} {space : String}
    {e e' : Emission} (h : InStep back n n e e')
    (hcut : CutAt back types sc.types decl part part' p s) (hclear : sc.Clear (collapse p s) p)
    (hp : n + (offsetIn site + 1) = p)
    (hw : TypeDecl.WellNamed { outerDecl with members := site.fill [decl] })
    (hstands : StandsIn sc.types n (declaredInType space sc.enclosing n
      { outerDecl with members := site.fill [part, part'] }))
    (hdots : ∀ name ∈ namesInMembers (site.fill [decl]),
      DotsAlike types (collapse p s) p sc name) :
    InStep back (n + (typeCount (site.fill [decl]) + 1))
      (n + (typeCount (site.fill [decl]) + 1) + 1)
      (Lowering.emitType setting (sc.collapsed types (collapse p s))
        (outer.map (Enclosing.collapsed types (collapse p s)))
        { outerDecl with members := site.fill [decl] } e)
      (Lowering.emitType setting' sc outer
        (TypeDecl.unplaced { outerDecl with members := site.fill [part, part'] }) e') := by
  have hlt := hcut.lt
  have hheader : HeaderAlike back { outerDecl with members := site.fill [decl] }
      (TypeDecl.unplaced { outerDecl with members := site.fill [part, part'] }) :=
    HeaderAlike.unplaced ⟨rfl, rfl, rfl, fun _ _ => rfl, id, fun _ => rfl,
      (any_isTypeConstructor_fill _ site).trans (any_isTypeConstructor_fill _ site).symm⟩
  have hto : collapse p s n = n := collapse_of_lt (by omega)
  have hopen := h.opened types (collapse p s) sc outer setting setting' hheader hto
  rcases hopen with hbroken | ⟨inside, hin, hin', hscope, halike, hn, hn'⟩
  · exact .inl (hbroken.grows (grows_inside _ _ _ _ _) (grows_inside _ _ _ _ _))
  have hkind := TypeDecl.hasMembers_of_ne_nil hw site.fill_ne_nil
  have hkind' : (TypeDecl.unplaced
      { outerDecl with members := site.fill [part, part'] }).HasMembers := by
    rw [TypeDecl.unplaced_eq]
    exact hkind
  rw [declaredInType_eq] at hstands
  have hne : collapse p s n ≠ p := by omega
  have hin_types : inside.surroundings.scope.types = sc.types := by
    rw [hscope]
    rfl
  rw [emitType_members hin hkind, emitType_members hin' hkind', TypeDecl.members_unplaced]
  have hall := ih inside space n (n + 1) _ _ (.of_alike halike hn hn') (by rwa [hin_types])
    (by rw [hscope]; exact hclear.inType hcut.collapses hstands.head rfl hne _)
    (by rw [hscope]; rfl) (by omega) (TypeDecl.wellNamed_members hw)
    (by rw [hin_types]; exact hstands.tail)
    (fun name hname => by rw [hscope]; exact hdots name hname)
  rw [Nat.add_assoc n 1, Nat.add_comm 1] at hall
  exact hall

/-- Members behind the type. -/
theorem InStep.emitBehind (hoptions : setting'.options = setting.options) {rest : List Member}
    {inside : Enclosing} {space : String} {outer m : Nat} {e e' : Emission}
    (h : InStep back m (m + 1) e e')
    (hcut : CutAt back types inside.surroundings.scope.types decl part part' p s)
    (hclear : inside.surroundings.scope.Clear (collapse p s) p)
    (hin : inside.surroundings.scope.enclosing = some outer) (hm : s ≤ m)
    (hw : AllWellNamed rest)
    (hstands : StandsIn inside.surroundings.scope.types (m + 1)
      (declaredInMembers space outer (m + 1) rest))
    (hdots : ∀ name ∈ namesInMembers rest,
      DotsAlike types (collapse p s) p inside.surroundings.scope name) :
    InStep back (m + typeCount rest) (m + typeCount rest + 1)
      (Lowering.emitMembers setting (inside.collapsed types (collapse p s)) rest e)
      (Lowering.emitMembers setting' inside (allUnplaced rest) e') := by
  rw [Nat.add_right_comm]
  exact InStep.emitMembers hoptions rest h hcut.collapses hclear.valid hin hw
    (hstands.behind hm hcut.lt) fun name hname => hclear.bound hcut.collapses (hdots name hname)

/-- Wherever among members the type stands, they keep two compilations in
step. -/
theorem membersInStep (hoptions : setting'.options = setting.options) :
    ∀ site : MemberSite, MembersInStep back types setting setting' decl part part' p s site
  | .here rest => by
    intro inside space outer n e e' h hcut hclear hin hp hw hstands hdots
    obtain rfl : n = p := hp
    have hlt := hcut.lt
    have hat := hcut.at_cut
    have hcount := hcut.typeCount_members
    simp only [MemberSite.fill, List.map_cons, List.map_nil, List.cons_append, List.nil_append]
      at hw hstands hdots ⊢
    rw [AllWellNamed, Member.WellNamed] at hw
    rw [namesInMembers, Member.names, TypeDecl.names_eq] at hdots
    simp only [declaredInMembers, declaredInMember_type, length_type, ← List.append_assoc]
      at hstands
    have hmid : n + (typeCount part.members + 1) = s := by omega
    rw [hmid, ← hin] at hstands
    have hparts := h.emitParts hoptions (some inside) hcut hclear hw.1 hstands.left
      fun name hname => hdots name (List.mem_append_left _ (List.mem_append_right _ hname))
    have hright := hstands.right
    rw [List.length_append, length_type, length_type, ← Nat.add_assoc n, hmid, ← Nat.add_assoc]
      at hright
    have hall := InStep.emitBehind hoptions hparts hcut hclear hin (by omega) hw.2 hright
      fun name hname => hdots name (List.mem_append_right _ hname)
    have hcount' : n + typeCount (.type decl :: rest)
        = s + typeCount part'.members + typeCount rest := by
      rw [typeCount_cons, typeCount_type]
      omega
    rw [hcount']
    simp only [allUnplaced, Lowering.emitMembers, Lowering.emitMember, Member.unplaced]
    exact hall
  | .inside outerDecl site rest => by
    intro inside space outer n e e' h hcut hclear hin hp hw hstands hdots
    have hlt := hcut.lt
    rw [offsetIn] at hp
    rw [MemberSite.fill, AllWellNamed, Member.WellNamed] at hw
    rw [MemberSite.fill, declaredInMembers, declaredInMember_type, ← hin] at hstands
    rw [MemberSite.fill, namesInMembers, Member.names, TypeDecl.names_eq] at hdots
    have hfirst := (membersInStep hoptions site).emitType outerDecl (some inside) h hcut hclear hp
      hw.1 hstands.left
      fun name hname => hdots name (List.mem_append_left _ (List.mem_append_right _ hname))
    have hright := hstands.right
    rw [length_type, typeCount_fill hcut.parts, ← Nat.add_assoc, ← Nat.add_assoc] at hright
    have hle := cut_le_fill hcut.parts hcut.at_cut site (n := n + 1) (by omega)
    rw [← Nat.add_assoc] at hfirst
    have hall := InStep.emitBehind hoptions hfirst hcut hclear hin (by omega) hw.2 hright
      fun name hname => hdots name (List.mem_append_right _ hname)
    rw [MemberSite.fill, MemberSite.fill, allUnplaced, Lowering.emitMembers, Lowering.emitMembers,
      Lowering.emitMember, Member.unplaced, Lowering.emitMember, typeCount_cons, typeCount_type,
      ← Nat.add_assoc, ← Nat.add_assoc]
    exact hall
  | .later m site => by
    intro inside space outer n e e' h hcut hclear hin hp hw hstands hdots
    have hlt := hcut.lt
    have hat := hcut.at_cut
    rw [offsetIn] at hp
    rw [MemberSite.fill, AllWellNamed] at hw
    rw [MemberSite.fill, declaredInMembers] at hstands
    rw [MemberSite.fill, namesInMembers] at hdots
    have hplaces := hstands.left.before (s := s) (p := p) (by rw [length_member]; omega)
      (.inl (by rw [length_member]; omega))
    have hfirst := InStep.emitMember hoptions m h hcut.collapses hclear.valid hin hw.1 hplaces
      fun name hname => hclear.bound hcut.collapses (hdots name (List.mem_append_left _ hname))
    have hright := hstands.right
    rw [length_member] at hright
    have hall := membersInStep hoptions site inside space outer (n + typeCount [m]) _ _ hfirst hcut
      hclear hin (by omega) hw.2 hright fun name hname => hdots name (List.mem_append_right _ hname)
    rw [MemberSite.fill, MemberSite.fill, allUnplaced, Lowering.emitMembers,
      Lowering.emitMembers, typeCount_cons, ← Nat.add_assoc]
    exact hall

/-- Members of a namespace behind the type. -/
theorem InStep.emitSpaceBehind (hoptions : setting'.options = setting.options)
    {rest : List NamespaceMember} {sc : Scope} {space : String} {m : Nat} {e e' : Emission}
    (h : InStep back m (m + 1) e e') (hcut : CutAt back types sc.types decl part part' p s)
    (hin : sc.enclosing = none) (hm : s ≤ m) (hw : SpaceWellNamed rest)
    (hstands : StandsIn sc.types (m + 1) (declaredInSpace space (m + 1) rest))
    (hdots : ∀ name ∈ namesInSpace rest, DotsAlike types (collapse p s) p sc name) :
    InStep back (m + spaceTypeCount rest) (m + spaceTypeCount rest + 1)
      (Lowering.emitSpaceMembers setting (sc.collapsed types (collapse p s)) rest e)
      (Lowering.emitSpaceMembers setting' sc (spaceUnplaced rest) e') := by
  rw [Nat.add_right_comm]
  exact InStep.emitSpaceMembers hoptions rest sc h hcut.collapses hin hw
    (hstands.behind hm hcut.lt) hdots

/-- Wherever in a namespace the type stands, its members keep two
compilations in step. -/
theorem InStep.emitSpaceSite (hoptions : setting'.options = setting.options) :
    ∀ (site : SpaceSite) (sc : Scope) (space : String) (n : Nat) (e e' : Emission),
    InStep back n n e e' → CutAt back types sc.types decl part part' p s → sc.enclosing = none →
    n + offsetInSpace site = p → SpaceWellNamed (site.fill [decl]) →
    StandsIn sc.types n (declaredInSpace space n (site.fill [part, part'])) →
    (∀ name ∈ namesInSpace (site.fill [decl]), DotsAlike types (collapse p s) p sc name) →
    InStep back (n + spaceTypeCount (site.fill [decl]))
      (n + spaceTypeCount (site.fill [decl]) + 1)
      (Lowering.emitSpaceMembers setting (sc.collapsed types (collapse p s)) (site.fill [decl]) e)
      (Lowering.emitSpaceMembers setting' sc (spaceUnplaced (site.fill [part, part'])) e')
  | .here rest, sc, space, n, e, e', h, hcut, hin, hp, hw, hstands, hdots => by
    obtain rfl : n = p := hp
    have hlt := hcut.lt
    have hat := hcut.at_cut
    have hcount := hcut.typeCount_members
    have hmid : n + (typeCount part.members + 1) = s := by omega
    simp only [SpaceSite.fill, List.map_cons, List.map_nil, List.cons_append, List.nil_append]
      at hw hstands hdots ⊢
    rw [SpaceWellNamed, NamespaceMember.WellNamed] at hw
    rw [namesInSpace, NamespaceMember.names, TypeDecl.names_eq] at hdots
    simp only [declaredInSpace, declaredInSpaceMember, length_type, ← List.append_assoc] at hstands
    rw [hmid, ← hin] at hstands
    have hparts := h.emitParts hoptions none hcut (Scope.clear_of_none hin) hw.1 hstands.left
      fun name hname => hdots name (List.mem_append_left _ (List.mem_append_right _ hname))
    have hright := hstands.right
    rw [List.length_append, length_type, length_type, ← Nat.add_assoc n, hmid, ← Nat.add_assoc]
      at hright
    have hall := InStep.emitSpaceBehind hoptions hparts hcut hin (by omega) hw.2 hright
      fun name hname => hdots name (List.mem_append_right _ hname)
    have hcount' : n + spaceTypeCount (.type decl :: rest)
        = s + typeCount part'.members + spaceTypeCount rest := by
      rw [spaceTypeCount_cons, spaceTypeCount_type]
      omega
    rw [hcount']
    simp only [spaceUnplaced, Lowering.emitSpaceMembers, Lowering.emitSpaceMember,
      NamespaceMember.unplaced]
    exact hall
  | .inType outerDecl site rest, sc, space, n, e, e', h, hcut, hin, hp, hw, hstands, hdots => by
    have hlt := hcut.lt
    rw [offsetInSpace] at hp
    rw [SpaceSite.fill, SpaceWellNamed, NamespaceMember.WellNamed] at hw
    rw [SpaceSite.fill, declaredInSpace, declaredInSpaceMember, ← hin] at hstands
    rw [SpaceSite.fill, namesInSpace, NamespaceMember.names, TypeDecl.names_eq] at hdots
    have hfirst := (membersInStep hoptions site).emitType outerDecl none h hcut
      (Scope.clear_of_none hin) hp hw.1 hstands.left
      fun name hname => hdots name (List.mem_append_left _ (List.mem_append_right _ hname))
    have hright := hstands.right
    rw [length_type, typeCount_fill hcut.parts, ← Nat.add_assoc, ← Nat.add_assoc] at hright
    have hle := cut_le_fill hcut.parts hcut.at_cut site (n := n + 1) (by omega)
    rw [← Nat.add_assoc] at hfirst
    have hall := InStep.emitSpaceBehind hoptions hfirst hcut hin (by omega) hw.2 hright
      fun name hname => hdots name (List.mem_append_right _ hname)
    rw [SpaceSite.fill, SpaceSite.fill, spaceUnplaced, Lowering.emitSpaceMembers,
      Lowering.emitSpaceMembers, Lowering.emitSpaceMember, NamespaceMember.unplaced,
      Lowering.emitSpaceMember, spaceTypeCount_cons, spaceTypeCount_type, ← Nat.add_assoc,
      ← Nat.add_assoc]
    exact hall
  | .inSpace ⟨name, fileScoped, usings, members, span⟩ site rest, sc, space, n, e, e', h, hcut,
      hin, hp, hw, hstands, hdots => by
    rw [offsetInSpace] at hp
    rw [SpaceSite.fill, SpaceWellNamed, NamespaceMember.WellNamed] at hw
    rw [SpaceSite.fill, declaredInSpace, declaredInSpaceMember] at hstands
    rw [SpaceSite.fill, namesInSpace, NamespaceMember.names] at hdots
    have hfirst := InStep.emitSpaceSite hoptions site ((sc.inSpace name).importing usings) _ n e e'
      h hcut hin hp hw.1.2 hstands.left fun x hx => hdots x (List.mem_append_left _ hx)
    have hright := hstands.right
    rw [length_space, spaceTypeCount_fill hcut.parts, ← Nat.add_assoc] at hright
    have hle := cut_le_fillSpace hcut.parts hcut.at_cut site hp
    have hall := InStep.emitSpaceBehind hoptions hfirst hcut hin hle hw.2 hright
      fun x hx => hdots x (List.mem_append_right _ hx)
    rw [SpaceSite.fill, SpaceSite.fill, spaceUnplaced, Lowering.emitSpaceMembers,
      Lowering.emitSpaceMembers, Lowering.emitSpaceMember, NamespaceMember.unplaced,
      Lowering.emitSpaceMember, spaceTypeCount_cons, spaceTypeCount_space, ← Nat.add_assoc]
    exact hall
  | .later m site, sc, space, n, e, e', h, hcut, hin, hp, hw, hstands, hdots => by
    have hlt := hcut.lt
    rw [offsetInSpace] at hp
    rw [SpaceSite.fill, SpaceWellNamed] at hw
    rw [SpaceSite.fill, declaredInSpace] at hstands
    rw [SpaceSite.fill, namesInSpace] at hdots
    have hplaces := hstands.left.before (s := s) (p := p) (by rw [length_spaceMember]; omega)
      (.inl (by rw [length_spaceMember]; omega))
    have hfirst := InStep.emitSpaceMember hoptions m h hcut.collapses hin hw.1 hplaces
      fun name hname => hdots name (List.mem_append_left _ hname)
    have hright := hstands.right
    rw [length_spaceMember] at hright
    have hall := InStep.emitSpaceSite hoptions site sc space (n + spaceTypeCount [m]) _ _ hfirst
      hcut hin (by omega) hw.2 hright fun name hname => hdots name (List.mem_append_right _ hname)
    rw [SpaceSite.fill, SpaceSite.fill, spaceUnplaced, Lowering.emitSpaceMembers,
      Lowering.emitSpaceMembers, spaceTypeCount_cons, ← Nat.add_assoc]
    exact hall

end Sites

end ClrListing.Lowering
