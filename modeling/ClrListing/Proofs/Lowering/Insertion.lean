/-
The declared types of a file in which a type is cut in two.

The second part is a type of its own in the list, put in behind the types
inside the first part. What stands behind it moves by one place, and the
types directly inside the second part move into it. `Divided` says so of
the two lists; `divided_declaredInSpace` finds them so wherever in a file
the type stands. The list of the undivided file is then the other,
collapsed (`Halves.collapses`), and inside the two parts a segment finds
the types of the undivided type if the part it stands in declares them
first.
-/
import ClrListing.Proofs.Lowering.Collapse

namespace ClrListing.Lowering

open Syntax

-- ============================================================== places

/-- Where a place goes when the type at `p` is cut at `s`, as the place of
what stands behind the cut or as the type around it. -/
def moved (p s q : Nat) : Nat := if q < s then (if q = p then s else q) else q + 1

/-- The place in the undivided list. -/
def collapse (p s q : Nat) : Nat := if q < s then q else if q = s then p else q - 1

/-- A type where types go to other places. -/
def DeclaredType.renumbered (f : Nat → Nat) (t : DeclaredType) : DeclaredType :=
  { t with enclosing := t.enclosing.map f }

/-- A type behind the cut. -/
def DeclaredType.moved (p s : Nat) (t : DeclaredType) : DeclaredType :=
  { t with enclosing := t.enclosing.map (Lowering.moved p s) }

section Places

variable {p s q : Nat}

theorem collapse_of_lt (h : q < s) : collapse p s q = q := if_pos h

theorem collapse_self : collapse p s s = p := by
  unfold collapse
  rw [if_neg (Nat.lt_irrefl s), if_pos rfl]

theorem collapse_succ (h : s ≤ q) : collapse p s (q + 1) = q := by
  unfold collapse
  rw [if_neg (by omega), if_neg (by omega), Nat.add_sub_cancel]

theorem collapse_moved : collapse p s (moved p s q) = q := by
  unfold moved
  split
  · next hlt =>
    split
    · next heq => rw [collapse_self, heq]
    · exact collapse_of_lt hlt
  · next hge => exact collapse_succ (by omega)

theorem moved_collapse (h : collapse p s q ≠ p) : moved p s (collapse p s q) = q := by
  rcases Nat.lt_trichotomy q s with hlt | rfl | hgt
  · rw [collapse_of_lt hlt] at h ⊢
    rw [moved, if_pos hlt, if_neg h]
  · exact absurd collapse_self h
  · obtain ⟨q, rfl⟩ : ∃ r, q = r + 1 := ⟨q - 1, by omega⟩
    rw [collapse_succ (by omega), moved, if_neg (by omega)]

end Places

-- ====================================================== declared types

/-- How many types members declare. -/
def typeCount (ms : List Member) : Nat := (declaredInMembers "" 0 0 ms).length

/-- How many types the members of a namespace declare. -/
def spaceTypeCount (ms : List NamespaceMember) : Nat := (declaredInSpace "" 0 ms).length

/-- How many types are declared does not depend on where. -/
theorem lengthRule : DeclaredRule (fun _ _ => True) fun _ _ types _ _ types' =>
    types.length = types'.length where
  inSpace _ _ := trivial
  nil _ _ _ _ := rfl
  append hx hy := by rw [List.length_append, List.length_append, hx, hy]
  cons _ _ _ _ _ _ hin := by rw [List.length_cons, List.length_cons, hin]

@[simp] theorem length_members (space : String) (outer place : Nat) (ms : List Member) :
    (declaredInMembers space outer place ms).length = typeCount ms :=
  lengthRule.of_members space "" trivial ms outer 0 place 0

@[simp] theorem length_member (space : String) (outer place : Nat) (m : Member) :
    (declaredInMember space outer place m).length = typeCount [m] := by
  rw [typeCount, declaredInMembers, declaredInMembers, List.append_nil]
  exact lengthRule.of_member space "" trivial m outer 0 place 0

@[simp] theorem length_type (space : String) (enclosing : Option Nat) (place : Nat)
    (decl : TypeDecl) :
    (declaredInType space enclosing place decl).length = typeCount decl.members + 1 := by
  obtain ⟨_, _, _, _, _, members, _, _, _⟩ := decl
  rw [declaredInType, List.length_cons, length_members]

@[simp] theorem length_space (space : String) (place : Nat) (ms : List NamespaceMember) :
    (declaredInSpace space place ms).length = spaceTypeCount ms :=
  lengthRule.of_space ms space "" place 0 trivial

@[simp] theorem length_spaceMember (space : String) (place : Nat) (m : NamespaceMember) :
    (declaredInSpaceMember space place m).length = spaceTypeCount [m] := by
  rw [spaceTypeCount, declaredInSpace, declaredInSpace, List.append_nil]
  exact lengthRule.of_spaceMember m space "" place 0 trivial

theorem typeCount_cons (m : Member) (rest : List Member) :
    typeCount (m :: rest) = typeCount [m] + typeCount rest := by
  rw [← length_members "" 0 0 (m :: rest), declaredInMembers, List.length_append, length_member,
    length_members]

theorem typeCount_append (ms more : List Member) :
    typeCount (ms ++ more) = typeCount ms + typeCount more := by
  induction ms with
  | nil => exact (Nat.zero_add _).symm
  | cons m ms ih => rw [List.cons_append, typeCount_cons, typeCount_cons m ms, ih, Nat.add_assoc]

theorem typeCount_type (decl : TypeDecl) :
    typeCount [.type decl] = typeCount decl.members + 1 := by
  rw [← length_member "" 0 0, declaredInMember, length_type]

theorem spaceTypeCount_cons (m : NamespaceMember) (rest : List NamespaceMember) :
    spaceTypeCount (m :: rest) = spaceTypeCount [m] + spaceTypeCount rest := by
  rw [← length_space "" 0 (m :: rest), declaredInSpace, List.length_append, length_spaceMember,
    length_space]

theorem spaceTypeCount_type (decl : TypeDecl) :
    spaceTypeCount [.type decl] = typeCount decl.members + 1 := by
  rw [← length_spaceMember "" 0, declaredInSpaceMember, length_type]

theorem spaceTypeCount_space (decl : NamespaceDecl) :
    spaceTypeCount [.space decl] = spaceTypeCount decl.members := by
  obtain ⟨name, fileScoped, usings, members, span⟩ := decl
  rw [← length_spaceMember "" 0, declaredInSpaceMember, length_space]

theorem declaredInType_eq (space : String) (enclosing : Option Nat) (place : Nat)
    (decl : TypeDecl) :
    declaredInType space enclosing place decl
      = ⟨space, decl.name, decl.arity, decl.kind, enclosing⟩
        :: declaredInMembers space place (place + 1) decl.members := by
  obtain ⟨_, _, _, _, _, _, _, _, _⟩ := decl
  rw [declaredInType]
  rfl

theorem declaredInMember_type (space : String) (outer place : Nat) (decl : TypeDecl) :
    declaredInMember space outer place (.type decl)
      = declaredInType space (some outer) place decl := by
  rw [declaredInMember]

theorem declaredInMembers_append (space : String) (outer : Nat) (ms more : List Member)
    (place : Nat) :
    declaredInMembers space outer place (ms ++ more)
      = declaredInMembers space outer place ms
        ++ declaredInMembers space outer (place + typeCount ms) more := by
  rw [← length_members space outer place ms]
  induction ms generalizing place with
  | nil => rw [List.nil_append, declaredInMembers, List.nil_append, List.length_nil, Nat.add_zero]
  | cons m ms ih =>
    rw [List.cons_append, declaredInMembers, declaredInMembers, ih, List.append_assoc,
      List.length_append, Nat.add_assoc]

/-- Whether the types of a list, from a place on, stand inside `outer` or
inside one another. -/
def WithinFrom (outer : Option Nat) (place : Nat) (types : List DeclaredType) : Prop :=
  ∀ t ∈ types, ∀ o, t.enclosing = some o → some o = outer ∨ place ≤ o ∧ o < place + types.length

theorem WithinFrom.append {outer : Option Nat} {place : Nat} {xs ys : List DeclaredType}
    (hx : WithinFrom outer place xs) (hy : WithinFrom outer (place + xs.length) ys) :
    WithinFrom outer place (xs ++ ys) := by
  intro t ht o ho
  rw [List.length_append]
  rcases List.mem_append.mp ht with ht | ht
  · rcases hx t ht o ho with h | ⟨hlo, hhi⟩
    · exact .inl h
    · exact .inr ⟨hlo, by omega⟩
  · rcases hy t ht o ho with h | ⟨hlo, hhi⟩
    · exact .inl h
    · exact .inr ⟨by omega, by omega⟩

theorem WithinFrom.nil {outer : Option Nat} {place : Nat} : WithinFrom outer place [] :=
  fun _ ht => (List.not_mem_nil ht).elim

/-- None of the types stands directly inside a place that is none of
theirs. -/
theorem WithinFrom.ne {outer : Option Nat} {place p : Nat} {types : List DeclaredType}
    (h : WithinFrom outer place types) (houter : outer ≠ some p)
    (hp : p < place ∨ place + types.length ≤ p) :
    ∀ t ∈ types, t.enclosing ≠ some p := by
  intro t ht heq
  rcases h t ht p heq with hsome | ⟨hlo, hhi⟩
  · exact houter hsome.symm
  · omega

/-- What is declared inside a type stands inside it or inside one another. -/
theorem withinRule : DeclaredRule (fun _ _ => True) fun outer place types _ _ _ =>
    WithinFrom outer place types where
  inSpace _ _ := trivial
  nil _ _ _ _ := .nil
  append := .append
  cons := by
    intro space place inside _ _ _ name arity kind outer _ _ hin t ht o ho
    rw [List.length_cons]
    rcases List.mem_cons.mp ht with rfl | ht
    · exact .inl ho.symm
    · rcases hin t ht o ho with heq | ⟨hlo, hhi⟩
      · cases heq
        exact .inr ⟨Nat.le_refl _, by omega⟩
      · exact .inr ⟨by omega, by omega⟩

theorem within_declaredInMembers (space : String) (ms : List Member) (outer place : Nat) :
    WithinFrom (some outer) place (declaredInMembers space outer place ms) :=
  withinRule.of_members space space trivial ms outer outer place place

theorem within_declaredInMember (space : String) (m : Member) (outer place : Nat) :
    WithinFrom (some outer) place (declaredInMember space outer place m) :=
  withinRule.of_member space space trivial m outer outer place place

theorem within_declaredInSpace (ms : List NamespaceMember) (space : String) (place : Nat) :
    WithinFrom none place (declaredInSpace space place ms) :=
  withinRule.of_space ms space space place place trivial

theorem within_declaredInSpaceMember (m : NamespaceMember) (space : String) (place : Nat) :
    WithinFrom none place (declaredInSpaceMember space place m) :=
  withinRule.of_spaceMember m space space place place trivial

theorem outward_declaredTypes (unit : CompilationUnit) : Outward (declaredTypes unit) := by
  intro q t outer ht houter
  have hlt := outward_declaredInSpace unit.members "" 0 q t outer ht houter
  omega

/-- Among the types inside a type, a segment names one directly inside it
if it names one of the members. -/
theorem any_declaredInMembers (space : String) (segment : NameSegment) (ms : List Member)
    {outer place : Nat} (h : outer < place) :
    ((declaredInMembers space outer place ms).any fun t =>
        t.enclosing = some outer && t.name = segment.name && t.arity = segment.args.length)
      = DeclaresType ms segment := by
  induction ms generalizing place with
  | nil => rw [declaredInMembers]; rfl
  | cons m rest ih =>
    rw [declaredInMembers, List.any_append, ih (by omega), DeclaresType, DeclaresType,
      List.any_cons]
    congr 1
    cases m with
    | type decl =>
      obtain ⟨kind, name, typeParams, _, _, members, _, _, _⟩ := decl
      have hnone := (within_declaredInMembers space members place (place + 1)).ne
        (p := outer) (by simp; omega) (.inl (by omega))
      have hrest : ((declaredInMembers space place (place + 1) members).any fun t =>
          t.enclosing = some outer && t.name = segment.name && t.arity = segment.args.length)
            = false := by
        rw [List.any_eq_false]
        intro t ht
        simp [hnone t ht]
      rw [declaredInMember, declaredInType, List.any_cons, hrest, Bool.or_false]
      simp only [decide_true, Bool.true_and]
      rfl
    | _ => rfl

section Renumbered

variable {f : Nat → Nat} {s n : Nat}

/-- What stands behind a place and moves by some places goes along with the
type around it. -/
theorem renumberedRule (hf : ∀ q, s ≤ q → f q = q + n) :
    DeclaredRule Eq fun outer place types outer' place' types' =>
      s ≤ place → outer' = outer.map f → place' = place + n →
        types' = types.map (DeclaredType.renumbered f) where
  inSpace name hspaces := congrArg (Text.qualify · name) hspaces
  nil _ _ _ _ _ _ _ := rfl
  append := by
    intro outer place xs ys outer' place' xs' ys' hx hy h houter hplace
    have hxs := hx h houter hplace
    have hys := hy (by omega) houter (by rw [hxs, List.length_map]; omega)
    rw [hxs, hys, List.map_append]
  cons := by
    rintro space place inside _ place' inside' name arity kind outer _ rfl hin h rfl rfl
    rw [hin (by omega) (congrArg some (hf place h).symm) (by omega), List.map_cons]
    rfl

theorem declaredInMembers_renumbered (hf : ∀ q, s ≤ q → f q = q + n) (space : String)
    (ms : List Member) (outer place : Nat) (h : s ≤ place) :
    declaredInMembers space (f outer) (place + n) ms
      = (declaredInMembers space outer place ms).map (DeclaredType.renumbered f) :=
  (renumberedRule hf).of_members space space rfl ms outer (f outer) place (place + n) h rfl rfl

theorem declaredInSpace_renumbered (hf : ∀ q, s ≤ q → f q = q + n) (ms : List NamespaceMember)
    (space : String) (place : Nat) (h : s ≤ place) :
    declaredInSpace space (place + n) ms
      = (declaredInSpace space place ms).map (DeclaredType.renumbered f) :=
  (renumberedRule hf).of_space ms space space place (place + n) rfl h rfl rfl

end Renumbered

theorem moved_of_le {p s q : Nat} (h : s ≤ q) : moved p s q = q + 1 := if_neg (by omega)

/-- What stands behind the cut moves by one place. -/
theorem declaredInMembers_moved {p s : Nat} (space : String) (ms : List Member)
    (outer place : Nat) (h : s ≤ place) :
    declaredInMembers space (moved p s outer) (place + 1) ms
      = (declaredInMembers space outer place ms).map (DeclaredType.moved p s) :=
  declaredInMembers_renumbered (fun _ => moved_of_le) space ms outer place h

theorem declaredInSpace_moved {p s : Nat} (ms : List NamespaceMember) (space : String)
    (place : Nat) (h : s ≤ place) :
    declaredInSpace space (place + 1) ms
      = (declaredInSpace space place ms).map (DeclaredType.moved p s) :=
  declaredInSpace_renumbered (fun _ => moved_of_le) ms space place h

-- ================================================================ sites

/-- How many types stand before a place, from the first member on. -/
def offsetIn : MemberSite → Nat
  | .here _ => 0
  | .inside _ site _ => offsetIn site + 1
  | .later m site => typeCount [m] + offsetIn site

/-- How many types stand before a place, from the first member on. -/
def offsetInSpace : SpaceSite → Nat
  | .here _ => 0
  | .inType _ site _ => offsetIn site + 1
  | .inSpace _ site _ => offsetInSpace site
  | .later m site => spaceTypeCount [m] + offsetInSpace site

/-- The lists of declared types, from a place on, of a file in which a type
is whole and in which it is cut in two. The type is `x`, at `p`, and the
second part stands at `s`. -/
structure Divided (p s : Nat) (x : DeclaredType) (first second : List Member) (place : Nat)
    (whole cut : List DeclaredType) : Prop where
  lists : ∃ before after,
    whole = before ++ x :: (declaredInMembers x.space p (p + 1) first
        ++ (declaredInMembers x.space p s second ++ after))
      ∧ cut = before ++ x :: (declaredInMembers x.space p (p + 1) first
        ++ x :: (declaredInMembers x.space p s second ++ after).map (DeclaredType.moved p s))
      ∧ place + before.length = p
      ∧ (∀ t ∈ before, t.enclosing ≠ some p) ∧ ∀ t ∈ after, t.enclosing ≠ some p
  at_cut : p + 1 + typeCount first = s
  outside : x.enclosing ≠ some p

namespace Divided

variable {p s place : Nat} {x : DeclaredType} {first second : List Member}
variable {whole cut : List DeclaredType}

/-- Types before the others. -/
theorem append_left (before : List DeclaredType) (h : ∀ t ∈ before, t.enclosing ≠ some p)
    (hd : Divided p s x first second (place + before.length) whole cut) :
    Divided p s x first second place (before ++ whole) (before ++ cut) where
  lists := by
    obtain ⟨more, after, rfl, rfl, hplace, hmore, hafter⟩ := hd.lists
    refine ⟨before ++ more, after, (List.append_assoc _ _ _).symm, (List.append_assoc _ _ _).symm,
      by rw [List.length_append]; omega, fun t ht => ?_, hafter⟩
    rcases List.mem_append.mp ht with ht | ht
    · exact h t ht
    · exact hmore t ht
  at_cut := hd.at_cut
  outside := hd.outside

/-- Types behind the others. -/
theorem append_right {after : List DeclaredType} (h : ∀ t ∈ after, t.enclosing ≠ some p)
    (hd : Divided p s x first second place whole cut) :
    Divided p s x first second place (whole ++ after)
      (cut ++ after.map (DeclaredType.moved p s)) where
  lists := by
    obtain ⟨before, more, rfl, rfl, hplace, hbefore, hmore⟩ := hd.lists
    refine ⟨before, more ++ after, ?_, ?_, hplace, hbefore, fun t ht => ?_⟩
    · simp only [List.append_assoc, List.cons_append]
    · simp only [List.append_assoc, List.cons_append, List.map_append]
    · rcases List.mem_append.mp ht with ht | ht
      · exact hmore t ht
      · exact h t ht
  at_cut := hd.at_cut
  outside := hd.outside

theorem length_cut (hd : Divided p s x first second place whole cut) :
    cut.length = whole.length + 1 := by
  obtain ⟨before, after, rfl, rfl, -⟩ := hd.lists
  simp only [List.length_append, List.length_cons, List.length_map]
  omega

theorem le_length (hd : Divided p s x first second place whole cut) :
    s ≤ place + whole.length := by
  obtain ⟨before, after, rfl, -, hplace, -⟩ := hd.lists
  have hs := hd.at_cut
  simp only [List.length_append, List.length_cons, length_members]
  omega

/-- Members behind the others. -/
theorem append_members (hd : Divided p s x first second place whole cut) {outer : Nat}
    (houter : outer < p) (space : String) (rest : List Member) :
    Divided p s x first second place
      (whole ++ declaredInMembers space outer (place + whole.length) rest)
      (cut ++ declaredInMembers space outer (place + cut.length) rest) := by
  have hle := hd.le_length
  have hs := hd.at_cut
  have hmoved : moved p s outer = outer := by rw [moved, if_pos (by omega), if_neg (by omega)]
  have hrest := declaredInMembers_moved (p := p) space rest outer (place + whole.length) hle
  rw [hmoved] at hrest
  rw [hd.length_cut, ← Nat.add_assoc, hrest]
  exact hd.append_right ((within_declaredInMembers space rest outer _).ne
    (fun heq => absurd (Option.some.inj heq) (by omega)) (.inl (by omega)))

/-- Members of a namespace behind the others. -/
theorem append_space (hd : Divided p s x first second place whole cut) (space : String)
    (rest : List NamespaceMember) :
    Divided p s x first second place
      (whole ++ declaredInSpace space (place + whole.length) rest)
      (cut ++ declaredInSpace space (place + cut.length) rest) := by
  have hle := hd.le_length
  have hs := hd.at_cut
  rw [hd.length_cut, ← Nat.add_assoc, declaredInSpace_moved (p := p) rest space _ hle]
  exact hd.append_right ((within_declaredInSpace rest space _).ne nofun (.inl (by omega)))

/-- A type around the others. -/
theorem inside_type (outerDecl : TypeDecl) (enclosing : Option Nat) {space : String}
    {ms ms' : List Member} (houter : enclosing ≠ some p)
    (hd : Divided p s x first second (place + 1) (declaredInMembers space place (place + 1) ms)
      (declaredInMembers space place (place + 1) ms')) :
    Divided p s x first second place
      (declaredInType space enclosing place { outerDecl with members := ms })
      (declaredInType space enclosing place { outerDecl with members := ms' }) := by
  rw [declaredInType_eq, declaredInType_eq]
  refine Divided.append_left [_] ?_ hd
  intro t ht
  rwa [List.mem_singleton.mp ht]

end Divided

section Sites

variable {decl part part' : TypeDecl} {p s : Nat}

/-- Two parts where a type stood. -/
theorem divided_declaredInType (hcut : IsCut decl [part, part'])
    (hs : p + 1 + typeCount part.members = s) (space : String) (enclosing : Option Nat)
    (houter : ∀ o, enclosing = some o → o < p) :
    Divided p s ⟨space, decl.name, decl.arity, decl.kind, enclosing⟩ part.members part'.members p
      (declaredInType space enclosing p decl)
      (declaredInType space enclosing p part ++ declaredInType space enclosing s part') where
  lists := by
    have hpart := hcut.isPart part List.mem_cons_self
    have hpart' := hcut.isPart part' (List.mem_cons_of_mem _ List.mem_cons_self)
    have hmembers : decl.members = part.members ++ part'.members := by
      rw [← hcut.members]
      simp
    have hmoved : declaredInMembers space s (s + 1) part'.members
        = (declaredInMembers space p s part'.members).map (DeclaredType.moved p s) := by
      rw [← declaredInMembers_moved space part'.members p s (Nat.le_refl s), moved,
        if_pos (by omega), if_pos rfl]
    refine ⟨[], [], ?_, ?_, rfl, fun _ ht => (List.not_mem_nil ht).elim,
      fun _ ht => (List.not_mem_nil ht).elim⟩
    · rw [declaredInType_eq, hmembers, declaredInMembers_append, hs, List.append_nil,
        List.nil_append]
    · rw [declaredInType_eq, declaredInType_eq, hmoved, hpart.name, hpart'.name, hpart.kind,
        hpart'.kind, TypeDecl.arity, TypeDecl.arity, hpart.typeParams, hpart'.typeParams,
        List.append_nil]
      rfl
  at_cut := hs
  outside := fun heq => absurd (houter p heq) (Nat.lt_irrefl p)

/-- Two parts where a type stood, among members. -/
theorem divided_declaredInMembers (hcut : IsCut decl [part, part'])
    (hs : p + 1 + typeCount part.members = s) (space : String) :
    ∀ (site : MemberSite) (outer place : Nat), outer < place → place + offsetIn site = p →
      ∃ x : DeclaredType, x.name = decl.name ∧ x.arity = decl.arity
        ∧ Divided p s x part.members part'.members place
          (declaredInMembers space outer place (site.fill [decl]))
          (declaredInMembers space outer place (site.fill [part, part']))
  | .here rest, outer, place, houter, hp => by
    obtain rfl : place = p := hp
    have hd := divided_declaredInType hcut hs space (some outer) (by
      rintro o ⟨⟩
      exact houter)
    have hall := hd.append_members houter space rest
    refine ⟨⟨space, decl.name, decl.arity, decl.kind, some outer⟩, rfl, rfl, ?_⟩
    have hmid : place + (typeCount part.members + 1) = s := by omega
    rw [List.length_append, length_type, length_type, length_type, List.append_assoc,
      show place + (typeCount part.members + 1 + (typeCount part'.members + 1))
        = s + (typeCount part'.members + 1) by omega] at hall
    simp only [MemberSite.fill, List.map_cons, List.map_nil, List.cons_append, List.nil_append,
      declaredInMembers, declaredInMember_type, length_type, hmid]
    exact hall
  | .inside outerDecl site rest, outer, place, houter, hp => by
    rw [offsetIn] at hp
    obtain ⟨x, hname, harity, hd⟩ := divided_declaredInMembers hcut hs space site place (place + 1)
      (Nat.lt_succ_self _) (by omega)
    have hin := hd.inside_type outerDecl (some outer)
      fun heq => absurd (Option.some.inj heq) (by omega)
    refine ⟨x, hname, harity, ?_⟩
    rw [MemberSite.fill, MemberSite.fill, declaredInMembers, declaredInMembers,
      declaredInMember_type, declaredInMember_type]
    exact hin.append_members (by omega) space rest
  | .later m site, outer, place, houter, hp => by
    rw [offsetIn] at hp
    obtain ⟨x, hname, harity, hd⟩ := divided_declaredInMembers hcut hs space site outer
      (place + typeCount [m]) (by omega) (by omega)
    refine ⟨x, hname, harity, ?_⟩
    rw [MemberSite.fill, MemberSite.fill, declaredInMembers, declaredInMembers, length_member]
    refine Divided.append_left _ ?_ (by rwa [length_member])
    exact (within_declaredInMember space m outer place).ne
      (fun heq => absurd (Option.some.inj heq) (by omega)) (.inr (by rw [length_member]; omega))

/-- Two parts where a type stood, in a namespace. -/
theorem divided_declaredInSpace (hcut : IsCut decl [part, part'])
    (hs : p + 1 + typeCount part.members = s) :
    ∀ (site : SpaceSite) (space : String) (place : Nat), place + offsetInSpace site = p →
      ∃ x : DeclaredType, x.name = decl.name ∧ x.arity = decl.arity
        ∧ Divided p s x part.members part'.members place
          (declaredInSpace space place (site.fill [decl]))
          (declaredInSpace space place (site.fill [part, part']))
  | .here rest, space, place, hp => by
    obtain rfl : place = p := hp
    have hd := divided_declaredInType hcut hs space none fun o h => by cases h
    have hall := hd.append_space space rest
    refine ⟨⟨space, decl.name, decl.arity, decl.kind, none⟩, rfl, rfl, ?_⟩
    have hmid : place + (typeCount part.members + 1) = s := by omega
    rw [List.length_append, length_type, length_type, length_type, List.append_assoc,
      show place + (typeCount part.members + 1 + (typeCount part'.members + 1))
        = s + (typeCount part'.members + 1) by omega] at hall
    simp only [SpaceSite.fill, List.map_cons, List.map_nil, List.cons_append, List.nil_append,
      declaredInSpace, declaredInSpaceMember, length_type, hmid]
    exact hall
  | .inType outerDecl site rest, space, place, hp => by
    rw [offsetInSpace] at hp
    obtain ⟨x, hname, harity, hd⟩ := divided_declaredInMembers hcut hs space site place (place + 1)
      (Nat.lt_succ_self _) (by omega)
    have hin := hd.inside_type outerDecl none (Option.some_ne_none p).symm
    refine ⟨x, hname, harity, ?_⟩
    rw [SpaceSite.fill, SpaceSite.fill, declaredInSpace, declaredInSpace, declaredInSpaceMember,
      declaredInSpaceMember]
    exact hin.append_space space rest
  | .inSpace ⟨name, _, _, _, _⟩ site rest, space, place, hp => by
    rw [offsetInSpace] at hp
    obtain ⟨x, hname, harity, hd⟩ := divided_declaredInSpace hcut hs site (Text.qualify space name)
      place hp
    refine ⟨x, hname, harity, ?_⟩
    rw [SpaceSite.fill, SpaceSite.fill, declaredInSpace, declaredInSpace, declaredInSpaceMember,
      declaredInSpaceMember]
    exact hd.append_space space rest
  | .later m site, space, place, hp => by
    rw [offsetInSpace] at hp
    obtain ⟨x, hname, harity, hd⟩ := divided_declaredInSpace hcut hs site space
      (place + spaceTypeCount [m]) (by omega)
    refine ⟨x, hname, harity, ?_⟩
    rw [SpaceSite.fill, SpaceSite.fill, declaredInSpace, declaredInSpace, length_spaceMember]
    refine Divided.append_left _ ?_ (by rwa [length_spaceMember])
    exact (within_declaredInSpaceMember m space place).ne
      (Option.some_ne_none p).symm (.inr (by rw [length_spaceMember]; omega))

end Sites

-- ============================================================= look-up

/-- Whether a type is what a segment names directly inside a place. -/
def isDirectly (outer : Nat) (segment : NameSegment) (t : DeclaredType) : Bool :=
  t.enclosing = some outer && t.name = segment.name && t.arity = segment.args.length

theorem isDirectly_congr {outer outer' : Nat} {segment : NameSegment} {t t' : DeclaredType}
    (henclosing : t.enclosing = some outer ↔ t'.enclosing = some outer') (hname : t.name = t'.name)
    (harity : t.arity = t'.arity) :
    isDirectly outer segment t = isDirectly outer' segment t' := by
  unfold isDirectly
  rw [decide_eq_decide.mpr henclosing, hname, harity]

theorem enclosing_of_isDirectly {outer : Nat} {segment : NameSegment} {t : DeclaredType}
    (h : isDirectly outer segment t = true) : t.enclosing = some outer := by
  unfold isDirectly at h
  simp only [Bool.and_eq_true, decide_eq_true_eq] at h
  exact h.1.1

/-- The two lists before and behind the cut. -/
structure Halves (p s : Nat) (x : DeclaredType) (first second : List Member)
    (whole cut head behind : List DeclaredType) : Prop where
  whole : whole = head ++ behind
  cut : cut = head ++ x :: behind.map (DeclaredType.moved p s)
  length : head.length = s
  at_type : head[p]? = some x
  inHead : ∀ segment, head.any (isDirectly p segment) = DeclaresType first segment
  inBehind : ∀ segment, behind.any (isDirectly p segment) = DeclaresType second segment

section Lookup

variable {p s : Nat} {x : DeclaredType} {first second : List Member}
variable {whole cut head behind : List DeclaredType}

theorem any_isDirectly_of_ne {types : List DeclaredType} (h : ∀ t ∈ types, t.enclosing ≠ some p)
    (segment : NameSegment) : types.any (isDirectly p segment) = false := by
  rw [List.any_eq_false]
  intro t ht
  simp [isDirectly, h t ht]

theorem Divided.exists_halves (h : Divided p s x first second 0 whole cut) :
    ∃ head behind, Halves p s x first second whole cut head behind := by
  obtain ⟨before, after, rfl, rfl, hp, hbefore, hafter⟩ := h.lists
  have hs := h.at_cut
  refine ⟨before ++ x :: declaredInMembers x.space p (p + 1) first,
    declaredInMembers x.space p s second ++ after, ?_, ?_, ?_, ?_, ?_, ?_⟩
  · simp only [List.append_assoc, List.cons_append]
  · simp only [List.append_assoc, List.cons_append]
  · rw [List.length_append, List.length_cons, length_members]
    omega
  · rw [List.getElem?_append_right (by omega), show p - before.length = 0 by omega]
    rfl
  · intro segment
    have hin := any_declaredInMembers x.space segment first (Nat.lt_succ_self p)
    have hx : isDirectly p segment x = false := by simp [isDirectly, h.outside]
    rw [List.any_append, List.any_cons, any_isDirectly_of_ne hbefore, hx, Bool.false_or,
      Bool.false_or]
    exact hin
  · intro segment
    have hin := any_declaredInMembers x.space segment second (show p < s by omega)
    rw [List.any_append, any_isDirectly_of_ne hafter, Bool.or_false]
    exact hin

theorem findIdx?_congr_of_mem {f g : DeclaredType → Bool} {types : List DeclaredType}
    (h : ∀ t ∈ types, f t = g t) : types.findIdx? f = types.findIdx? g := by
  induction types with
  | nil => rfl
  | cons t rest ih =>
    rw [List.findIdx?_cons, List.findIdx?_cons, h t List.mem_cons_self,
      ih fun u hu => h u (List.mem_cons_of_mem _ hu)]

namespace Halves

variable (h : Halves p s x first second whole cut head behind)

include h

theorem lt : p < s := by
  have hlt := (List.getElem?_eq_some_iff.mp h.at_type).1
  rwa [h.length] at hlt

theorem mem : x ∈ head := List.mem_of_getElem? h.at_type

/-- The first type of the cut list is sent to the first of the whole one,
if the second part is never the first and what stands behind the cut is
looked at alike or not at all. -/
theorem findIdx?_collapse {f g : DeclaredType → Bool} (hhead : ∀ t ∈ head, f t = g t)
    (hx : f x = true → head.any f = true)
    (hbehind : head.any f = true ∨ ∀ t ∈ behind, f (t.moved p s) = g t) :
    (cut.findIdx? f).map (collapse p s) = whole.findIdx? g := by
  rw [h.cut, h.whole, List.findIdx?_append, List.findIdx?_append, findIdx?_congr_of_mem hhead]
  cases hfind : head.findIdx? g with
  | some q =>
    have hlt := (List.findIdx?_eq_some_iff_getElem.mp hfind).1
    rw [h.length] at hlt
    simp only [Option.some_or, Option.map_some, collapse_of_lt hlt]
  | none =>
    have hany : head.any f = false := by
      rw [List.any_eq_false]
      intro t ht
      rw [hhead t ht, List.findIdx?_eq_none_iff.mp hfind t ht]
      exact Bool.false_ne_true
    have hfx : f x = false := by
      rw [← Bool.not_eq_true]
      intro hfx
      rw [hx hfx] at hany
      cases hany
    have hall := hbehind.resolve_left (by rw [hany]; exact Bool.false_ne_true)
    have hsame : (behind.map (DeclaredType.moved p s)).findIdx? f = behind.findIdx? g := by
      rw [List.findIdx?_map]
      exact findIdx?_congr_of_mem hall
    rw [List.findIdx?_cons, hfx, hsame, h.length]
    cases behind.findIdx? g with
    | none => rfl
    | some q =>
      have hq := collapse_succ (p := p) (s := s) (q := q + s) (by omega)
      simp only [Bool.false_eq_true, if_false, Option.map_some, Option.none_or]
      rw [Nat.add_right_comm, hq]

/-- The first type of the cut list is not the second part. -/
theorem findIdx?_first {f : DeclaredType → Bool} (hx : f x = true → head.any f = true) {q : Nat}
    (hq : cut.findIdx? f = some q) (hp : collapse p s q = p) : q = p := by
  have hlt := h.lt
  obtain ⟨hlen, hmatch, hnone⟩ := List.findIdx?_eq_some_iff_getElem.mp hq
  have hne : q ≠ s := by
    rintro rfl
    simp only [h.cut] at hmatch
    rw [List.getElem_append_right (Nat.le_of_eq h.length)] at hmatch
    simp only [h.length, Nat.sub_self, List.getElem_cons_zero] at hmatch
    obtain ⟨t, ht, hft⟩ := List.any_eq_true.mp (hx hmatch)
    obtain ⟨i, hi, rfl⟩ := List.getElem_of_mem ht
    have hno := hnone i (h.length ▸ hi)
    simp only [h.cut] at hno
    rw [List.getElem_append_left hi] at hno
    exact hno hft
  rcases Nat.lt_trichotomy q s with hlow | heq | hhigh
  · rwa [collapse_of_lt hlow] at hp
  · exact absurd heq hne
  · obtain ⟨q, rfl⟩ : ∃ r, q = r + 1 := ⟨q - 1, by omega⟩
    rw [collapse_succ (by omega)] at hp
    omega

/-- A place behind the cut. -/
theorem getElem?_cut_succ (q : Nat) :
    cut[s + q + 1]? = behind[q]?.map (DeclaredType.moved p s) := by
  rw [h.cut, List.getElem?_append_right (by rw [h.length]; omega), h.length,
    show s + q + 1 - s = q + 1 by omega, List.getElem?_cons_succ, List.getElem?_map]

theorem getElem?_whole_add (q : Nat) : whole[s + q]? = behind[q]? := by
  rw [h.whole, List.getElem?_append_right (by rw [h.length]; omega), h.length,
    Nat.add_sub_cancel_left]

theorem getElem?_cut_of_lt {q : Nat} (hq : q < s) : cut[q]? = head[q]? := by
  rw [h.cut, List.getElem?_append_left (by rwa [h.length])]

theorem getElem?_whole_of_lt {q : Nat} (hq : q < s) : whole[q]? = head[q]? := by
  rw [h.whole, List.getElem?_append_left (by rwa [h.length])]

theorem getElem?_cut_self : cut[s]? = some x := by
  rw [h.cut, List.getElem?_append_right (Nat.le_of_eq h.length), h.length, Nat.sub_self,
    List.getElem?_cons_zero]

theorem getElem?_whole_type : whole[p]? = some x := by
  rw [h.getElem?_whole_of_lt h.lt, h.at_type]

variable (ho : Outward whole)

include ho

/-- Types before the cut stand inside types before the cut. -/
theorem enclosing_lt {t : DeclaredType} (ht : t ∈ head) {o : Nat} (hto : t.enclosing = some o) :
    o < s := by
  obtain ⟨i, hi, rfl⟩ := List.getElem_of_mem ht
  have his : i < s := h.length ▸ hi
  have hget : whole[i]? = some head[i] := by
    rw [h.getElem?_whole_of_lt his, List.getElem?_eq_getElem hi]
  exact Nat.lt_trans (ho i _ o hget hto) his

theorem entry {q : Nat} {t : DeclaredType} (ht : cut[q]? = some t) :
    whole[collapse p s q]? = some { t with enclosing := t.enclosing.map (collapse p s) } := by
  have hsame : ∀ u ∈ head, { u with enclosing := u.enclosing.map (collapse p s) } = u := by
    intro u hu
    have henclosing : u.enclosing.map (collapse p s) = u.enclosing := by
      cases hin : u.enclosing with
      | none => rfl
      | some o => rw [Option.map_some, collapse_of_lt (h.enclosing_lt ho hu hin)]
    rw [henclosing]
  rcases Nat.lt_trichotomy q s with hlt | rfl | hgt
  · rw [h.getElem?_cut_of_lt hlt] at ht
    rw [collapse_of_lt hlt, h.getElem?_whole_of_lt hlt, hsame t (List.mem_of_getElem? ht), ht]
  · rw [h.getElem?_cut_self] at ht
    cases ht
    rw [collapse_self, h.getElem?_whole_type, hsame x h.mem]
  · obtain ⟨i, rfl⟩ : ∃ i, q = s + i + 1 := ⟨q - s - 1, by omega⟩
    rw [h.getElem?_cut_succ] at ht
    obtain ⟨u, hu, rfl⟩ := Option.map_eq_some_iff.mp ht
    have henclosing : (u.enclosing.map (moved p s)).map (collapse p s) = u.enclosing := by
      rw [Option.map_map, Function.comp_def]
      simp only [collapse_moved, Option.map_id']
    rw [collapse_succ (by omega), h.getElem?_whole_add, hu, DeclaredType.moved, henclosing]

theorem outward_cut : Outward cut := by
  intro q t o ht hto
  have hp := h.lt
  rcases Nat.lt_trichotomy q s with hlt | rfl | hgt
  · rw [h.getElem?_cut_of_lt hlt, ← h.getElem?_whole_of_lt hlt] at ht
    exact ho q t o ht hto
  · rw [h.getElem?_cut_self] at ht
    cases ht
    exact Nat.lt_trans (ho p x o h.getElem?_whole_type hto) hp
  · obtain ⟨i, rfl⟩ : ∃ i, q = s + i + 1 := ⟨q - s - 1, by omega⟩
    rw [h.getElem?_cut_succ] at ht
    obtain ⟨u, hu, rfl⟩ := Option.map_eq_some_iff.mp ht
    obtain ⟨o', ho', rfl⟩ := Option.map_eq_some_iff.mp hto
    have hlt := ho (s + i) u o' (by rw [h.getElem?_whole_add, hu]) ho'
    unfold moved
    split
    · split <;> omega
    · omega

/-- The list of a file with a type cut in two collapses to that of the
file with the whole type. -/
theorem collapses : Collapses whole cut (collapse p s) p where
  entry := fun _ _ => h.entry ho
  outward := ho
  outward' := h.outward_cut ho
  top := by
    intro space segment
    refine h.findIdx?_collapse (fun _ _ => rfl) (fun hx => ?_) (.inr fun t _ => ?_)
    · exact List.any_eq_true.mpr ⟨x, h.mem, hx⟩
    · simp only [DeclaredType.moved, Option.isNone_map]
      rfl
  nested := by
    intro outer segment hne
    refine h.findIdx?_collapse (g := isDirectly (collapse p s outer) segment)
      (fun t ht => isDirectly_congr ?_ rfl rfl)
      (fun hx => List.any_eq_true.mpr ⟨x, h.mem, hx⟩)
      (.inr fun t _ => isDirectly_congr ?_ rfl rfl)
    · rcases Nat.lt_trichotomy outer s with hlt | rfl | hgt
      · rw [collapse_of_lt hlt]
      · exact absurd collapse_self hne
      · obtain ⟨i, rfl⟩ : ∃ i, outer = i + 1 := ⟨outer - 1, by omega⟩
        rw [collapse_succ (by omega)]
        constructor
        · intro heq
          exact absurd (h.enclosing_lt ho ht heq) (by omega)
        · intro heq
          exact absurd (h.enclosing_lt ho ht heq) (by omega)
    · constructor
      · intro heq
        obtain ⟨o, hto, rfl⟩ := Option.map_eq_some_iff.mp heq
        rw [collapse_moved, hto]
      · intro heq
        rw [DeclaredType.moved, heq, Option.map_some, moved_collapse hne]
  firstTop := fun space segment q hq hp => h.findIdx?_first
    (fun hx => List.any_eq_true.mpr ⟨x, h.mem, hx⟩) hq hp
  firstNested := fun outer segment q hq hp => h.findIdx?_first
    (fun hx => List.any_eq_true.mpr ⟨x, h.mem, hx⟩) hq hp

/-- Inside the first part a segment finds what it finds in the whole type,
unless the second part alone declares it. -/
theorem findsAlike_first {segment : NameSegment}
    (hfirst : DeclaresType second segment = true → DeclaresType first segment = true) :
    FindsAlike whole cut (collapse p s) p segment := by
  have hlt := h.lt
  unfold FindsAlike
  rw [collapse_of_lt hlt]
  refine h.findIdx?_collapse (g := isDirectly p segment) (fun _ _ => rfl) (fun hx => ?_) ?_
  · have hin := ho p x p h.getElem?_whole_type (enclosing_of_isDirectly hx)
    exact absurd hin (Nat.lt_irrefl p)
  · cases hdeclares : DeclaresType first segment with
    | true => exact .inl ((h.inHead segment).trans hdeclares)
    | false =>
      refine .inr fun t ht => ?_
      have hnone : behind.any (isDirectly p segment) = false := by
        rw [h.inBehind, ← Bool.not_eq_true]
        intro hsecond
        rw [hfirst hsecond] at hdeclares
        cases hdeclares
      have hg := List.any_eq_false.mp hnone t ht
      rw [Bool.not_eq_true] at hg
      rw [hg, ← Bool.not_eq_true]
      intro hf
      obtain ⟨o, -, heq⟩ := Option.map_eq_some_iff.mp (enclosing_of_isDirectly hf)
      unfold moved at heq
      split at heq
      · split at heq <;> omega
      · omega

/-- Inside the second part a segment finds what it finds in the whole type,
if the first part does not declare it. -/
theorem findsAlike_second {segment : NameSegment} (hfirst : DeclaresType first segment = false) :
    FindsAlike whole cut (collapse p s) s segment := by
  have hlt := h.lt
  have hnone : ∀ t ∈ head, isDirectly s segment t = false := by
    intro t ht
    rw [← Bool.not_eq_true]
    intro hf
    exact absurd (h.enclosing_lt ho ht (enclosing_of_isDirectly hf)) (Nat.lt_irrefl s)
  unfold FindsAlike
  rw [collapse_self]
  refine h.findIdx?_collapse (g := isDirectly p segment) (fun t ht => ?_) (fun hx => ?_)
    (.inr fun t _ => isDirectly_congr ?_ rfl rfl)
  · have hg := List.any_eq_false.mp ((h.inHead segment).trans hfirst) t ht
    rw [Bool.not_eq_true] at hg
    exact (hnone t ht).trans hg.symm
  · have hcopy : isDirectly s segment x = true := hx
    rw [hnone x h.mem] at hcopy
    cases hcopy
  · constructor
    · intro heq
      obtain ⟨o, hto, hmoved⟩ := Option.map_eq_some_iff.mp heq
      rw [hto, ← collapse_moved (p := p) (s := s) (q := o), hmoved, collapse_self]
    · intro heq
      rw [DeclaredType.moved, heq, Option.map_some, moved, if_pos hlt, if_pos rfl]

end Halves

end Lookup

end ClrListing.Lowering
