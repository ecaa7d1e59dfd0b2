/-
Type parameters shadow declared types.

Between two files types of one name, without type parameters, are put in
(`Adds`), anywhere and with whatever is in them, and all other types move to
where `c` tells. The list of declared types grows along `c` (`Grown`): what
it has more are types of that name and types inside those, so that every
segment but the bare name is found alike, and so is every name without such
a segment (`Grown.foundAlike`).

Where a type parameter has the name, its bare name is not looked up, save
before a question mark: whether a type in front of it is a value type is
asked of the declared types alone. So the names of types stay the same if
the added types do not change what is found there, and they do not if it
changes: then one of the two has a pair of brackets more for each such
question mark (`AlikeBut.length_typeName`).
-/
import ClrListing.Proofs.Lowering.Compiled
import ClrListing.Proofs.Lowering.Insertion
import ClrListing.Proofs.Run

namespace ClrListing.Lowering

open Syntax Text

-- =========================================================== insertion

/-- How many types a declaration declares. -/
def declCount (decl : TypeDecl) : Nat := typeCount decl.members + 1

/-- Where a place goes when `n` types are put in at `s`. -/
def shifted (s n q : Nat) : Nat := if q < s then q else q + n

section Shifted

variable {s n q r : Nat}

theorem shifted_of_lt (h : q < s) : shifted s n q = q := if_pos h

theorem shifted_of_le (h : s ≤ q) : shifted s n q = q + n := if_neg (Nat.not_lt.mpr h)

theorem shifted_rising (h : q < r) : shifted s n q < shifted s n r := by
  unfold shifted
  split <;> split <;> omega

/-- What is put in stands at no place that something has gone to. -/
theorem shifted_ne (hlo : s ≤ r) (hhi : r < s + n) (q : Nat) : shifted s n q ≠ r := by
  unfold shifted
  split <;> omega

end Shifted

/-- The lists of declared types, from a place on, of a file without a
declaration and with it at `s`. -/
def Inserted (decl : TypeDecl) (s place : Nat) (fewer more : List DeclaredType) : Prop :=
  ∃ before after space enclosing,
    fewer = before ++ after
      ∧ more = before ++ (declaredInType space enclosing s decl
        ++ after.map (DeclaredType.renumbered (shifted s (declCount decl))))
      ∧ place + before.length = s

namespace Inserted

variable {decl : TypeDecl} {s place : Nat} {fewer more : List DeclaredType}

/-- Types before the others. -/
theorem append_left (before : List DeclaredType)
    (h : Inserted decl s (place + before.length) fewer more) :
    Inserted decl s place (before ++ fewer) (before ++ more) := by
  obtain ⟨front, after, space, enclosing, rfl, rfl, hplace⟩ := h
  refine ⟨before ++ front, after, space, enclosing, (List.append_assoc ..).symm,
    (List.append_assoc ..).symm, ?_⟩
  rw [List.length_append]
  omega

/-- Types behind the others. -/
theorem append_right (behind : List DeclaredType) (h : Inserted decl s place fewer more) :
    Inserted decl s place (fewer ++ behind)
      (more ++ behind.map (DeclaredType.renumbered (shifted s (declCount decl)))) := by
  obtain ⟨before, after, space, enclosing, rfl, rfl, hplace⟩ := h
  refine ⟨before, after ++ behind, space, enclosing, List.append_assoc .., ?_, hplace⟩
  simp only [List.append_assoc, List.map_append]

theorem length_more (h : Inserted decl s place fewer more) :
    more.length = fewer.length + declCount decl := by
  obtain ⟨before, after, space, enclosing, rfl, rfl, -⟩ := h
  simp only [List.length_append, List.length_map, length_type, declCount]
  omega

theorem le_length (h : Inserted decl s place fewer more) : s ≤ place + fewer.length := by
  obtain ⟨before, after, space, enclosing, rfl, -, hplace⟩ := h
  rw [List.length_append]
  omega

/-- Members behind the others. -/
theorem append_members (h : Inserted decl s place fewer more) {outer : Nat} (houter : outer < s)
    (space : String) (rest : List Member) :
    Inserted decl s place
      (fewer ++ declaredInMembers space outer (place + fewer.length) rest)
      (more ++ declaredInMembers space outer (place + more.length) rest) := by
  have hrest := declaredInMembers_renumbered (fun _ => shifted_of_le (n := declCount decl)) space rest
    outer (place + fewer.length) h.le_length
  rw [shifted_of_lt houter] at hrest
  rw [h.length_more, ← Nat.add_assoc, hrest]
  exact h.append_right _

/-- Members of a namespace behind the others. -/
theorem append_space (h : Inserted decl s place fewer more) (space : String)
    (rest : List NamespaceMember) :
    Inserted decl s place
      (fewer ++ declaredInSpace space (place + fewer.length) rest)
      (more ++ declaredInSpace space (place + more.length) rest) := by
  rw [h.length_more, ← Nat.add_assoc,
    declaredInSpace_renumbered (fun _ => shifted_of_le (n := declCount decl)) rest space _ h.le_length]
  exact h.append_right _

/-- A type around the others. -/
theorem inside_type (outerDecl : TypeDecl) (enclosing : Option Nat) {space : String}
    {ms ms' : List Member}
    (h : Inserted decl s (place + 1) (declaredInMembers space place (place + 1) ms)
      (declaredInMembers space place (place + 1) ms')) :
    Inserted decl s place
      (declaredInType space enclosing place { outerDecl with members := ms })
      (declaredInType space enclosing place { outerDecl with members := ms' }) := by
  rw [declaredInType_eq, declaredInType_eq]
  exact append_left [_] h

end Inserted

section Sites

variable (decl : TypeDecl)

theorem inserted_declaredInMembers (space : String) :
    ∀ (site : MemberSite) (outer place : Nat), outer < place →
      Inserted decl (place + offsetIn site) place
        (declaredInMembers space outer place (site.fill []))
        (declaredInMembers space outer place (site.fill [decl]))
  | .here rest, outer, place, houter => by
    have hrest := declaredInMembers_renumbered (fun _ => shifted_of_le (n := declCount decl)) space rest
      outer place (Nat.le_refl place)
    rw [shifted_of_lt houter] at hrest
    refine ⟨[], declaredInMembers space outer place rest, space, some outer, rfl, ?_, rfl⟩
    rw [List.nil_append, offsetIn, Nat.add_zero, ← hrest, MemberSite.fill, List.map_singleton,
      List.singleton_append, declaredInMembers, declaredInMember_type, length_type]
    rfl
  | .inside outerDecl site rest, outer, place, houter => by
    have hin := (inserted_declaredInMembers space site place (place + 1)
      (Nat.lt_succ_self place)).inside_type outerDecl (some outer)
    rw [offsetIn, Nat.add_comm (offsetIn site), ← Nat.add_assoc, MemberSite.fill, MemberSite.fill,
      declaredInMembers, declaredInMembers, declaredInMember_type, declaredInMember_type]
    exact hin.append_members (by omega) space rest
  | .later m site, outer, place, houter => by
    have hin := inserted_declaredInMembers space site outer (place + typeCount [m]) (by omega)
    rw [offsetIn, ← Nat.add_assoc, MemberSite.fill, MemberSite.fill, declaredInMembers,
      declaredInMembers, length_member]
    refine .append_left _ ?_
    rwa [length_member]

theorem inserted_declaredInSpace :
    ∀ (site : SpaceSite) (space : String) (place : Nat),
      Inserted decl (place + offsetInSpace site) place
        (declaredInSpace space place (site.fill []))
        (declaredInSpace space place (site.fill [decl]))
  | .here rest, space, place => by
    have hrest := declaredInSpace_renumbered (fun _ => shifted_of_le (n := declCount decl)) rest space
      place (Nat.le_refl place)
    refine ⟨[], declaredInSpace space place rest, space, none, rfl, ?_, rfl⟩
    rw [List.nil_append, offsetInSpace, Nat.add_zero, ← hrest, SpaceSite.fill, List.map_singleton,
      List.singleton_append, declaredInSpace, declaredInSpaceMember, length_type]
    rfl
  | .inType outerDecl site rest, space, place => by
    have hin := (inserted_declaredInMembers decl space site place (place + 1)
      (Nat.lt_succ_self place)).inside_type outerDecl none
    rw [offsetInSpace, Nat.add_comm (offsetIn site), ← Nat.add_assoc, SpaceSite.fill,
      SpaceSite.fill, declaredInSpace, declaredInSpace, declaredInSpaceMember,
      declaredInSpaceMember]
    exact hin.append_space space rest
  | .inSpace ⟨name, _, _, _, _⟩ site rest, space, place => by
    have hin := inserted_declaredInSpace site (Text.qualify space name) place
    rw [offsetInSpace, SpaceSite.fill, SpaceSite.fill, declaredInSpace, declaredInSpace,
      declaredInSpaceMember, declaredInSpaceMember]
    exact hin.append_space space rest
  | .later m site, space, place => by
    have hin := inserted_declaredInSpace site space (place + spaceTypeCount [m])
    rw [offsetInSpace, ← Nat.add_assoc, SpaceSite.fill, SpaceSite.fill, declaredInSpace,
      declaredInSpace, length_spaceMember]
    refine .append_left _ ?_
    rwa [length_spaceMember]

end Sites

/-- Types in a type have a type around them. -/
theorem enclosedRule : DeclaredRule (fun _ _ => True) fun outer _ types _ _ _ =>
    outer.isSome → ∀ t ∈ types, t.enclosing.isSome where
  inSpace _ _ := trivial
  nil _ _ _ _ _ _ h := absurd h List.not_mem_nil
  append hx hy h := List.forall_mem_append.mpr ⟨hx h, hy h⟩
  cons _ _ _ _ _ _ hin h := List.forall_mem_cons.mpr ⟨h, hin rfl⟩

-- ============================================================== growth

/-- Whether a list of declared types is another one with types named `x`,
without type parameters, and types inside those put in, where all others move
along `c`. -/
structure Grown (x : String) (fewer more : List DeclaredType) (c : Nat → Nat) : Prop where
  rising : ∀ q r, q < r → c q < c r
  entry : ∀ (q : Nat) (t : DeclaredType), fewer[q]? = some t →
    more[c q]? = some { t with enclosing := t.enclosing.map c }
  added : ∀ (r : Nat) (t : DeclaredType), more[r]? = some t →
    (∃ q < fewer.length, c q = r) ∨ t.name = x ∧ t.arity = 0
      ∨ ∃ outer, t.enclosing = some outer ∧ ∀ q < fewer.length, c q ≠ outer

namespace Grown

variable {x : String} {fewer more most : List DeclaredType} {c d : Nat → Nat}

theorem refl (x : String) (types : List DeclaredType) : Grown x types types id where
  rising := fun _ _ h => h
  entry := by
    intro q t ht
    rw [id, ht, Option.map_id]
    rfl
  added := fun r t ht => .inl ⟨r, (List.getElem?_eq_some_iff.mp ht).1, rfl⟩

theorem lt_length (h : Grown x fewer more c) {q : Nat} (hq : q < fewer.length) :
    c q < more.length :=
  (List.getElem?_eq_some_iff.mp (h.entry q _ (List.getElem?_eq_getElem hq))).1

theorem inj (h : Grown x fewer more c) {q r : Nat} (heq : c q = c r) : q = r := by
  rcases Nat.lt_trichotomy q r with hlt | hsame | hgt
  · have := h.rising q r hlt
    omega
  · exact hsame
  · have := h.rising r q hgt
    omega

theorem trans (h : Grown x fewer more c) (h' : Grown x more most d) :
    Grown x fewer most (d ∘ c) where
  rising := fun q r hlt => h'.rising _ _ (h.rising q r hlt)
  entry := by
    intro q t ht
    rw [Function.comp_apply, h'.entry _ _ (h.entry q t ht), Option.map_map]
  added := by
    intro r t ht
    rcases h'.added r t ht with ⟨q, hq, rfl⟩ | hnamed | ⟨outer, houter, hout⟩
    · -- what was in the list between was in the first one, or was put in then
      have hbetween := List.getElem?_eq_getElem hq
      have hsent := h'.entry q _ hbetween
      rw [ht, Option.some.injEq] at hsent
      rcases h.added q _ hbetween with ⟨p, hp, rfl⟩ | hnamed | ⟨outer, houter, hout⟩
      · exact .inl ⟨p, hp, rfl⟩
      · exact .inr (.inl (by rwa [hsent]))
      · refine .inr (.inr ⟨d outer, ?_, fun p hp heq => hout p hp (h'.inj heq)⟩)
        rw [hsent, houter]
        rfl
    · exact .inr (.inl hnamed)
    · exact .inr (.inr ⟨outer, houter, fun p hp => hout (c p) (h.lt_length hp)⟩)

/-- A declaration of such a type makes the list grow. -/
theorem of_inserted {decl : TypeDecl} {s : Nat} (h : Inserted decl s 0 fewer more)
    (ho : Outward fewer) (hname : decl.name = x) (harity : decl.arity = 0) :
    Grown x fewer more (shifted s (declCount decl)) := by
  have hlength := h.length_more
  obtain ⟨before, after, space, enclosing, rfl, rfl, hplace⟩ := h
  rw [Nat.zero_add] at hplace
  subst hplace
  have hnew : (declaredInType space enclosing before.length decl).length = declCount decl :=
    length_type ..
  refine ⟨fun _ _ => shifted_rising, fun q t ht => ?_, fun r t ht => ?_⟩
  · by_cases hq : q < before.length
    · -- a type before the place keeps the type around it
      have hstays : t.enclosing.map (shifted before.length (declCount decl)) = t.enclosing := by
        cases houter : t.enclosing with
        | none => rfl
        | some outer =>
          have hlt := ho q t outer ht houter
          rw [Option.map_some, shifted_of_lt (by omega)]
      rw [List.getElem?_append_left hq] at ht
      rw [shifted_of_lt hq, List.getElem?_append_left hq, ht, hstays]
    · rw [List.getElem?_append_right (by omega)] at ht
      rw [shifted_of_le (by omega), List.getElem?_append_right (by omega),
        List.getElem?_append_right (by omega), hnew, List.getElem?_map,
        show q + declCount decl - before.length - declCount decl = q - before.length by omega, ht]
      rfl
  · have hr := (List.getElem?_eq_some_iff.mp ht).1
    rw [hlength] at hr
    by_cases hbefore : r < before.length
    · refine .inl ⟨r, ?_, shifted_of_lt hbefore⟩
      rw [List.length_append]
      omega
    by_cases hbehind : before.length + declCount decl ≤ r
    · refine .inl ⟨r - declCount decl, by omega, ?_⟩
      rw [shifted_of_le (by omega)]
      omega
    rw [List.getElem?_append_right (by omega), List.getElem?_append_left (by omega),
      declaredInType_eq] at ht
    have hmem := List.mem_of_getElem? ht
    rcases List.mem_cons.mp hmem with rfl | hin
    · exact .inr (.inl ⟨hname, harity⟩)
    · obtain ⟨outer, houter⟩ :=
        Option.isSome_iff_exists.mp
          (enclosedRule.of_members space space trivial decl.members before.length before.length
            (before.length + 1) (before.length + 1) rfl t hin)
      have hwithin := within_declaredInMembers space decl.members before.length (before.length + 1)
        t hin outer houter
      rw [length_members] at hwithin
      refine .inr (.inr ⟨outer, houter, fun q _ => shifted_ne ?_ ?_ q⟩)
      · rcases hwithin with heq | ⟨hlo, -⟩
        · cases heq
          exact Nat.le_refl _
        · omega
      · unfold declCount
        rcases hwithin with heq | ⟨-, hhi⟩
        · cases heq
          omega
        · omega

theorem sends (h : Grown x fewer more c) (ho : Outward fewer) (ho' : Outward more) :
    Sends more fewer c := ⟨h.entry, ho', ho⟩

/-- What is found first stays so if none of the added types is to be found. -/
theorem findIdx?_eq (h : Grown x fewer more c) {f f' : DeclaredType → Bool}
    (hkept : ∀ t ∈ fewer, f' { t with enclosing := t.enclosing.map c } = f t)
    (hadded : ∀ (r : Nat) (t : DeclaredType), more[r]? = some t → f' t = true →
      ∃ q < fewer.length, c q = r) :
    (fewer.findIdx? f).map c = more.findIdx? f' := by
  have hat : ∀ (q : Nat) (hq : q < fewer.length) (hq' : c q < more.length),
      f' more[c q] = f fewer[q] := by
    intro q hq hq'
    have hentry := h.entry q _ (List.getElem?_eq_getElem hq)
    rw [List.getElem?_eq_getElem hq', Option.some.injEq] at hentry
    rw [hentry]
    exact hkept _ (List.getElem_mem hq)
  cases hfound : fewer.findIdx? f with
  | none =>
    rw [List.findIdx?_eq_none_iff] at hfound
    refine (List.findIdx?_eq_none_iff.mpr fun t ht => ?_).symm
    by_contra htrue
    rw [Bool.not_eq_false] at htrue
    obtain ⟨r, hr⟩ := List.mem_iff_getElem?.mp ht
    obtain ⟨q, hq, rfl⟩ := hadded r t hr htrue
    have hsame := hat q hq (List.getElem?_eq_some_iff.mp hr).1
    rw [(List.getElem?_eq_some_iff.mp hr).2, htrue, hfound _ (List.getElem_mem hq)] at hsame
    cases hsame
  | some q =>
    obtain ⟨hq, htrue, hbefore⟩ := List.findIdx?_eq_some_iff_getElem.mp hfound
    have hq' := h.lt_length hq
    refine (List.findIdx?_eq_some_iff_getElem.mpr ⟨hq', ?_, fun r hr hmatch => ?_⟩).symm
    · rw [hat q hq hq', htrue]
    · have hrlt : r < more.length := Nat.lt_trans hr hq'
      obtain ⟨p, hp, rfl⟩ := hadded r _ (List.getElem?_eq_getElem hrlt) hmatch
      have hpq : p < q := by
        rcases Nat.lt_or_ge p q with hlt | hge
        · exact hlt
        · rcases Nat.lt_or_eq_of_le hge with hlt | rfl
          · have := h.rising q p hlt
            omega
          · omega
      exact hbefore p hpq (by rw [← hat p hp hrlt, hmatch])

end Grown

-- ========================================================== bare names

/-- Whether a segment is the name `x` without arguments. -/
def IsBare (x : String) (segment : NameSegment) : Prop := segment.name = x ∧ segment.args = []

/-- Whether a name is the name `x` without arguments, and nothing else. -/
def isBareName (x : String) : List NameSegment → Bool
  | [⟨name, []⟩] => name = x
  | _ => false

/-- Whether the name `x` without arguments is no segment of a name, unless it
is the whole name. -/
def OccursBare (x : String) (name : List NameSegment) : Prop :=
  name = [⟨x, []⟩] ∨ ∀ segment ∈ name, ¬ IsBare x segment

theorem isBareName_iff {x : String} {name : List NameSegment} :
    isBareName x name = true ↔ name = [⟨x, []⟩] := by
  constructor
  · intro h
    unfold isBareName at h
    split at h
    · rw [of_decide_eq_true h]
    · cases h
  · rintro rfl
    exact decide_eq_true rfl

theorem isBareName_of_not_isBare {x : String} {name : List NameSegment}
    (h : ∀ segment ∈ name, ¬ IsBare x segment) : isBareName x name = false := by
  by_contra htrue
  rw [Bool.not_eq_false, isBareName_iff] at htrue
  subst htrue
  exact h _ List.mem_cons_self ⟨rfl, rfl⟩

namespace Scope

variable {x : String} {sc : Scope} {more : List DeclaredType} {c : Nat → Nat}

theorem lt_of_mem_enclosingTypes (ho : Outward sc.types) (hvalid : sc.Valid) {q : Nat}
    (hq : q ∈ sc.enclosingTypes) : q < sc.types.length := by
  have haround : ∀ bound (o : Option Nat), (∀ p, o = some p → p < sc.types.length) →
      ∀ q ∈ sc.around bound o, q < sc.types.length := by
    intro bound
    induction bound with
    | zero => exact fun _ _ _ h => absurd h List.not_mem_nil
    | succ bound ih =>
      intro o hlt q hq
      cases o with
      | none => exact absurd hq List.not_mem_nil
      | some place =>
        rw [around] at hq
        rcases List.mem_cons.mp hq with rfl | hq
        · exact hlt q rfl
        · refine ih _ (fun p hp => ?_) q hq
          obtain ⟨t, ht, houter⟩ := Option.bind_eq_some_iff.mp hp
          have hout := ho place t p ht houter
          have hplace := hlt place rfl
          omega
  exact haround _ _ hvalid q hq

theorem typeParameter?_eq_some {name : List NameSegment} {param : String}
    (h : sc.typeParameter? name = some param) : name = [⟨param, []⟩] := by
  unfold typeParameter? at h
  split at h
  · split at h
    · cases h
      rfl
    · cases h
  · cases h

theorem typeParameter?_bare (hx : x ∈ sc.typeParams) : sc.typeParameter? [⟨x, []⟩] = some x := by
  have hcontains : sc.typeParams.contains x = true := List.contains_iff_mem.mpr hx
  rw [typeParameter?, if_pos hcontains]

end Scope

namespace Grown

variable {x : String} {sc : Scope} {more : List DeclaredType} {c : Nat → Nat}

/-- Every segment but the bare name is found alike in namespaces. -/
theorem topAlike (h : Grown x sc.types more c) {segment : NameSegment}
    (hsegment : ¬ IsBare x segment) : TopAlike more sc.types c segment := by
  intro space
  refine h.findIdx?_eq (fun t _ => by rw [Option.isNone_map]) fun r t ht hmatch => ?_
  simp only [Bool.and_eq_true, decide_eq_true_eq] at hmatch
  obtain ⟨⟨⟨htop, -⟩, hname⟩, harity⟩ := hmatch
  rcases h.added r t ht with hkept | ⟨hx, hzero⟩ | ⟨outer, houter, -⟩
  · exact hkept
  · rw [harity, List.length_eq_zero_iff] at hzero
    exact absurd ⟨hname ▸ hx, hzero⟩ hsegment
  · rw [houter] at htop
    cases htop

/-- Every segment but the bare name is found alike inside types. -/
theorem findsAlike (h : Grown x sc.types more c) {segment : NameSegment}
    (hsegment : ¬ IsBare x segment) {outer : Nat} (houter : outer < sc.types.length) :
    FindsAlike more sc.types c outer segment := by
  have hinside : ∀ o : Option Nat, o.map c = some (c outer) ↔ o = some outer := by
    intro o
    cases o with
    | none => exact ⟨nofun, nofun⟩
    | some p => simp only [Option.map_some, Option.some.injEq]; exact ⟨h.inj, congrArg c⟩
  refine h.findIdx?_eq (fun t _ => ?_) fun r t ht hmatch => ?_
  · simp only [hinside]
  · simp only [Bool.and_eq_true, decide_eq_true_eq] at hmatch
    obtain ⟨⟨hin, hname⟩, harity⟩ := hmatch
    rcases h.added r t ht with hkept | ⟨hx, hzero⟩ | ⟨other, hother, hout⟩
    · exact hkept
    · rw [harity, List.length_eq_zero_iff] at hzero
      exact absurd ⟨hname ▸ hx, hzero⟩ hsegment
    · rw [hin, Option.some.injEq] at hother
      exact absurd hother (hout outer houter)

/-- Every name without the bare name in it is found alike. -/
theorem foundAlike (h : Grown x sc.types more c) (ho : Outward sc.types) (hvalid : sc.Valid)
    {name : List NameSegment} (hname : ∀ segment ∈ name, ¬ IsBare x segment) :
    FoundAlike more c sc name where
  tops := fun segment hsegment => h.topAlike (hname segment hsegment)
  starts := fun segment hsegment outer houter =>
    h.findsAlike (hname segment (List.mem_of_mem_head? hsegment))
      (Scope.lt_of_mem_enclosingTypes ho hvalid houter)
  dots := by
    intro segment next hpair q hq
    obtain ⟨t, ht, -⟩ := Scope.exists_of_finds hq
    have hnext : next ∈ name := hpair.subset (List.mem_cons_of_mem _ List.mem_cons_self)
    exact h.findsAlike (hname next hnext) (Scope.getElem?_lt ht)

end Grown

-- ============================================================= lengths

/-- How long texts are, one behind the other. -/
def totalLength : List String → Nat
  | [] => 0
  | text :: rest => text.length + totalLength rest

theorem totalLength_append (texts more : List String) :
    totalLength (texts ++ more) = totalLength texts + totalLength more := by
  induction texts with
  | nil => exact (Nat.zero_add _).symm
  | cons text rest ih => rw [List.cons_append, totalLength, totalLength, ih, Nat.add_assoc]

theorem length_joined (texts : List String) :
    (String.intercalate "," texts).length = totalLength texts + (texts.length - 1) := by
  induction texts with
  | nil => rfl
  | cons first rest ih =>
    cases rest with
    | nil => rw [String.intercalate_singleton]; rfl
    | cons second rest =>
      have hcomma : ",".length = 1 := rfl
      have htotal : totalLength (first :: second :: rest)
        = first.length + totalLength (second :: rest) := rfl
      rw [String.intercalate_cons_cons, String.length_append, String.length_append, ih, hcomma,
        htotal, List.length_cons, List.length_cons, List.length_cons]
      omega

namespace Scope

/-- How long the name of a tuple type is depends on how many elements there
are, and how long their names are. -/
theorem length_tupleName {n : Nat} {names names' : List String} (hn : names.length = n)
    (hn' : names'.length = n) :
    (tupleName names').length + totalLength names = (tupleName names).length + totalLength names' := by
  have htuple : ∀ args args' : List String, args.length = args'.length →
      (tupleName.tuple args').length + totalLength args
        = (tupleName.tuple args).length + totalLength args' := by
    intro args args' hargs
    unfold tupleName.tuple
    simp only [String.length_append, length_joined, hargs]
    omega
  induction n using Nat.strongRecOn generalizing names names' with
  | ind n ih =>
    rw [tupleName.eq_def names', tupleName.eq_def names, hn, hn']
    split
    · next hlarge =>
      have hshorter : n - tupleLimit < n := by
        unfold tupleLimit at *
        omega
      have hdrop : (names.drop tupleLimit).length = n - tupleLimit := by rw [List.length_drop, hn]
      have hdrop' : (names'.drop tupleLimit).length = n - tupleLimit := by rw [List.length_drop, hn']
      have hrest := ih (n - tupleLimit) hshorter hdrop hdrop'
      have hall := htuple (names.take tupleLimit ++ [tupleName (names.drop tupleLimit)])
        (names'.take tupleLimit ++ [tupleName (names'.drop tupleLimit)])
        (by simp only [List.length_append, List.length_take, hn, hn', List.length_singleton])
      have hcut := totalLength_append (names.take tupleLimit) (names.drop tupleLimit)
      have hcut' := totalLength_append (names'.take tupleLimit) (names'.drop tupleLimit)
      rw [List.take_append_drop] at hcut hcut'
      rw [totalLength_append, totalLength_append] at hall
      simp only [totalLength] at hall
      omega
    · exact htuple names names' (hn.trans hn'.symm)

theorem length_withArguments (base : String) {args args' : List String}
    (h : args.length = args'.length) :
    (withArguments base args').length + totalLength args
      = (withArguments base args).length + totalLength args' := by
  unfold withArguments
  cases args with
  | nil =>
    obtain rfl := List.length_eq_zero_iff.mp h.symm
    rfl
  | cons arg args =>
    obtain ⟨arg', args', rfl⟩ : ∃ a as, args' = a :: as := by
      cases args' with
      | nil => cases h
      | cons a as => exact ⟨a, as, rfl⟩
    simp only [List.isEmpty_cons, Bool.false_eq_true, ↓reduceIte, String.length_append,
      length_joined, h]
    omega

theorem length_typeNames (sc : Scope) (ts : List TypeExpr) :
    (sc.typeNames ts).length = ts.length := by
  induction ts with
  | nil => rw [typeNames]; rfl
  | cons t rest ih => rw [typeNames, List.length_cons, List.length_cons, ih]

theorem length_segmentArguments (sc sc' : Scope) (segments : List NameSegment) :
    (sc'.segmentArguments segments).length = (sc.segmentArguments segments).length := by
  induction segments with
  | nil => rw [segmentArguments, segmentArguments]
  | cons segment rest ih =>
    obtain ⟨_, args⟩ := segment
    rw [segmentArguments, segmentArguments, List.length_append, List.length_append,
      length_typeNames, length_typeNames, ih]

/-- How many letters a question mark puts around the name of a value type. -/
def bracketsLength (isValue : Bool) : Nat := if isValue then 19 else 0

theorem length_nullable (sc : Scope) (inner : TypeExpr) :
    (sc.typeName (.nullable inner)).length
      = (sc.typeName inner).length + bracketsLength (sc.isValueType inner) := by
  have hfront : "System.Nullable`1[".length = 18 := rfl
  have hback : "]".length = 1 := rfl
  rw [typeName]
  split
  · next hvalue =>
    rw [hvalue, String.length_append, String.length_append, hfront, hback, bracketsLength, if_pos rfl]
    omega
  · next hvalue =>
    rw [Bool.not_eq_true] at hvalue
    rw [hvalue]
    rfl

end Scope

-- ======================================================== shadowed names

/-- How many letters question marks behind the bare name `x` give the name of
a type that has question marks behind these names. -/
def marksLength (x : String) (sc : Scope) (names : List (List NameSegment)) : Nat :=
  Scope.bracketsLength (sc.NamesValueType [⟨x, []⟩]) * names.countP (isBareName x)

section Marks

variable {x : String} {sc : Scope}

theorem marksLength_append (names more : List (List NameSegment)) :
    marksLength x sc (names ++ more) = marksLength x sc names + marksLength x sc more := by
  rw [marksLength, List.countP_append, Nat.mul_add]
  rfl

theorem marksLength_bare (names : List (List NameSegment)) :
    marksLength x sc ([⟨x, []⟩] :: names)
      = marksLength x sc names + Scope.bracketsLength (sc.NamesValueType [⟨x, []⟩]) := by
  rw [marksLength, List.countP_cons_of_pos (isBareName_iff.mpr rfl), Nat.mul_succ]
  rfl

theorem marksLength_cons {name : List NameSegment} (hname : ∀ segment ∈ name, ¬ IsBare x segment)
    (names : List (List NameSegment)) :
    marksLength x sc (name :: names) = marksLength x sc names := by
  have hother : ¬ isBareName x name = true := by
    rw [isBareName_of_not_isBare hname]
    exact Bool.false_ne_true
  rw [marksLength, List.countP_cons_of_neg hother]
  rfl

end Marks

/-- Whether names without the bare name `x` mean the same in two scopes. -/
structure AlikeBut (x : String) (sc sc' : Scope) : Prop where
  params : sc'.typeParams = sc.typeParams
  base : ∀ name : List NameSegment, (∀ segment ∈ name, ¬ IsBare x segment) →
    sc'.baseName name = sc.baseName name
  value : ∀ name : List NameSegment, (∀ segment ∈ name, ¬ IsBare x segment) →
    sc'.NamesValueType name = sc.NamesValueType name

theorem Grown.alikeBut {x : String} {sc : Scope} {more : List DeclaredType} {c : Nat → Nat}
    (h : Grown x sc.types more c) (ho : Outward sc.types) (ho' : Outward more)
    (hvalid : sc.Valid) : AlikeBut x sc (sc.collapsed more c) where
  params := rfl
  base := fun _ hname =>
    Scope.baseName_sent (h.sends ho ho') hvalid (h.foundAlike ho hvalid hname)
  value := fun _ hname =>
    Scope.namesValueType_sent (h.sends ho ho') hvalid (h.foundAlike ho hvalid hname)

namespace AlikeBut

variable {x : String} {sc sc' : Scope}

theorem typeParameter?_eq (h : AlikeBut x sc sc') (name : List NameSegment) :
    sc'.typeParameter? name = sc.typeParameter? name := by
  unfold Scope.typeParameter?
  rw [h.params]

/-- Behind anything but a name, a question mark does the same in both
scopes. -/
theorem length_marked {inner : TypeExpr}
    (hinner : (sc'.typeName inner).length + marksLength x sc inner.nullableNames
      = (sc.typeName inner).length + marksLength x sc' inner.nullableNames)
    (hnames : (TypeExpr.nullable inner).nullableNames = inner.nullableNames)
    (hvalue : sc'.isValueType inner = sc.isValueType inner) :
    (sc'.typeName (.nullable inner)).length
        + marksLength x sc (TypeExpr.nullable inner).nullableNames
      = (sc.typeName (.nullable inner)).length
        + marksLength x sc' (TypeExpr.nullable inner).nullableNames := by
  rw [Scope.length_nullable, Scope.length_nullable, hnames, hvalue]
  omega

mutual

/-- What question marks behind the bare name `x` give a name is all that two
names of one type differ in, in length. -/
theorem length_typeName (h : AlikeBut x sc sc') (hx : x ∈ sc.typeParams) :
    ∀ t : TypeExpr, (∀ name ∈ t.names, OccursBare x name) →
      (sc'.typeName t).length + marksLength x sc t.nullableNames
        = (sc.typeName t).length + marksLength x sc' t.nullableNames
  | .predefined keyword, _ => by
    rw [Scope.typeName, Scope.typeName, TypeExpr.nullableNames]
    rfl
  | .named root segments, ht => by
    rw [TypeExpr.names, List.forall_mem_cons] at ht
    rw [Scope.typeName, Scope.typeName, TypeExpr.nullableNames, h.typeParameter?_eq]
    cases hparam : sc.typeParameter? segments with
    | some name =>
      -- the name of a type parameter has no arguments
      rw [Scope.typeParameter?_eq_some hparam]
      rfl
    | none =>
      have hother : ∀ segment ∈ segments, ¬ IsBare x segment := by
        rcases ht.1 with rfl | hother
        · rw [Scope.typeParameter?_bare hx] at hparam
          cases hparam
        · exact hother
      have hargs := h.length_segmentArguments hx segments ht.2
      have hwith := Scope.length_withArguments (sc.baseName segments)
        (sc.length_segmentArguments sc' segments).symm
      simp only [h.base segments hother]
      omega
  | .array element rank, ht => by
    have helement := h.length_typeName hx element ht
    rw [Scope.typeName, Scope.typeName, TypeExpr.nullableNames]
    simp only [String.length_append]
    omega
  | .nullable inner, ht => by
    cases inner with
    | named root segments =>
      have hinner := h.length_typeName hx (.named root segments) ht
      rw [TypeExpr.nullableNames] at hinner
      have hvalue : sc.isValueType (.named root segments) = sc.NamesValueType segments := rfl
      have hvalue' : sc'.isValueType (.named root segments) = sc'.NamesValueType segments := rfl
      rw [TypeExpr.nullableNames, Scope.length_nullable, Scope.length_nullable, hvalue, hvalue']
      rcases ht segments List.mem_cons_self with rfl | hother
      · rw [marksLength_bare, marksLength_bare]
        omega
      · rw [marksLength_cons hother, marksLength_cons hother, h.value segments hother]
        omega
    | predefined _ | array _ _ | nullable _ | pointer _ | tuple _ =>
      exact length_marked (h.length_typeName hx _ ht) rfl rfl
  | .pointer inner, ht => by
    have hinner := h.length_typeName hx inner ht
    rw [Scope.typeName, Scope.typeName, TypeExpr.nullableNames]
    simp only [String.length_append]
    omega
  | .tuple elements, ht => by
    have helements := h.totalLength_typeNames hx elements ht
    have htuple := Scope.length_tupleName (sc.length_typeNames elements)
      (sc'.length_typeNames elements)
    rw [Scope.typeName, Scope.typeName, TypeExpr.nullableNames]
    omega

theorem totalLength_typeNames (h : AlikeBut x sc sc') (hx : x ∈ sc.typeParams) :
    ∀ ts : List TypeExpr, (∀ name ∈ TypeExpr.allNames ts, OccursBare x name) →
      totalLength (sc'.typeNames ts) + marksLength x sc (TypeExpr.allNullableNames ts)
        = totalLength (sc.typeNames ts) + marksLength x sc' (TypeExpr.allNullableNames ts)
  | [], _ => by
    rw [Scope.typeNames, Scope.typeNames]
    rfl
  | t :: rest, ht => by
    rw [TypeExpr.allNames, List.forall_mem_append] at ht
    have hfirst := h.length_typeName hx t ht.1
    have hrest := h.totalLength_typeNames hx rest ht.2
    rw [Scope.typeNames, Scope.typeNames, TypeExpr.allNullableNames, marksLength_append,
      marksLength_append, totalLength, totalLength]
    omega

theorem length_segmentArguments (h : AlikeBut x sc sc') (hx : x ∈ sc.typeParams) :
    ∀ segments : List NameSegment,
      (∀ name ∈ TypeExpr.argumentNames segments, OccursBare x name) →
      totalLength (sc'.segmentArguments segments)
          + marksLength x sc (TypeExpr.nullableArgumentNames segments)
        = totalLength (sc.segmentArguments segments)
          + marksLength x sc' (TypeExpr.nullableArgumentNames segments)
  | [], _ => by
    rw [Scope.segmentArguments, Scope.segmentArguments]
    rfl
  | ⟨_, args⟩ :: rest, ht => by
    rw [TypeExpr.argumentNames, List.forall_mem_append] at ht
    have hargs := h.totalLength_typeNames hx args ht.1
    have hrest := h.length_segmentArguments hx rest ht.2
    rw [Scope.segmentArguments, Scope.segmentArguments, TypeExpr.nullableArgumentNames,
      marksLength_append, marksLength_append, totalLength_append, totalLength_append]
    omega

end

/-- As many question marks make as many brackets only if what the bare name
means is a value type in both scopes or in none. -/
theorem namesValueType_of_marksLength {names : List (List NameSegment)} (h : [⟨x, []⟩] ∈ names)
    (hsame : marksLength x sc names = marksLength x sc' names) :
    sc'.NamesValueType [⟨x, []⟩] = sc.NamesValueType [⟨x, []⟩] := by
  have hpos : 0 < names.countP (isBareName x) :=
    List.countP_pos_iff.mpr ⟨_, h, isBareName_iff.mpr rfl⟩
  have hbrackets := Nat.eq_of_mul_eq_mul_right hpos hsame
  revert hbrackets
  cases sc.NamesValueType [⟨x, []⟩] <;> cases sc'.NamesValueType [⟨x, []⟩] <;>
    simp [Scope.bracketsLength]

end AlikeBut

/-- Whether a file is another one with types named `x`, without type
parameters, put in, and where its types go. -/
inductive Adds (x : String) : CompilationUnit → CompilationUnit → (Nat → Nat) → Prop
  | nothing (unit : CompilationUnit) : Adds x unit unit id
  | put (site : UnitSite) {decl : TypeDecl} (hname : decl.name = x) (harity : decl.arity = 0) :
    Adds x (site.fill []) (site.fill [decl])
      (shifted (offsetInSpace site.site) (declCount decl))
  | more {unit unit' unit'' : CompilationUnit} {c d : Nat → Nat} (h : Adds x unit unit' c)
    (h' : Adds x unit' unit'' d) : Adds x unit unit'' (d ∘ c)

theorem Adds.grown {x : String} {unit unit' : CompilationUnit} {c : Nat → Nat}
    (h : Adds x unit unit' c) : Grown x (declaredTypes unit) (declaredTypes unit') c := by
  induction h with
  | nothing unit => exact .refl x _
  | @put site decl hname harity =>
    have hinserted := inserted_declaredInSpace decl site.site "" 0
    rw [Nat.zero_add] at hinserted
    exact .of_inserted hinserted (outward_declaredTypes (site.fill [])) hname harity
  | more _ _ ih ih' => exact ih.trans ih'

/-- Where types named like a type parameter are put into a file, the name of
a type stays the same exactly if they do not change whether that name, behind
which a question mark stands, is taken for a value type. -/
theorem typeName_shadowed_iff {x : String} {unit unit' : CompilationUnit} {c : Nat → Nat}
    (hadds : Adds x unit unit' c) {sc : Scope} (htypes : sc.types = declaredTypes unit)
    (hvalid : sc.Valid) (hx : x ∈ sc.typeParams) {t : TypeExpr}
    (ht : ∀ name ∈ t.names, OccursBare x name) :
    (sc.collapsed (declaredTypes unit') c).typeName t = sc.typeName t
      ↔ ([⟨x, []⟩] ∈ t.nullableNames →
        (sc.collapsed (declaredTypes unit') c).NamesValueType [⟨x, []⟩]
          = sc.NamesValueType [⟨x, []⟩]) := by
  have hgrown := hadds.grown
  have ho := outward_declaredTypes unit
  have ho' := outward_declaredTypes unit'
  rw [← htypes] at hgrown ho
  have halike := hgrown.alikeBut ho ho' hvalid
  constructor
  · intro hsame hmark
    have hlength := halike.length_typeName hx t ht
    rw [hsame] at hlength
    exact AlikeBut.namesValueType_of_marksLength hmark (Nat.add_left_cancel hlength)
  · intro hvalue
    refine Scope.typeName_sent (hgrown.sends ho ho') hvalid t (fun name hname hparam => ?_)
      fun name hname => ?_
    · rcases ht name hname with rfl | hother
      · rw [Scope.typeParameter?_bare hx] at hparam
        cases hparam
      · exact hgrown.foundAlike ho hvalid hother
    · rcases ht name (t.nullableNames_subset hname) with rfl | hother
      · exact hvalue hname
      · exact halike.value name hother

/-- Inside `class C<X>`, the only type of a file. -/
def genericSite : UnitSite :=
  ⟨[], [], .inType { (default : TypeDecl) with name := "C", typeParams := ["X"] } (.here []) []⟩

/-- The structure `X`. -/
def structX : TypeDecl := { (default : TypeDecl) with kind := .structType, name := "X" }

/-- The scope inside `class C<X>`. -/
def genericScope : Scope :=
  ⟨declaredTypes (genericSite.fill []), "", [], some 0, ["X"]⟩

/-- Once a structure `X` stands inside `class C<X>`, the name of `X[]` is the
same as before and the name of `X?` is not. -/
theorem typeName_shadowed_by_struct :
    genericScope.Valid ∧ "X" ∈ genericScope.typeParams ∧
      (let sc' := genericScope.collapsed (declaredTypes (genericSite.fill [structX])) (shifted 1 1)
      let named : TypeExpr := .named none [⟨"X", []⟩]
      sc'.typeName (.array named 1) = genericScope.typeName (.array named 1)
        ∧ sc'.typeName (.nullable named) ≠ genericScope.typeName (.nullable named)) := by
  have hadds : Adds "X" (genericSite.fill []) (genericSite.fill [structX]) (shifted 1 1) :=
    .put genericSite rfl rfl
  have hvalid : genericScope.Valid := by
    rintro q ⟨⟩
    decide
  have hx : "X" ∈ genericScope.typeParams := List.mem_cons_self
  have hbare : ∀ name ∈ (TypeExpr.named none [⟨"X", []⟩]).names, OccursBare "X" name := by
    intro name hname
    rw [TypeExpr.names] at hname
    exact .inl (List.mem_singleton.mp hname)
  refine ⟨hvalid, hx, ?_, fun hsame => ?_⟩
  · refine (typeName_shadowed_iff hadds rfl hvalid hx (t := .array (.named none [⟨"X", []⟩]) 1) hbare).mpr fun hmark => ?_
    exact absurd hmark List.not_mem_nil
  · have hvalue := (typeName_shadowed_iff hadds rfl hvalid hx (t := .nullable (.named none [⟨"X", []⟩])) hbare).mp hsame
      List.mem_cons_self
    revert hvalue
    decide +kernel

/-- Whether the last member of a file is a type named `x`, without type
parameters, and a condition holds of the type and its place. -/
def lastTypeNamed (x : String) (condition : UnitSite → TypeDecl → Bool) : CompilationUnit → Bool
  | ⟨aliases, usings, [first, .type decl]⟩ =>
    decide (decl.name = x ∧ decl.arity = 0)
      && condition ⟨aliases, usings, .later first (.here [])⟩ decl
  | _ => false

theorem of_lastTypeNamed {x : String} {condition : UnitSite → TypeDecl → Bool}
    {unit : CompilationUnit} (h : lastTypeNamed x condition unit = true) :
    ∃ site decl, unit = site.fill [decl] ∧ decl.name = x ∧ decl.arity = 0
      ∧ condition site decl = true := by
  unfold lastTypeNamed at h
  split at h
  · next aliases usings first decl =>
    rw [Bool.and_eq_true, decide_eq_true_eq] at h
    exact ⟨⟨aliases, usings, .later first (.here [])⟩, decl, rfl, h.1.1, h.1.2, h.2⟩
  · cases h

def questionSource : String :=
  "class C<X> \x7b void M(X? x) \x7b \x7d \x7d struct X \x7b \x7d"

/-- The parameters of all methods of a module. -/
def paramsOf (a : Assembly) : List String := a.methods.flatMap fun m => m.signature.params

/-- In `class C<X>`, `X?` is named `X`, but once a structure `X` is declared
behind the class it is named as if it were that structure. -/
theorem question_mark_not_shadowed : ∃ (tree : Tree) (site : UnitSite) (decl : TypeDecl)
    (c : Nat → Nat) (a a' : Assembly),
    (Run.outcome (Tree.parse questionSource)).1 = .ok tree
      ∧ tree.root = site.fill [decl] ∧ Adds "X" (site.fill []) tree.root c
      ∧ (Run.outcome (compile "Question" ⟨questionSource, site.fill []⟩ ⟨false⟩)).1 = .ok a
      ∧ paramsOf a = ["X"]
      ∧ (Run.outcome (compile "Question" tree ⟨false⟩)).1 = .ok a'
      ∧ paramsOf a' = ["System.Nullable`1[X]"] := by
  have hruns : compilesTo questionSource "Question" (fun tree a' =>
      decide (paramsOf a' = ["System.Nullable`1[X]"])
        && lastTypeNamed "X" (fun site _ =>
          (Run.outcome (compile "Question" ⟨questionSource, site.fill []⟩ ⟨false⟩)).1.toOption.any
            fun a => decide (paramsOf a = ["X"])) tree.root) = true := by
    decide +kernel
  obtain ⟨tree, a', hparse, hcompile, -, -, hcheck⟩ := of_compilesTo hruns
  rw [Bool.and_eq_true, decide_eq_true_eq] at hcheck
  obtain ⟨site, decl, hroot, hname, harity, hwithout⟩ := of_lastTypeNamed hcheck.2
  obtain ⟨a, ha, hparams⟩ := (Option.any_eq_true _ _).mp hwithout
  refine ⟨tree, site, decl, shifted (offsetInSpace site.site) (declCount decl), a, a', hparse, hroot, ?_, ?_, of_decide_eq_true hparams, hcompile,
    hcheck.1⟩
  · rw [hroot]
    exact .put site hname harity
  · exact Fallible.ok_of_toOption_eq_some ha

end ClrListing.Lowering
