/-
What the resolver has handed out and what is left.

# The account

A resolver keeps, for the types it looked at, the methods that no
declaration has taken. `Accounts a r given` says that this and the list
`given` of methods handed out so far tell the same story: for every type
and name, the type's methods of that name are those handed out, followed
by those that are left. Nothing is handed out twice, nothing is skipped,
and the order is that of the rows.

A visit keeps the account (`attend_accounts`), and so does every list of
visits (`serve_accounts`), whether it stops early or not. What a visit is
denied can then be read off the account alone (`attend_stops_iff`).
-/
import ClrListing.Proofs.Binding.Traversal

namespace ClrListing

open Assembly Metadata

/-- The methods of a name that a type declares, without those that the
compiler made up, in the order of their rows. -/
def Assembly.methodsNamed (a : Assembly) (type : Token) (name : String) : List Token :=
  ((a.declaredMethods type).filter fun m => !m.isGenerated && m.canonicalName = name).map
    MethodDef.token

namespace Binding

variable {a : Assembly}

-- ============================================================== groups

namespace MethodGroups

/-- At first all methods of a name are left. -/
theorem named_ofType (type : Token) (name : String) :
    (ofType a type).named name = a.methodsNamed type name := by
  unfold ofType named Assembly.methodsNamed
  rw [List.filter_map, List.map_map, List.filter_filter]
  congr 1
  refine List.filter_congr fun m _ => ?_
  rw [Bool.and_comm]
  rfl

/-- Taking a method of a name takes the first that is left. -/
theorem named_taken (g : MethodGroups) (name : String) :
    (g.taken name).named name = (g.named name).tail := by
  obtain ⟨left⟩ := g
  unfold taken named
  induction left with
  | nil => rfl
  | cons entry rest ih =>
    by_cases h : entry.1 = name
    · rw [List.eraseP_cons_of_pos (by simpa using h), List.filter_cons_of_pos (by simpa using h)]
      rfl
    · rw [List.eraseP_cons_of_neg (by simpa using h), List.filter_cons_of_neg (by simpa using h),
        List.filter_cons_of_neg (by simpa using h)]
      exact ih

/-- Taking a method of a name leaves the other names alone. -/
theorem named_taken_of_ne (g : MethodGroups) {name other : String} (h : name ≠ other) :
    (g.taken name).named other = g.named other := by
  obtain ⟨left⟩ := g
  unfold taken named
  induction left with
  | nil => rfl
  | cons entry rest ih =>
    by_cases hn : entry.1 = name
    · have ho : ¬ entry.1 = other := fun he => h (hn.symm.trans he)
      rw [List.eraseP_cons_of_pos (by simpa using hn), List.filter_cons_of_neg (by simpa using ho)]
    · rw [List.eraseP_cons_of_neg (by simpa using hn)]
      by_cases ho : entry.1 = other
      · rw [List.filter_cons_of_pos (by simpa using ho), List.filter_cons_of_pos (by simpa using ho),
          List.map_cons, List.map_cons, ih]
      · rw [List.filter_cons_of_neg (by simpa using ho), List.filter_cons_of_neg (by simpa using ho)]
        exact ih

end MethodGroups

namespace Resolver

/-- A resolver that looked at nothing leaves every type its methods. -/
theorem groupsOf_start (type : Token) : start.groupsOf a type = .ofType a type := rfl

theorem groupsOf_withGroups (r : Resolver) (type : Token) (g : MethodGroups) :
    (r.withGroups type g).groupsOf a type = g := by
  unfold withGroups groupsOf
  rw [List.lookup_cons_self, Option.getD_some]

/-- What is left of a type does not depend on what is recorded of
another. -/
theorem groupsOf_withGroups_of_ne (r : Resolver) {type other : Token} (g : MethodGroups)
    (h : other ≠ type) : (r.withGroups type g).groupsOf a other = r.groupsOf a other := by
  obtain ⟨groups⟩ := r
  unfold withGroups groupsOf
  congr 1
  rw [List.lookup_cons, beq_false_of_ne h]
  induction groups with
  | nil => rfl
  | cons entry rest ih =>
    by_cases he : entry.1 = type
    · have ho : other ≠ entry.1 := fun heq => h (heq.trans he)
      rw [List.filter_cons_of_neg (by simpa using he), List.lookup_cons, beq_false_of_ne ho]
      exact ih
    · rw [List.filter_cons_of_pos (by simpa using he), List.lookup_cons, List.lookup_cons]
      cases other == entry.1 with
      | true => rfl
      | false => exact ih

end Resolver

-- ========================================================= the account

/-- The methods of a name of a type that were handed out, in order. -/
def handed (given : List Grant) (type : Token) (name : String) : List Token :=
  (given.filter fun g => g.owner = type && g.name = name).map Grant.token

theorem handed_append (xs ys : List Grant) (type : Token) (name : String) :
    handed (xs ++ ys) type name = handed xs type name ++ handed ys type name := by
  unfold handed
  rw [List.filter_append, List.map_append]

theorem handed_singleton (g : Grant) : handed [g] g.owner g.name = [g.token] := by
  simp [handed]

theorem handed_singleton_of_ne {g : Grant} {type : Token} {name : String}
    (h : ¬ (type = g.owner ∧ name = g.name)) : handed [g] type name = [] := by
  unfold handed
  rw [List.filter_cons_of_neg]
  · rfl
  · intro hg
    rw [Bool.and_eq_true, decide_eq_true_eq, decide_eq_true_eq] at hg
    exact h ⟨hg.1.symm, hg.2.symm⟩

/-- What was handed out and what is left are together the methods of each
type and name. -/
def Accounts (a : Assembly) (r : Resolver) (given : List Grant) : Prop :=
  ∀ type name,
    a.methodsNamed type name = handed given type name ++ (r.groupsOf a type).named name

theorem accounts_start : Accounts a .start [] := by
  intro type name
  rw [Resolver.groupsOf_start, MethodGroups.named_ofType]
  rfl

/-- A visit keeps the account. -/
theorem attend_accounts {r : Resolver} {given : List Grant} (h : Accounts a r given) (v : Visit) :
    Accounts a (attend a r v).left (given ++ (attend a r v).grants) := by
  cases v with
  | type outer d =>
    simp only [attend]
    cases locate a outer d with
    | some type => rwa [List.append_nil]
    | none => rwa [List.append_nil]
  | member owner d =>
    intro type name
    have hacc := h type name
    simp only [attend]
    by_cases hkey : type = owner ∧ name = d.canonicalName
    · obtain ⟨rfl, rfl⟩ := hkey
      cases hleft : (r.groupsOf a type).named d.canonicalName with
      | nil =>
        rw [List.head?_nil]
        simp only []
        rw [Resolver.groupsOf_withGroups, MethodGroups.named_taken, hacc, hleft, List.tail_nil,
          List.append_nil, List.append_nil, List.append_nil]
      | cons token rest =>
        have hone : handed [Grant.mk type d token] type d.canonicalName = [token] :=
          handed_singleton ⟨type, d, token⟩
        rw [List.head?_cons]
        simp only []
        rw [Resolver.groupsOf_withGroups, MethodGroups.named_taken, hacc, hleft, handed_append,
          hone, List.tail_cons, List.append_assoc, List.singleton_append]
    · -- the groups of another type or name are as before, and nothing of it was handed out
      have hgroups : ((r.withGroups owner ((r.groupsOf a owner).taken d.canonicalName)).groupsOf
          a type).named name = (r.groupsOf a type).named name := by
        by_cases ht : type = owner
        · subst ht
          have hn : d.canonicalName ≠ name := fun hn => hkey ⟨rfl, hn.symm⟩
          rw [Resolver.groupsOf_withGroups, MethodGroups.named_taken_of_ne _ hn]
        · rw [Resolver.groupsOf_withGroups_of_ne _ _ ht]
      cases (r.groupsOf a owner).named d.canonicalName with
      | nil =>
        rw [List.head?_nil]
        simp only []
        rw [List.append_nil, hgroups, hacc]
      | cons token rest =>
        have hnone : handed [Grant.mk owner d token] type name = [] :=
          handed_singleton_of_ne hkey
        rw [List.head?_cons]
        simp only []
        rw [handed_append, hnone, List.append_nil, hgroups, hacc]

/-- Visits in order keep the account, also where they stop early. -/
theorem serve_accounts {r : Resolver} {given : List Grant} (h : Accounts a r given)
    (vs : List Visit) : Accounts a (serve a r vs).left (given ++ (serve a r vs).grants) := by
  induction vs generalizing r given with
  | nil =>
    show Accounts a r (given ++ [])
    rwa [List.append_nil]
  | cons v vs ih =>
    have hv := attend_accounts h v
    rw [serve]
    cases hs : (attend a r v).stop with
    | some m => rwa [Service.andThen_of_stop hs]
    | none =>
      rw [Service.andThen_of_go hs]
      simp only []
      rw [← List.append_assoc]
      exact ih hv

-- ============================================================= denials

/-- Whether the module has a type as a declaration names it, inside
`outer` or at the top. -/
def Present (a : Assembly) : Option Token → Declaration → Prop
  | none, d => ∃ space name arity, d.kind = .type space name arity
      ∧ ∃ t ∈ a.types, t.enclosing = none ∧ t.space = space ∧ t.name = d.canonicalName
  | some outer, d => ∃ o, a.type? outer = some o
      ∧ ∃ token ∈ o.nested, ∃ t, a.type? token = some t ∧ t.name = d.canonicalName

/-- What a visit is denied once `given` was handed out: a type that the
module does not have, or a method of a name whose methods are all handed
out. At the top, what is no type is not in the module. -/
def Denied (a : Assembly) (given : List Grant) : Visit → Prop
  | .type outer d => ¬ Present a outer d
  | .member owner d =>
    a.methodsNamed owner d.canonicalName = handed given owner d.canonicalName

/-- A declaration names a type exactly if the module has it. -/
theorem isSome_locate_iff (outer : Option Token) (d : Declaration) :
    (locate a outer d).isSome ↔ Present a outer d := by
  cases outer with
  | some outer =>
    rw [locate, Option.isSome_map, Present, Assembly.nestedType?]
    cases a.type? outer with
    | none => simp
    | some o =>
      rw [Option.bind_eq_bind, Option.bind_some, List.find?_isSome]
      constructor
      · rintro ⟨t, ht, hname⟩
        obtain ⟨token, htoken, hlook⟩ := List.mem_filterMap.mp ht
        exact ⟨o, rfl, token, htoken, t, hlook, by simpa using hname⟩
      · rintro ⟨_, ho, token, htoken, t, hlook, hname⟩
        cases ho
        exact ⟨t, List.mem_filterMap.mpr ⟨token, htoken, hlook⟩, by simpa using hname⟩
  | none =>
    cases hk : d.kind with
    | type space name arity =>
      simp only [locate, hk, Option.isSome_map, Present, Assembly.findType?]
      rw [List.find?_isSome]
      constructor
      · rintro ⟨t, ht, hfit⟩
        rw [Bool.and_eq_true, Bool.and_eq_true, Option.isNone_iff_eq_none, decide_eq_true_eq,
          decide_eq_true_eq] at hfit
        exact ⟨space, name, arity, rfl, t, ht, hfit.1.1, hfit.1.2, hfit.2⟩
      · rintro ⟨_, _, _, hkind, t, ht, hnone, hspace, hname⟩
        cases hkind
        exact ⟨t, ht, by simp [hnone, hspace, hname]⟩
    | constructor => simp [locate, Present, hk]
    | method => simp [locate, Present, hk]
    | accessor => simp [locate, Present, hk]

/-- A visit stops exactly where it is denied what it asks for. -/
theorem attend_stops_iff {r : Resolver} {given : List Grant} (h : Accounts a r given)
    (v : Visit) : (attend a r v).stop ≠ none ↔ Denied a given v := by
  cases v with
  | type outer d =>
    rw [Denied, ← isSome_locate_iff]
    simp only [attend]
    cases locate a outer d with
    | some type => simp
    | none => simp
  | member owner d =>
    rw [Denied, h owner d.canonicalName]
    simp only [attend]
    cases hleft : (r.groupsOf a owner).named d.canonicalName with
    | nil => simp
    | cons token rest => simp

/-- A list of visits stops exactly where one of them, reached through
those before it, is denied what it asks for. -/
theorem serve_stops_iff {r : Resolver} {given : List Grant} (h : Accounts a r given)
    (vs : List Visit) :
    (serve a r vs).stop ≠ none ↔
      ∃ before v behind, vs = before ++ v :: behind ∧ (serve a r before).stop = none
        ∧ Denied a (given ++ (serve a r before).grants) v := by
  induction vs generalizing r given with
  | nil =>
    constructor
    · intro hs
      exact absurd rfl hs
    · rintro ⟨before, v, behind, hvs, -⟩
      exact absurd hvs (by simp)
  | cons first rest ih =>
    rw [serve]
    cases hs : (attend a r first).stop with
    | some m =>
      rw [Service.andThen_of_stop hs]
      constructor
      · intro _
        refine ⟨[], first, rest, rfl, rfl, ?_⟩
        have hd := (attend_stops_iff h first).mp (by rw [hs]; exact Option.some_ne_none m)
        rwa [show (serve a r []).grants = [] from rfl, List.append_nil]
      · intro _
        rw [hs]
        exact Option.some_ne_none m
    | none =>
      rw [Service.andThen_of_go hs]
      simp only []
      rw [ih (attend_accounts h first)]
      constructor
      · rintro ⟨before, v, behind, rfl, hgo, hd⟩
        refine ⟨first :: before, v, behind, rfl, ?_, ?_⟩
        · rw [serve, Service.andThen_of_go hs]
          exact hgo
        · rw [serve, Service.andThen_of_go hs]
          simp only []
          rwa [← List.append_assoc]
      · rintro ⟨before, v, behind, hvs, hgo, hd⟩
        cases before with
        | nil =>
          obtain ⟨rfl, rfl⟩ := List.cons.inj hvs
          rw [show (serve a r []).grants = [] from rfl, List.append_nil] at hd
          exact absurd hs ((attend_stops_iff h first).mpr hd)
        | cons first' before =>
          obtain ⟨rfl, rfl⟩ := List.cons.inj hvs
          rw [serve, Service.andThen_of_go hs] at hgo hd
          simp only [] at hgo hd
          rw [← List.append_assoc] at hd
          exact ⟨before, v, behind, rfl, hgo, hd⟩

end Binding

end ClrListing
