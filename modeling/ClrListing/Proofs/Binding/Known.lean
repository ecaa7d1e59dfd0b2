/-
Members that a module knows.

The resolver hands out tokens of rows that it found in the module. If rows
are found under their own tokens (`Addressed`), every member that it gives
is a type or a method of the module, and only types have members inside
them (`allKnown_of_resolve`). This holds for any forest and after any
rounds, failed ones included: what earlier rounds took is gone, but what is
left are still methods of the module.

Rows that are numbered by their places are found under their tokens
(`Numbered.addressed`). Those of a compiled module are (`Renders.numbered`),
and those of a module that is loaded from an image (`numbered_of_load`).
-/
import ClrListing.Proofs.Binding.Lookups
import ClrListing.Proofs.Binding.Rounds

namespace ClrListing

open Assembly Metadata

namespace Assembly

variable {a : Assembly}

/-- Every row is found under its token. -/
structure Addressed (a : Assembly) : Prop where
  types : ∀ t ∈ a.types, a.type? t.token = some t
  methods : ∀ m ∈ a.methods, a.method? m.token = some m

/-- Rows that are numbered by their places are found under their tokens. -/
theorem Numbered.addressed (h : a.Numbered) : a.Addressed where
  types _ ht := Binding.type?_token h ht
  methods _ hm := Binding.method?_token h hm

theorem mem_of_atRow? {α : Type} {xs : List α} {row : Nat} {x : α} (h : atRow? xs row = some x) :
    x ∈ xs := by
  unfold atRow? at h
  split at h
  · cases h
  · exact List.mem_of_getElem? h

theorem mem_of_type? {token : Token} {t : TypeDef} (h : a.type? token = some t) : t ∈ a.types := by
  unfold type? at h
  split at h
  · exact mem_of_atRow? h
  · cases h

theorem mem_of_method? {token : Token} {m : MethodDef} (h : a.method? token = some m) :
    m ∈ a.methods := by
  unfold method? at h
  split at h
  · exact mem_of_atRow? h
  · cases h

/-- A token that names a type is one of types. -/
theorem isIn_of_type? {token : Token} {t : TypeDef} (h : a.type? token = some t) :
    token.isIn .typeDef = true := by
  unfold type? at h
  split at h
  · assumption
  · cases h

/-- A token that names a method is none of types. -/
theorem not_isIn_of_method? {token : Token} {m : MethodDef} (h : a.method? token = some m) :
    ¬token.isIn .typeDef = true := by
  unfold method? at h
  split at h
  · next hmethod =>
    intro htype
    unfold Token.isIn at hmethod htype
    rw [decide_eq_true_eq] at hmethod htype
    rw [htype] at hmethod
    cases hmethod
  · cases h

end Assembly

namespace Binding

variable {a : Assembly}

-- ============================================================== known

mutual

/-- Whether a module knows a member and those inside it: it is a type of
the module, or a method of it with nothing inside. -/
def ResolvedMember.IsKnown (a : Assembly) : ResolvedMember → Prop
  | ⟨token, children⟩ =>
    (a.type? token).isSome ∧ ResolvedMember.AllKnown a children
      ∨ (a.method? token).isSome ∧ children = []

/-- Whether a module knows members and those inside them. -/
def ResolvedMember.AllKnown (a : Assembly) : List ResolvedMember → Prop
  | [] => True
  | m :: rest => m.IsKnown a ∧ ResolvedMember.AllKnown a rest

end

/-- A type that a declaration names is found under the token that it is
located at. -/
theorem isSome_type?_of_locate (ha : a.Addressed) {outer : Option Token} {d : Declaration}
    {token : Token} (h : locate a outer d = some token) : (a.type? token).isSome := by
  have hfound : ∃ t ∈ a.types, t.token = token := by
    cases outer with
    | none =>
      unfold locate at h
      dsimp only at h
      split at h
      · obtain ⟨t, hfind, rfl⟩ := Option.map_eq_some_iff.mp h
        exact ⟨t, List.mem_of_find?_eq_some hfind, rfl⟩
      · cases h
    | some outer =>
      obtain ⟨t, hnested, rfl⟩ := Option.map_eq_some_iff.mp h
      obtain ⟨o, -, hfind⟩ := Option.bind_eq_some_iff.mp hnested
      obtain ⟨inner, -, hinner⟩ := List.mem_filterMap.mp (List.mem_of_find?_eq_some hfind)
      exact ⟨t, mem_of_type? hinner, rfl⟩
  obtain ⟨t, hmem, rfl⟩ := hfound
  rw [ha.types t hmem]
  rfl

/-- The methods of a type that can be asked for by name are methods of the
module. -/
theorem isSome_method?_of_methodsNamed (ha : a.Addressed) {type token : Token} {name : String}
    (h : token ∈ a.methodsNamed type name) : (a.method? token).isSome := by
  unfold Assembly.methodsNamed at h
  obtain ⟨m, hm, rfl⟩ := List.mem_map.mp h
  have hdeclared := (List.mem_filter.mp hm).1
  unfold Assembly.declaredMethods at hdeclared
  split at hdeclared
  · obtain ⟨inner, -, hinner⟩ := List.mem_filterMap.mp hdeclared
    rw [ha.methods m (mem_of_method? hinner)]
    rfl
  · cases hdeclared

mutual

/-- A member that is the type a declaration names is known, if the methods
handed out inside it are. -/
theorem isKnown_of_isType (ha : a.Addressed) {outer : Option Token} :
    ∀ (d : Declaration) (m : ResolvedMember), IsType a outer d m →
      (∀ g ∈ grantsOfType m d, (a.method? g.token).isSome) → m.IsKnown a
  | ⟨_, _, children⟩, ⟨_, members⟩, hm, hgrants => by
    rw [IsType] at hm
    rw [grantsOfType] at hgrants
    rw [ResolvedMember.IsKnown]
    exact .inl ⟨isSome_type?_of_locate ha hm.1, allKnown_of_areInside ha children members hm.2 hgrants⟩

theorem allKnown_of_areInside (ha : a.Addressed) {owner : Token} :
    ∀ (ds : List Declaration) (members : List ResolvedMember), AreInside a owner ds members →
      (∀ g ∈ grantsInside owner members ds, (a.method? g.token).isSome) →
        ResolvedMember.AllKnown a members
  | [], members, hm, _ => by
    rw [AreInside] at hm
    rw [hm, ResolvedMember.AllKnown]
    trivial
  | d :: rest, members, hm, hgrants => by
    rw [AreInside] at hm
    obtain ⟨m, others, rfl, hfirst, hrest⟩ := hm
    rw [grantsInside] at hgrants
    have hothers := allKnown_of_areInside ha rest others hrest fun g hg =>
      hgrants g (List.mem_append_right _ hg)
    rw [ResolvedMember.AllKnown]
    refine ⟨?_, hothers⟩
    by_cases htype : d.isType = true
    · rw [if_pos htype] at hfirst hgrants
      exact isKnown_of_isType ha d m hfirst fun g hg => hgrants g (List.mem_append_left _ hg)
    · rw [if_neg htype] at hfirst hgrants
      have hmethod := hgrants ⟨owner, d, m.token⟩ (List.mem_append_left _ (List.mem_singleton_self _))
      obtain ⟨token, children⟩ := m
      rw [ResolvedMember.IsKnown]
      exact .inr ⟨hmethod, hfirst⟩

end

/-- Members that answer a forest are known, if the methods handed out
are. -/
theorem allKnown_of_answers (ha : a.Addressed) {forest : List Declaration}
    {members : List ResolvedMember} (hm : Answers a forest members)
    (hgrants : ∀ g ∈ grantsOf forest members, (a.method? g.token).isSome) :
    ResolvedMember.AllKnown a members := by
  induction forest generalizing members with
  | nil =>
    rw [Answers] at hm
    rw [hm, ResolvedMember.AllKnown]
    trivial
  | cons d rest ih =>
    obtain ⟨m, others, rfl, hfirst, hrest⟩ := hm
    rw [grantsOf] at hgrants
    rw [ResolvedMember.AllKnown]
    constructor
    · exact isKnown_of_isType ha d m hfirst fun g hg => hgrants g (List.mem_append_left _ hg)
    · exact ih hrest fun g hg => hgrants g (List.mem_append_right _ hg)

/-- What an account says was handed out is a method of its owner. -/
theorem token_mem_of_accounts {r : Resolver} {given : List Grant} (h : Accounts a r given)
    {g : Grant} (hg : g ∈ given) : g.token ∈ a.methodsNamed g.owner g.name := by
  rw [h g.owner g.name]
  exact List.mem_append_left _ (token_mem_handed hg)

/-- Whatever the resolver gives is known to the module, whatever it was
asked before. -/
theorem allKnown_of_resolve (ha : a.Addressed) {log : Log} {rounds : List (List Declaration)}
    {forest : List Declaration} {members : List ResolvedMember}
    (hmembers : (Run.upshot (runRounds a ⟨.start, log⟩ rounds) (Resolver.resolve a forest)).1
      = .ok members) : ResolvedMember.AllKnown a members := by
  obtain ⟨hanswers, hgrants⟩ := round_answers hmembers
  apply allKnown_of_answers ha hanswers
  intro g hg
  rw [hgrants] at hg
  have hbefore := rounds_account rounds ⟨.start, log⟩ (accounts_start (a := a))
  have hafter := serve_accounts hbefore (visits a forest)
  exact isSome_method?_of_methodsNamed ha
    (token_mem_of_accounts hafter (List.mem_append_right _ hg))

end Binding

end ClrListing
