/-
When a service goes through to its end, and what it then hands out.

What a list of visits asks for is its `requests`: the declarations that
take methods, each with the type whose method it takes. A service that
does not stop answers them one for one. A fresh resolver does not stop if
every type that is visited is in the module and no type is asked for more
methods of a name than it has (`serve_goes`); what it hands out are
methods of the type and the name that were asked for, none of them twice
(`token_mem_methodsNamed`, `nodup_tokens_of_serve`).
-/
import ClrListing.Proofs.Binding.Queues

namespace ClrListing.Binding

open Assembly Metadata

variable {a : Assembly}

/-- What visits ask for: declarations that take methods, each with the
type whose method it takes. -/
def requests (vs : List Visit) : List (Token × Declaration) :=
  vs.filterMap fun
    | .type _ _ => none
    | .member owner d => some (owner, d)

/-- Whether a request is for a method of a type under a name. -/
def asksFor (type : Token) (name : String) (q : Token × Declaration) : Bool :=
  q.1 = type && q.2.canonicalName = name

/-- The request that was answered with a method. -/
def Grant.request (g : Grant) : Token × Declaration := (g.owner, g.declaration)

theorem requests_append (xs ys : List Visit) : requests (xs ++ ys) = requests xs ++ requests ys :=
  List.filterMap_append

/-- One method is handed out for each request. -/
theorem attend_request {r : Resolver} {v : Visit} (h : (attend a r v).stop = none) :
    (attend a r v).grants.map Grant.request = requests [v] := by
  cases v with
  | type outer d =>
    simp only [attend] at h ⊢
    cases hl : locate a outer d with
    | some type => rfl
    | none =>
      rw [hl] at h
      cases h
  | member owner d =>
    simp only [attend] at h ⊢
    cases hleft : ((r.groupsOf a owner).named d.canonicalName).head? with
    | some token => rfl
    | none =>
      rw [hleft] at h
      cases h

/-- A service that does not stop answers all requests, in order. -/
theorem serve_requests {r : Resolver} {vs : List Visit} (h : (serve a r vs).stop = none) :
    (serve a r vs).grants.map Grant.request = requests vs := by
  induction vs generalizing r with
  | nil => rfl
  | cons v rest ih =>
    rw [serve] at h ⊢
    cases hs : (attend a r v).stop with
    | some m =>
      rw [Service.andThen_of_stop hs, hs] at h
      cases h
    | none =>
      rw [Service.andThen_of_go hs] at h ⊢
      rw [List.map_append, attend_request hs, ih h, ← requests_append]
      rfl

/-- A warning is left only about a method that was handed out. -/
theorem warn_of_serve {r : Resolver} {vs : List Visit} {record : LogRecord}
    (h : record ∈ (serve a r vs).log) (hwarn : record.level = .warn) :
    ∃ g ∈ (serve a r vs).grants, record ∈ Resolver.paramWarning a g.declaration g.token := by
  induction vs generalizing r with
  | nil => cases h
  | cons v rest ih =>
    have hfirst : record ∈ (attend a r v).log → ∃ g ∈ (attend a r v).grants,
        record ∈ Resolver.paramWarning a g.declaration g.token := by
      intro hin
      cases v with
      | type outer d =>
        simp only [attend] at hin
        cases hl : locate a outer d with
        | some type =>
          rw [hl, List.mem_singleton] at hin
          subst hin
          cases hwarn
        | none =>
          rw [hl] at hin
          cases hin
      | member owner d =>
        simp only [attend] at hin ⊢
        cases hleft : ((r.groupsOf a owner).named d.canonicalName).head? with
        | some token =>
          rw [hleft, List.mem_append, List.mem_singleton] at hin
          rcases hin with hin | rfl
          · exact ⟨_, List.mem_singleton.mpr rfl, hin⟩
          · cases hwarn
        | none =>
          rw [hleft] at hin
          cases hin
    rw [serve] at h ⊢
    cases hs : (attend a r v).stop with
    | some m =>
      rw [Service.andThen_of_stop hs] at h ⊢
      exact hfirst h
    | none =>
      rw [Service.andThen_of_go hs] at h ⊢
      rcases List.mem_append.mp h with h | h
      · obtain ⟨g, hg, hin⟩ := hfirst h
        exact ⟨g, List.mem_append_left _ hg, hin⟩
      · obtain ⟨g, hg, hin⟩ := ih h
        exact ⟨g, List.mem_append_right _ hg, hin⟩

/-- As many methods of a name are handed out as were asked for. -/
theorem length_handed (given : List Grant) (type : Token) (name : String) :
    (handed given type name).length = (given.map Grant.request).countP (asksFor type name) := by
  unfold handed
  rw [List.length_map, ← List.countP_eq_length_filter, List.countP_map]
  rfl

/-- A fresh resolver serves visits to their end if every type is in the
module and no group of methods is asked for more than it has. -/
theorem serve_goes {vs : List Visit}
    (htypes : ∀ outer d, Visit.type outer d ∈ vs → Present a outer d)
    (hcount : ∀ type name,
      (requests vs).countP (asksFor type name) ≤ (a.methodsNamed type name).length) :
    (serve a .start vs).stop = none := by
  apply Decidable.byContradiction
  intro hstop
  obtain ⟨before, v, behind, rfl, hgo, hdenied⟩ := (serve_stops_iff accounts_start vs).mp hstop
  cases v with
  | type outer d =>
    exact hdenied (htypes outer d (List.mem_append_right _ List.mem_cons_self))
  | member owner d =>
    -- all methods of the group are gone, and there is one request more
    rw [Denied, List.nil_append] at hdenied
    have hgone := congrArg List.length hdenied
    rw [length_handed, serve_requests hgo] at hgone
    have hmore := hcount owner d.canonicalName
    have hask : asksFor owner d.canonicalName (owner, d) = true := by simp [asksFor]
    have hsplit : requests (before ++ .member owner d :: behind)
        = requests before ++ (owner, d) :: requests behind := by
      rw [requests_append]
      rfl
    rw [hsplit, List.countP_append, List.countP_cons_of_pos hask] at hmore
    omega

/-- What a fresh resolver hands out under a type and a name are the first
of the type's methods of that name. -/
theorem handed_isPrefix (vs : List Visit) (type : Token) (name : String) :
    handed (serve a .start vs).grants type name <+: a.methodsNamed type name := by
  have h := serve_accounts (a := a) accounts_start vs type name
  rw [List.nil_append] at h
  rw [h]
  exact List.prefix_append _ _

theorem token_mem_handed {given : List Grant} {g : Grant} (h : g ∈ given) :
    g.token ∈ handed given g.owner g.name := by
  unfold handed
  exact List.mem_map_of_mem (List.mem_filter.mpr ⟨h, by simp⟩)

theorem token_mem_methodsNamed {vs : List Visit} {g : Grant}
    (h : g ∈ (serve a .start vs).grants) : g.token ∈ a.methodsNamed g.owner g.name :=
  (handed_isPrefix vs g.owner g.name).subset (token_mem_handed h)

/-- Methods that are told apart within each group are told apart, if no
method is in two groups. -/
theorem nodup_tokens {given : List Grant}
    (hgroups : ∀ type name, (handed given type name).Nodup)
    (happart : ∀ g ∈ given, ∀ g' ∈ given, g.token = g'.token →
      g.owner = g'.owner ∧ g.name = g'.name) :
    (given.map Grant.token).Nodup := by
  induction given with
  | nil => exact List.nodup_nil
  | cons g rest ih =>
    have hrest : ∀ type name, (handed rest type name).Nodup := by
      intro type name
      refine (hgroups type name).sublist ?_
      unfold handed
      exact ((List.sublist_cons_self g rest).filter _).map _
    rw [List.map_cons, List.nodup_cons]
    refine ⟨?_, ih hrest fun x hx y hy =>
      happart x (List.mem_cons_of_mem _ hx) y (List.mem_cons_of_mem _ hy)⟩
    intro hmem
    obtain ⟨g', hg', htoken⟩ := List.mem_map.mp hmem
    obtain ⟨howner, hname⟩ :=
      happart g' (List.mem_cons_of_mem _ hg') g List.mem_cons_self htoken
    have hgroup := hgroups g.owner g.name
    have hcons : handed (g :: rest) g.owner g.name
        = g.token :: handed rest g.owner g.name := by
      unfold handed
      rw [List.filter_cons_of_pos (by simp), List.map_cons]
    rw [hcons, List.nodup_cons] at hgroup
    have hin := token_mem_handed hg'
    rw [howner, hname, htoken] at hin
    exact hgroup.1 hin

/-- A fresh resolver hands out no method twice if the module has each
method in one group, once. -/
theorem nodup_tokens_of_serve {vs : List Visit}
    (hgroups : ∀ type name, (a.methodsNamed type name).Nodup)
    (happart : ∀ token type name type' name', token ∈ a.methodsNamed type name →
      token ∈ a.methodsNamed type' name' → type = type' ∧ name = name') :
    ((serve a .start vs).grants.map Grant.token).Nodup := by
  refine nodup_tokens (fun type name =>
    (hgroups type name).sublist (handed_isPrefix vs type name).sublist) ?_
  intro g hg g' hg' htoken
  exact happart g.token _ _ _ _ (token_mem_methodsNamed hg) (htoken ▸ token_mem_methodsNamed hg')

end ClrListing.Binding
