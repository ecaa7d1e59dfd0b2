/-
The resolution of a forest, as the list of things it comes to.

# Visits and services

The resolver walks a forest in pre-order. What it comes to on the way is
a `Visit`: a declaration that has to be a type of the module, or a
declaration that takes a method of the type around it. `attend` is what
one visit does to the resolver, `serve` does visits in order up to the
first that stops the run, and `visits` lists those of a forest. Which
visits there are depends on the module and the forest alone; what they
get depends on the methods that are left.

# The bridge

`resolve_serves` says that resolving a forest is serving its visits: the
same failure, the same methods left, the same records, and on success
members that answer the declarations and hold the methods handed out.
Every statement about resolution goes through it, so none of them opens
the resolver's monad again.
-/
import ClrListing.Binding.Resolver
import ClrListing.Proofs.Run

namespace ClrListing.Binding

open Assembly Metadata

variable {a : Assembly}

-- ============================================================== visits

/-- What a traversal comes to. -/
inductive Visit where
  /-- A declaration that has to be a type: one nested in `outer`, or one
  at the top. -/
  | type (outer : Option Token) (d : Declaration)
  /-- A declaration inside the type `owner` that takes one of its
  methods. -/
  | member (owner : Token) (d : Declaration)

/-- The type that a declaration names, inside `outer` or at the top. -/
def locate (a : Assembly) : Option Token → Declaration → Option Token
  | some outer, d => (a.nestedType? outer d.canonicalName).map TypeDef.token
  | none, d =>
    match d.kind with
    | .type space .. => (a.findType? space d.canonicalName).map TypeDef.token
    | _ => none

/-- How a declaration that names no type disagrees with the module. -/
def unlocated (a : Assembly) : Option Token → Declaration → Mismatch
  | some outer, d => .nestedTypeMissing d.canonicalName (a.fullName outer)
  | none, d => if d.isType then .typeMissing d.display a.name else .notAType d.display

mutual

/-- The visits of a declaration that has to be a type: the declarations
inside it follow if it is one. -/
def visitsOfType (a : Assembly) (outer : Option Token) : Declaration → List Visit
  | ⟨kind, span, children⟩ =>
    .type outer ⟨kind, span, children⟩
      :: match locate a outer ⟨kind, span, children⟩ with
        | some type => visitsInside a type children
        | none => []

/-- The visits of the declarations inside a type. -/
def visitsInside (a : Assembly) (owner : Token) : List Declaration → List Visit
  | [] => []
  | d :: rest =>
    (if d.isType then visitsOfType a (some owner) d else [.member owner d])
      ++ visitsInside a owner rest

end

/-- The visits of a forest, in pre-order. -/
def visits (a : Assembly) : List Declaration → List Visit
  | [] => []
  | d :: rest => visitsOfType a none d ++ visits a rest

-- ============================================================ services

/-- A method that was handed out. -/
structure Grant where
  /-- The type whose method it is. -/
  owner : Token
  /-- The declaration that took it. -/
  declaration : Declaration
  token : Token

/-- The name under which the method was asked for. -/
def Grant.name (g : Grant) : String := g.declaration.canonicalName

/-- What serving visits comes to. -/
structure Service where
  /-- The methods that were handed out, in order. -/
  grants : List Grant
  /-- Why it stopped early, if it did. -/
  stop : Option Mismatch
  /-- The resolver with the methods that are left. -/
  left : Resolver
  /-- The records that were left. -/
  log : Log

namespace Service

/-- Nothing was to be done. -/
def idle (r : Resolver) : Service := ⟨[], none, r, []⟩

/-- One service after another, unless the first stopped early. -/
def andThen (s : Service) (next : Resolver → Service) : Service :=
  match s.stop with
  | some _ => s
  | none =>
    ⟨s.grants ++ (next s.left).grants, (next s.left).stop, (next s.left).left,
      s.log ++ (next s.left).log⟩

end Service

/-- The record that a declaration took a method and how many of the name
are left. -/
def grantRecord (d : Declaration) (token : Token) (groups : MethodGroups) : LogRecord :=
  ⟨.debug, "Resolved " ++ d.display ++ " to " ++ token.display ++ " ("
    ++ (groups.remaining d.canonicalName).repr ++ " '" ++ d.canonicalName ++ "' left)"⟩

/-- What one visit comes to. -/
def attend (a : Assembly) (r : Resolver) : Visit → Service
  | .type outer d =>
    match locate a outer d with
    | some type => ⟨[], none, r, [⟨.debug, "Resolving members of " ++ a.fullName type⟩]⟩
    | none => ⟨[], some (unlocated a outer d), r, []⟩
  | .member owner d =>
    let groups := (r.groupsOf a owner).taken d.canonicalName
    match ((r.groupsOf a owner).named d.canonicalName).head? with
    | some token =>
      ⟨[⟨owner, d, token⟩], none, r.withGroups owner groups,
        Resolver.paramWarning a d token ++ [grantRecord d token groups]⟩
    | none =>
      ⟨[], some (.memberMissing d.display (a.fullName owner)), r.withGroups owner groups, []⟩

/-- What visits in order come to, up to the first that stops. -/
def serve (a : Assembly) (r : Resolver) : List Visit → Service
  | [] => .idle r
  | v :: rest => (attend a r v).andThen fun left => serve a left rest

-- ======================================================= serving a list

theorem Service.andThen_of_stop {s : Service} {m : Mismatch} (h : s.stop = some m)
    (next : Resolver → Service) : s.andThen next = s := by
  unfold Service.andThen
  rw [h]

theorem Service.andThen_of_go {s : Service} (h : s.stop = none) (next : Resolver → Service) :
    s.andThen next
      = ⟨s.grants ++ (next s.left).grants, (next s.left).stop, (next s.left).left,
          s.log ++ (next s.left).log⟩ := by
  unfold Service.andThen
  rw [h]

theorem Service.andThen_idle (s : Service) : s.andThen Service.idle = s := by
  cases hs : s.stop with
  | some m => exact Service.andThen_of_stop hs _
  | none =>
    rw [Service.andThen_of_go hs]
    obtain ⟨grants, stop, left, log⟩ := s
    cases hs
    simp [Service.idle]

theorem Service.idle_andThen (r : Resolver) (next : Resolver → Service) :
    (Service.idle r).andThen next = next r := by
  rw [Service.andThen_of_go rfl]
  simp [Service.idle]

theorem Service.andThen_assoc (s : Service) (f g : Resolver → Service) :
    (s.andThen f).andThen g = s.andThen fun left => (f left).andThen g := by
  cases hs : s.stop with
  | some m =>
    rw [Service.andThen_of_stop hs, Service.andThen_of_stop hs, Service.andThen_of_stop hs]
  | none =>
    rw [Service.andThen_of_go hs f, Service.andThen_of_go hs fun left => (f left).andThen g]
    cases hf : (f s.left).stop with
    | some m =>
      rw [Service.andThen_of_stop (m := m) rfl, Service.andThen_of_stop hf, hf]
    | none =>
      rw [Service.andThen_of_go rfl, Service.andThen_of_go hf]
      simp only [List.append_assoc]

theorem serve_append (r : Resolver) (xs ys : List Visit) :
    serve a r (xs ++ ys) = (serve a r xs).andThen fun left => serve a left ys := by
  induction xs generalizing r with
  | nil => rw [List.nil_append, serve, Service.idle_andThen]
  | cons v xs ih =>
    rw [List.cons_append, serve, serve, Service.andThen_assoc]
    congr 1
    funext left
    exact ih left

theorem serve_singleton (r : Resolver) (v : Visit) : serve a r [v] = attend a r v := by
  rw [serve]
  exact Service.andThen_idle _

-- ============================================================= answers

mutual

/-- Whether a member stands for a declaration that has to be a type: it
is the type that the declaration names, and its children stand for the
declarations inside. -/
def IsType (a : Assembly) (outer : Option Token) : Declaration → ResolvedMember → Prop
  | ⟨kind, span, children⟩, m =>
    locate a outer ⟨kind, span, children⟩ = some m.token ∧ AreInside a m.token children m.children

/-- Whether members stand for the declarations inside the type `owner`,
one for one; a member that is no type has no children. -/
def AreInside (a : Assembly) (owner : Token) : List Declaration → List ResolvedMember → Prop
  | [], members => members = []
  | d :: rest, members =>
    ∃ m others, members = m :: others
      ∧ (if d.isType then IsType a (some owner) d m else m.children = [])
      ∧ AreInside a owner rest others

end

/-- Whether members stand for the declarations of a forest, one for
one. -/
def Answers (a : Assembly) : List Declaration → List ResolvedMember → Prop
  | [], members => members = []
  | d :: rest, members =>
    ∃ m others, members = m :: others ∧ IsType a none d m ∧ Answers a rest others

mutual

/-- The methods that the members for the declarations inside a type
hold. -/
def grantsOfType (m : ResolvedMember) : Declaration → List Grant
  | ⟨_, _, children⟩ => grantsInside m.token m.children children

/-- The methods that the members for declarations inside the type `owner`
hold. -/
def grantsInside (owner : Token) (members : List ResolvedMember) : List Declaration → List Grant
  | [] => []
  | d :: rest =>
    match members with
    | [] => []
    | m :: others =>
      (if d.isType then grantsOfType m d else [⟨owner, d, m.token⟩])
        ++ grantsInside owner others rest

end

/-- The methods that the members for a forest hold, in pre-order. -/
def grantsOf : List Declaration → List ResolvedMember → List Grant
  | d :: rest, m :: others => grantsOfType m d ++ grantsOf rest others
  | _, _ => []

-- ========================================================== the bridge

/-- A computation does what a service does: it fails where the service
stops and otherwise gives a `Good` result for the methods handed out; the
methods left and the records are those of the service. -/
def Performs (run : Resolver.Resolving α) (service : Resolver → Service)
    (Good : α → List Grant → Prop) : Prop :=
  ∀ p : Progress Resolver,
    let s := service p.state
    let after : Progress Resolver := ⟨s.left, p.log ++ s.log⟩
    match s.stop with
    | some m => Run.upshot p run = (.error (.resolution m), after)
    | none => ∃ x, Run.upshot p run = (.ok x, after) ∧ Good x s.grants

theorem Performs.pure {Good : α → List Grant → Prop} {x : α} (h : Good x []) :
    Performs (pure x) Service.idle Good := by
  intro p
  refine ⟨x, ?_, h⟩
  rw [Run.upshot_pure]
  simp [Service.idle]

theorem Performs.bind {run : Resolver.Resolving α} {f : α → Resolver.Resolving β}
    {s t : Resolver → Service} {P : α → List Grant → Prop} {Q : β → List Grant → Prop}
    (hrun : Performs run s P)
    (hf : ∀ x given, P x given → Performs (f x) t fun y more => Q y (given ++ more)) :
    Performs (run >>= f) (fun r => (s r).andThen t) Q := by
  intro p
  have h := hrun p
  simp only [] at h ⊢
  cases hs : (s p.state).stop with
  | some m =>
    rw [hs] at h
    rw [Service.andThen_of_stop hs, hs]
    simp only [] at h ⊢
    rw [Run.upshot_bind, h]
  | none =>
    rw [hs] at h
    obtain ⟨x, hx, hP⟩ := h
    have h' := hf x _ hP ⟨(s p.state).left, p.log ++ (s p.state).log⟩
    rw [Service.andThen_of_go hs, Run.upshot_bind, hx]
    simp only [] at h' ⊢
    rw [← List.append_assoc]
    exact h'

/-- Finding the type that a declaration names and noting that its members
come next is attending to the visit. -/
theorem performs_locate {outer : Option Token} {d : Declaration}
    {find : Resolver.Resolving Token}
    (hfound : ∀ type, locate a outer d = some type → find = pure type)
    (hlost : locate a outer d = none → find = Resolver.disagree (unlocated a outer d)) :
    Performs (do
        let type ← find
        Run.debug ("Resolving members of " ++ a.fullName type)
        pure type)
      (fun r => attend a r (.type outer d))
      (fun type given => locate a outer d = some type ∧ given = []) := by
  intro p
  simp only [attend]
  cases hl : locate a outer d with
  | some type =>
    refine ⟨type, ?_, rfl, rfl⟩
    rw [hfound type hl]
    rfl
  | none =>
    rw [hlost hl]
    simp only [List.append_nil]
    rfl

theorem performs_findTop (d : Declaration) :
    Performs (do
        let type ← Resolver.findTop a d
        Run.debug ("Resolving members of " ++ a.fullName type)
        pure type)
      (fun r => attend a r (.type none d))
      (fun type given => locate a none d = some type ∧ given = []) := by
  apply performs_locate
  · intro type h
    cases hk : d.kind with
    | type space name arity =>
      simp only [locate, hk] at h
      obtain ⟨found, hf, rfl⟩ := Option.map_eq_some_iff.mp h
      simp only [Resolver.findTop, hk, hf]
    | constructor => simp only [locate, hk, reduceCtorEq] at h
    | method => simp only [locate, hk, reduceCtorEq] at h
    | accessor => simp only [locate, hk, reduceCtorEq] at h
  · intro h
    cases hk : d.kind with
    | type space name arity =>
      simp only [locate, hk, Option.map_eq_none_iff] at h
      simp only [Resolver.findTop, unlocated, Declaration.isType, hk, h]
      rfl
    | constructor => simp only [Resolver.findTop, unlocated, Declaration.isType, hk]; rfl
    | method => simp only [Resolver.findTop, unlocated, Declaration.isType, hk]; rfl
    | accessor => simp only [Resolver.findTop, unlocated, Declaration.isType, hk]; rfl

theorem performs_findNested (owner : Token) (d : Declaration) :
    Performs (do
        let type ← Resolver.findNested a owner d
        Run.debug ("Resolving members of " ++ a.fullName type)
        pure type)
      (fun r => attend a r (.type (some owner) d))
      (fun type given => locate a (some owner) d = some type ∧ given = []) := by
  apply performs_locate
  · intro type h
    simp only [locate] at h
    obtain ⟨found, hf, rfl⟩ := Option.map_eq_some_iff.mp h
    simp only [Resolver.findNested, hf]
  · intro h
    simp only [locate, Option.map_eq_none_iff] at h
    simp only [Resolver.findNested, unlocated, h]

theorem performs_resolveMethod (owner : Token) (d : Declaration) :
    Performs (Resolver.resolveMethod a owner d) (fun r => attend a r (.member owner d))
      (fun token given => given = [⟨owner, d, token⟩]) := by
  intro p
  simp only [attend, Resolver.resolveMethod, MethodGroups.take?]
  cases hh : ((p.state.groupsOf a owner).named d.canonicalName).head? with
  | some token =>
    refine ⟨token, ?_, rfl⟩
    simp only [Run.upshot_bind, Run.upshot_state, Run.upshot_setState, hh, Run.upshot_log,
      Run.upshot_debug, Run.upshot_pure, List.append_assoc]
    rfl
  | none =>
    simp only [Run.upshot_bind, Run.upshot_state, Run.upshot_setState, hh, List.append_nil]
    rfl

/-- The first of the declarations inside a type is resolved before the
rest. -/
theorem resolveChildren_cons (owner : Token) (d : Declaration) (rest : List Declaration) :
    Resolver.resolveChildren a owner (d :: rest)
      = (if d.isType then do
            let nested ← Resolver.findNested a owner d
            Resolver.resolveType a nested d
          else do
            let token ← Resolver.resolveMethod a owner d
            pure (ResolvedMember.mk token []))
        >>= (fun m => do
          let members ← Resolver.resolveChildren a owner rest
          pure (m :: members)) := by
  cases ht : d.isType with
  | true => simp only [Resolver.resolveChildren, ht, if_true, bind_assoc]
  | false =>
    simp only [Resolver.resolveChildren, ht, Bool.false_eq_true, if_false, bind_assoc]

mutual

/-- Resolving a declaration that has to be a type, however its type is
found, is serving its visits. -/
theorem performs_type {outer : Option Token} {find : Resolver.Resolving Token} :
    ∀ d : Declaration,
      Performs (do
          let type ← find
          Run.debug ("Resolving members of " ++ a.fullName type)
          pure type)
        (fun r => attend a r (.type outer d))
        (fun type given => locate a outer d = some type ∧ given = []) →
      Performs (do
          let type ← find
          Resolver.resolveType a type d)
        (fun r => serve a r (visitsOfType a outer d))
        (fun m given => IsType a outer d m ∧ grantsOfType m d = given)
  | ⟨kind, span, children⟩, hfind => by
    have hbind := hfind.bind
      (f := fun type => do
        let members ← Resolver.resolveChildren a type children
        pure (ResolvedMember.mk type members))
      (t := fun r => serve a r (match locate a outer ⟨kind, span, children⟩ with
        | some type => visitsInside a type children
        | none => []))
      (Q := fun m given => IsType a outer ⟨kind, span, children⟩ m
        ∧ grantsOfType m ⟨kind, span, children⟩ = given) (by
        rintro type given ⟨hl, rfl⟩
        rw [hl]
        have hrest := (performs_inside type children).bind
          (f := fun members => pure (ResolvedMember.mk type members)) (t := Service.idle)
          (Q := fun m given => IsType a outer ⟨kind, span, children⟩ m
            ∧ grantsOfType m ⟨kind, span, children⟩ = given) (by
            rintro members given ⟨hin, rfl⟩
            refine Performs.pure ⟨?_, ?_⟩
            · rw [IsType]
              exact ⟨hl, hin⟩
            · rw [List.append_nil, grantsOfType])
        simp only [Service.andThen_idle] at hrest
        exact hrest)
    simp only [visitsOfType, serve, Resolver.resolveType]
    simp only [bind_assoc, pure_bind] at hbind
    exact hbind

/-- Resolving the declarations inside a type is serving their visits. -/
theorem performs_inside (owner : Token) :
    ∀ ds : List Declaration,
      Performs (Resolver.resolveChildren a owner ds)
        (fun r => serve a r (visitsInside a owner ds))
        (fun members given => AreInside a owner ds members ∧ grantsInside owner members ds = given)
  | [] => by
    simp only [Resolver.resolveChildren, visitsInside, serve]
    refine Performs.pure ⟨?_, ?_⟩
    · rw [AreInside]
    · rw [grantsInside]
  | d :: rest => by
    have hfirst : Performs
        (if d.isType then do
            let nested ← Resolver.findNested a owner d
            Resolver.resolveType a nested d
          else do
            let token ← Resolver.resolveMethod a owner d
            pure (ResolvedMember.mk token []))
        (fun r => serve a r
          (if d.isType then visitsOfType a (some owner) d else [.member owner d]))
        (fun m given =>
          (if d.isType then IsType a (some owner) d m else m.children = [])
            ∧ (if d.isType then grantsOfType m d else [⟨owner, d, m.token⟩]) = given) := by
      by_cases ht : d.isType = true
      · simp only [ht, if_true]
        exact performs_type d (performs_findNested owner d)
      · simp only [ht, if_false, Bool.false_eq_true]
        have hbind := (performs_resolveMethod (a := a) owner d).bind
          (f := fun token => pure (ResolvedMember.mk token [])) (t := Service.idle)
          (Q := fun m given => m.children = [] ∧ [Grant.mk owner d m.token] = given) (by
            rintro token given rfl
            exact Performs.pure ⟨rfl, by simp⟩)
        simp only [Service.andThen_idle] at hbind
        simp only [serve_singleton]
        exact hbind
    rw [resolveChildren_cons]
    simp only [visitsInside, serve_append]
    refine hfirst.bind ?_
    rintro m given ⟨hm, rfl⟩
    have hrest := (performs_inside owner rest).bind
      (f := fun members => pure (m :: members)) (t := Service.idle)
      (Q := fun members given => AreInside a owner (d :: rest) members
        ∧ grantsInside owner members (d :: rest)
          = (if d.isType then grantsOfType m d else [⟨owner, d, m.token⟩]) ++ given) (by
        rintro members given ⟨hin, rfl⟩
        refine Performs.pure ⟨?_, ?_⟩
        · rw [AreInside]
          exact ⟨m, members, rfl, hm, hin⟩
        · rw [List.append_nil, grantsInside])
    simp only [Service.andThen_idle] at hrest
    exact hrest

end

/-- Resolving a forest, before its last record, is serving its visits. -/
theorem performs_resolveAll (forest : List Declaration) :
    Performs (Resolver.resolveAll a forest) (fun r => serve a r (visits a forest))
      (fun members given => Answers a forest members ∧ grantsOf forest members = given) := by
  induction forest with
  | nil =>
    simp only [Resolver.resolveAll, visits, serve]
    exact Performs.pure ⟨rfl, rfl⟩
  | cons d rest ih =>
    have hfirst := performs_type d (performs_findTop (a := a) d)
    have hbind := hfirst.bind (f := fun m => do
        let members ← Resolver.resolveAll a rest
        pure (m :: members))
      (t := fun r => serve a r (visits a rest))
      (Q := fun members given => Answers a (d :: rest) members
        ∧ grantsOf (d :: rest) members = given) (by
        rintro m given ⟨hm, rfl⟩
        have hrest := ih.bind (f := fun members => pure (m :: members)) (t := Service.idle)
          (Q := fun members given => Answers a (d :: rest) members
            ∧ grantsOf (d :: rest) members = grantsOfType m d ++ given) (by
            rintro members given ⟨hans, rfl⟩
            exact Performs.pure ⟨⟨m, members, rfl, hm, hans⟩, by rw [List.append_nil, grantsOf]⟩)
        simp only [Service.andThen_idle] at hrest
        exact hrest)
    simp only [Resolver.resolveAll, visits, serve_append]
    simp only [bind_assoc] at hbind
    exact hbind

/-- The record that a forest is resolved. -/
def forestRecord (members : List ResolvedMember) : LogRecord :=
  ⟨.info, "Resolved " ++ (ResolvedMember.countAll members).repr ++ " members"⟩

/-- Resolving a forest is serving its visits: it fails where the service
stops, and otherwise its members answer the declarations and hold the
methods handed out. -/
theorem resolve_serves (a : Assembly) (forest : List Declaration) (p : Progress Resolver) :
    let s := serve a p.state (visits a forest)
    match s.stop with
    | some m =>
      Run.upshot p (Resolver.resolve a forest)
        = (.error (.resolution m), ⟨s.left, p.log ++ s.log⟩)
    | none =>
      ∃ members, Run.upshot p (Resolver.resolve a forest)
          = (.ok members, ⟨s.left, p.log ++ s.log ++ [forestRecord members]⟩)
        ∧ Answers a forest members ∧ grantsOf forest members = s.grants := by
  have h := performs_resolveAll (a := a) forest p
  simp only [] at h ⊢
  cases hs : (serve a p.state (visits a forest)).stop with
  | some m =>
    rw [hs] at h
    simp only [Resolver.resolve, Run.upshot_bind, h]
  | none =>
    rw [hs] at h
    obtain ⟨members, hrun, hgood⟩ := h
    refine ⟨members, ?_, hgood⟩
    simp only [Resolver.resolve, Run.upshot_bind, hrun, Run.upshot_info, Run.upshot_pure]
    rfl

end ClrListing.Binding
