/-
Forests resolved one after another with one resolver.

A round that fails keeps what it took, so the law of the queues is about
all rounds together: for every type and name, the methods handed out so
far, failed rounds included, are the first of the type's methods of that
name (`rounds_hand_out_in_order`). Whether a round fails can be read off
the module, the forest and what was handed out before: it fails exactly
if its traversal gets to a declaration that is denied what it asks for.

The module may be any module and the forests any forests; nothing here
needs the rows to be numbered by their places. That only types have
children is the one property of a forest that matters, and only for its
shape: a member answers a declaration that is no type with a leaf.
-/
import ClrListing.Proofs.Binding.Queues

namespace ClrListing

-- ============================================================== shapes

/-- The shape of a tree: how the nodes nest, and nothing of what they
hold. -/
inductive Shape where
  | node (children : List Shape)

namespace Declaration

mutual

/-- The shape of a declaration. -/
def shape : Declaration → Shape
  | ⟨_, _, children⟩ => .node (shapes children)

/-- The shape of a forest. -/
def shapes : List Declaration → List Shape
  | [] => []
  | d :: rest => d.shape :: shapes rest

end

mutual

/-- Whether nothing stands inside declarations that are no types. -/
def OnlyTypesNest : Declaration → Prop
  | ⟨kind, span, children⟩ =>
    ((⟨kind, span, children⟩ : Declaration).isType = false → children = [])
      ∧ AllOnlyTypesNest children

/-- Whether nothing stands inside declarations of a forest that are no
types. -/
def AllOnlyTypesNest : List Declaration → Prop
  | [] => True
  | d :: rest => d.OnlyTypesNest ∧ AllOnlyTypesNest rest

end

end Declaration

namespace Binding

open Assembly Metadata

namespace ResolvedMember

mutual

/-- The shape of a member. -/
def shape : ResolvedMember → Shape
  | ⟨_, children⟩ => .node (shapes children)

/-- The shape of members. -/
def shapes : List ResolvedMember → List Shape
  | [] => []
  | m :: rest => m.shape :: shapes rest

end

end ResolvedMember

variable {a : Assembly}

mutual

/-- A member that is the type a declaration names has its shape. -/
theorem shape_of_isType {outer : Option Token} :
    ∀ (d : Declaration) (m : ResolvedMember), IsType a outer d m → d.OnlyTypesNest →
      m.shape = d.shape
  | ⟨kind, span, children⟩, ⟨token, members⟩, hm, hd => by
    rw [IsType] at hm
    rw [Declaration.OnlyTypesNest] at hd
    rw [ResolvedMember.shape, Declaration.shape, shapes_of_areInside children members hm.2 hd.2]

/-- Members that stand for declarations inside a type have their
shapes. -/
theorem shapes_of_areInside {owner : Token} :
    ∀ (ds : List Declaration) (members : List ResolvedMember), AreInside a owner ds members →
      Declaration.AllOnlyTypesNest ds → ResolvedMember.shapes members = Declaration.shapes ds
  | [], members, hm, _ => by
    rw [AreInside] at hm
    rw [hm, ResolvedMember.shapes, Declaration.shapes]
  | d :: rest, members, hm, hd => by
    rw [AreInside] at hm
    rw [Declaration.AllOnlyTypesNest] at hd
    obtain ⟨m, others, rfl, hfirst, hrest⟩ := hm
    have hothers := shapes_of_areInside rest others hrest hd.2
    have hone : m.shape = d.shape := by
      by_cases ht : d.isType = true
      · rw [if_pos ht] at hfirst
        exact shape_of_isType d m hfirst hd.1
      · rw [if_neg ht] at hfirst
        obtain ⟨kind, span, children⟩ := d
        obtain ⟨token, members⟩ := m
        have hnone : children = [] := by
          rw [Declaration.OnlyTypesNest] at hd
          exact hd.1.1 (Bool.eq_false_iff.mpr ht)
        have hleaf : members = [] := hfirst
        rw [hnone, hleaf, ResolvedMember.shape, Declaration.shape, ResolvedMember.shapes,
          Declaration.shapes]
    rw [ResolvedMember.shapes, Declaration.shapes, hone, hothers]

end

/-- Members that answer a forest have its shape. -/
theorem shapes_of_answers :
    ∀ (forest : List Declaration) (members : List ResolvedMember), Answers a forest members →
      Declaration.AllOnlyTypesNest forest →
      ResolvedMember.shapes members = Declaration.shapes forest := by
  intro forest
  induction forest with
  | nil =>
    intro members hm _
    rw [Answers] at hm
    rw [hm, ResolvedMember.shapes, Declaration.shapes]
  | cons d rest ih =>
    intro members hm hd
    rw [Declaration.AllOnlyTypesNest] at hd
    obtain ⟨m, others, rfl, hfirst, hrest⟩ := hm
    rw [ResolvedMember.shapes, Declaration.shapes, shape_of_isType d m hfirst hd.1,
      ih others hrest hd.2]

-- ============================================================== rounds

/-- Resolves forests in turn, each with what the rounds before it left. -/
def runRounds (a : Assembly) (p : Progress Resolver) (rounds : List (List Declaration)) :
    Progress Resolver :=
  rounds.foldl (fun q forest => (Run.upshot q (Resolver.resolve a forest)).2) p

/-- The methods that rounds hand out, in order. -/
def grantsOfRounds (a : Assembly) (p : Progress Resolver) :
    List (List Declaration) → List Grant
  | [] => []
  | forest :: rest =>
    (serve a p.state (visits a forest)).grants
      ++ grantsOfRounds a (Run.upshot p (Resolver.resolve a forest)).2 rest

/-- A round leaves the methods that its service leaves. -/
theorem state_after_round (forest : List Declaration) (p : Progress Resolver) :
    (Run.upshot p (Resolver.resolve a forest)).2.state
      = (serve a p.state (visits a forest)).left := by
  have h := resolve_serves a forest p
  simp only [] at h
  split at h
  · rw [h]
  · obtain ⟨members, hrun, -⟩ := h
    rw [hrun]

/-- A round fails exactly if its service stops early. -/
theorem round_fails_iff (forest : List Declaration) (p : Progress Resolver) :
    (∃ e, (Run.upshot p (Resolver.resolve a forest)).1 = .error e)
      ↔ (serve a p.state (visits a forest)).stop ≠ none := by
  have h := resolve_serves a forest p
  simp only [] at h
  split at h
  · next m hm =>
    rw [h, hm]
    exact ⟨fun _ => Option.some_ne_none m, fun _ => ⟨_, rfl⟩⟩
  · next hs =>
    obtain ⟨members, hrun, -⟩ := h
    rw [hrun, hs]
    constructor
    · rintro ⟨e, he⟩
      cases he
    · intro hne
      exact absurd rfl hne

/-- The members of a round that does not fail answer its forest and hold
the methods handed out. -/
theorem round_answers {forest : List Declaration} {p : Progress Resolver}
    {members : List ResolvedMember}
    (hok : (Run.upshot p (Resolver.resolve a forest)).1 = .ok members) :
    Answers a forest members
      ∧ grantsOf forest members = (serve a p.state (visits a forest)).grants := by
  have h := resolve_serves a forest p
  simp only [] at h
  split at h
  · rw [h] at hok
    cases hok
  · obtain ⟨others, hrun, hgood⟩ := h
    rw [hrun] at hok
    cases hok
    exact hgood

/-- Rounds keep the account, failed ones included. -/
theorem rounds_account {given : List Grant} :
    ∀ (rounds : List (List Declaration)) (p : Progress Resolver), Accounts a p.state given →
      Accounts a (runRounds a p rounds).state (given ++ grantsOfRounds a p rounds) := by
  intro rounds
  induction rounds generalizing given with
  | nil =>
    intro p h
    rwa [grantsOfRounds, List.append_nil]
  | cons forest rest ih =>
    intro p h
    rw [grantsOfRounds, ← List.append_assoc]
    apply ih (Run.upshot p (Resolver.resolve a forest)).2
    rw [state_after_round]
    exact serve_accounts h (visits a forest)

/-- The law of a resolver that is used for any number of forests. For
every type and name, what was handed out is the first of the type's
methods of that name, and the resolver still has the others. A round
fails exactly if its traversal gets to a declaration that is denied what
it asks for, after what was handed out before; a round that does not fail
holds the methods it handed out, in the shape of its forest. -/
theorem rounds_hand_out_in_order (a : Assembly) (log : Log) (rounds : List (List Declaration)) :
    (∀ type name,
      handed (grantsOfRounds a ⟨.start, log⟩ rounds) type name <+: a.methodsNamed type name
        ∧ a.methodsNamed type name
          = handed (grantsOfRounds a ⟨.start, log⟩ rounds) type name
            ++ ((runRounds a ⟨.start, log⟩ rounds).state.groupsOf a type).named name)
      ∧ ∀ earlier forest later, rounds = earlier ++ forest :: later →
        let p := runRounds a ⟨.start, log⟩ earlier
        let given := grantsOfRounds a ⟨.start, log⟩ earlier
        let outcome := (Run.upshot p (Resolver.resolve a forest)).1
        ((∃ e, outcome = .error e) ↔
          ∃ before v behind, visits a forest = before ++ v :: behind
            ∧ (serve a p.state before).stop = none
            ∧ Denied a (given ++ (serve a p.state before).grants) v)
        ∧ ∀ members, outcome = .ok members →
          grantsOf forest members = (serve a p.state (visits a forest)).grants
            ∧ (Declaration.AllOnlyTypesNest forest →
              ResolvedMember.shapes members = Declaration.shapes forest) := by
  have hstart : Accounts a (Progress.mk Resolver.start log).state [] := accounts_start
  constructor
  · intro type name
    have h := rounds_account rounds ⟨.start, log⟩ hstart type name
    rw [List.nil_append] at h
    refine ⟨?_, h⟩
    rw [h]
    exact List.prefix_append _ _
  · intro earlier forest later _
    simp only []
    have h := rounds_account earlier ⟨.start, log⟩ hstart
    rw [List.nil_append] at h
    constructor
    · rw [round_fails_iff]
      exact serve_stops_iff h (visits a forest)
    · intro members hok
      obtain ⟨hans, hgrants⟩ := round_answers hok
      exact ⟨hgrants, shapes_of_answers forest members hans⟩

end Binding

end ClrListing
