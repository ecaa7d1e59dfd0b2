/-
Methods get native code exactly if they are listed.

Two recursions decide about a method. On the way down from the members to
the nodes, `Node.ofMember` carries along whether a type around it has type
parameters, and gives the method native code if none has. Listing goes
down the nodes again and stops at types with type parameters. They agree
(`state_ofMember`): what making a node prepares are the methods whose code
is a piece of the node's listing, in that order, without the abstract
ones.

A snapshot notes each method once, so preparing a list of methods adds
those that were not noted (`mem_remembered`), and preparing it again adds
nothing (`remembered_again`).

Members that the resolver gives are types and methods of the module, so
making their nodes does not fail (`plan_of_isKnown`).
-/
import ClrListing.Native.Snapshot.Basic
import ClrListing.Proofs.Binding.Faithful
import ClrListing.Proofs.Binding.Known
import ClrListing.Proofs.Listing.Ending
import ClrListing.Proofs.Listing.Pieces

namespace ClrListing

open Assembly Binding Listing Metadata

-- ========================================================== snapshots

namespace Native.Snapshot

/-- The methods that were prepared, with one more. -/
def remember (a : Assembly) (prepared : Prepared) (token : Token) : Prepared :=
  if isPrepared prepared a token then prepared else prepared ++ [(a.name, token)]

/-- Preparing a method takes note of it and does not fail. -/
theorem upshot_prepare (a : Assembly) (token : Token) (p : Progress Prepared) :
    (Run.upshot p (prepare a token)).1 = .ok ()
      ∧ (Run.upshot p (prepare a token)).2.state = remember a p.state token := by
  unfold prepare remember
  rw [Run.upshot_bind, Run.upshot_state]
  dsimp only
  by_cases hknown : isPrepared p.state a token = true
  · rw [if_pos hknown, hknown]
    exact ⟨rfl, rfl⟩
  · rw [if_neg hknown, Bool.eq_false_iff.mpr hknown]
    exact ⟨rfl, rfl⟩

theorem mem_remember {a : Assembly} {prepared : Prepared} {token : Token} {x : String × Token} :
    x ∈ remember a prepared token ↔ x ∈ prepared ∨ x = (a.name, token) := by
  unfold remember isPrepared
  by_cases hknown : prepared.contains (a.name, token) = true
  · rw [if_pos hknown]
    constructor
    · exact .inl
    · rintro (hmem | rfl)
      · exact hmem
      · exact List.contains_iff_mem.mp hknown
  · rw [if_neg hknown, List.mem_append, List.mem_singleton]

theorem nodup_remember {a : Assembly} {prepared : Prepared} (h : prepared.Nodup) (token : Token) :
    (remember a prepared token).Nodup := by
  unfold remember isPrepared
  by_cases hknown : prepared.contains (a.name, token) = true
  · rw [if_pos hknown]
    exact h
  · rw [if_neg hknown, List.nodup_append]
    refine ⟨h, List.nodup_singleton _, ?_⟩
    intro x hx y hy
    rw [List.mem_singleton] at hy
    rintro rfl
    rw [hy] at hx
    exact hknown (List.contains_iff_mem.mpr hx)

theorem remember_of_mem {a : Assembly} {prepared : Prepared} {token : Token}
    (h : (a.name, token) ∈ prepared) : remember a prepared token = prepared :=
  if_pos (List.contains_iff_mem.mpr h)

/-- The methods that were prepared, with others prepared one after
another. -/
def remembered (a : Assembly) (prepared : Prepared) (tokens : List Token) : Prepared :=
  tokens.foldl (remember a) prepared

theorem remembered_append (a : Assembly) (prepared : Prepared) (first second : List Token) :
    remembered a prepared (first ++ second)
      = remembered a (remembered a prepared first) second :=
  List.foldl_append

/-- What is noted afterwards was noted before or is one of the methods. -/
theorem mem_remembered {a : Assembly} {prepared : Prepared} {tokens : List Token}
    {x : String × Token} :
    x ∈ remembered a prepared tokens ↔ x ∈ prepared ∨ ∃ token ∈ tokens, x = (a.name, token) := by
  induction tokens generalizing prepared with
  | nil =>
    constructor
    · exact .inl
    · rintro (hmem | ⟨_, hnone, _⟩)
      · exact hmem
      · cases hnone
  | cons token rest ih =>
    change x ∈ remembered a (remember a prepared token) rest ↔ _
    rw [ih, mem_remember, or_assoc]
    simp only [List.mem_cons, exists_eq_or_imp]

theorem nodup_remembered {a : Assembly} {prepared : Prepared} (h : prepared.Nodup)
    (tokens : List Token) : (remembered a prepared tokens).Nodup := by
  induction tokens generalizing prepared with
  | nil => exact h
  | cons token rest ih => exact ih (nodup_remember h token)

/-- Methods that were all noted before add nothing. -/
theorem remembered_of_forall_mem {a : Assembly} {prepared : Prepared} {tokens : List Token}
    (h : ∀ token ∈ tokens, (a.name, token) ∈ prepared) :
    remembered a prepared tokens = prepared := by
  induction tokens with
  | nil => rfl
  | cons token rest ih =>
    have hfirst : remember a prepared token = prepared :=
      remember_of_mem (h token List.mem_cons_self)
    change remembered a (remember a prepared token) rest = prepared
    rw [hfirst]
    exact ih fun other hother => h other (List.mem_cons_of_mem _ hother)

theorem remembered_again (a : Assembly) (prepared : Prepared) (tokens : List Token) :
    remembered a (remembered a prepared tokens) tokens = remembered a prepared tokens := by
  apply remembered_of_forall_mem
  intro token htoken
  exact mem_remembered.mpr (.inr ⟨token, htoken, rfl⟩)

end Native.Snapshot

namespace Listing

open Native

-- ========================================================== the methods

/-- The method whose code a piece is. -/
def Piece.method? : Piece → Option Token
  | code token => some token
  | openType _ | openMethod _ | gap => none

namespace Node

/-- The methods whose code is listed with a node, in order. -/
def listed (node : Node) : List Token := node.pieces.filterMap Piece.method?

theorem mem_listed {node : Node} {token : Token} : token ∈ node.listed ↔ node.Lists token := by
  rw [lists_iff]
  unfold listed
  rw [List.mem_filterMap]
  constructor
  · rintro ⟨piece, hpiece, hmethod⟩
    cases piece with
    | code _ =>
      cases hmethod
      exact hpiece
    | openType _ => cases hmethod
    | openMethod _ => cases hmethod
    | gap => cases hmethod
  · intro hpiece
    exact ⟨.code token, hpiece, rfl⟩

theorem listed_method (token : Token) : (method token).listed = [token] := by
  unfold listed
  rw [pieces]
  rfl

theorem listed_openMethod (token : Token) : (openMethod token).listed = [] := by
  unfold listed
  rw [pieces]
  rfl

theorem listed_openType (token : Token) (children : List Node) :
    (openType token children).listed = [] := by
  unfold listed
  rw [pieces]
  rfl

theorem filterMap_piecesInside (nodes : List Node) :
    (piecesInside nodes).filterMap Piece.method? = nodes.flatMap listed := by
  induction nodes with
  | nil =>
    rw [piecesInside]
    rfl
  | cons node rest hrest =>
    cases rest with
    | nil =>
      rw [piecesInside, List.flatMap_cons, List.flatMap_nil, List.append_nil]
      rfl
    | cons next rest =>
      rw [piecesInside, List.filterMap_append, List.filterMap_cons_none rfl, hrest]
      · rfl
      · exact List.cons_ne_nil next rest

theorem listed_type (token : Token) (children : List Node) :
    (type token children).listed = children.flatMap listed := by
  rw [← filterMap_piecesInside]
  unfold listed
  rw [pieces]

/-- Whether a token names a method that is not left to derived types. -/
def isConcrete (a : Assembly) (token : Token) : Bool :=
  (a.method? token).any fun m => !m.isAbstract

/-- The methods that get native code with nodes, in order, if nothing around
them has type parameters. -/
def ready (a : Assembly) (nodes : List Node) : List Token :=
  (nodes.flatMap listed).filter (isConcrete a)

theorem ready_cons (a : Assembly) (node : Node) (rest : List Node) :
    ready a (node :: rest) = ready a [node] ++ ready a rest := by
  unfold ready
  rw [List.flatMap_cons, List.flatMap_cons, List.flatMap_nil, List.append_nil, List.filter_append]

/-- The members of a type get native code as the type does. -/
theorem ready_type (a : Assembly) (token : Token) (children : List Node) :
    ready a [type token children] = ready a children := by
  unfold ready
  rw [List.flatMap_cons, List.flatMap_nil, List.append_nil, listed_type]

theorem ready_openType (a : Assembly) (token : Token) (children : List Node) :
    ready a [openType token children] = [] := by
  unfold ready
  rw [List.flatMap_cons, List.flatMap_nil, List.append_nil, listed_openType]
  rfl

theorem ready_openMethod (a : Assembly) (token : Token) : ready a [openMethod token] = [] := by
  unfold ready
  rw [List.flatMap_cons, List.flatMap_nil, List.append_nil, listed_openMethod]
  rfl

theorem ready_method {a : Assembly} {token : Token} {m : MethodDef}
    (hm : a.method? token = some m) :
    ready a [method token] = if m.isAbstract then [] else [token] := by
  unfold ready isConcrete
  rw [List.flatMap_cons, List.flatMap_nil, List.append_nil, listed_method, List.filter_singleton,
    hm, Option.any_some]
  cases m.isAbstract <;> rfl

/-- The methods that get native code with nodes. -/
theorem mem_ready {a : Assembly} {nodes : List Node} {token : Token} :
    token ∈ ready a nodes ↔ (∃ node ∈ nodes, node.Lists token)
      ∧ ∃ m, a.method? token = some m ∧ m.isAbstract = false := by
  unfold ready isConcrete
  rw [List.mem_filter, List.mem_flatMap, Option.any_eq_true]
  simp only [mem_listed, Bool.not_eq_true']

-- ======================================================== preparation

section Preparation

variable {a : Assembly} (s : Snapshot)

/-- Preparing a method for its node takes note of it. -/
theorem state_prepare (token : Token) (p : Progress Prepared) :
    (Run.upshot p (prepare s.host a token)).2.state = Snapshot.remember a p.state token := by
  obtain ⟨houtcome, hstate⟩ := Snapshot.upshot_prepare a token p
  unfold prepare
  rw [Run.upshot_bind, Run.upshot_attempt]
  dsimp only [Snapshot.host]
  rw [houtcome]
  exact hstate

/-- The node of a method is made and, if it is to be listed, the method is
prepared. -/
theorem state_ofMethod {token : Token} {node : Node} (h : planOfMethod a token = .ok node)
    (isListed : Bool) (p : Progress Prepared) :
    (Run.upshot p (ofMethod s.host a isListed token)).2.state
      = Snapshot.remembered a p.state (if isListed then ready a [node] else []) := by
  unfold planOfMethod at h
  unfold ofMethod
  cases hm : a.method? token with
  | none =>
    rw [hm] at h
    cases h
  | some m =>
    rw [hm] at h
    dsimp only at h ⊢
    by_cases hopen : m.isOpen = true
    · rw [if_pos hopen] at h ⊢
      cases h
      rw [ready_openMethod, ite_self]
      rfl
    · rw [if_neg hopen] at h ⊢
      cases h
      rw [ready_method hm]
      cases isListed with
      | false => rfl
      | true =>
        cases habstract : m.isAbstract with
        | true => rfl
        | false =>
          have hstate := state_prepare (a := a) s token p
          have hdone := Run.upshot_bind_of_ok (outcome_prepare s.host a token p)
            fun _ => (pure (method token) : Run Prepared Node)
          change (Run.upshot p (prepare s.host a token >>= fun _ => pure _)).2.state = _
          rw [hdone, Run.upshot_pure, hstate]
          rfl

mutual

/-- Making a node prepares the methods that are listed with it, unless the
member is in a type with type parameters. -/
theorem state_ofMember : ∀ (m : ResolvedMember) {node : Node}, planOf a m = .ok node →
    ∀ (isListed : Bool) (p : Progress Prepared),
      (Run.upshot p (ofMember s.host a isListed m)).2.state
        = Snapshot.remembered a p.state (if isListed then ready a [node] else [])
  | ⟨token, children⟩, node, h, isListed, p => by
    rw [planOf] at h
    rw [ofMember]
    by_cases htype : token.isIn .typeDef = true
    · rw [if_pos htype] at h ⊢
      cases ht : a.type? token with
      | none =>
        rw [ht] at h
        cases h
      | some t =>
        rw [ht] at h
        dsimp only at h ⊢
        cases hinside : planAll a children with
        | error e =>
          rw [hinside] at h
          cases h
        | ok nodes =>
          rw [hinside] at h
          cases h
          have hmade := outcome_ofMembers s.host a children (isListed && !t.isOpen) p
          have hnodes := state_ofMembers children hinside (isListed && !t.isOpen) p
          rw [hinside] at hmade
          rw [Run.upshot_bind_of_ok hmade, Run.upshot_pure, hnodes]
          cases hopen : t.isOpen with
          | true =>
            -- nothing inside is prepared, as nothing of the type is listed
            rw [if_pos rfl, ready_openType, ite_self, Bool.not_true, Bool.and_false]
            rfl
          | false =>
            rw [if_neg Bool.false_ne_true, ready_type, Bool.not_false, Bool.and_true]
    · rw [if_neg htype] at h ⊢
      exact state_ofMethod s h isListed p

theorem state_ofMembers : ∀ (ms : List ResolvedMember) {nodes : List Node},
    planAll a ms = .ok nodes → ∀ (isListed : Bool) (p : Progress Prepared),
      (Run.upshot p (ofMembers s.host a isListed ms)).2.state
        = Snapshot.remembered a p.state (if isListed then ready a nodes else [])
  | [], nodes, h, isListed, p => by
    rw [planAll] at h
    cases h
    rw [ofMembers]
    cases isListed <;> rfl
  | m :: rest, nodes, h, isListed, p => by
    rw [planAll] at h
    rw [ofMembers]
    cases hfirst : planOf a m with
    | error e =>
      rw [hfirst] at h
      cases h
    | ok node =>
      cases hrest : planAll a rest with
      | error e =>
        rw [hfirst, hrest] at h
        cases h
      | ok others =>
        rw [hfirst, hrest] at h
        cases h
        have hmade := outcome_ofMember s.host a m isListed p
        have hstate := state_ofMember m hfirst isListed p
        rw [hfirst] at hmade
        rw [Run.upshot_bind_of_ok hmade]
        have hmade' := outcome_ofMembers s.host a rest isListed
          (Run.upshot p (ofMember s.host a isListed m)).2
        have hstate' := state_ofMembers rest hrest isListed
          (Run.upshot p (ofMember s.host a isListed m)).2
        rw [hrest] at hmade'
        rw [Run.upshot_bind_of_ok hmade', Run.upshot_pure, hstate', hstate]
        cases isListed with
        | true =>
          rw [if_pos rfl, if_pos rfl, if_pos rfl, ready_cons a node others,
            Snapshot.remembered_append]
        | false => rfl

end

end Preparation

-- ============================================================= nodes

mutual

/-- The member that a node was made from. -/
def member : Node → ResolvedMember
  | type token children | openType token children => ⟨token, membersOf children⟩
  | method token | openMethod token => ⟨token, []⟩

/-- The members that nodes were made from. -/
def membersOf : List Node → List ResolvedMember
  | [] => []
  | node :: rest => node.member :: membersOf rest

end

mutual

/-- Whether a node and those inside it say of types and methods of a module
what they are: open, or without type parameters. -/
def Fits (a : Assembly) : Node → Prop
  | type token children => (∃ t, a.type? token = some t ∧ t.isOpen = false) ∧ AllFit a children
  | openType token children => (∃ t, a.type? token = some t ∧ t.isOpen = true) ∧ AllFit a children
  | method token => ∃ m, a.method? token = some m ∧ m.isOpen = false
  | openMethod token => ∃ m, a.method? token = some m ∧ m.isOpen = true

/-- Whether nodes of a forest say what types and methods are. -/
def AllFit (a : Assembly) : List Node → Prop
  | [] => True
  | node :: rest => node.Fits a ∧ AllFit a rest

end

mutual

/-- The node of a member that a module knows can be made. -/
theorem plan_of_isKnown {a : Assembly} : ∀ m : ResolvedMember, m.IsKnown a →
    ∃ node, planOf a m = .ok node ∧ node.member = m ∧ node.Fits a
  | ⟨token, children⟩, h => by
    rw [ResolvedMember.IsKnown] at h
    rw [planOf]
    rcases h with ⟨htype, hinside⟩ | ⟨hmethod, rfl⟩
    · obtain ⟨t, ht⟩ := Option.isSome_iff_exists.mp htype
      obtain ⟨nodes, hplan, hmembers, hfit⟩ := plan_of_allKnown children hinside
      rw [if_pos (isIn_of_type? ht), ht]
      dsimp only
      rw [hplan]
      cases hopen : t.isOpen with
      | true =>
        refine ⟨.openType token nodes, rfl, ?_, ?_⟩
        · rw [member, hmembers]
        · rw [Fits]
          exact ⟨⟨t, ht, hopen⟩, hfit⟩
      | false =>
        refine ⟨.type token nodes, rfl, ?_, ?_⟩
        · rw [member, hmembers]
        · rw [Fits]
          exact ⟨⟨t, ht, hopen⟩, hfit⟩
    · obtain ⟨m, hm⟩ := Option.isSome_iff_exists.mp hmethod
      rw [if_neg (not_isIn_of_method? hm)]
      unfold planOfMethod
      rw [hm]
      dsimp only
      cases hopen : m.isOpen with
      | true =>
        refine ⟨.openMethod token, rfl, ?_, ?_⟩
        · rw [member]
        · rw [Fits]
          exact ⟨m, hm, hopen⟩
      | false =>
        refine ⟨.method token, rfl, ?_, ?_⟩
        · rw [member]
        · rw [Fits]
          exact ⟨m, hm, hopen⟩

theorem plan_of_allKnown {a : Assembly} : ∀ ms : List ResolvedMember,
    ResolvedMember.AllKnown a ms →
      ∃ nodes, planAll a ms = .ok nodes ∧ membersOf nodes = ms ∧ AllFit a nodes
  | [], _ => by
    refine ⟨[], ?_, ?_, ?_⟩
    · rw [planAll]
      rfl
    · rw [membersOf]
    · rw [AllFit]
      trivial
  | m :: rest, h => by
    rw [ResolvedMember.AllKnown] at h
    obtain ⟨node, hfirst, hmember, hfits⟩ := plan_of_isKnown m h.1
    obtain ⟨others, hrest, hmembers, hfit⟩ := plan_of_allKnown rest h.2
    refine ⟨node :: others, ?_, ?_, ?_⟩
    · rw [planAll, hfirst, hrest]
      rfl
    · rw [membersOf, hmember, hmembers]
    · rw [AllFit]
      exact ⟨hfits, hfit⟩

end

end Node

-- ============================================================ forests

/-- The forest of nodes of what the resolver gives, in a process that a
snapshot stands for and that has prepared nothing. It is made, has the
shape and the tokens of the members, and marks as open what has type
parameters. Prepared are then exactly the methods of the module that are
listed with a node and are not abstract, each once: those whose code is a
piece of the node's listing. Making the forest again gives the same nodes
and prepares nothing more. -/
theorem prepared_of_forest {a : Assembly} (ha : a.Addressed) {log : Log}
    {rounds : List (List Declaration)} {forest : List Declaration} {members : List ResolvedMember}
    (hmembers : (Run.upshot (runRounds a ⟨.start, log⟩ rounds) (Resolver.resolve a forest)).1
      = .ok members) (s : Snapshot) (before : Log) :
    let made := Run.upshot ⟨[], before⟩ (Node.forest s.host a members)
    let again := Run.upshot made.2 (Node.forest s.host a members)
    ∃ nodes, made.1 = .ok nodes ∧ Node.membersOf nodes = members ∧ Node.AllFit a nodes
      ∧ (∀ module token, (module, token) ∈ made.2.state ↔ module = a.name
          ∧ (∃ node ∈ nodes, node.Lists token) ∧ ∃ m, a.method? token = some m ∧ m.isAbstract = false)
      ∧ made.2.state.Nodup
      ∧ (∀ (source : Source) (node : Node),
          source.block node = Block.join (node.pieces.map source.pieceBlock)
            ∧ ∀ token, node.Lists token ↔ .code token ∈ node.pieces)
      ∧ again.1 = .ok nodes ∧ again.2.state = made.2.state := by
  intro made again
  obtain ⟨nodes, hplan, hshape, hfit⟩ :=
    Node.plan_of_allKnown members (allKnown_of_resolve ha hmembers)
  have hmade : made.1 = .ok nodes :=
    (Node.outcome_ofMembers s.host a members true ⟨[], before⟩).trans hplan
  have hstate : made.2.state = Snapshot.remembered a [] (Node.ready a nodes) :=
    Node.state_ofMembers s members hplan true ⟨[], before⟩
  have hagain : again.1 = .ok nodes :=
    (Node.outcome_ofMembers s.host a members true made.2).trans hplan
  have hstate' : again.2.state = Snapshot.remembered a made.2.state (Node.ready a nodes) :=
    Node.state_ofMembers s members hplan true made.2
  refine ⟨nodes, hmade, hshape, hfit, ?_, ?_, ?_, hagain, ?_⟩
  · intro module token
    rw [hstate, Snapshot.mem_remembered]
    constructor
    · rintro (hnone | ⟨other, hready, heq⟩)
      · cases hnone
      · cases heq
        exact ⟨rfl, Node.mem_ready.mp hready⟩
    · rintro ⟨rfl, hready⟩
      exact .inr ⟨token, Node.mem_ready.mpr hready, rfl⟩
  · rw [hstate]
    exact Snapshot.nodup_remembered List.nodup_nil _
  · intro source node
    exact ⟨block_eq source node, fun token => Node.lists_iff⟩
  · rw [hstate', hstate, Snapshot.remembered_again]

/-- A file with a method to derive, a method with type parameters and a type
with type parameters. -/
def partlyOpenSource : String :=
  "abstract class C \x7b abstract void A(); void M() \x7b \x7d T Id<T>(T x) \x7b return x; \x7d\n"
    ++ "class G<T> \x7b void N() \x7b \x7d \x7d class D \x7b int P \x7b get; \x7d \x7d \x7d"

/-- A process that knows no method at all prepares the methods of the file
with open types and methods. -/
theorem prepared_of_partlyOpenSource : ∃ tree a members,
    (Run.outcome (Syntax.Tree.parse partlyOpenSource)).1 = .ok tree
      ∧ (Run.outcome (Lowering.compile "Open" tree ⟨false⟩)).1 = .ok a
      ∧ a.Addressed
      ∧ (Run.upshot (runRounds a ⟨.start, []⟩ [])
          (Resolver.resolve a (Declaration.forest tree.root))).1 = .ok members
      ∧ let s : Snapshot := ⟨Snapshot.defaultInfo .x64, []⟩
        let made := Run.upshot ⟨[], []⟩ (Node.forest s.host a members)
        ∃ nodes, made.1 = .ok nodes ∧ Node.membersOf nodes = members
          ∧ ∀ module token, (module, token) ∈ made.2.state ↔ module = a.name
            ∧ (∃ node ∈ nodes, node.Lists token)
            ∧ ∃ m, a.method? token = some m ∧ m.isAbstract = false := by
  have hruns : Lowering.compilesTo partlyOpenSource "Open" (fun _ _ => true) = true := by
    decide +kernel
  obtain ⟨tree, a, hparse, hcompile, htypes, hmethods, -⟩ := Lowering.of_compilesTo hruns
  obtain ⟨added, -, h⟩ := serves_of_compile hparse hcompile htypes hmethods
  have ha : a.Addressed := h.renders.numbered.addressed
  obtain ⟨members, hrun, -⟩ := h.resolves []
  have hmembers : (Run.upshot (runRounds a ⟨.start, []⟩ [])
      (Resolver.resolve a (Declaration.forest tree.root))).1 = .ok members :=
    congrArg Prod.fst hrun
  obtain ⟨nodes, hmade, hshape, -, hprepared, -⟩ :=
    prepared_of_forest ha hmembers ⟨Snapshot.defaultInfo .x64, []⟩ []
  exact ⟨tree, a, members, hparse, hcompile, ha, hmembers, nodes, hmade, hshape, hprepared⟩

end Listing

end ClrListing
