/-
The interface that a member implements explicitly, as it is written.

Members come to their interface by three ways: a method or property has it
in front of its name, an indexer in front of `this`, and an event is read by
a parser of its own. `writtenInterface` reads the interface off the lexemes
in one way for all of them, with every type argument that stands there. What
the tree has of a method, property or indexer is that interface; what it has
of an event is the interface without type arguments, for its parser reads
them and drops them (`keepsInterface_of_plainMember`).
-/
import ClrListing.Proofs.Syntax.Provenance
import ClrListing.Proofs.Syntax.Runs

namespace ClrListing.Syntax

open Source

-- ============================================================= members

/-- The interface that a member of the tree implements explicitly. -/
def Member.interface : Member → Option TypeExpr
  | .method m => m.explicitInterface
  | .property p => p.explicitInterface
  | .indexer i => i.explicitInterface
  | .event e => e.explicitInterface
  | .type _ | .field _ | .constructor _ | .destructor _ | .operator _ => none

/-- Whether a member is a type. -/
def Member.IsType : Member → Prop
  | .type _ => True
  | _ => False

/-- Whether a member is an event. -/
def Member.IsEvent : Member → Prop
  | .event _ => True
  | _ => False

/-- Whether a member is of a sort that may implement an interface. -/
def Member.MayImplement : Member → Prop
  | .method _ | .property _ | .indexer _ | .event _ => True
  | _ => False

theorem Member.IsEvent.mayImplement {m : Member} (h : m.IsEvent) : m.MayImplement := by
  cases m with
  | event e => trivial
  | _ => exact h.elim

theorem Member.IsEvent.not_isType {m : Member} (h : m.IsEvent) : ¬ m.IsType := by
  cases m with
  | type decl => exact fun _ => h
  | _ => exact id

/-- A segment of a name without its type arguments. -/
def NameSegment.bare (segment : NameSegment) : NameSegment := ⟨segment.name, []⟩

/-- A named type without type arguments. -/
def TypeExpr.bare : TypeExpr → TypeExpr
  | .named root segments => .named root (segments.map NameSegment.bare)
  | t => t

namespace Member

/-- The member as if it implemented no interface explicitly. -/
def withoutInterface : Member → Member
  | .method m => .method { m with explicitInterface := none }
  | .property p => .property { p with explicitInterface := none }
  | .indexer i => .indexer { i with explicitInterface := none }
  | .event e => .event { e with explicitInterface := none }
  | m => m

/-- What a member keeps of the interface that is written before its name: an
event does not keep the type arguments. -/
def kept : Member → TypeExpr → TypeExpr
  | .event _, t => t.bare
  | _, t => t

variable {m : Member}

theorem kept_of_isEvent (h : m.IsEvent) : m.kept = TypeExpr.bare := by
  cases m with
  | event e => rfl
  | _ => exact h.elim

theorem kept_of_not_isEvent (h : ¬ m.IsEvent) : m.kept = id := by
  cases m with
  | event e => exact absurd trivial h
  | _ => rfl

theorem mayImplement_of_interface {t : TypeExpr} (h : m.interface = some t) :
    m.MayImplement := by
  cases m with
  | method | property | indexer | event => trivial
  | _ => cases h

end Member

namespace Parser

/-- One of the lists of type arguments that stand here. -/
def argumentTurn : Parser (Turn (List TypeExpr)) := do
  if ← atKind .lt then
    return .item (← typeArguments)
  else
    return .done

/-- All lists of type arguments that stand here. -/
def argumentLists : Parser (List (List TypeExpr)) := collect argumentTurn

/-- One segment of a dotted name, with all type arguments behind it. -/
def fullSegment : Parser NameSegment := do
  let name ← identifier
  return ⟨name, (← argumentLists).flatten⟩

/-- A segment, and the dot behind it if the name goes on. -/
def fullTurn : Parser (Turn NameSegment) := do
  let segment ← fullSegment
  if (← atKind .dot) && (← kindAt 1) = .identifier then
    advance
    return .item segment
  else
    return .last segment

/-- The segments of a dotted name, up to a dot before `this`. -/
def fullSegments : Parser (List NameSegment) := collect fullTurn

/-- The interface before the name of the member whose type is behind. -/
def interfaceBehindType : Parser (Option TypeExpr) := do
  if (← atKind .kwOperator) || (← atKind .kwThis) then
    return none
  else
    let segments ← fullSegments
    if ← atKind .dot then
      return some (.named none segments)
    else
      return interfaceOf segments.dropLast

/-- The interface before the name of the member that starts here, behind its
modifiers. -/
def writtenInterface : Parser (Option TypeExpr) := do
  let _ ← eat .kwEvent
  let _ ← headerType
  interfaceBehindType

-- ============================================================ the logic

/-- Whether all that a parser gives of a cursor, and where it ends, satisfies
`Q`. -/
def Leads (c : Cursor) (p : Parser α) (Q : α → Cursor → Prop) : Prop :=
  ∀ a c', p c = .ok (a, c') → Q a c'

namespace Leads

variable {c : Cursor} {p : Parser α} {f : α → Parser β} {P P' : α → Cursor → Prop}
  {Q : β → Cursor → Prop}

theorem mono (h : Leads c p P) (himp : ∀ a c', P a c' → P' a c') : Leads c p P' :=
  fun a c' hok => himp a c' (h a c' hok)

/-- What is known of a run, that it was that run among it. -/
theorem run : Leads c p fun a c' => p c = .ok (a, c') := fun _ _ h => h

theorem pure {a : α} (h : P a c) : Leads c (pure a) P := by
  rintro _ _ ⟨⟩
  exact h

theorem bind (hp : Leads c p P) (hf : ∀ a d, P a d → Leads d (f a) Q) : Leads c (p >>= f) Q := by
  intro b c' h
  obtain ⟨a, d, hfirst, hsecond⟩ := bind_eq_ok h
  exact hf a d (hp a d hfirst) b c' hsecond

/-- A first part of which nothing matters. -/
theorem after (hf : ∀ a d, Leads d (f a) Q) : Leads c (p >>= f) Q :=
  run.bind fun a d _ => hf a d

theorem ite {b : Prop} [Decidable b] {p q : Parser α} (hp : b → Leads c p P)
    (hq : ¬ b → Leads c q P) : Leads c (if b then p else q) P := by
  split
  · next hb => exact hp hb
  · next hb => exact hq hb

theorem missing (k : LexemeKind) : Leads c (missing k : Parser α) P :=
  fun a c' h => absurd h (missing_ne_ok k c (a, c'))

end Leads

-- ========================================================= single steps

theorem atKind_eq (k : LexemeKind) (c : Cursor) :
    atKind k c = .ok (decide (c.kindAt 0 = k), c) := rfl

/-- A test of the next lexeme. -/
theorem Leads.atKind {c : Cursor} {k : LexemeKind} {f : Bool → Parser β} {Q : β → Cursor → Prop}
    (h : Leads c (f (decide (c.kindAt 0 = k))) Q) : Leads c (Parser.atKind k >>= f) Q := h

theorem eat_eq_of_ne {k : LexemeKind} {c : Cursor} (h : c.kindAt 0 ≠ k) :
    eat k c = .ok (false, c) := by
  show (if decide (c.kindAt 0 = k) then _ else _ : Parser Bool) c = _
  rw [if_neg (by simpa using h)]
  rfl

theorem eat_eq {k : LexemeKind} {c : Cursor} (h : c.kindAt 0 = k) :
    eat k c = .ok (true, c.next) := by
  show (if decide (c.kindAt 0 = k) then _ else _ : Parser Bool) c = _
  rw [if_pos (decide_eq_true h)]
  rfl

theorem leads_identifier (c : Cursor) :
    Leads c identifier fun _ _ => c.kindAt 0 = .identifier := by
  show Leads c (if decide (c.kindAt 0 = .identifier) then _ else _) _
  exact .ite (fun h => fun _ _ _ => of_decide_eq_true h) fun _ => .missing _

theorem kindAt_next {c : Cursor} (h : c.kindAt 0 ≠ .endOfText) :
    c.next.kindAt 0 = c.kindAt 1 := by
  obtain ⟨l, rest, hrest, hl⟩ := Cursor.kindAt_zero rfl h
  rw [Cursor.kindAt, (Cursor.past_next_of_cons hrest (hl ▸ h)).2, Cursor.kindAt, hrest]
  rfl

-- ========================================================== repetition

/-- One turn with more to come, and the rest. -/
theorem collectWithin_item {turn : Parser (Turn α)} {bound : Nat} {c d c' : Cursor} {a : α}
    {items : List α} (hturn : turn c = .ok (.item a, d))
    (hrest : collectWithin turn bound d = .ok (items, c')) :
    collectWithin turn (bound + 1) c = .ok (a :: items, c') := by
  show (turn c >>= fun r => _) = _
  rw [hturn]
  show (collectWithin turn bound d >>= fun r => _) = _
  rw [hrest]
  rfl

theorem collectWithin_last {turn : Parser (Turn α)} {bound : Nat} {c c' : Cursor} {a : α}
    (hturn : turn c = .ok (.last a, c')) :
    collectWithin turn (bound + 1) c = .ok ([a], c') := by
  show (turn c >>= fun r => _) = _
  rw [hturn]
  rfl

theorem collectWithin_done {turn : Parser (Turn α)} {bound : Nat} {c c' : Cursor}
    (hturn : turn c = .ok (.done, c')) : collectWithin turn (bound + 1) c = .ok ([], c') := by
  show (turn c >>= fun r => _) = _
  rw [hturn]
  rfl

/-- What a turn gives, some of it dropped. -/
def Turn.map (f : α → β) : Turn α → Turn β
  | .item a => .item (f a)
  | .last a => .last (f a)
  | .done => .done

/-- A repeated turn that drops some of what another gives drops it of all
items. -/
theorem collect_map {turn : Parser (Turn α)} {turn' : Parser (Turn β)} {f : α → β}
    (h : ∀ c, turn' c = (turn c).map fun r => (r.1.map f, r.2)) (c : Cursor) :
    collect turn' c = (collect turn c).map fun r => (r.1.map f, r.2) := by
  have hwithin : ∀ bound c, collectWithin turn' bound c
      = (collectWithin turn bound c).map fun r => (r.1.map f, r.2) := by
    intro bound
    induction bound with
    | zero => exact fun _ => rfl
    | succ bound ih =>
      intro c
      show (turn' c >>= fun r => _) = Except.map _ (turn c >>= fun r => _)
      rw [h]
      cases turn c with
      | error e => rfl
      | ok r =>
        obtain ⟨t, d⟩ := r
        cases t with
        | item a =>
          show (collectWithin turn' bound d >>= fun r => _)
            = Except.map _ (collectWithin turn bound d >>= fun r => _)
          rw [ih]
          cases collectWithin turn bound d <;> rfl
        | last a => rfl
        | done => rfl
  exact hwithin _ c

-- ============================================================ segments

theorem argumentTurn_of_ne {c : Cursor} (h : c.kindAt 0 ≠ .lt) :
    argumentTurn c = .ok (.done, c) := by
  show (if decide (c.kindAt 0 = .lt) then _ else _ : Parser (Turn (List TypeExpr))) c = _
  rw [if_neg (by simpa using h)]
  rfl

theorem argumentTurn_of_eq {c d : Cursor} {args : List TypeExpr} (h : c.kindAt 0 = .lt)
    (hargs : typeArguments c = .ok (args, d)) : argumentTurn c = .ok (.item args, d) := by
  show (if decide (c.kindAt 0 = .lt) then _ else _ : Parser (Turn (List TypeExpr))) c = _
  rw [if_pos (decide_eq_true h)]
  show (typeArguments c >>= fun r => _) = _
  rw [hargs]
  rfl

/-- A segment with at most one list of type arguments is read in full, if no
other list follows. -/
theorem fullSegment_of_nameSegment {c d : Cursor} {segment : NameSegment}
    (h : nameSegment typeExpr c = .ok (segment, d)) (hd : d.kindAt 0 ≠ .lt) :
    fullSegment c = .ok (segment, d) := by
  obtain ⟨name, e, hname, h⟩ := bind_eq_ok h
  have hfull : ∀ lists, argumentLists e = .ok (lists, d) →
      fullSegment c = .ok (⟨name, lists.flatten⟩, d) := by
    intro lists hlists
    show (identifier c >>= fun r => _) = _
    rw [hname]
    show (argumentLists e >>= fun r => _) = _
    rw [hlists]
    rfl
  obtain ⟨opens, e', hopens, h⟩ := bind_eq_ok h
  rw [atKind_eq] at hopens
  cases hopens
  by_cases hlt : e.kindAt 0 = .lt
  · rw [if_pos (decide_eq_true hlt)] at h
    obtain ⟨args, d', hargs, h⟩ := bind_eq_ok h
    cases h
    obtain ⟨l, rest, hrest, -⟩ := Cursor.kindAt_zero hlt (by decide)
    have hlists : collectWithin argumentTurn (e.rest.length + 1) e = .ok ([args], d) := by
      rw [hrest, List.length_cons]
      exact collectWithin_item (argumentTurn_of_eq hlt hargs)
        (collectWithin_done (argumentTurn_of_ne hd))
    rw [hfull [args] hlists, List.flatten_singleton]
  · rw [if_neg (by simpa using hlt)] at h
    cases h
    exact hfull [] (collectWithin_done (argumentTurn_of_ne hlt))

/-- An event's segment is a segment read in full, without its arguments. -/
theorem eventSegment_eq (c : Cursor) :
    eventSegment c = (fullSegment c).map fun r => (r.1.name, r.2) := by
  have hlists : ∀ c, (collect (do
      if ← atKind .lt then
        let _ ← typeArguments
        return .item ()
      else
        return .done : Parser (Turn Unit))) c
      = (argumentLists c).map fun r => (r.1.map fun _ => (), r.2) := by
    refine collect_map fun c => ?_
    by_cases hlt : c.kindAt 0 = .lt
    · show (if decide (c.kindAt 0 = .lt) then _ else _ : Parser (Turn Unit)) c
        = Except.map _ ((if decide (c.kindAt 0 = .lt) then _ else _ :
          Parser (Turn (List TypeExpr))) c)
      rw [if_pos (decide_eq_true hlt), if_pos (decide_eq_true hlt)]
      show (typeArguments c >>= fun r => _) = Except.map _ (typeArguments c >>= fun r => _)
      cases typeArguments c <;> rfl
    · show (if decide (c.kindAt 0 = .lt) then _ else _ : Parser (Turn Unit)) c
        = Except.map _ ((if decide (c.kindAt 0 = .lt) then _ else _ :
          Parser (Turn (List TypeExpr))) c)
      rw [if_neg (by simpa using hlt), if_neg (by simpa using hlt)]
      rfl
  show (identifier c >>= fun r => _) = Except.map _ (identifier c >>= fun r => _)
  cases identifier c with
  | error e => rfl
  | ok r =>
    show ((collect _ : Parser (List Unit)) r.2 >>= fun r => _)
      = Except.map _ (argumentLists r.2 >>= fun r => _)
    rw [hlists]
    cases argumentLists r.2 <;> rfl

theorem fullTurn_item {c d : Cursor} {segment : NameSegment}
    (h : fullSegment c = .ok (segment, d)) (hdot : d.kindAt 0 = .dot)
    (hnext : d.kindAt 1 = .identifier) : fullTurn c = .ok (.item segment, d.next) := by
  show (fullSegment c >>= fun r => _) = _
  rw [h]
  show (if decide (d.kindAt 0 = .dot) && decide (d.kindAt 1 = .identifier) then _ else _ :
    Parser (Turn NameSegment)) d = _
  rw [if_pos (by simp [hdot, hnext])]
  rfl

theorem fullTurn_last {c d : Cursor} {segment : NameSegment}
    (h : fullSegment c = .ok (segment, d))
    (hdot : ¬ (d.kindAt 0 = .dot ∧ d.kindAt 1 = .identifier)) :
    fullTurn c = .ok (.last segment, d) := by
  show (fullSegment c >>= fun r => _) = _
  rw [h]
  show (if decide (d.kindAt 0 = .dot) && decide (d.kindAt 1 = .identifier) then _ else _ :
    Parser (Turn NameSegment)) d = _
  rw [if_neg (by simpa using hdot)]
  rfl

/-- The segments of a member are read in full, if no type arguments follow
them. -/
theorem fullSegments_of_memberSegments {c c' : Cursor} {segments : List NameSegment}
    (h : memberSegments c = .ok (segments, c')) (hlt : c'.kindAt 0 ≠ .lt) :
    fullSegments c = .ok (segments, c') := by
  have hwithin : ∀ bound {c : Cursor} {segments : List NameSegment},
      collectWithin (do
        let segment ← nameSegment typeExpr
        if (← atKind .dot) && (← kindAt 1) = .identifier then
          advance
          return .item segment
        else
          return .last segment : Parser (Turn NameSegment)) bound c = .ok (segments, c') →
      collectWithin fullTurn bound c = .ok (segments, c') := by
    intro bound
    induction bound with
    | zero => exact fun h => by cases h
    | succ bound ih =>
      intro c segments h
      obtain ⟨t, e, hturn, h⟩ := bind_eq_ok h
      obtain ⟨segment, d, hsegment, hturn⟩ := bind_eq_ok hturn
      change (if decide (d.kindAt 0 = .dot) && decide (d.kindAt 1 = .identifier) then _ else _ :
        Parser (Turn NameSegment)) d = _ at hturn
      split at hturn
      · next hdotted =>
        rw [Bool.and_eq_true, decide_eq_true_eq, decide_eq_true_eq] at hdotted
        cases hturn
        obtain ⟨rest, d', hrest, h⟩ := bind_eq_ok h
        cases h
        have hfull := fullSegment_of_nameSegment hsegment (by rw [hdotted.1]; decide)
        exact collectWithin_item (fullTurn_item hfull hdotted.1 hdotted.2) (ih hrest)
      · next hdotted =>
        cases hturn
        cases h
        rw [Bool.and_eq_true, decide_eq_true_eq, decide_eq_true_eq] at hdotted
        exact collectWithin_last (fullTurn_last (fullSegment_of_nameSegment hsegment hlt) hdotted)
  exact hwithin _ h

/-- The name of a segment of an event, and the dot behind it. -/
def eventTurn : Parser (Turn String) := do
  let name ← eventSegment
  if ← eat .dot then return .item name else return .last name

/-- The names of an event's segments. -/
def eventNames : Parser (List String) := collect eventTurn

/-- They start with an identifier. -/
theorem kindAt_of_eventTurns {bound : Nat} {c c' : Cursor} {names : List String}
    (h : collectWithin eventTurn bound c = .ok (names, c')) : c.kindAt 0 = .identifier := by
  cases bound with
  | zero => cases h
  | succ bound =>
    obtain ⟨_, _, hturn, -⟩ := bind_eq_ok h
    obtain ⟨_, _, hsegment, -⟩ := bind_eq_ok hturn
    obtain ⟨_, _, hname, -⟩ := bind_eq_ok hsegment
    exact leads_identifier _ _ _ hname

/-- The segments of an event are those read in full, without their
arguments. -/
theorem fullSegments_of_eventNames {c c' : Cursor} {names : List String}
    (h : eventNames c = .ok (names, c')) :
    ∃ segments, fullSegments c = .ok (segments, c') ∧ names = segments.map NameSegment.name
      ∧ c'.kindAt 0 ≠ .dot := by
  have hwithin : ∀ bound {c : Cursor} {names : List String},
      collectWithin eventTurn bound c = .ok (names, c') →
      ∃ segments, collectWithin fullTurn bound c = .ok (segments, c')
        ∧ names = segments.map NameSegment.name ∧ c'.kindAt 0 ≠ .dot := by
    intro bound
    induction bound with
    | zero => exact fun h => by cases h
    | succ bound ih =>
      intro c names h
      obtain ⟨t, e, hturn, h⟩ := bind_eq_ok h
      obtain ⟨name, d, hname, hturn⟩ := bind_eq_ok hturn
      obtain ⟨segment, hfull, rfl⟩ : ∃ segment : NameSegment, fullSegment c = .ok (segment, d)
          ∧ segment.name = name := by
        rw [eventSegment_eq] at hname
        cases hsegment : fullSegment c with
        | error e =>
          rw [hsegment] at hname
          cases hname
        | ok r =>
          rw [hsegment] at hname
          cases hname
          exact ⟨r.1, rfl, rfl⟩
      obtain ⟨dotted, d', heat, hturn⟩ := bind_eq_ok hturn
      by_cases hdot : d.kindAt 0 = .dot
      · rw [eat_eq hdot] at heat
        cases heat
        cases hturn
        obtain ⟨rest, d', hrest, h⟩ := bind_eq_ok h
        cases h
        obtain ⟨segments, hsegments, hnames, hend⟩ := ih hrest
        -- what follows the dot is read as a name
        have hnext : d.next.kindAt 0 = .identifier := kindAt_of_eventTurns hrest
        rw [kindAt_next (by rw [hdot]; decide)] at hnext
        exact ⟨segment :: segments, collectWithin_item (fullTurn_item hfull hdot hnext) hsegments,
          by rw [hnames, List.map_cons], hend⟩
      · rw [eat_eq_of_ne hdot] at heat
        cases heat
        cases hturn
        cases h
        exact ⟨[segment], collectWithin_last (fullTurn_last hfull fun hdotted => hdot hdotted.1),
          rfl, hdot⟩
  exact hwithin _ h

-- ============================================================= members

/-- Whether a member is neither a type nor an event, and implements a certain
interface if it may implement one. -/
structure Implements (interface : Option TypeExpr) (m : Member) : Prop where
  notType : ¬ m.IsType
  notEvent : ¬ m.IsEvent
  interface_eq : m.MayImplement → m.interface = interface

/-- A member that may not implement an interface implements any that it may. -/
theorem Implements.of_other {m : Member} (htype : ¬ m.IsType) (hmay : ¬ m.MayImplement)
    (interface : Option TypeExpr) : Implements interface m :=
  ⟨htype, fun hevent => hmay hevent.mayImplement, fun h => absurd h hmay⟩

section Members

variable {c : Cursor} {from_ : Nat} {mods : Modifiers} {type : TypeExpr}
  {interface : Option TypeExpr}

theorem leads_indexerAfter : Leads c (indexerAfter from_ mods type interface) fun m _ =>
    Implements interface m := by
  unfold indexerAfter
  exact .after fun _ _ => .after fun _ _ => .after fun _ _ => .after fun _ _ =>
    .pure ⟨id, id, fun _ => rfl⟩

theorem leads_methodAfter {segment : NameSegment} :
    Leads c (methodAfter from_ mods type interface segment) fun m _ => Implements interface m := by
  unfold methodAfter
  split
  · exact fun _ _ h => by cases h
  · exact .after fun _ _ => .after fun _ _ => .after fun _ _ => .after fun _ _ =>
      .pure ⟨id, id, fun _ => rfl⟩

theorem leads_propertyAfter {name : String} :
    Leads c (propertyAfter from_ mods type interface name) fun m _ => Implements interface m := by
  unfold propertyAfter
  dsimp only
  refine .after fun parts _ => ?_
  split
  · refine .after fun assigned _ => .ite (fun _ => .after fun _ _ => .after fun _ _ => ?_) fun _ => ?_
    all_goals exact .after fun _ _ => .pure ⟨id, id, fun _ => rfl⟩
  · refine .after fun assigned _ => .ite (fun _ => .after fun _ _ => .after fun _ _ => ?_) fun _ => ?_
    all_goals exact .after fun _ _ => .pure ⟨id, id, fun _ => rfl⟩

theorem leads_operatorAfter {kind : OperatorKind} :
    Leads c (operatorAfter from_ mods kind type) fun m _ => ¬ m.IsType ∧ ¬ m.MayImplement := by
  unfold operatorAfter
  exact .after fun _ _ => .after fun _ _ => .after fun _ _ => .pure ⟨id, id⟩

/-- What follows the segments of a member's name is not `<`, and the segments
but the last one are the interface. -/
theorem leads_namedMember {segments : List NameSegment} :
    Leads c (namedMember from_ mods type segments) fun m _ =>
      c.kindAt 0 ≠ .lt ∧ c.kindAt 0 ≠ .dot ∧ Implements (interfaceOf segments.dropLast) m := by
  have hfield : Leads c (fieldAfter from_ mods type (segments.getLastD default).name) fun m _ =>
      Implements (interfaceOf segments.dropLast) m := by
    unfold fieldAfter
    exact .after fun _ _ => .after fun _ _ => .pure (.of_other id id _)
  have hother : ∀ {p : Parser Member}, (∀ k ∈ [LexemeKind.lt, .dot], c.kindAt 0 ≠ k) →
      (Leads c p fun m _ => Implements (interfaceOf segments.dropLast) m) →
      Leads c p fun m _ => c.kindAt 0 ≠ .lt ∧ c.kindAt 0 ≠ .dot
        ∧ Implements (interfaceOf segments.dropLast) m :=
    fun hkinds hp => hp.mono fun m _ h => ⟨hkinds .lt (by decide), hkinds .dot (by decide), h⟩
  unfold namedMember
  dsimp only
  refine Leads.bind (P := fun k d => d = c ∧ c.kindAt 0 = k) (fun _ _ h => ?_) ?_
  · cases h
    exact ⟨rfl, rfl⟩
  · rintro k _ ⟨rfl, hkind⟩
    split
    · exact hother (by rw [hkind]; decide) leads_methodAfter
    · exact hother (by rw [hkind]; decide) leads_propertyAfter
    · exact hother (by rw [hkind]; decide) leads_propertyAfter
    · exact .ite (fun _ => hother (by rw [hkind]; decide) hfield) fun _ => .missing _
    · exact .ite (fun _ => hother (by rw [hkind]; decide) hfield) fun _ => .missing _
    · exact .ite (fun _ => hother (by rw [hkind]; decide) hfield) fun _ => .missing _
    · exact .ite (fun _ => hother (by rw [hkind]; decide) hfield) fun _ => .missing _
    · exact .missing _

/-- The rest of a member that starts with a type has the interface that is
written there. -/
theorem leads_typedMember : Leads c (typedMember from_ mods type) fun m _ =>
    ∃ I, Implements I m ∧ (m.MayImplement → ∃ d, interfaceBehindType c = .ok (I, d)) := by
  intro m c' h
  unfold typedMember at h
  obtain ⟨isOperator, d, hoperator, h⟩ := bind_eq_ok h
  have hwritten : interfaceBehindType c
      = (if decide (c.kindAt 0 = .kwOperator) || decide (c.kindAt 0 = .kwThis) then return none
        else do
          let segments ← fullSegments
          if ← atKind .dot then
            return some (.named none segments)
          else
            return interfaceOf segments.dropLast : Parser (Option TypeExpr)) c := rfl
  by_cases hop : c.kindAt 0 = .kwOperator
  · rw [eat_eq hop] at hoperator
    cases hoperator
    obtain ⟨_, e, -, h⟩ := bind_eq_ok h
    obtain ⟨_, e', -, h⟩ := bind_eq_ok h
    obtain ⟨htype, hmay⟩ := leads_operatorAfter m c' h
    exact ⟨none, .of_other htype hmay none, fun h => absurd h hmay⟩
  rw [eat_eq_of_ne hop] at hoperator
  cases hoperator
  rw [if_neg Bool.false_ne_true] at h
  change (if decide (c.kindAt 0 = .kwThis) then _ else _ : Parser Member) c = _ at h
  by_cases hthis : c.kindAt 0 = .kwThis
  · rw [if_pos (decide_eq_true hthis)] at h
    refine ⟨none, leads_indexerAfter m c' h, fun _ => ⟨c, ?_⟩⟩
    rw [hwritten, if_pos (by simp [hthis])]
    rfl
  rw [if_neg (by simpa using hthis)] at h
  rw [if_neg (by simp [hop, hthis])] at hwritten
  obtain ⟨segments, d, hsegments, h⟩ := bind_eq_ok h
  change (if decide (d.kindAt 0 = .dot) && decide (d.kindAt 1 = .kwThis) then _ else _ :
    Parser Member) d = _ at h
  have hbehind : fullSegments c = .ok (segments, d) → interfaceBehindType c
      = (if decide (d.kindAt 0 = .dot) then return some (.named none segments)
        else return interfaceOf segments.dropLast : Parser (Option TypeExpr)) d := by
    intro hfull
    rw [hwritten]
    show (fullSegments c >>= fun r => _) = _
    rw [hfull]
    rfl
  split at h
  · next hdot =>
    rw [Bool.and_eq_true, decide_eq_true_eq, decide_eq_true_eq] at hdot
    obtain ⟨_, e, -, h⟩ := bind_eq_ok h
    refine ⟨_, leads_indexerAfter m c' h, fun _ => ⟨d, ?_⟩⟩
    rw [hbehind (fullSegments_of_memberSegments hsegments (by rw [hdot.1]; decide)),
      if_pos (decide_eq_true hdot.1)]
    rfl
  · obtain ⟨hlt, hdot, himplements⟩ := leads_namedMember m c' h
    refine ⟨_, himplements, fun _ => ⟨d, ?_⟩⟩
    rw [hbehind (fullSegments_of_memberSegments hsegments hlt), if_neg (by simpa using hdot)]
    rfl

theorem interfaceOf_bare (segments : List NameSegment) :
    interfaceOf (segments.map NameSegment.bare) = (interfaceOf segments).map TypeExpr.bare := by
  cases segments <;> rfl

/-- An event has the interface that is written there, without its type
arguments. -/
theorem leads_event : Leads c (event from_ mods) fun m _ => m.IsEvent
    ∧ ∃ type d I e, headerType c.next = .ok (type, d) ∧ interfaceBehindType d = .ok (I, e)
      ∧ m.interface = I.map TypeExpr.bare := by
  intro m c' h
  unfold event at h
  obtain ⟨_, _, hadvance, h⟩ := bind_eq_ok h
  cases hadvance
  obtain ⟨type, d, htype, h⟩ := bind_eq_ok h
  obtain ⟨names, e, hnames, h⟩ := bind_eq_ok h
  obtain ⟨segments, hsegments, rfl, hdot⟩ := fullSegments_of_eventNames hnames
  have hid : d.kindAt 0 = .identifier := kindAt_of_eventTurns hnames
  have hinterface : interfaceOf (((segments.map NameSegment.name).dropLast).map fun n => ⟨n, []⟩)
      = (interfaceOf segments.dropLast).map TypeExpr.bare := by
    rw [← interfaceOf_bare, ← List.map_dropLast, List.map_map]
    rfl
  have hwritten : interfaceBehindType d = .ok (interfaceOf segments.dropLast, e) := by
    show (if decide (d.kindAt 0 = .kwOperator) || decide (d.kindAt 0 = .kwThis) then _ else _ :
      Parser (Option TypeExpr)) d = _
    rw [if_neg (by simp [hid])]
    show (fullSegments d >>= fun r => _) = _
    rw [hsegments]
    show (if decide (e.kindAt 0 = .dot) then _ else _ : Parser (Option TypeExpr)) e = _
    rw [if_neg (by simpa using hdot)]
    rfl
  have hmember : m.IsEvent
      ∧ m.interface = (interfaceOf segments.dropLast).map TypeExpr.bare := by
    rw [← hinterface]
    refine Leads.after (Q := fun m _ => m.IsEvent ∧ m.interface = interfaceOf
      (((segments.map NameSegment.name).dropLast).map fun n => ⟨n, []⟩)) (fun _ _ => .ite (fun _ => .after fun _ _ => .after fun _ _ => ?_)
      fun _ => .after fun _ _ => .after fun _ _ => ?_) m c' h
    · exact .pure ⟨trivial, rfl⟩
    · exact .pure ⟨trivial, rfl⟩
  exact ⟨hmember.1, type, d, _, e, htype, hwritten, hmember.2⟩

/-- Whether a member has what is kept of the interface that is written where
it was read. -/
structure KeepsInterface (c : Cursor) (m : Member) : Prop where
  notType : ¬ m.IsType
  interface_eq : m.MayImplement → ∃ I d, writtenInterface c = .ok (I, d)
    ∧ m.interface = I.map m.kept

theorem writtenInterface_eq {type : TypeExpr} {d : Cursor} (hevent : c.kindAt 0 ≠ .kwEvent)
    (htype : headerType c = .ok (type, d)) : writtenInterface c = interfaceBehindType d := by
  show (eat .kwEvent c >>= fun r => _) = _
  rw [eat_eq_of_ne hevent]
  show (headerType c >>= fun r => _) = _
  rw [htype]
  rfl

theorem keepsInterface_of_plainMember :
    Leads c (plainMember from_ mods) fun m _ => KeepsInterface c m := by
  have hother : ∀ {m : Member}, ¬ m.IsType → ¬ m.MayImplement → KeepsInterface c m :=
    fun htype hmay => ⟨htype, fun h => absurd h hmay⟩
  have htyped : c.kindAt 0 ≠ .kwEvent → Leads c (do typedMember from_ mods (← headerType))
      fun m _ => KeepsInterface c m := by
    intro hkind m c' h
    obtain ⟨type, d, htype, h⟩ := bind_eq_ok h
    obtain ⟨I, himplements, hwritten⟩ := leads_typedMember m c' h
    refine ⟨himplements.notType, fun hmay => ?_⟩
    obtain ⟨e, hI⟩ := hwritten hmay
    refine ⟨I, e, (writtenInterface_eq hkind htype).trans hI, ?_⟩
    rw [Member.kept_of_not_isEvent himplements.notEvent, Option.map_id_fun, id]
    exact himplements.interface_eq hmay
  unfold plainMember
  refine Leads.bind (P := fun k d => d = c ∧ c.kindAt 0 = k) (fun _ _ h => ?_) ?_
  · cases h
    exact ⟨rfl, rfl⟩
  rintro k d ⟨rfl, hkind⟩
  split
  · unfold destructor
    exact .after fun _ _ => .after fun _ _ => .after fun _ _ => .after fun _ _ =>
      .after fun _ _ => .after fun _ _ => .pure (hother id id)
  · intro m c' h
    obtain ⟨hevent, type, e, I, e', htype, hI, hinterface⟩ := leads_event m c' h
    have hwritten : writtenInterface d = .ok (I, e') := by
      show (eat .kwEvent d >>= fun r => _) = _
      rw [eat_eq hkind]
      show (headerType d.next >>= fun r => _) = _
      rw [htype]
      exact hI
    exact ⟨hevent.not_isType, fun _ => ⟨I, e', hwritten,
      hinterface.trans (by rw [Member.kept_of_isEvent hevent])⟩⟩
  · exact .after fun _ _ => .after fun _ _ => .after fun _ _ =>
      leads_operatorAfter.mono fun _ _ h => hother h.1 h.2
  · exact .after fun _ _ => .after fun _ _ => .after fun _ _ =>
      leads_operatorAfter.mono fun _ _ h => hother h.1 h.2
  · refine Leads.bind (P := fun _ e => e = d) (fun _ _ h => by cases h; rfl) ?_
    rintro _ _ rfl
    refine .ite (fun _ => ?_) fun _ => htyped (by rw [hkind]; decide)
    unfold constructor
    exact .after fun _ _ => .after fun _ _ => .after fun _ _ => .after fun _ _ =>
      .after fun _ _ => .pure (hother id id)
  · exact htyped (by rw [hkind]; decide)
  · exact htyped (by rw [hkind]; decide)
  · exact fun _ _ h => by cases h

end Members

/-- Whether a member is read on the way from the top where an interface, or
none, is written before its name. -/
def WrittenBefore (top : Cursor) (m : Member) (written : Option TypeExpr) : Prop :=
  ∃ n from_ mods c d, plainMember from_ mods (top.skip n) = .ok (m, c)
    ∧ writtenInterface (top.skip n) = .ok (written, d)

end Parser

theorem Member.every_of_not_isType {P : Member → Prop} {m : Member} (htype : ¬ m.IsType)
    (h : P m) : m.Every P := by
  cases m with
  | type decl => exact absurd trivial htype
  | _ =>
    rw [Member.Every]
    exact h

/-- Every member of a file that may implement an interface has what is kept of
the one that is written before its name. -/
theorem writtenBefore_of_parse {source : String} {tree : Tree}
    (h : (Run.outcome (Tree.parse source)).1 = .ok tree) :
    ∃ ls, lexemes source = .ok ls ∧ EverySpaceMember
      (fun m => m.MayImplement → ∃ written,
        Parser.WrittenBefore (Cursor.top source ls) m written ∧ m.interface = written.map m.kept)
      tree.root.members := by
  obtain ⟨ls, hlexemes, hevery⟩ := every_of_parse h
  refine ⟨ls, hlexemes, hevery _ fun from_ mods n m c hmember => ?_⟩
  have hkeeps := Parser.keepsInterface_of_plainMember m c hmember
  refine Member.every_of_not_isType hkeeps.notType fun hmay => ?_
  obtain ⟨written, d, hwritten, hinterface⟩ := hkeeps.interface_eq hmay
  exact ⟨written, ⟨n, from_, mods, c, d, hmember, hwritten⟩, hinterface⟩

end ClrListing.Syntax
