/-
Where the declarations of a parsed file stand.

Every span in the tree covers text of the source. What a declaration
holds lies inside its span, and what stands in a list stands one behind
the other. A block is the shortest balanced run of lexemes from its
brace on, and an expression body goes from its arrow to its semicolon.
So the declarations that can be listed start further and further on, in
the order of the walk that lists them.
-/
import ClrListing.Declaration.Forest
import ClrListing.Proofs.Syntax.Runs
import ClrListing.Syntax.Tree

namespace ClrListing.Syntax

open Source

-- ========================================================= well placed

/-- Whether a span goes from the first to the last of a run of the
lexemes. -/
def SpansRun (t : Lexed) (span : Span) (run : List Lexeme) : Prop :=
  (∃ before after, t.lexemes = before ++ (run ++ after))
    ∧ run.head?.map (fun l => l.span.start) = some span.start
    ∧ run.getLast?.map (fun l => l.span.stop) = some span.stop

/-- Whether a body stands where it should: a block is the shortest
balanced run from its brace on, and an expression goes from an arrow to a
semicolon. -/
def Body.WellPlaced (t : Lexed) (b : Body) : Prop :=
  b.span.Proper t.source ∧
    match b.kind with
    | .block =>
      (∃ run, SpansRun t b.span run ∧ IsBalanced .lbrace .rbrace run)
        ∧ ∃ inner, b.span.textOf t.source = "\x7b" ++ inner ++ "\x7d"
    | .expression => ∃ inner, b.span.textOf t.source = "=>" ++ inner ++ ";"

/-- Whether an accessor and its body stand where they should. -/
def Accessor.WellPlaced (t : Lexed) (a : Accessor) : Prop :=
  a.span.Proper t.source
    ∧ ∀ b ∈ a.body, b.WellPlaced t ∧ a.span.start ≤ b.span.start ∧ b.span.stop ≤ a.span.stop

/-- The body of a member, its expression body included. -/
def Member.body? : Member → Option Body
  | .constructor c => c.body
  | .destructor d => d.body
  | .method m => m.body
  | .property p => p.expressionBody
  | .indexer i => i.expressionBody
  | .operator o => o.body
  | .type _ | .field _ | .event _ => none

/-- The accessors of a member. -/
def Member.accessors : Member → List Accessor
  | .property p => p.accessors
  | .indexer i => i.accessors
  | .event e => e.accessors
  | .type _ | .field _ | .constructor _ | .destructor _ | .method _ | .operator _ => []

/-- Whether the body and the accessors of a member stand where they
should, between two places. -/
structure Member.PartsPlaced (t : Lexed) (lo hi : Nat) (m : Member) : Prop where
  body : ∀ b ∈ m.body?, b.WellPlaced t ∧ lo ≤ b.span.start ∧ b.span.stop ≤ hi
  accessors : ∀ a ∈ m.accessors, a.WellPlaced t
  inRow : Parser.InRow Accessor.span lo hi m.accessors

mutual

/-- Whether a type and its members stand where they should. -/
def TypeDecl.WellPlaced (t : Lexed) : TypeDecl → Prop
  | ⟨_, _, _, _, _, members, _, _, span⟩ =>
    span.Proper t.source ∧ Parser.InRow Member.span (span.start + 1) span.stop members
      ∧ AllWellPlaced t members

/-- Whether all members stand where they should. -/
def AllWellPlaced (t : Lexed) : List Member → Prop
  | [] => True
  | m :: rest => m.WellPlaced t ∧ AllWellPlaced t rest

/-- Whether a member and what it holds stand where they should. -/
def Member.WellPlaced (t : Lexed) : Member → Prop
  | .type decl => decl.WellPlaced t
  | m => m.span.Proper t.source ∧ m.PartsPlaced t m.span.start m.span.stop

end

/-- The source that a member of a namespace covers. -/
def NamespaceMember.span : NamespaceMember → Span
  | .space decl => decl.span
  | .type decl => decl.span

mutual

/-- Whether a member of a namespace and what it holds stand where they
should. -/
def NamespaceMember.WellPlaced (t : Lexed) : NamespaceMember → Prop
  | .space ⟨_, _, _, members, span⟩ =>
    span.Proper t.source
      ∧ Parser.InRow NamespaceMember.span (span.start + 1) span.stop members
      ∧ SpaceWellPlaced t members
  | .type decl => decl.WellPlaced t

/-- Whether all members of a namespace stand where they should. -/
def SpaceWellPlaced (t : Lexed) : List NamespaceMember → Prop
  | [] => True
  | m :: rest => m.WellPlaced t ∧ SpaceWellPlaced t rest

end

/-- Whether the declarations of a file stand where they should. -/
def CompilationUnit.WellPlaced (t : Lexed) (unit : CompilationUnit) : Prop :=
  Parser.InRow NamespaceMember.span 0 t.source.utf8ByteSize unit.members
    ∧ SpaceWellPlaced t unit.members

theorem allWellPlaced_iff {t : Lexed} {members : List Member} :
    AllWellPlaced t members ↔ ∀ m ∈ members, m.WellPlaced t := by
  induction members with
  | nil => simp [AllWellPlaced]
  | cons m rest ih => rw [AllWellPlaced, ih, List.forall_mem_cons]

theorem spaceWellPlaced_iff {t : Lexed} {members : List NamespaceMember} :
    SpaceWellPlaced t members ↔ ∀ m ∈ members, m.WellPlaced t := by
  induction members with
  | nil => simp [SpaceWellPlaced]
  | cons m rest ih => rw [SpaceWellPlaced, ih, List.forall_mem_cons]

-- ============================================================== bodies

/-- A run that two cursors enclose, and the span between them. -/
theorem spansRun_of_past {t : Lexed} {c c' : Cursor} {run : List Lexeme} (hon : c.On t)
    (hpast : c.Past run c') (hrun : run ≠ []) : SpansRun t ⟨c.start, c'.lastEnd⟩ run := by
  obtain ⟨before, hsuffix⟩ := hon.suffix
  refine ⟨⟨before, c'.rest, by rw [hsuffix, hpast.rest]⟩, ?_, ?_⟩
  · rcases hon.start_cases with ⟨l, rest, hrest, hstart⟩ | ⟨hrest, _⟩
    · cases run with
      | nil => exact absurd rfl hrun
      | cons m more =>
        have hsplit := hpast.rest
        rw [hrest, List.cons_append, List.cons.injEq] at hsplit
        rw [hstart, hsplit.1]
        rfl
    · exact absurd (List.append_eq_nil_iff.mp (hpast.rest ▸ hrest)).1 hrun
  · rw [hpast.lastEnd]
    conv => rhs; rw [← List.dropLast_concat_getLast hrun, endOf_append]
    rw [List.getLast?_eq_some_getLast hrun]
    rfl

/-- What a run covers starts with its first lexeme and ends with its last,
if these are two. -/
theorem textOf_spansRun {t : Lexed} {span : Span} {run : List Lexeme} (h : SpansRun t span run)
    {opening closing : LexemeKind} {first last : List Char} (hne : opening ≠ closing)
    (hfirst : run.head?.map Lexeme.kind = some opening)
    (hlast : run.getLast?.map Lexeme.kind = some closing)
    (hopening : IsWritten opening first) (hclosing : IsWritten closing last)
    (hends : opening ≠ .endOfText ∧ closing ≠ .endOfText) :
    ∃ inner, span.textOf t.source = String.ofList first ++ inner ++ String.ofList last := by
  obtain ⟨⟨before, after, hlexemes⟩, hstart, hstop⟩ := h
  cases run with
  | nil => cases hfirst
  | cons l rest =>
    have hkind : l.kind = opening := Option.some.inj hfirst
    have hl : l.span.start = span.start := Option.some.inj hstart
    have hrest : rest ≠ [] := by
      rintro rfl
      exact hne (hkind.symm.trans (Option.some.inj hlast))
    rw [List.getLast?_cons_of_ne_nil hrest, List.getLast?_eq_some_getLast hrest] at hlast hstop
    have hmem : ∀ m ∈ l :: rest, m ∈ t.lexemes := fun m hm => by
      rw [hlexemes]
      exact List.mem_append_right _ (List.mem_append_left _ hm)
    have hlin := hmem l List.mem_cons_self
    have hmin := hmem _ (List.mem_cons_of_mem l (List.getLast_mem hrest))
    have hordered := t.placed.ordered
    rw [hlexemes, List.pairwise_append, List.pairwise_append, List.pairwise_cons] at hordered
    have hle := hordered.2.1.1.1 _ (List.getLast_mem hrest)
    obtain ⟨inner, hcovers⟩ := Span.covers_between (t.placed.covers l hlin)
      (t.placed.covers _ hmin) hle
    have hm : (rest.getLast hrest).span.stop = span.stop := Option.some.inj hstop
    rw [hl, hm, t.placed.written hopening l hlin hkind hends.1,
      t.placed.written hclosing _ hmin (Option.some.inj hlast) hends.2] at hcovers
    refine ⟨String.ofList inner, ?_⟩
    rw [hcovers.textOf, String.ofList_append, String.ofList_append, String.append_assoc]

namespace Parser

variable {t : Lexed}

/-- A span that starts with the next lexeme and ends where something was
gone past. -/
theorem proper_of_past {c c' : Cursor} {run : List Lexeme} (hon : c.On t) (hpast : c.Past run c')
    (hrun : run ≠ []) : Span.Proper ⟨c.start, c'.lastEnd⟩ t.source :=
  Span.proper_of_boundaries (hon.start_lt hpast hrun) hon.start_boundary (hon.past hpast).boundary

/-- Whether a body stands where it should, between two places. -/
def BodyWithin (t : Lexed) (lo hi : Nat) (b : Body) : Prop :=
  b.WellPlaced t ∧ lo ≤ b.span.start ∧ b.span.stop ≤ hi

theorem gives_block (begin reached : Nat) :
    Gives t begin reached (skipBalanced .lbrace .rbrace) fun span e =>
      begin < e ∧ BodyWithin t begin e ⟨.block, span⟩ := by
  intro c c' span hon hbegin _ hok
  obtain ⟨run, hpast, hbalanced, rfl⟩ := past_of_skipBalanced (by decide) (by decide) hok
  have hrun : run ≠ [] := by
    rintro rfl
    have hhead := hbalanced.head
    cases hhead
  have hspans := spansRun_of_past hon hpast hrun
  refine ⟨Nat.lt_of_le_of_lt hbegin (hon.start_lt hpast hrun),
    ⟨proper_of_past hon hpast hrun, ⟨run, hspans, hbalanced⟩, ?_⟩, hbegin, Nat.le_refl _⟩
  exact textOf_spansRun hspans (by decide) hbalanced.head hbalanced.last isWritten_lbrace
    isWritten_rbrace (by decide)

theorem gives_expressionBody (begin reached : Nat) :
    Gives t begin reached expressionBody fun b e => begin < e ∧ BodyWithin t begin e b := by
  intro c c' b hon hbegin _ hok
  unfold expressionBody at hok
  obtain ⟨from_, c₀, hstart, hok⟩ := bind_eq_ok hok
  cases hstart
  obtain ⟨_, d, harrow, hok⟩ := bind_eq_ok hok
  obtain ⟨l, hl, hfirst⟩ := past_of_expect (by decide) harrow
  obtain ⟨_, d', hskip, hok⟩ := bind_eq_ok hok
  obtain ⟨run, hmiddle⟩ := exists_past hskip
  obtain ⟨_, d'', hsemicolon, hok⟩ := bind_eq_ok hok
  obtain ⟨m, hm, hlast⟩ := past_of_expect (by decide) hsemicolon
  cases hok
  have hpast := hfirst.trans (hmiddle.trans hlast)
  have hrun : [l] ++ (run ++ [m]) ≠ [] := List.cons_ne_nil _ _
  refine ⟨Nat.lt_of_le_of_lt hbegin (hon.start_lt hpast hrun),
    ⟨proper_of_past hon hpast hrun, ?_⟩, hbegin, Nat.le_refl _⟩
  refine textOf_spansRun (spansRun_of_past hon hpast hrun) (by decide) (congrArg some hl) ?_
    isWritten_arrow isWritten_semicolon (by decide)
  rw [← List.append_assoc, List.getLast?_concat]
  exact congrArg some hm

/-- A body or the semicolon in its place is gone past, and a body stands
there. -/
theorem gives_body (begin reached : Nat) :
    Gives t begin reached body fun found e =>
      begin < e ∧ ∀ b ∈ found, BodyWithin t begin e b := by
  intro c c' found hon hbegin hreached hok
  unfold body at hok
  obtain ⟨k, d, hkind, hbody⟩ := bind_eq_ok hok
  obtain ⟨hk, rfl⟩ : c.kindAt 0 = k ∧ d = c := by
    cases hkind
    exact ⟨rfl, rfl⟩
  split at hbody
  · cases hbody
    obtain ⟨l, rest, hrest, hl⟩ := Cursor.kindAt_zero hk (by decide)
    have hpast := (Cursor.past_next_of_cons hrest (by rw [hl]; decide)).1
    refine ⟨Nat.lt_of_le_of_lt hbegin (hon.start_lt hpast (List.cons_ne_nil _ _)), ?_⟩
    intro b hb
    cases hb
  · have hblock : Gives t begin reached (do
        return some ⟨.block, ← skipBalanced .lbrace .rbrace⟩ : Parser (Option Body))
        fun found e => begin < e ∧ ∀ b ∈ found, BodyWithin t begin e b := by
      refine (gives_block begin reached).bind fun span e _ hspan => .pure fun e' he => ?_
      refine ⟨by omega, fun b hb => ?_⟩
      cases hb
      exact ⟨hspan.2.1, hspan.2.2.1, Nat.le_trans hspan.2.2.2 he⟩
    exact hblock d c' found hon hbegin hreached hbody
  · have harrow : Gives t begin reached (do return some (← expressionBody) : Parser (Option Body))
        fun found e => begin < e ∧ ∀ b ∈ found, BodyWithin t begin e b := by
      refine (gives_expressionBody begin reached).bind fun b e _ hb => .pure fun e' he => ?_
      refine ⟨by omega, fun b' hb' => ?_⟩
      cases hb'
      exact ⟨hb.2.1, hb.2.2.1, Nat.le_trans hb.2.2.2 he⟩
    exact harrow d c' found hon hbegin hreached hbody
  · exact absurd hbody (missing_ne_ok _ _ _)

-- =========================================================== accessors

theorem gives_accessor (begin reached : Nat) :
    Gives t begin reached accessor fun turn e =>
      turn.Within Accessor.span (Accessor.WellPlaced t) reached e := by
  unfold accessor
  refine .after fun _ => .after fun closes => .ite (.pure fun _ _ => trivial) ?_
  refine .after fun ends => .ite (.missing _) (.start fun from_ _ hfrom hboundary => ?_)
  refine .after fun mods => .after fun spelling => .after fun k => ?_
  dsimp only
  split
  · exact .fail _ _
  · refine .after fun _ => (gives_body from_ reached).bind fun found e _ hfound => ?_
    refine (Gives.spanFrom from_).bind fun span e' he hspan => .pure fun e'' he' => ?_
    obtain ⟨rfl, hstop⟩ := hspan
    refine ⟨⟨Span.proper_of_boundaries (Nat.lt_of_lt_of_le hfound.1 he) hboundary hstop, ?_⟩,
      hfrom, he'⟩
    intro b hb
    obtain ⟨hplaced, hlo, hhi⟩ := hfound.2 b hb
    exact ⟨hplaced, hlo, Nat.le_trans hhi he⟩

/-- Accessors or an expression body between two places. -/
structure PartsWithin (t : Lexed) (lo hi : Nat) (parts : List Accessor × Option Body) : Prop where
  accessors : ∀ a ∈ parts.1, a.WellPlaced t
  inRow : InRow Accessor.span lo hi parts.1
  body : ∀ b ∈ parts.2, BodyWithin t lo hi b

theorem gives_accessors (begin reached : Nat) :
    Gives t begin reached accessors fun as e =>
      begin < e ∧ (∀ a ∈ as, a.WellPlaced t) ∧ InRow Accessor.span begin e as := by
  unfold accessors
  refine (Moves.expect (by decide) begin reached).bind fun _ e _ hlt => ?_
  refine (gives_collect (gives_accessor begin) e).mono fun as e' he has => ?_
  exact ⟨by omega, has.1, has.2.mono (by omega) (Nat.le_refl _)⟩

theorem gives_accessorsOrExpression (begin reached : Nat) :
    Gives t begin reached accessorsOrExpression fun parts e =>
      begin < e ∧ PartsWithin t begin e parts := by
  unfold accessorsOrExpression
  refine .after fun arrow => .ite ?_ ?_
  · refine (gives_expressionBody begin reached).bind fun b e _ hb => .pure fun e' he => ?_
    refine ⟨by omega, fun a ha => (List.not_mem_nil ha).elim, .nil, fun b' hb' => ?_⟩
    cases hb'
    exact ⟨hb.2.1, hb.2.2.1, Nat.le_trans hb.2.2.2 he⟩
  · refine (gives_accessors begin reached).bind fun as e _ has => .pure fun e' he => ?_
    exact ⟨by omega, has.2.1, has.2.2.mono (Nat.le_refl _) he, nofun⟩

-- ============================================================= members

/-- Whether a member starts at a given place, ends up to another and
stands where it should. -/
def MemberFrom (t : Lexed) (from_ : Nat) (m : Member) (e : Nat) : Prop :=
  m.WellPlaced t ∧ m.span.start = from_ ∧ m.span.stop ≤ e

theorem wellPlaced_of_not_type {m : Member} (h : ∀ decl, m ≠ .type decl) :
    m.WellPlaced t ↔ m.span.Proper t.source ∧ m.PartsPlaced t m.span.start m.span.stop := by
  cases m with
  | type decl => exact absurd rfl (h decl)
  | field _ | constructor _ | destructor _ | method _ | property _ | indexer _ | event _
  | operator _ =>
    rw [Member.WellPlaced]
    exact h

/-- A member that is no type, once its parts are read. -/
theorem gives_parts {from_ reached : Nat} {make : Span → Member} (hfrom : IsBoundary t.source from_)
    (hmoved : from_ < reached) (hspan : ∀ span, (make span).span = span)
    (htype : ∀ span decl, make span ≠ .type decl)
    (hparts : ∀ span, (make span).PartsPlaced t from_ reached) :
    Gives t from_ reached (do return make (← spanFrom from_)) (MemberFrom t from_) := by
  refine (Gives.spanFrom from_).bind fun span e he hfound => .pure fun e' he' => ?_
  obtain ⟨rfl, hstop⟩ := hfound
  have hplaced := hparts ⟨from_, e⟩
  have hlt : from_ < e := Nat.lt_of_lt_of_le hmoved he
  refine ⟨(wellPlaced_of_not_type (htype _)).mpr ?_, by rw [hspan], by rw [hspan]; exact he'⟩
  rw [hspan]
  refine ⟨Span.proper_of_boundaries hlt hfrom hstop, fun b hb => ?_, hplaced.accessors,
    hplaced.inRow.mono (Nat.le_refl _) he⟩
  obtain ⟨hb, hlo, hhi⟩ := hplaced.body b hb
  exact ⟨hb, hlo, Nat.le_trans hhi he⟩

/-- Parts of a member without accessors. -/
theorem partsPlaced_of_body {lo hi : Nat} {m : Member} (haccessors : m.accessors = [])
    (h : ∀ b ∈ m.body?, BodyWithin t lo hi b) : m.PartsPlaced t lo hi where
  body := h
  accessors a ha := by
    rw [haccessors] at ha
    exact (List.not_mem_nil ha).elim
  inRow := by
    rw [haccessors]
    exact .nil

/-- Parts of a member that are accessors or an expression body. -/
theorem partsPlaced_of_parts {lo hi : Nat} {parts : List Accessor × Option Body} {m : Member}
    (h : PartsWithin t lo hi parts) (haccessors : m.accessors = parts.1)
    (hbody : m.body? = parts.2) : m.PartsPlaced t lo hi where
  body := hbody ▸ h.body
  accessors := haccessors ▸ h.accessors
  inRow := haccessors ▸ h.inRow

section Members

variable {from_ reached : Nat} (mods : Modifiers) (type : TypeExpr)

theorem gives_constructor (hfrom : IsBoundary t.source from_) :
    Gives t from_ reached (constructor from_ mods) (MemberFrom t from_) := by
  unfold constructor
  refine .after fun name => .after fun params => .after fun target => ?_
  refine (gives_body from_ reached).bind fun found e _ h => ?_
  exact gives_parts hfrom h.1 (fun _ => rfl) (fun _ _ => nofun) fun _ => partsPlaced_of_body rfl h.2

theorem gives_destructor (hfrom : IsBoundary t.source from_) :
    Gives t from_ reached (destructor from_) (MemberFrom t from_) := by
  unfold destructor
  refine .after fun _ => .after fun name => .after fun _ => .after fun _ => ?_
  refine (gives_body from_ reached).bind fun found e _ h => ?_
  exact gives_parts hfrom h.1 (fun _ => rfl) (fun _ _ => nofun) fun _ => partsPlaced_of_body rfl h.2

theorem gives_operatorAfter (hfrom : IsBoundary t.source from_) (kind : OperatorKind) :
    Gives t from_ reached (operatorAfter from_ mods kind type) (MemberFrom t from_) := by
  unfold operatorAfter
  refine .after fun params => (gives_body from_ reached).bind fun found e _ h => ?_
  exact gives_parts hfrom h.1 (fun _ => rfl) (fun _ _ => nofun) fun _ => partsPlaced_of_body rfl h.2

theorem gives_conversion (hfrom : IsBoundary t.source from_) (kind : OperatorKind) :
    Gives t from_ reached (conversion from_ mods kind) (MemberFrom t from_) := by
  unfold conversion
  exact .after fun _ => .after fun _ => .after fun type => gives_operatorAfter mods type hfrom kind

theorem gives_indexerAfter (hfrom : IsBoundary t.source from_) (interface : Option TypeExpr) :
    Gives t from_ reached (indexerAfter from_ mods type interface) (MemberFrom t from_) := by
  unfold indexerAfter
  refine .after fun _ => .after fun params => ?_
  refine (gives_accessorsOrExpression from_ reached).bind fun parts e _ h => ?_
  exact gives_parts hfrom h.1 (fun _ => rfl) (fun _ _ => nofun) fun _ =>
    partsPlaced_of_parts h.2 rfl rfl

theorem moves_eventSegment : Moves t eventSegment := by
  unfold eventSegment
  exact Moves.identifier.bind

theorem gives_event (hfrom : IsBoundary t.source from_) :
    Gives t from_ reached (event from_ mods) (MemberFrom t from_) := by
  have hnames : Moves t (collect do
      let name ← eventSegment
      if ← eat .dot then return .item name else return .last name : Parser (List String)) :=
    .collect moves_eventSegment.bind
  unfold event
  refine .after fun _ => .after fun type => (hnames from_ reached).bind fun names e _ hlt => ?_
  refine .after fun braces => .ite ?_ ?_
  · refine (gives_accessors from_ e).bind fun as e' _ h => ?_
    exact gives_parts hfrom h.1 (fun _ => rfl) (fun _ _ => nofun) fun _ =>
      ⟨nofun, h.2.1, h.2.2⟩
  · refine .after fun vars => ?_
    exact gives_parts hfrom hlt (fun _ => rfl) (fun _ _ => nofun) fun _ =>
      partsPlaced_of_body rfl nofun

theorem gives_methodAfter (hfrom : IsBoundary t.source from_) (interface : Option TypeExpr)
    (segment : NameSegment) :
    Gives t from_ reached (methodAfter from_ mods type interface segment) (MemberFrom t from_) := by
  unfold methodAfter
  split
  · exact .fail _ _
  · refine .after fun params => .after fun _ => ?_
    refine (gives_body from_ reached).bind fun found e _ h => ?_
    exact gives_parts hfrom h.1 (fun _ => rfl) (fun _ _ h => by cases h) fun _ =>
      partsPlaced_of_body rfl h.2

theorem gives_propertyAfter (hfrom : IsBoundary t.source from_) (interface : Option TypeExpr)
    (name : String) :
    Gives t from_ reached (propertyAfter from_ mods type interface name) (MemberFrom t from_) := by
  have hdone : ∀ {parts : List Accessor × Option Body} {e : Nat}, from_ < e →
      PartsWithin t from_ e parts → ∀ hasInitializer, Gives t from_ e (do
        return .property ⟨mods, type, interface, name, parts.1, parts.2, hasInitializer,
          ← spanFrom from_⟩) (MemberFrom t from_) := by
    intro parts e hlt h hasInitializer
    exact gives_parts hfrom hlt (fun _ => rfl) (fun _ _ => nofun) fun _ =>
      partsPlaced_of_parts h rfl rfl
  unfold propertyAfter
  dsimp only
  refine (gives_accessorsOrExpression from_ reached).bind fun parts e _ h => ?_
  split
  · refine .after fun assigned => .ite ?_ (hdone h.1 h.2 _)
    exact .after fun _ => .after fun _ => hdone h.1 h.2 _
  · refine .after fun assigned => .ite ?_ (hdone h.1 h.2 _)
    exact .after fun _ => .after fun _ => hdone h.1 h.2 _

theorem gives_fieldAfter (hfrom : IsBoundary t.source from_) (hmoved : from_ < reached)
    (name : String) :
    Gives t from_ reached (fieldAfter from_ mods type name) (MemberFrom t from_) := by
  unfold fieldAfter
  refine .after fun vars => ?_
  exact gives_parts hfrom hmoved (fun _ => rfl) (fun _ _ => nofun) fun _ =>
    partsPlaced_of_body rfl nofun

theorem gives_namedMember (hfrom : IsBoundary t.source from_) (hmoved : from_ < reached)
    (segments : List NameSegment) :
    Gives t from_ reached (namedMember from_ mods type segments) (MemberFrom t from_) := by
  unfold namedMember
  dsimp only
  refine .after fun k => ?_
  split
  · exact gives_methodAfter mods type hfrom _ _
  · exact gives_propertyAfter mods type hfrom _ _
  · exact gives_propertyAfter mods type hfrom _ _
  · exact .ite (gives_fieldAfter mods type hfrom hmoved _) (.missing _)
  · exact .ite (gives_fieldAfter mods type hfrom hmoved _) (.missing _)
  · exact .ite (gives_fieldAfter mods type hfrom hmoved _) (.missing _)
  · exact .ite (gives_fieldAfter mods type hfrom hmoved _) (.missing _)
  · exact .missing _

theorem moves_memberSegments : Moves t memberSegments := by
  unfold memberSegments nameSegment
  exact .collect (Moves.identifier.bind.bind)

theorem gives_typedMember (hfrom : IsBoundary t.source from_) :
    Gives t from_ reached (typedMember from_ mods type) (MemberFrom t from_) := by
  unfold typedMember
  refine .after fun isOperator => .ite ?_ (.after fun isIndexer => .ite ?_ ?_)
  · unfold symbolOperator
    exact .after fun c => .after fun _ => gives_operatorAfter mods type hfrom _
  · exact gives_indexerAfter mods type hfrom none
  · refine (moves_memberSegments from_ reached).bind fun segments e _ hlt => ?_
    refine .after fun _ => .after fun _ => .ite ?_ (gives_namedMember mods type hfrom hlt segments)
    exact .after fun _ => gives_indexerAfter mods type hfrom _

theorem gives_plainMember (hfrom : IsBoundary t.source from_) :
    Gives t from_ reached (plainMember from_ mods) (MemberFrom t from_) := by
  unfold plainMember
  refine .after fun k => ?_
  split
  · exact gives_destructor hfrom
  · exact gives_event mods hfrom
  · exact gives_conversion mods hfrom _
  · exact gives_conversion mods hfrom _
  · refine .after fun next => .ite (gives_constructor mods hfrom) ?_
    exact .after fun type => gives_typedMember mods type hfrom
  · exact .after fun type => gives_typedMember mods type hfrom
  · exact .after fun type => gives_typedMember mods type hfrom
  · exact .after fun _ => .fail _ _

-- =============================================================== types

/-- Whether a type starts at a given place, ends up to another and stands
where it should. -/
def TypeFrom (t : Lexed) (from_ : Nat) (decl : TypeDecl) (e : Nat) : Prop :=
  decl.WellPlaced t ∧ decl.span.start = from_ ∧ decl.span.stop ≤ e

/-- A type, once its members are read. -/
theorem gives_type (hfrom : IsBoundary t.source from_) (hmoved : from_ < reached)
    {kind : TypeKind} {name : String} {typeParams enumerators : List String} {bases : List TypeExpr}
    {members : List Member} {delegate : Option DelegateSignature}
    (hmembers : (∀ m ∈ members, m.WellPlaced t)
      ∧ InRow Member.span (from_ + 1) reached members) :
    Gives t from_ reached (do
      return ⟨kind, name, typeParams, mods, bases, members, enumerators, delegate,
        ← spanFrom from_⟩) (TypeFrom t from_) := by
  refine (Gives.spanFrom from_).bind fun span e he hfound => .pure fun e' he' => ?_
  obtain ⟨rfl, hstop⟩ := hfound
  have hlt : from_ < e := Nat.lt_of_lt_of_le hmoved he
  refine ⟨?_, rfl, he'⟩
  rw [TypeDecl.WellPlaced, allWellPlaced_iff]
  exact ⟨Span.proper_of_boundaries hlt hfrom hstop, hmembers.2.mono (Nat.le_refl _) he, hmembers.1⟩

theorem gives_delegateAfter (hfrom : IsBoundary t.source from_) :
    Gives t from_ reached (delegateAfter from_ mods) (TypeFrom t from_) := by
  unfold delegateAfter
  refine .after fun returnType => (Moves.identifier from_ reached).bind fun name e _ hlt => ?_
  refine .after fun typeParams => .after fun params => .after fun _ => .after fun _ => ?_
  exact gives_type mods hfrom hlt ⟨nofun, .nil⟩

theorem gives_enumAfter (hfrom : IsBoundary t.source from_) :
    Gives t from_ reached (enumAfter from_ mods) (TypeFrom t from_) := by
  unfold enumAfter
  dsimp only
  refine (Moves.identifier from_ reached).bind fun name e _ hlt => .after fun derived => ?_
  have hdone : ∀ bases, Gives t from_ e (do
      let names ← enumerators
      let _ ← eat .semicolon
      return ⟨.enumType, name, [], mods, bases, [], names, none, ← spanFrom from_⟩)
      (TypeFrom t from_) := fun bases =>
    .after fun names => .after fun _ => gives_type mods hfrom hlt ⟨nofun, .nil⟩
  exact .ite (.after fun base => .after fun bases => hdone bases) (.after fun bases => hdone bases)

/-- Whether a parser gives members that it goes past, and that stand where
they should. -/
def GivesMembers (t : Lexed) (member : Parser Member) : Prop :=
  ∀ begin reached, Gives t begin reached member fun m e =>
    m.WellPlaced t ∧ reached ≤ m.span.start ∧ m.span.stop ≤ e

variable {member : Parser Member} [Advances member] (kind : TypeKind)

theorem gives_classAfter (h : GivesMembers t member) (hfrom : IsBoundary t.source from_) :
    Gives t from_ reached (classAfter member from_ mods kind) (TypeFrom t from_) := by
  have hturn : ∀ begin reached, Gives t begin reached (do
      if ← atKind .rbrace then
        return .done
      else if ← atKind .endOfText then
        missing .rbrace
      else
        return .item (← member) : Parser (Turn Member)) fun turn e =>
        turn.Within Member.span (Member.WellPlaced t) reached e := by
    intro begin reached
    refine .after fun closes => .ite (.pure fun _ _ => trivial) ?_
    refine .after fun ends => .ite (.missing _) ?_
    refine (h begin reached).bind fun m e _ hm => .pure fun e' he => ?_
    exact ⟨hm.1, hm.2.1, Nat.le_trans hm.2.2 he⟩
  unfold classAfter
  dsimp only
  refine (Moves.identifier from_ reached).bind fun name e _ hlt => ?_
  have hdone : ∀ (typeParams : List String) (bases : List TypeExpr), Gives t from_ e (do
      skipConstraints
      expect .lbrace
      let members ← collect do
        if ← atKind .rbrace then
          return .done
        else if ← atKind .endOfText then
          missing .rbrace
        else
          return .item (← member)
      expect .rbrace
      let _ ← eat .semicolon
      return ⟨kind, name, typeParams, mods, bases, members, [], none, ← spanFrom from_⟩)
      (TypeFrom t from_) := by
    intro typeParams bases
    refine .after fun _ => .after fun _ => ?_
    refine (gives_collect (hturn from_) e).bind fun members e' he hmembers => ?_
    refine .after fun _ => .after fun _ => gives_type mods hfrom (by omega) ⟨hmembers.1, ?_⟩
    exact hmembers.2.mono hlt (Nat.le_refl _)
  refine .after fun typeParams => .after fun derived => .ite ?_ ?_
  · exact .after fun bases => hdone typeParams bases
  · exact .after fun bases => hdone typeParams bases

theorem gives_typeDeclOf (h : GivesMembers t member) (hfrom : IsBoundary t.source from_) :
    Gives t from_ reached (typeDeclOf member from_ mods kind) (TypeFrom t from_) := by
  unfold typeDeclOf
  refine .after fun _ => ?_
  cases kind with
  | delegateType => exact gives_delegateAfter mods hfrom
  | enumType => exact gives_enumAfter mods hfrom
  | classType | structType | interfaceType => exact gives_classAfter mods _ h hfrom

end Members

theorem givesMembers_memberWithin (bound : Nat) : GivesMembers t (memberWithin bound) := by
  induction bound with
  | zero =>
    unfold memberWithin
    exact fun _ _ => .exhausted
  | succ bound ih =>
    intro begin reached
    unfold memberWithin
    refine .after fun _ => .start fun from_ _ hreached hfrom => ?_
    refine .after fun mods => .after fun k => ?_
    split
    · refine (gives_typeDeclOf mods _ ih hfrom).bind fun decl e _ hdecl => .pure fun e' he => ?_
      rw [Member.WellPlaced]
      exact ⟨hdecl.1, Nat.le_trans hreached (Nat.le_of_eq hdecl.2.1.symm),
        Nat.le_trans hdecl.2.2 he⟩
    · refine (gives_plainMember mods hfrom).mono fun m e _ hm => ?_
      exact ⟨hm.1, Nat.le_trans hreached (Nat.le_of_eq hm.2.1.symm), hm.2.2⟩

-- =============================================================== files

theorem gives_declaration (begin reached : Nat) :
    Gives t begin reached namespaceMember.declaration fun turn e =>
      turn.Within NamespaceMember.span (NamespaceMember.WellPlaced t) reached e := by
  unfold namespaceMember.declaration typeDecl
  refine .start fun from_ _ hreached hfrom => .after fun mods => .after fun k => ?_
  split
  · refine Gives.bind (P := TypeFrom t from_) (.after fun c => ?_) fun decl e _ hdecl =>
      .pure fun e' he => ?_
    · exact gives_typeDeclOf mods _ (givesMembers_memberWithin _) hfrom
    · refine ⟨?_, Nat.le_trans hreached (Nat.le_of_eq hdecl.2.1.symm), Nat.le_trans hdecl.2.2 he⟩
      rw [NamespaceMember.WellPlaced]
      exact hdecl.1
  · exact .fail _ _

theorem moves_qualifiedName : Moves t qualifiedName := by
  unfold qualifiedName
  exact (Moves.collect Moves.identifier.bind).bind

/-- Whether a parser gives members of a namespace that it goes past, and
that stand where they should. -/
def GivesSpace (t : Lexed) (members : Parser (List NamespaceMember)) : Prop :=
  ∀ begin reached, Gives t begin reached members fun ms e =>
    (∀ m ∈ ms, m.WellPlaced t) ∧ InRow NamespaceMember.span reached e ms

/-- A namespace, once its members are read. -/
theorem gives_space {from_ reached e₀ e : Nat} {name : String} {fileScoped : Bool}
    {usings : List Using} {members : List NamespaceMember}
    {make : NamespaceMember → Turn NamespaceMember}
    (hmake : make = .item ∨ make = .last) (hreached : reached ≤ from_)
    (hfrom : IsBoundary t.source from_) (hlt : from_ < e₀) (he : e₀ ≤ e)
    (h : (∀ m ∈ members, m.WellPlaced t) ∧ InRow NamespaceMember.span e₀ e members) :
    Gives t from_ e (do
      return make (.space ⟨name, fileScoped, usings, members, ← spanFrom from_⟩)) fun turn e =>
      turn.Within NamespaceMember.span (NamespaceMember.WellPlaced t) reached e := by
  refine (Gives.spanFrom from_).bind fun span e' he' hfound => .pure fun e'' he'' => ?_
  obtain ⟨rfl, hstop⟩ := hfound
  have hproper : Span.Proper ⟨from_, e'⟩ t.source :=
    Span.proper_of_boundaries (by show from_ < e'; omega) hfrom hstop
  have hplaced : (NamespaceMember.space ⟨name, fileScoped, usings, members, ⟨from_, e'⟩⟩).WellPlaced
      t := by
    rw [NamespaceMember.WellPlaced, spaceWellPlaced_iff]
    exact ⟨hproper, h.2.mono hlt he', h.1⟩
  rcases hmake with rfl | rfl
  · exact ⟨hplaced, hreached, he''⟩
  · exact ⟨hplaced, hreached, he''⟩

theorem gives_namespaceMember {members : Bool → Parser (List NamespaceMember)}
    [∀ inBlock, Advances (members inBlock)] (h : ∀ inBlock, GivesSpace t (members inBlock))
    (inBlock : Bool) (begin reached : Nat) :
    Gives t begin reached (namespaceMember members inBlock) fun turn e =>
      turn.Within NamespaceMember.span (NamespaceMember.WellPlaced t) reached e := by
  unfold namespaceMember
  refine .after fun _ => .after fun k => ?_
  split
  · exact .ite (.missing _) (.pure fun _ _ => trivial)
  · exact .ite (.pure fun _ _ => trivial) (gives_declaration begin reached)
  · refine .start fun from_ _ hreached hfrom => .after fun _ => ?_
    refine (moves_qualifiedName from_ reached).bind fun name e₀ _ hlt => ?_
    refine .after fun fileScoped => .ite ?_ ?_
    · refine .after fun usings => (h inBlock from_ e₀).bind fun inner e he hinner => ?_
      exact gives_space (.inr rfl) hreached hfrom hlt he hinner
    · refine .after fun _ => .after fun usings => (h true from_ e₀).bind fun inner e he hinner => ?_
      refine .after fun _ => .after fun _ => ?_
      exact gives_space (.inl rfl) hreached hfrom hlt he hinner
  · exact gives_declaration begin reached

theorem givesSpace_namespaceMembersWithin (bound : Nat) :
    ∀ inBlock, GivesSpace t (namespaceMembersWithin bound inBlock) := by
  induction bound with
  | zero =>
    unfold namespaceMembersWithin
    exact fun _ _ _ => .exhausted
  | succ bound ih =>
    intro inBlock begin reached
    unfold namespaceMembersWithin
    exact gives_collect (gives_namespaceMember ih inBlock begin) reached

theorem gives_compilationUnit (begin reached : Nat) :
    Gives t begin reached compilationUnit fun unit e =>
      (∀ m ∈ unit.members, m.WellPlaced t) ∧ InRow NamespaceMember.span reached e unit.members := by
  unfold compilationUnit namespaceMembers
  refine .after fun aliases => .after fun usings => ?_
  refine Gives.bind (.after fun c => givesSpace_namespaceMembersWithin _ false begin reached)
    fun members e _ hmembers => .pure fun e' he => ?_
  exact ⟨hmembers.1, hmembers.2.mono (Nat.le_refl _) he⟩

end Parser

-- ============================================================= listing

mutual

/-- A declaration, then those inside it. -/
def inOrder : Declaration → List Declaration
  | ⟨kind, span, children⟩ => ⟨kind, span, children⟩ :: allInOrder children

/-- Declarations, each before those inside it. -/
def allInOrder : List Declaration → List Declaration
  | [] => []
  | d :: rest => inOrder d ++ allInOrder rest

end

/-- Where the declarations of a forest start, each before those inside
it. -/
def starts (ds : List Declaration) : List Nat := (allInOrder ds).map fun d => d.span.start

theorem starts_append (ds es : List Declaration) : starts (ds ++ es) = starts ds ++ starts es := by
  unfold starts
  induction ds with
  | nil => rfl
  | cons d rest ih =>
    rw [List.cons_append, allInOrder, allInOrder, List.map_append, ih, List.map_append,
      List.append_assoc]

theorem starts_singleton (kind : Declaration.Kind) (span : Span) (children : List Declaration) :
    starts [⟨kind, span, children⟩] = span.start :: starts children := by
  unfold starts
  rw [allInOrder, allInOrder, inOrder, List.append_nil, List.map_cons]

theorem starts_leaves (make : α → Declaration) (span : α → Span)
    (h : ∀ a, make a = Declaration.leaf (make a).kind (span a)) (items : List α) :
    starts (items.map make) = items.map fun a => (span a).start := by
  induction items with
  | nil => rfl
  | cons a rest ih =>
    rw [List.map_cons, List.map_cons, ← ih, ← List.singleton_append, starts_append, h a]
    exact congrArg (· ++ _) (starts_singleton _ (span a) [])

/-- Places that lie further and further on, between two places. -/
structure Rising (lo hi : Nat) (places : List Nat) : Prop where
  inside : ∀ n ∈ places, lo ≤ n ∧ n < hi
  ordered : places.Pairwise (· < ·)

namespace Rising

variable {lo lo' mid hi hi' n : Nat} {places more : List Nat}

theorem nil : Rising lo hi [] := ⟨nofun, .nil⟩

theorem mono (h : Rising lo hi places) (hlo : lo' ≤ lo) (hhi : hi ≤ hi') :
    Rising lo' hi' places where
  inside n hn := ⟨Nat.le_trans hlo (h.inside n hn).1, Nat.lt_of_lt_of_le (h.inside n hn).2 hhi⟩
  ordered := h.ordered

theorem append (h : Rising lo mid places) (hmore : Rising mid hi more) (hlo : lo ≤ mid)
    (hhi : mid ≤ hi) : Rising lo hi (places ++ more) where
  inside n hn := (List.mem_append.mp hn).elim ((h.mono (Nat.le_refl _) hhi).inside n)
    ((hmore.mono hlo (Nat.le_refl _)).inside n)
  ordered := List.pairwise_append.mpr ⟨h.ordered, hmore.ordered, fun m hm n hn =>
    Nat.lt_of_lt_of_le (h.inside m hm).2 (hmore.inside n hn).1⟩

theorem cons (h : Rising (n + 1) hi places) (hn : n < hi) : Rising n hi (n :: places) where
  inside := by
    rw [List.forall_mem_cons]
    exact ⟨⟨Nat.le_refl _, hn⟩, (h.mono (Nat.le_succ n) (Nat.le_refl _)).inside⟩
  ordered := List.Pairwise.cons (fun m hm => (h.inside m hm).1) h.ordered

/-- Spans in a row start further and further on. -/
theorem of_inRow {span : α → Span} {items : List α} (h : Parser.InRow span lo hi items)
    (hspans : ∀ a ∈ items, (span a).start < (span a).stop) :
    Rising lo hi (items.map fun a => (span a).start) where
  inside n hn := by
    obtain ⟨a, ha, rfl⟩ := List.mem_map.mp hn
    have hinside := h.inside a ha
    exact ⟨hinside.1, Nat.lt_of_lt_of_le (hspans a ha) hinside.2⟩
  ordered := by
    rw [List.pairwise_map]
    refine h.ordered.imp_of_mem fun {a b} ha _ hab => ?_
    exact Nat.lt_of_lt_of_le (hspans a ha) hab

end Rising

section Listing

variable {t : Lexed}

theorem TypeDecl.WellPlaced.proper {decl : TypeDecl} (h : decl.WellPlaced t) :
    decl.span.Proper t.source := by
  cases decl
  rw [TypeDecl.WellPlaced] at h
  exact h.1

theorem Member.WellPlaced.proper {m : Member} (h : m.WellPlaced t) : m.span.Proper t.source := by
  cases m with
  | type decl =>
    rw [Member.WellPlaced] at h
    exact h.proper
  | field _ | constructor _ | destructor _ | method _ | property _ | indexer _ | event _
  | operator _ => exact ((Parser.wellPlaced_of_not_type (by simp)).mp h).1

theorem NamespaceMember.WellPlaced.proper {m : NamespaceMember} (h : m.WellPlaced t) :
    m.span.Proper t.source := by
  cases m with
  | space decl =>
    cases decl
    rw [NamespaceMember.WellPlaced] at h
    exact h.1
  | type decl =>
    rw [NamespaceMember.WellPlaced] at h
    exact h.proper

/-- One declaration that starts where its span does. -/
theorem rising_leaf {span : Span} (h : span.Proper t.source) (kind : Declaration.Kind) :
    Rising span.start span.stop (starts [Declaration.leaf kind span]) := by
  rw [Declaration.leaf, starts_singleton]
  exact Rising.nil.cons h.nonempty

/-- The accessors that are listed, or the expression body in their
place. -/
theorem rising_ofAccessors {span : Span} {accessors : List Accessor} (h : span.Proper t.source)
    (hplaced : ∀ a ∈ accessors, a.WellPlaced t)
    (hrow : Parser.InRow Accessor.span span.start span.stop accessors) (name : String)
    (interface : Option TypeExpr) (indexCount : Nat) (body : Option Body) :
    Rising span.start span.stop
      (starts (Declaration.ofAccessors name interface indexCount accessors body span)) := by
  unfold Declaration.ofAccessors
  dsimp only
  split
  · exact rising_leaf h _
  · rw [starts_leaves _ Accessor.span fun _ => rfl]
    refine .of_inRow (hrow.sublist List.filter_sublist) fun a ha => ?_
    exact (hplaced a (List.mem_filter.mp ha).1).1.nonempty

mutual

theorem rising_ofType : ∀ (decl : TypeDecl) (space : String), decl.WellPlaced t →
    Rising decl.span.start decl.span.stop (starts (Declaration.ofType space decl))
  | ⟨kind, name, typeParams, _, _, members, _, _, span⟩, space, h => by
    rw [TypeDecl.WellPlaced] at h
    obtain ⟨hproper, hrow, hmembers⟩ := h
    have hlt : span.start < span.stop := hproper.nonempty
    rw [Declaration.ofType]
    by_cases hlisted : Declaration.isListedKind kind = true
    · rw [if_pos hlisted, starts_singleton]
      exact (rising_ofMembers members hlt hrow hmembers).cons hlt
    · rw [if_neg hlisted]
      exact .nil

theorem rising_ofMembers : ∀ (members : List Member) {lo hi : Nat}, lo ≤ hi →
    Parser.InRow Member.span lo hi members → AllWellPlaced t members →
    Rising lo hi (starts (Declaration.ofMembers members))
  | [], _, _, _, _, _ => .nil
  | m :: rest, lo, hi, hle, hrow, h => by
    rw [AllWellPlaced] at h
    have hinside := hrow.inside m List.mem_cons_self
    have hlt := h.1.proper.nonempty
    rw [Declaration.ofMembers, starts_append]
    exact ((rising_ofMember m h.1).mono hinside.1 (Nat.le_refl _)).append
      (rising_ofMembers rest hinside.2 hrow.tail h.2) (by omega) hinside.2

theorem rising_ofMember : ∀ m : Member, m.WellPlaced t →
    Rising m.span.start m.span.stop (starts (Declaration.ofMember m))
  | .type decl, h => by
    rw [Member.WellPlaced] at h
    rw [Declaration.ofMember]
    exact rising_ofType decl "" h
  | .constructor c, h => by
    rw [Declaration.ofMember]
    exact rising_leaf h.proper _
  | .method m, h => by
    rw [Declaration.ofMember, Declaration.ofMethod]
    by_cases hpart : Declaration.isPartialPart m = true
    · rw [if_pos hpart]
      exact .nil
    · rw [if_neg hpart]
      exact rising_leaf h.proper _
  | .property p, h => by
    obtain ⟨hproper, hparts⟩ := (Parser.wellPlaced_of_not_type (by simp)).mp h
    rw [Declaration.ofMember]
    exact rising_ofAccessors hproper hparts.accessors hparts.inRow _ _ _ _
  | .indexer i, h => by
    obtain ⟨hproper, hparts⟩ := (Parser.wellPlaced_of_not_type (by simp)).mp h
    rw [Declaration.ofMember]
    exact rising_ofAccessors hproper hparts.accessors hparts.inRow _ _ _ _
  | .field _, _ | .destructor _, _ | .event _, _ | .operator _, _ => by
    rw [Declaration.ofMember]
    exact .nil

end

mutual

theorem rising_ofSpaceMember : ∀ (m : NamespaceMember) (space : String), m.WellPlaced t →
    Rising m.span.start m.span.stop (starts (Declaration.ofSpaceMember space m))
  | .space ⟨name, _, _, members, span⟩, space, h => by
    rw [NamespaceMember.WellPlaced] at h
    obtain ⟨hproper, hrow, hmembers⟩ := h
    have hlt : span.start < span.stop := hproper.nonempty
    rw [Declaration.ofSpaceMember]
    exact (rising_ofSpaceMembers members _ hlt hrow hmembers).mono (Nat.le_succ _) (Nat.le_refl _)
  | .type decl, space, h => by
    rw [NamespaceMember.WellPlaced] at h
    rw [Declaration.ofSpaceMember]
    exact rising_ofType decl space h

theorem rising_ofSpaceMembers : ∀ (members : List NamespaceMember) (space : String) {lo hi : Nat},
    lo ≤ hi → Parser.InRow NamespaceMember.span lo hi members → SpaceWellPlaced t members →
    Rising lo hi (starts (Declaration.ofSpaceMembers space members))
  | [], _, _, _, _, _, _ => .nil
  | m :: rest, space, lo, hi, hle, hrow, h => by
    rw [SpaceWellPlaced] at h
    have hinside := hrow.inside m List.mem_cons_self
    have hlt := h.1.proper.nonempty
    rw [Declaration.ofSpaceMembers, starts_append]
    exact ((rising_ofSpaceMember m space h.1).mono hinside.1 (Nat.le_refl _)).append
      (rising_ofSpaceMembers rest space hinside.2 hrow.tail h.2) (by omega) hinside.2

end

end Listing

-- ======================================================== a whole file

/-- In a file that the parser accepts, everything stands where it should,
and the declarations that can be listed start further and further on. -/
theorem wellPlaced_of_parse {source : String} {tree : Tree}
    (h : (Run.outcome (Tree.parse source)).1 = .ok tree) :
    ∃ t : Lexed, t.source = source ∧ lexemes source = .ok t.lexemes ∧ tree.source = source
      ∧ tree.root.WellPlaced t ∧ (starts (Declaration.forest tree.root)).Pairwise (· < ·) := by
  obtain ⟨ls, c, hlexemes, hsource, hparsed⟩ := exists_cursor_of_parse h
  let t : Lexed := ⟨source, ls, placed_of_lexemes hlexemes⟩
  have hon : (Cursor.top source ls).On t := Cursor.on_top t
  obtain ⟨run, hpast⟩ := Parser.exists_past hparsed
  obtain ⟨hmembers, hrow⟩ := Parser.gives_compilationUnit 0 0 _ _ _ hon (Nat.zero_le _)
    (Nat.le_refl _) hparsed
  have hplaced : tree.root.WellPlaced t :=
    ⟨hrow.mono (Nat.le_refl _) (hon.past hpast).boundary.le, spaceWellPlaced_iff.mpr hmembers⟩
  exact ⟨t, rfl, hlexemes, hsource, hplaced,
    (rising_ofSpaceMembers _ "" (Nat.zero_le _) hplaced.1 hplaced.2).ordered⟩

/-- A file with a namespace, nested types, accessors and both kinds of
bodies, in a text that is not ASCII. -/
def placedSource : String :=
  "namespace N.M \x7b class \u00c4<T> \x7b int P \x7b get \x7b return 1; \x7d set; \x7d\n"
    ++ "[A] public int Q => F(\x7b \x7d); // \u20ac\n struct S \x7b \u00c4() \x7b \x7d \x7d\n"
    ++ "void F() \x7b if (true) \x7b \x7d \x7d \x7d \x7d"

/-- The file parses, and everything in it stands where it should. -/
theorem wellPlaced_of_placedSource : ∃ tree, (Run.outcome (Tree.parse placedSource)).1 = .ok tree
    ∧ ∃ t : Lexed, t.source = placedSource ∧ lexemes placedSource = .ok t.lexemes
      ∧ tree.source = placedSource ∧ tree.root.WellPlaced t
      ∧ (starts (Declaration.forest tree.root)).Pairwise (· < ·) := by
  have hparses : (Run.outcome (Tree.parse placedSource)).1.isOk = true := by decide +kernel
  cases hparse : (Run.outcome (Tree.parse placedSource)).1 with
  | error e =>
    rw [hparse] at hparses
    cases hparses
  | ok tree => exact ⟨tree, rfl, wellPlaced_of_parse hparse⟩

end ClrListing.Syntax
