/-
What lies between two cursors, and a logic for it.

A parser goes past a run of lexemes (`Cursor.Past`), so where it ends
tells where the last of them ends. `Gives` says what a parser gives and
where it ends, of a cursor at or behind two places: the next lexeme
starts at `begin` or later, and the last one behind ends at `reached` or
later. All that such laws need are such bounds, so the rule for a
sequence hands the place that the first part reached to the second.
-/
import ClrListing.Proofs.Source.Placement
import ClrListing.Proofs.Syntax.WellNamed

namespace ClrListing.Syntax

open Source

/-- A source with its lexemes. -/
structure Lexed where
  source : String
  lexemes : List Lexeme
  placed : Placed source lexemes

-- ============================================================== cursors

/-- Where the last of some lexemes ends; without any, what ended
before. -/
def endOf (before : Nat) (run : List Lexeme) : Nat := run.foldl (fun _ l => l.span.stop) before

theorem endOf_append (before : Nat) (run more : List Lexeme) :
    endOf before (run ++ more) = endOf (endOf before run) more := List.foldl_append

/-- The last of some lexemes ends where they end. -/
theorem exists_endOf {run : List Lexeme} (h : run ≠ []) (before : Nat) :
    ∃ l ∈ run, endOf before run = l.span.stop := by
  refine ⟨run.getLast h, List.getLast_mem h, ?_⟩
  conv => lhs; rw [← List.dropLast_concat_getLast h, endOf_append]
  rfl

namespace Cursor

/-- One cursor is past a run of lexemes that starts at another. -/
structure Past (c : Cursor) (run : List Lexeme) (c' : Cursor) : Prop where
  source : c'.source = c.source
  rest : c.rest = run ++ c'.rest
  lastEnd : c'.lastEnd = endOf c.lastEnd run
  kinds : ∀ l ∈ run, l.kind ≠ .endOfText

namespace Past

variable {c c' c'' : Cursor} {run more : List Lexeme}

theorem refl (c : Cursor) : c.Past [] c := ⟨rfl, rfl, rfl, fun _ h => (List.not_mem_nil h).elim⟩

theorem trans (h : c.Past run c') (h' : c'.Past more c'') : c.Past (run ++ more) c'' where
  source := h'.source.trans h.source
  rest := by rw [h.rest, h'.rest, List.append_assoc]
  lastEnd := by rw [h'.lastEnd, h.lastEnd, endOf_append]
  kinds l hl := (List.mem_append.mp hl).elim (h.kinds l) (h'.kinds l)

end Past

theorem past_next (c : Cursor) : ∃ run, c.Past run c.next := by
  unfold next
  split
  · next l rest hrest =>
    split
    · exact ⟨[], .refl c⟩
    · next hkind =>
      refine ⟨[l], rfl, hrest, rfl, ?_⟩
      rw [List.forall_mem_singleton]
      exact hkind
  · exact ⟨[], .refl c⟩

theorem past_skip (c : Cursor) (n : Nat) : ∃ run, c.Past run (c.skip n) := by
  induction n generalizing c with
  | zero => exact ⟨[], .refl c⟩
  | succ n ih =>
    obtain ⟨run, hrun⟩ := c.past_next
    obtain ⟨more, hmore⟩ := ih c.next
    exact ⟨run ++ more, hrun.trans hmore⟩

/-- The cursor past the next lexeme, if that is not the end. -/
theorem past_next_of_cons {c : Cursor} {l : Lexeme} {rest : List Lexeme}
    (hrest : c.rest = l :: rest) (hkind : l.kind ≠ .endOfText) : c.Past [l] c.next ∧ c.next.rest = rest := by
  have hnext : c.next = ⟨c.source, rest, l.span.stop⟩ := by
    unfold next
    rw [hrest]
    exact if_neg hkind
  rw [hnext]
  refine ⟨⟨rfl, hrest, rfl, ?_⟩, rfl⟩
  rw [List.forall_mem_singleton]
  exact hkind

/-- As many steps as a run without the end has lexemes go past it. -/
theorem past_skip_length {run rest : List Lexeme} (hkinds : ∀ l ∈ run, l.kind ≠ .endOfText) :
    ∀ {c : Cursor}, c.rest = run ++ rest → c.Past run (c.skip run.length) := by
  induction run with
  | nil => exact fun _ => .refl _
  | cons l more ih =>
    intro c hrest
    rw [List.forall_mem_cons] at hkinds
    obtain ⟨hpast, hnext⟩ := past_next_of_cons hrest hkinds.1
    exact hpast.trans (ih hkinds.2 hnext)

theorem kindAt_zero {c : Cursor} {k : LexemeKind} (h : c.kindAt 0 = k) (hk : k ≠ .endOfText) :
    ∃ l rest, c.rest = l :: rest ∧ l.kind = k := by
  unfold kindAt at h
  cases hrest : c.rest with
  | nil =>
    rw [hrest] at h
    exact absurd h.symm hk
  | cons l rest =>
    rw [hrest] at h
    exact ⟨l, rest, rfl, h⟩

/-- A cursor stands in a source. -/
structure On (t : Lexed) (c : Cursor) : Prop where
  source : c.source = t.source
  suffix : ∃ before, t.lexemes = before ++ c.rest
  lastEnd_le : ∀ l ∈ c.rest, c.lastEnd ≤ l.span.start
  boundary : IsBoundary t.source c.lastEnd

theorem on_top (t : Lexed) : (top t.source t.lexemes).On t :=
  ⟨rfl, ⟨[], rfl⟩, fun _ _ => Nat.zero_le _, isBoundary_zero _⟩

namespace On

variable {t : Lexed} {c c' : Cursor} {run : List Lexeme}

theorem mem (h : c.On t) {l : Lexeme} (hl : l ∈ c.rest) : l ∈ t.lexemes := by
  obtain ⟨before, hsuffix⟩ := h.suffix
  rw [hsuffix]
  exact List.mem_append_right _ hl

/-- The lexemes ahead stand one behind the other. -/
theorem ordered (h : c.On t) : c.rest.Pairwise fun l m => l.span.stop ≤ m.span.start := by
  obtain ⟨before, hsuffix⟩ := h.suffix
  have hordered := t.placed.ordered
  rw [hsuffix] at hordered
  exact (List.pairwise_append.mp hordered).2.1

theorem start_cases (h : c.On t) :
    (∃ l rest, c.rest = l :: rest ∧ c.start = l.span.start)
      ∨ c.rest = [] ∧ c.start = t.source.utf8ByteSize := by
  unfold start
  cases hrest : c.rest with
  | nil => exact .inr ⟨rfl, by rw [← h.source]⟩
  | cons l rest => exact .inl ⟨l, rest, rfl, rfl⟩

theorem lastEnd_le_start (h : c.On t) : c.lastEnd ≤ c.start := by
  rcases h.start_cases with ⟨l, rest, hrest, hstart⟩ | ⟨_, hstart⟩
  · rw [hstart]
    exact h.lastEnd_le l (hrest ▸ List.mem_cons_self)
  · rw [hstart]
    exact h.boundary.le

theorem start_boundary (h : c.On t) : IsBoundary t.source c.start := by
  rcases h.start_cases with ⟨l, rest, hrest, hstart⟩ | ⟨_, hstart⟩
  · rw [hstart]
    exact (t.placed.covers l (h.mem (hrest ▸ List.mem_cons_self))).start_boundary
  · rw [hstart]
    exact isBoundary_size _

/-- A run that starts at a cursor starts where the cursor does. -/
theorem start_le (h : c.On t) {l : Lexeme} (hl : l ∈ c.rest) : c.start ≤ l.span.start := by
  rcases h.start_cases with ⟨first, rest, hrest, hstart⟩ | ⟨hrest, _⟩
  · rw [hrest] at hl
    rw [hstart]
    rcases List.mem_cons.mp hl with rfl | hl
    · exact Nat.le_refl _
    · have hordered := h.ordered
      rw [hrest, List.pairwise_cons] at hordered
      have hcovers := (t.placed.covers first (h.mem (hrest ▸ List.mem_cons_self))).stop_eq
      have hle := hordered.1 l hl
      omega
  · rw [hrest] at hl
    exact (List.not_mem_nil hl).elim

/-- Past a run the cursor still stands in the source. -/
theorem past (h : c.On t) (hpast : c.Past run c') : c'.On t := by
  have hin : ∀ l ∈ run, l ∈ c.rest := fun l hl => hpast.rest ▸ List.mem_append_left _ hl
  refine ⟨hpast.source.trans h.source, ?_, ?_, ?_⟩
  · obtain ⟨before, hsuffix⟩ := h.suffix
    exact ⟨before ++ run, by rw [hsuffix, hpast.rest, List.append_assoc]⟩
  · intro l hl
    rw [hpast.lastEnd]
    by_cases hrun : run = []
    · subst hrun
      exact h.lastEnd_le l (hpast.rest ▸ hl)
    · obtain ⟨last, hlast, hend⟩ := exists_endOf hrun c.lastEnd
      have hordered := h.ordered
      rw [hpast.rest, List.pairwise_append] at hordered
      rw [hend]
      exact hordered.2.2 last hlast l hl
  · rw [hpast.lastEnd]
    by_cases hrun : run = []
    · subst hrun
      exact h.boundary
    · obtain ⟨last, hlast, hend⟩ := exists_endOf hrun c.lastEnd
      rw [hend]
      exact (t.placed.covers last (h.mem (hin last hlast))).stop_boundary

/-- A run that has lexemes ends behind the place where it starts. -/
theorem start_lt (h : c.On t) (hpast : c.Past run c') (hrun : run ≠ []) :
    c.start < c'.lastEnd := by
  obtain ⟨last, hlast, hend⟩ := exists_endOf hrun c.lastEnd
  have hin : last ∈ c.rest := hpast.rest ▸ List.mem_append_left _ hlast
  rw [hpast.lastEnd, hend]
  exact Nat.lt_of_le_of_lt (h.start_le hin)
    (t.placed.nonempty last (h.mem hin) (hpast.kinds _ hlast))

theorem lastEnd_mono (h : c.On t) (hpast : c.Past run c') : c.lastEnd ≤ c'.lastEnd := by
  by_cases hrun : run = []
  · subst hrun
    exact Nat.le_of_eq hpast.lastEnd.symm
  · exact Nat.le_trans h.lastEnd_le_start (Nat.le_of_lt (h.start_lt hpast hrun))

theorem start_mono (h : c.On t) (hpast : c.Past run c') : c.start ≤ c'.start := by
  by_cases hrun : run = []
  · subst hrun
    have hrest : c.rest = c'.rest := hpast.rest
    have hstart : c.start = c'.start := by
      unfold start
      rw [hrest, hpast.source]
    exact Nat.le_of_eq hstart
  · exact Nat.le_trans (Nat.le_of_lt (h.start_lt hpast hrun)) (h.past hpast).lastEnd_le_start

end On

end Cursor

namespace Parser

/-- A parser that succeeds goes past a run. -/
theorem exists_past {p : Parser α} [Advances p] {c c' : Cursor} {a : α} (h : p c = .ok (a, c')) :
    ∃ run, c.Past run c' := by
  obtain ⟨n, rfl⟩ := Advances.forward h
  exact c.past_skip n

theorem missing_ne_ok (k : LexemeKind) (c : Cursor) (r : α × Cursor) : missing k c ≠ .ok r := by
  intro h
  unfold missing at h
  split at h <;> cases h

/-- What is expected is gone past. -/
theorem past_of_expect {k : LexemeKind} {c c' : Cursor} {u : Unit} (hk : k ≠ .endOfText)
    (h : expect k c = .ok (u, c')) : ∃ l, l.kind = k ∧ c.Past [l] c' := by
  have hrun : expect k c = if decide (c.kindAt 0 = k) then .ok ((), c.next) else missing k c := by
    show (if decide (c.kindAt 0 = k) then _ else _ : Parser Unit) c = _
    split <;> rfl
  rw [hrun] at h
  split at h
  · next hkind =>
    cases h
    obtain ⟨l, rest, hrest, hl⟩ := Cursor.kindAt_zero (of_decide_eq_true hkind) hk
    exact ⟨l, hl, (Cursor.past_next_of_cons hrest (hl ▸ hk)).1⟩
  · exact absurd h (missing_ne_ok k c _)

-- =========================================================== the logic

/-- What a parser gives and where it ends, of every cursor in a source
whose next lexeme starts at `begin` or later and whose last one behind
ends at `reached` or later. -/
def Gives (t : Lexed) (begin reached : Nat) (p : Parser α) (Q : α → Nat → Prop) : Prop :=
  ∀ (c c' : Cursor) (a : α), c.On t → begin ≤ c.start → reached ≤ c.lastEnd →
    p c = .ok (a, c') → Q a c'.lastEnd

namespace Gives

variable {t : Lexed} {begin reached : Nat} {p : Parser α} {f : α → Parser β}
variable {P P' : α → Nat → Prop} {Q : β → Nat → Prop}

theorem mono (h : Gives t begin reached p P) (himp : ∀ a e, reached ≤ e → P a e → P' a e)
    [Advances p] : Gives t begin reached p P' := by
  intro c c' a hon hbegin hreached hok
  obtain ⟨run, hpast⟩ := exists_past hok
  exact himp a _ (Nat.le_trans hreached (hon.lastEnd_mono hpast)) (h c c' a hon hbegin hreached hok)

theorem pure {a : α} (h : ∀ e, reached ≤ e → P a e) : Gives t begin reached (pure a) P := by
  intro c c' b _ _ hreached hok
  cases hok
  exact h _ hreached

theorem bind [Advances p] (hp : Gives t begin reached p P)
    (hf : ∀ a e, reached ≤ e → P a e → Gives t begin e (f a) Q) :
    Gives t begin reached (p >>= f) Q := by
  intro c c' b hon hbegin hreached hok
  obtain ⟨a, d, hfirst, hrest⟩ := bind_eq_ok hok
  obtain ⟨run, hpast⟩ := exists_past hfirst
  exact hf a d.lastEnd (Nat.le_trans hreached (hon.lastEnd_mono hpast))
    (hp c d a hon hbegin hreached hfirst) d c' b (hon.past hpast)
    (Nat.le_trans hbegin (hon.start_mono hpast)) (Nat.le_refl _) hrest

/-- A first part whose result does not matter. -/
theorem after [Advances p] (hf : ∀ a, Gives t begin reached (f a) Q) :
    Gives t begin reached (p >>= f) Q := by
  intro c c' b hon hbegin hreached hok
  obtain ⟨a, d, hfirst, hrest⟩ := bind_eq_ok hok
  obtain ⟨run, hpast⟩ := exists_past hfirst
  exact hf a d c' b (hon.past hpast) (Nat.le_trans hbegin (hon.start_mono hpast))
    (Nat.le_trans hreached (hon.lastEnd_mono hpast)) hrest

theorem ite {b : Prop} [Decidable b] {p q : Parser α} (hp : Gives t begin reached p P)
    (hq : Gives t begin reached q P) : Gives t begin reached (if b then p else q) P := by
  split
  · exact hp
  · exact hq

theorem fail (code message : String) : Gives t begin reached (fail code message : Parser α) P := by
  intro c c' a _ _ _ hok
  cases hok

theorem exhausted : Gives t begin reached (exhausted : Parser α) P := by
  intro c c' a _ _ _ hok
  cases hok

theorem missing (k : LexemeKind) : Gives t begin reached (missing k : Parser α) P := by
  unfold Parser.missing
  split <;> exact fail _ _

/-- From the place where the next lexeme starts on. -/
theorem start {f : Nat → Parser β}
    (hf : ∀ from_, begin ≤ from_ → reached ≤ from_ → IsBoundary t.source from_ →
      Gives t from_ reached (f from_) Q) : Gives t begin reached (start >>= f) Q := by
  intro c c' b hon hbegin hreached hok
  obtain ⟨from_, d, hfirst, hrest⟩ := bind_eq_ok hok
  cases hfirst
  exact hf c.start hbegin (Nat.le_trans hreached hon.lastEnd_le_start) hon.start_boundary c c' b hon
    (Nat.le_refl _) hreached hrest

/-- A span ends where the parser does. -/
theorem spanFrom (from_ : Nat) : Gives t begin reached (spanFrom from_)
    fun span e => span = ⟨from_, e⟩ ∧ IsBoundary t.source e := by
  intro c c' span hon _ _ hok
  cases hok
  exact ⟨rfl, hon.boundary⟩

end Gives

theorem Gives.advances {t : Lexed} {begin reached : Nat} (p : Parser α) [Advances p] :
    Gives t begin reached p fun _ e => reached ≤ e := by
  intro c c' a hon _ hreached hok
  obtain ⟨run, hpast⟩ := exists_past hok
  exact Nat.le_trans hreached (hon.lastEnd_mono hpast)

-- ============================================================== moving

/-- A parser that goes past one lexeme at least. -/
def Moves (t : Lexed) (p : Parser α) : Prop :=
  ∀ begin reached, Gives t begin reached p fun _ e => begin < e

namespace Moves

variable {t : Lexed} {p : Parser α} {f : α → Parser β}

theorem expect {k : LexemeKind} (hk : k ≠ .endOfText) : Moves t (expect k) := by
  intro begin reached c c' u hon hbegin _ hok
  obtain ⟨l, _, hpast⟩ := past_of_expect hk hok
  exact Nat.lt_of_le_of_lt hbegin (hon.start_lt hpast (List.cons_ne_nil _ _))

theorem identifier : Moves t identifier := by
  intro begin reached c c' name hon hbegin _ hok
  have hrun : Parser.identifier c = if decide (c.kindAt 0 = .identifier) then
      .ok (nameOf (c.textAt 0), c.next) else missing .identifier c := by
    show (if decide (c.kindAt 0 = .identifier) then _ else _ : Parser String) c = _
    split <;> rfl
  rw [hrun] at hok
  split at hok
  · next hkind =>
    cases hok
    obtain ⟨l, rest, hrest, hl⟩ := Cursor.kindAt_zero (of_decide_eq_true hkind) (by decide)
    have hpast := (Cursor.past_next_of_cons hrest (by rw [hl]; decide)).1
    exact Nat.lt_of_le_of_lt hbegin (hon.start_lt hpast (List.cons_ne_nil _ _))
  · exact absurd hok (missing_ne_ok _ c _)

/-- A sequence moves if its first part does. -/
theorem bind (hp : Moves t p) [Advances p] [∀ a, Advances (f a)] : Moves t (p >>= f) :=
  fun begin reached => (hp begin reached).bind fun a _ _ hlt =>
    (Gives.advances (f a)).mono fun _ _ _ hle => Nat.lt_of_lt_of_le hlt hle

/-- A repetition moves if its turn does. -/
theorem collect {turn : Parser (Turn α)} (h : Moves t turn) [Advances turn] :
    Moves t (collect turn) := by
  intro begin reached
  unfold Parser.collect
  refine .after fun c => ?_
  unfold collectWithin
  refine (h begin reached).bind fun u e _ hlt => ?_
  cases u with
  | item a =>
    refine (Gives.advances _).bind fun _ e' _ hle => .pure fun e'' hle' => ?_
    omega
  | last a => exact .pure fun e' hle => Nat.lt_of_lt_of_le hlt hle
  | done => exact .pure fun e' hle => Nat.lt_of_lt_of_le hlt hle

end Moves

-- ========================================================== repetition

/-- Things that stand one behind the other between two places. -/
structure InRow (span : α → Span) (lo hi : Nat) (items : List α) : Prop where
  inside : ∀ a ∈ items, lo ≤ (span a).start ∧ (span a).stop ≤ hi
  ordered : items.Pairwise fun a b => (span a).stop ≤ (span b).start

namespace InRow

variable {span : α → Span} {lo lo' hi hi' : Nat} {a : α} {items : List α}

theorem nil : InRow span lo hi [] := ⟨fun _ h => (List.not_mem_nil h).elim, .nil⟩

theorem mono (h : InRow span lo hi items) (hlo : lo' ≤ lo) (hhi : hi ≤ hi') :
    InRow span lo' hi' items where
  inside a ha := ⟨Nat.le_trans hlo (h.inside a ha).1, Nat.le_trans (h.inside a ha).2 hhi⟩
  ordered := h.ordered

theorem singleton (hlo : lo ≤ (span a).start) (hhi : (span a).stop ≤ hi) :
    InRow span lo hi [a] := by
  refine ⟨?_, List.pairwise_singleton _ _⟩
  rw [List.forall_mem_singleton]
  exact ⟨hlo, hhi⟩

theorem tail (h : InRow span lo hi (a :: items)) : InRow span (span a).stop hi items where
  inside b hb := ⟨(List.pairwise_cons.mp h.ordered).1 b hb,
    (h.inside b (List.mem_cons_of_mem _ hb)).2⟩
  ordered := (List.pairwise_cons.mp h.ordered).2

/-- What is left out of a row leaves a row. -/
theorem sublist {some : List α} (h : InRow span lo hi items) (hsome : some.Sublist items) :
    InRow span lo hi some where
  inside a ha := h.inside a (hsome.subset ha)
  ordered := h.ordered.sublist hsome

/-- One more in front of a row. -/
theorem cons (hlo : lo ≤ (span a).start) (hhi : (span a).stop ≤ hi) {mid : Nat}
    (hmid : (span a).stop ≤ mid) (hle : lo ≤ mid) (h : InRow span mid hi items) :
    InRow span lo hi (a :: items) := by
  constructor
  · rw [List.forall_mem_cons]
    exact ⟨⟨hlo, hhi⟩, (h.mono hle (Nat.le_refl _)).inside⟩
  · exact List.Pairwise.cons (fun b hb => Nat.le_trans hmid (h.inside b hb).1) h.ordered

end InRow

/-- Whether a turn gives nothing, or what is good and stands between two
places. -/
def Turn.Within (span : α → Span) (good : α → Prop) (lo hi : Nat) : Turn α → Prop :=
  Turn.All fun a => good a ∧ lo ≤ (span a).start ∧ (span a).stop ≤ hi

/-- What a repetition gives stands one behind the other, if every turn
gives what it goes past. -/
theorem gives_collect {t : Lexed} {begin : Nat} {turn : Parser (Turn α)} [Advances turn]
    {span : α → Span} {good : α → Prop}
    (h : ∀ reached, Gives t begin reached turn fun u e => u.Within span good reached e)
    (reached : Nat) :
    Gives t begin reached (collect turn) fun items e =>
      (∀ a ∈ items, good a) ∧ InRow span reached e items := by
  unfold collect
  refine .after fun c => ?_
  generalize c.rest.length + 1 = bound
  induction bound generalizing reached with
  | zero => exact .exhausted
  | succ bound ih =>
    unfold collectWithin
    refine (h reached).bind fun u e hreached hturn => ?_
    cases u with
    | item a =>
      obtain ⟨hgood, hlo, hhi⟩ := hturn
      refine (ih e).bind fun items e' he hitems => .pure fun e'' he' => ⟨?_, ?_⟩
      · rw [List.forall_mem_cons]
        exact ⟨hgood, hitems.1⟩
      · exact .cons hlo (by omega) hhi hreached (hitems.2.mono (Nat.le_refl _) he')
    | last a =>
      obtain ⟨hgood, hlo, hhi⟩ := hturn
      refine .pure fun e' he => ⟨?_, .singleton hlo (by omega)⟩
      rw [List.forall_mem_singleton]
      exact hgood
    | done => exact .pure fun e' _ => ⟨fun _ h => (List.not_mem_nil h).elim, .nil⟩

end Parser

-- ======================================================= balanced runs

/-- How many lexemes of a kind there are. -/
def countKind (k : LexemeKind) (run : List Lexeme) : Nat := run.countP fun l => l.kind = k

/-- A run that opens a bracket and closes it at its end, and not before. -/
structure IsBalanced (opening closing : LexemeKind) (run : List Lexeme) : Prop where
  head : run.head?.map Lexeme.kind = some opening
  last : run.getLast?.map Lexeme.kind = some closing
  balanced : countKind closing run = countKind opening run
  shortest : ∀ front back, run = front ++ back → front ≠ [] → back ≠ [] →
    countKind closing front < countKind opening front

/-- A run without the end that closes so many open brackets at its end,
and not before. -/
structure Closes (opening closing : LexemeKind) (depth : Nat) (run : List Lexeme) : Prop where
  kinds : ∀ l ∈ run, l.kind ≠ .endOfText
  last : run.getLast?.map Lexeme.kind = some closing
  closed : countKind closing run = countKind opening run + depth
  shortest : ∀ front back, run = front ++ back → back ≠ [] →
    countKind closing front < countKind opening front + depth

namespace Closes

variable {opening closing : LexemeKind} {depth depth' : Nat} {l : Lexeme} {run : List Lexeme}

theorem countKind_cons (k : LexemeKind) (l : Lexeme) (run : List Lexeme) :
    countKind k (l :: run) = countKind k run + if l.kind = k then 1 else 0 := by
  unfold countKind
  rw [List.countP_cons]
  simp only [decide_eq_true_eq]

theorem single (hne : opening ≠ closing) (hkind : l.kind = closing) (hend : l.kind ≠ .endOfText) :
    Closes opening closing 1 [l] := by
  have hopening : l.kind ≠ opening := fun h => hne (h.symm.trans hkind)
  refine ⟨?_, congrArg some hkind, ?_, ?_⟩
  · rw [List.forall_mem_singleton]
    exact hend
  · rw [countKind_cons, countKind_cons, if_pos hkind, if_neg hopening]
    rfl
  · intro front back hrun hback
    cases front with
    | nil => exact Nat.lt_succ_self 0
    | cons m rest =>
      rw [List.cons_append, List.cons.injEq] at hrun
      exact absurd (List.append_eq_nil_iff.mp hrun.2.symm).2 hback

/-- A lexeme more in front changes the depth as it opens or closes. -/
theorem cons (h : Closes opening closing depth' run) (hend : l.kind ≠ .endOfText)
    (hpos : 0 < depth)
    (hdepth : depth' + (if l.kind = closing then 1 else 0)
      = depth + if l.kind = opening then 1 else 0) :
    Closes opening closing depth (l :: run) := by
  have hne : run ≠ [] := by
    rintro rfl
    have hlast := h.last
    cases hlast
  refine ⟨?_, ?_, ?_, ?_⟩
  · rw [List.forall_mem_cons]
    exact ⟨hend, h.kinds⟩
  · rw [List.getLast?_cons_of_ne_nil hne]
    exact h.last
  · have hclosed := h.closed
    rw [countKind_cons, countKind_cons]
    omega
  · intro front back hrun hback
    cases front with
    | nil => exact Nat.lt_of_lt_of_le hpos (Nat.le_add_left _ _)
    | cons m rest =>
      rw [List.cons_append, List.cons.injEq] at hrun
      obtain ⟨rfl, hrest⟩ := hrun
      have hshortest := h.shortest rest back hrest hback
      rw [countKind_cons, countKind_cons]
      omega

/-- An opening bracket and what closes it are balanced. -/
theorem balanced (h : Closes opening closing 1 run) (hne : opening ≠ closing)
    (hkind : l.kind = opening) : IsBalanced opening closing (l :: run) := by
  have hclosing : l.kind ≠ closing := fun heq => hne (hkind.symm.trans heq)
  have hrun : run ≠ [] := by
    rintro rfl
    have hlast := h.last
    cases hlast
  refine ⟨congrArg some hkind, ?_, ?_, ?_⟩
  · rw [List.getLast?_cons_of_ne_nil hrun]
    exact h.last
  · have hclosed := h.closed
    rw [countKind_cons, countKind_cons, if_pos hkind, if_neg hclosing]
    omega
  · intro front back hsplit hfront hback
    cases front with
    | nil => exact absurd rfl hfront
    | cons m rest =>
      rw [List.cons_append, List.cons.injEq] at hsplit
      obtain ⟨rfl, hrest⟩ := hsplit
      have hshortest := h.shortest rest back hrest hback
      rw [countKind_cons, countKind_cons, if_pos hkind, if_neg hclosing]
      omega

end Closes

/-- The measured run closes the open brackets. -/
theorem closes_of_balancedLength? {opening closing : LexemeKind} (hne : opening ≠ closing)
    {ls : List Lexeme} : ∀ {depth n : Nat}, 0 < depth →
      balancedLength? opening closing depth ls = some n →
      ∃ run rest, ls = run ++ rest ∧ run.length = n ∧ Closes opening closing depth run := by
  induction ls with
  | nil =>
    intro depth n _ h
    rw [balancedLength?] at h
    cases h
  | cons l rest ih =>
    -- the lexemes behind close what is open behind the first one
    have hcons : ∀ {depth depth' n : Nat}, 0 < depth → 0 < depth' → l.kind ≠ .endOfText →
        depth' + (if l.kind = closing then 1 else 0)
          = depth + (if l.kind = opening then 1 else 0) →
        (balancedLength? opening closing depth' rest).map (· + 1) = some n →
        ∃ run back, l :: rest = run ++ back ∧ run.length = n
          ∧ Closes opening closing depth run := by
      intro depth depth' n hpos hpos' hend hdepth h
      obtain ⟨m, hm, rfl⟩ := Option.map_eq_some_iff.mp h
      obtain ⟨run, back, hrest, hlength, hcloses⟩ := ih hpos' hm
      exact ⟨l :: run, back, by rw [hrest, List.cons_append], by rw [List.length_cons, hlength],
        hcloses.cons hend hpos hdepth⟩
    intro depth n hpos h
    rw [balancedLength?] at h
    by_cases hend : l.kind = .endOfText
    · rw [if_pos hend] at h
      cases h
    rw [if_neg hend] at h
    by_cases hopening : l.kind = opening
    · have hclosing : l.kind ≠ closing := fun heq => hne (hopening.symm.trans heq)
      rw [if_pos hopening] at h
      exact hcons hpos (Nat.succ_pos _) hend (by rw [if_pos hopening, if_neg hclosing]) h
    rw [if_neg hopening] at h
    by_cases hclosing : l.kind = closing
    · rw [if_pos hclosing] at h
      by_cases hone : depth ≤ 1
      · rw [if_pos hone] at h
        cases h
        obtain rfl : depth = 1 := by omega
        exact ⟨[l], rest, rfl, rfl, .single hne hclosing hend⟩
      · rw [if_neg hone] at h
        refine hcons hpos (by omega) hend ?_ h
        rw [if_neg hopening, if_pos hclosing]
        omega
    · rw [if_neg hclosing] at h
      exact hcons hpos hpos hend (by rw [if_neg hopening, if_neg hclosing]) h

/-- A balanced run that is gone past, and the span that is given for it. -/
theorem Parser.past_of_skipBalanced {opening closing : LexemeKind} (hne : opening ≠ closing)
    (hopening : opening ≠ .endOfText) {c c' : Cursor} {span : Span}
    (h : skipBalanced opening closing c = .ok (span, c')) :
    ∃ run, c.Past run c' ∧ IsBalanced opening closing run ∧ span = ⟨c.start, c'.lastEnd⟩ := by
  unfold skipBalanced at h
  obtain ⟨from_, c₀, hstart, h⟩ := bind_eq_ok h
  cases hstart
  obtain ⟨_, d, hexpect, h⟩ := bind_eq_ok h
  obtain ⟨l, hkind, hfirst⟩ := past_of_expect hopening hexpect
  obtain ⟨_, d', hget, h⟩ := bind_eq_ok h
  cases hget
  cases hlength : balancedLength? opening closing 1 d.rest with
  | none =>
    rw [hlength] at h
    obtain ⟨_, d', _, h⟩ := bind_eq_ok h
    exact absurd h (missing_ne_ok _ _ _)
  | some n =>
    rw [hlength] at h
    cases h
    obtain ⟨run, rest, hrest, rfl, hcloses⟩ := closes_of_balancedLength? hne Nat.one_pos hlength
    have hpast := Cursor.past_skip_length hcloses.kinds hrest
    exact ⟨l :: run, hfirst.trans hpast, hcloses.balanced hne hkind, rfl⟩

end ClrListing.Syntax
