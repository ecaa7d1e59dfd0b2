/-
Where lexemes stand.

A span covers a text if the source is that text with something before and
something behind it (`Span.Covers`). The lexemes of a source stand one
behind the other, and each but the one that marks the end covers the
characters it is written with, one at least (`Placed`, `placed_of_lexemes`).
Brackets and the other operators are always written the same way
(`Placed.written`).
-/
import ClrListing.Proofs.Source.Spelling

namespace ClrListing.Source

open Text

-- =============================================================== bytes

theorem byteSize_append (a b : List Char) : byteSize (a ++ b) = byteSize a + byteSize b := by
  induction a with
  | nil => rw [List.nil_append, byteSize, Nat.zero_add]
  | cons c rest ih => rw [List.cons_append, byteSize, byteSize, ih, Nat.add_assoc]

theorem byteSize_pos {text : List Char} (h : text ≠ []) : 0 < byteSize text := by
  cases text with
  | nil => exact absurd rfl h
  | cons c rest =>
    rw [byteSize]
    exact Nat.lt_of_lt_of_le c.utf8Size_pos (Nat.le_add_right _ _)

theorem byteSize_toList (source : String) : byteSize source.toList = source.utf8ByteSize := by
  have hof : ∀ text : List Char, byteSize text = (String.ofList text).utf8ByteSize := by
    intro text
    induction text with
    | nil => rfl
    | cons c rest ih =>
      have hcons : String.ofList (c :: rest) = String.singleton c ++ String.ofList rest := by
        apply String.toList_injective
        simp
      rw [byteSize, ih, hcons, String.utf8ByteSize_append, String.utf8ByteSize_singleton]
  rw [hof, String.ofList_toList]

theorem dropBytes_byteSize (a b : List Char) : dropBytes (byteSize a) (a ++ b) = b := by
  induction a with
  | nil => cases b <;> rfl
  | cons c rest ih =>
    have hpos := c.utf8Size_pos
    rw [List.cons_append, byteSize, dropBytes, if_neg (by omega), Nat.add_sub_cancel_left, ih]

theorem takeBytes_byteSize (a b : List Char) : takeBytes (byteSize a) (a ++ b) = a := by
  induction a with
  | nil => cases b <;> rfl
  | cons c rest ih =>
    have hpos := c.utf8Size_pos
    rw [List.cons_append, byteSize, takeBytes, if_neg (by omega), Nat.add_sub_cancel_left, ih]

/-- Of two ways to cut a text, the one that cuts off less comes first. -/
theorem exists_between {a b a' b' : List Char} (h : a ++ b = a' ++ b')
    (hle : byteSize a ≤ byteSize a') : ∃ m, a' = a ++ m ∧ b = m ++ b' := by
  rcases List.append_eq_append_iff.mp h with hsplit | ⟨m, ha, hb⟩
  · exact hsplit
  · have hempty : m = [] := Classical.byContradiction fun hne => by
      have hpos := byteSize_pos hne
      rw [ha, byteSize_append] at hle
      omega
    subst hempty
    refine ⟨[], ?_, ?_⟩
    · rw [ha, List.append_nil, List.append_nil]
    · rw [hb, List.nil_append, List.nil_append]

-- ========================================================== boundaries

/-- Whether a byte offset lies between two characters of a source, or at
one of its ends. -/
def IsBoundary (source : String) (offset : Nat) : Prop :=
  ∃ before after, source.toList = before ++ after ∧ byteSize before = offset

/-- Whether a span covers a text. -/
def Span.Covers (span : Span) (source : String) (text : List Char) : Prop :=
  ∃ before after, source.toList = before ++ (text ++ after)
    ∧ span = ⟨byteSize before, byteSize before + byteSize text⟩

/-- A span that is not empty, lies in the source and starts and stops
between characters. -/
structure Span.Proper (span : Span) (source : String) : Prop where
  nonempty : span.start < span.stop
  inside : span.stop ≤ source.utf8ByteSize
  start : IsBoundary source span.start
  stop : IsBoundary source span.stop

theorem IsBoundary.le {source : String} {offset : Nat} (h : IsBoundary source offset) :
    offset ≤ source.utf8ByteSize := by
  obtain ⟨before, after, hsource, rfl⟩ := h
  rw [← byteSize_toList, hsource, byteSize_append]
  exact Nat.le_add_right _ _

theorem isBoundary_zero (source : String) : IsBoundary source 0 := ⟨[], _, rfl, rfl⟩

theorem isBoundary_size (source : String) : IsBoundary source source.utf8ByteSize :=
  ⟨source.toList, [], (List.append_nil _).symm, byteSize_toList source⟩

namespace Span

variable {span : Span} {source : String} {text : List Char}

theorem proper_of_boundaries (hlt : span.start < span.stop) (hstart : IsBoundary source span.start)
    (hstop : IsBoundary source span.stop) : span.Proper source :=
  ⟨hlt, hstop.le, hstart, hstop⟩

theorem Covers.start_boundary (h : span.Covers source text) : IsBoundary source span.start := by
  obtain ⟨before, after, hsource, rfl⟩ := h
  exact ⟨before, text ++ after, hsource, rfl⟩

theorem Covers.stop_boundary (h : span.Covers source text) : IsBoundary source span.stop := by
  obtain ⟨before, after, hsource, rfl⟩ := h
  refine ⟨before ++ text, after, ?_, byteSize_append before text⟩
  rw [hsource, List.append_assoc]

theorem Covers.stop_eq (h : span.Covers source text) : span.stop = span.start + byteSize text := by
  obtain ⟨before, after, hsource, rfl⟩ := h
  rfl

/-- A span that covers a text is the span of that text. -/
theorem Covers.textOf (h : span.Covers source text) : span.textOf source = String.ofList text := by
  obtain ⟨before, after, hsource, rfl⟩ := h
  unfold Span.textOf
  rw [hsource, dropBytes_byteSize, Nat.add_sub_cancel_left, takeBytes_byteSize]

/-- A span that starts where one text starts and stops where a later one
stops covers the first, what lies between, and the last. -/
theorem covers_between {first last : Span} {opening closing : List Char}
    (hfirst : first.Covers source opening) (hlast : last.Covers source closing)
    (hle : first.stop ≤ last.start) :
    ∃ inner, Covers ⟨first.start, last.stop⟩ source (opening ++ (inner ++ closing)) := by
  obtain ⟨before, after, hsource, rfl⟩ := hfirst
  obtain ⟨upTo, behind, hsplit, rfl⟩ := hlast
  rw [hsource, ← List.append_assoc] at hsplit
  obtain ⟨inner, rfl, rfl⟩ := exists_between hsplit (by rw [byteSize_append]; exact hle)
  refine ⟨inner, before, behind, ?_, ?_⟩
  · rw [hsource]
    simp only [List.append_assoc]
  · simp only [byteSize_append, Nat.add_assoc]

end Span

-- ============================================================ measures

theorem runLength_pos {p : Char → Bool} {c : Char} (h : p c = true) (rest : List Char) :
    0 < runLength p (c :: rest) := by
  unfold runLength
  rw [List.takeWhile_cons_of_pos h, List.length_cons]
  omega

/-- What a text opens with: trivia, bad characters, a word, a literal or
an operator, none of them empty. -/
inductive Opens (s : List Char) : Measure → Prop where
  | trivia {n : Nat} : 0 < n → Opens s ⟨.trivia, n⟩
  | bad {n : Nat} : 0 < n → Opens s ⟨.bad, n⟩
  | word {opened : Nat} : 0 < opened → Opens s (measureWord opened s)
  | literal {kind : LexemeKind} {n : Nat} : kind ∈ [LexemeKind.number, .string, .char] → 0 < n →
    Opens s ⟨.lexeme kind, n⟩
  | operator {spelling : List Char} {kind : LexemeKind} :
    operatorAt? s = some (spelling, kind) → Opens s ⟨.lexeme kind, spelling.length⟩

theorem opens_measureQuoted {quote : Char} {kind : LexemeKind} {s rest : List Char}
    (hkind : kind ∈ [LexemeKind.number, .string, .char]) :
    Opens s (measureQuoted quote kind rest) := by
  unfold measureQuoted
  dsimp only
  split
  · exact .literal hkind (by omega)
  · exact .bad (by omega)

theorem opens_measureInterpolated {verbatim : Bool} {opened : Nat} {s rest : List Char}
    (h : 0 < opened) : Opens s (measureInterpolated verbatim opened rest) := by
  unfold measureInterpolated
  split
  · exact .literal (by decide) (by omega)
  · exact .bad h

theorem opens_measureVerbatim {s rest : List Char} : Opens s (measureVerbatim rest) := by
  unfold measureVerbatim
  split
  · exact .literal (by decide) (by omega)
  · exact .bad (by omega)

theorem Opens.ite {b : Prop} [Decidable b] {s : List Char} {m n : Measure} (hm : b → Opens s m)
    (hn : Opens s n) : Opens s (if b then m else n) := by
  by_cases h : b
  · rw [if_pos h]
    exact hm h
  · rw [if_neg h]
    exact hn

/-- What a measured text opens with. -/
theorem opens_measure (c : Char) (rest : List Char) : Opens (c :: rest) (measure c rest) := by
  unfold measure
  -- blanks, a directive, comments, and a word
  refine .ite (fun _ => .trivia (by omega)) (.ite (fun _ => .trivia (by omega)) ?_)
  refine .ite (fun _ => .trivia (by omega)) (.ite (fun _ => .trivia (by omega)) ?_)
  refine .ite (fun _ => .word (by decide)) (.ite (fun hdigit => ?_) ?_)
  · have hwhole : 0 < runLength isDigitPart (c :: rest) := runLength_pos (by
      unfold isDigitPart
      rw [hdigit, Bool.true_or]) rest
    refine .literal (by decide) ?_
    unfold decimalLength
    dsimp only
    omega
  refine .ite (fun _ => opens_measureQuoted (by decide)) ?_
  refine .ite (fun _ => opens_measureQuoted (by decide)) ?_
  refine .ite (fun _ => ?_) (.ite (fun _ => ?_) (.ite (fun hfraction => ?_) ?_))
  · split
    · exact opens_measureVerbatim
    · exact opens_measureInterpolated (by decide)
    · exact .ite (fun _ => .word (by decide)) (.bad (by decide))
    · exact .bad (by decide)
  · split
    · exact opens_measureInterpolated (by decide)
    · exact opens_measureInterpolated (by decide)
    · exact .bad (by decide)
  · exact .literal (by decide) (by omega)
  · split
    · next hoperator => exact .operator hoperator
    · exact .bad (by decide)

theorem length_measure_pos (c : Char) (rest : List Char) : 0 < (measure c rest).length := by
  have hopens := opens_measure c rest
  generalize measure c rest = m at hopens
  cases hopens with
  | trivia h | bad h => exact h
  | word h => exact Nat.lt_of_lt_of_le h (Nat.le_add_right _ _)
  | literal _ h => exact h
  | operator h =>
    have hall : ∀ op ∈ operators, 0 < op.1.length := by decide
    exact hall _ (List.mem_of_find?_eq_some h)

-- ============================================================ operators

/-- The kinds that words may be of. -/
theorem wordKind_mem (word : String) :
    wordKind word ∈ LexemeKind.identifier :: keywords.map Prod.snd := by
  unfold wordKind
  cases h : keywords.lookup word with
  | none => exact List.mem_cons_self
  | some kind =>
    obtain ⟨before, after, hsplit, _⟩ := List.lookup_eq_some_iff.mp h
    refine List.mem_cons_of_mem _ (List.mem_map.mpr ⟨(word, kind), ?_, rfl⟩)
    rw [hsplit]
    exact List.mem_append_right _ List.mem_cons_self

/-- Whether lexemes of a kind are operators that are always written the
same way. -/
def IsWritten (kind : LexemeKind) (spelling : List Char) : Prop :=
  kind ∉ LexemeKind.identifier :: keywords.map Prod.snd
    ∧ kind ∉ [LexemeKind.number, .string, .char]
    ∧ ∀ op ∈ operators, op.2 = kind → op.1 = spelling

instance (kind : LexemeKind) (spelling : List Char) : Decidable (IsWritten kind spelling) :=
  inferInstanceAs (Decidable (_ ∧ _ ∧ _))

theorem isWritten_lbrace : IsWritten .lbrace [leftBrace] := by decide

theorem isWritten_rbrace : IsWritten .rbrace [rightBrace] := by decide

theorem isWritten_arrow : IsWritten .arrow ['=', '>'] := by decide

theorem isWritten_semicolon : IsWritten .semicolon [';'] := by decide

/-- What the scanner calls such an operator is written like it. -/
theorem take_measure_of_isWritten {c : Char} {rest spelling : List Char} {kind : LexemeKind}
    (hwritten : IsWritten kind spelling) (h : (measure c rest).kind = .lexeme kind) :
    (c :: rest).take (measure c rest).length = spelling := by
  obtain ⟨hword, hliteral, hoperators⟩ := hwritten
  have hopens := opens_measure c rest
  generalize measure c rest = m at hopens h
  cases hopens with
  | trivia _ | bad _ => cases h
  | word _ =>
    cases h
    exact absurd (wordKind_mem _) hword
  | literal hkind _ =>
    cases h
    exact absurd hkind hliteral
  | operator hfound =>
    cases h
    rw [← hoperators _ (List.mem_of_find?_eq_some hfound) rfl]
    have hprefix := List.find?_some hfound
    exact (List.prefix_iff_eq_take.mp (List.isPrefixOf_iff_prefix.mp hprefix)).symm

-- ============================================================== pieces

/-- Where the pieces of a text stand: behind what is left of the piece
before, each with a character at least. -/
theorem placed_of_mem_piecesFrom {p : Piece} {s : List Char} :
    ∀ {skip offset : Nat}, p ∈ piecesFrom skip offset s →
      ∃ before after, s = before ++ (p.text ++ after) ∧ p.start = offset + byteSize before
        ∧ p.text ≠ [] ∧ byteSize (s.take skip) ≤ byteSize before := by
  induction s with
  | nil =>
    intro skip offset hmem
    rw [piecesFrom] at hmem
    cases hmem
  | cons c rest ih =>
    -- a piece further on stands behind the first character
    have hlater : ∀ {skip offset : Nat}, p ∈ piecesFrom skip (offset + c.utf8Size) rest →
        ∃ before after, c :: rest = before ++ (p.text ++ after)
          ∧ p.start = offset + byteSize before ∧ p.text ≠ []
          ∧ c.utf8Size + byteSize (rest.take skip) ≤ byteSize before := by
      intro skip offset hmem
      obtain ⟨before, after, hrest, hstart, htext, hskip⟩ := ih hmem
      refine ⟨c :: before, after, ?_, ?_, htext, ?_⟩
      · rw [hrest, List.cons_append]
      · rw [hstart, byteSize, Nat.add_assoc]
      · rw [byteSize]
        omega
    intro skip offset hmem
    cases skip with
    | succ skip =>
      rw [piecesFrom] at hmem
      rw [List.take_succ_cons, byteSize]
      exact hlater hmem
    | zero =>
      rw [piecesFrom] at hmem
      rcases List.mem_cons.mp hmem with rfl | hmem
      · refine ⟨[], (c :: rest).drop (measure c rest).length, ?_, rfl, ?_, Nat.le_refl _⟩
        · rw [List.nil_append, List.take_append_drop]
        · intro hempty
          have hlength := congrArg List.length hempty
          have hpos := length_measure_pos c rest
          rw [List.length_take, List.length_cons, List.length_nil] at hlength
          omega
      · obtain ⟨before, after, hrest, hstart, htext, _⟩ := hlater hmem
        exact ⟨before, after, hrest, hstart, htext, Nat.zero_le _⟩

/-- The pieces of a text stand one behind the other. -/
theorem pairwise_piecesFrom (s : List Char) : ∀ skip offset : Nat,
    (piecesFrom skip offset s).Pairwise fun p q => p.span.stop ≤ q.span.start := by
  induction s with
  | nil =>
    intro skip offset
    exact .nil
  | cons c rest ih =>
    intro skip offset
    cases skip with
    | succ skip => exact ih skip _
    | zero =>
      refine List.Pairwise.cons (fun q hq => ?_) (ih _ _)
      obtain ⟨before, after, _, hstart, _, hskip⟩ := placed_of_mem_piecesFrom hq
      have hpos := length_measure_pos c rest
      obtain ⟨n, hn⟩ : ∃ n, (measure c rest).length = n + 1 := ⟨_, (Nat.sub_add_cancel hpos).symm⟩
      show offset + byteSize ((c :: rest).take (measure c rest).length) ≤ q.start
      rw [hn] at hskip ⊢
      rw [Nat.add_sub_cancel] at hskip
      rw [List.take_succ_cons, byteSize, hstart]
      omega

/-- A piece that is such an operator is written like it. -/
theorem text_of_mem_piecesFrom {p : Piece} {s spelling : List Char} {kind : LexemeKind}
    (hwritten : IsWritten kind spelling) {skip offset : Nat} (hmem : p ∈ piecesFrom skip offset s)
    (hkind : p.kind = .lexeme kind) : p.text = spelling := by
  obtain ⟨c, rest, hmeasured, htext⟩ := exists_measure_of_mem_piecesFrom hmem
  rw [htext]
  exact take_measure_of_isWritten hwritten (hmeasured.symm.trans hkind)

-- ============================================================= lexemes

/-- Lexemes that stand in a source one behind the other, each where it is
written; only the end of the text has no characters. -/
structure Placed (source : String) (ls : List Lexeme) : Prop where
  covers : ∀ l ∈ ls, l.span.Covers source l.text.toList
  nonempty : ∀ l ∈ ls, l.kind ≠ .endOfText → l.span.start < l.span.stop
  ordered : ls.Pairwise fun l m => l.span.stop ≤ m.span.start
  written : ∀ {kind : LexemeKind} {spelling : List Char}, IsWritten kind spelling →
    ∀ l ∈ ls, l.kind = kind → kind ≠ .endOfText → l.text.toList = spelling

theorem lexeme?_eq_some {p : Piece} {l : Lexeme} (h : p.lexeme? = some l) :
    p.kind = .lexeme l.kind ∧ l.text = String.ofList p.text ∧ l.span = p.span := by
  unfold Piece.lexeme? at h
  split at h
  · next kind hkind =>
    cases h
    exact ⟨hkind, rfl, rfl⟩
  · cases h

/-- The lexemes of a source are placed in it. -/
theorem placed_of_lexemes {source : String} {ls : List Lexeme} (h : lexemes source = .ok ls) :
    Placed source ls := by
  unfold lexemes at h
  dsimp only at h
  split at h
  · cases h
    have hpiece : ∀ l ∈ (pieces source).filterMap Piece.lexeme?, ∃ p ∈ pieces source,
        p.kind = .lexeme l.kind ∧ l.text.toList = p.text ∧ l.span = p.span := by
      intro l hl
      obtain ⟨p, hp, hlexeme⟩ := List.mem_filterMap.mp hl
      obtain ⟨hkind, htext, hspan⟩ := lexeme?_eq_some hlexeme
      exact ⟨p, hp, hkind, by rw [htext, String.toList_ofList], hspan⟩
    have hcovers : ∀ l ∈ (pieces source).filterMap Piece.lexeme?,
        l.span.Covers source l.text.toList ∧ l.text.toList ≠ [] := by
      intro l hl
      obtain ⟨p, hp, _, htext, hspan⟩ := hpiece l hl
      obtain ⟨before, after, hsource, hstart, hne, _⟩ := placed_of_mem_piecesFrom hp
      rw [htext, hspan]
      refine ⟨⟨before, after, hsource, ?_⟩, hne⟩
      rw [Piece.span, hstart, Nat.zero_add]
    have hend : (endLexeme source).span.Covers source [] :=
      ⟨source.toList, [], by simp, by rw [byteSize_toList]; rfl⟩
    constructor
    · intro l hl
      rcases List.mem_append.mp hl with hl | hl
      · exact (hcovers l hl).1
      · rw [List.mem_singleton.mp hl]
        exact hend
    · intro l hl hkind
      rcases List.mem_append.mp hl with hl | hl
      · obtain ⟨hcovered, hne⟩ := hcovers l hl
        rw [hcovered.stop_eq]
        exact Nat.lt_add_of_pos_right (byteSize_pos hne)
      · rw [List.mem_singleton.mp hl] at hkind
        exact absurd rfl hkind
    · refine List.pairwise_append.mpr ⟨?_, List.pairwise_singleton _ _, fun l hl m hm => ?_⟩
      · refine List.Pairwise.filterMap _ ?_ (pairwise_piecesFrom source.toList 0 0)
        intro p q hpq l hl m hm
        rw [(lexeme?_eq_some hl).2.2, (lexeme?_eq_some hm).2.2]
        exact hpq
      · rw [List.mem_singleton.mp hm]
        exact (hcovers l hl).1.stop_boundary.le
    · intro kind spelling hwritten l hl hkind hne
      rcases List.mem_append.mp hl with hl | hl
      · obtain ⟨p, hp, hpk, htext, _⟩ := hpiece l hl
        rw [htext]
        exact text_of_mem_piecesFrom hwritten hp (hpk.trans (congrArg PieceKind.lexeme hkind))
      · rw [List.mem_singleton.mp hl] at hkind
        exact absurd hkind.symm hne
  · cases h

end ClrListing.Source
