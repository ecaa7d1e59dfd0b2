/-
What a source text consists of.

A text that is accepted is its lexemes with gaps between them: each lexeme
stands right behind a gap, the gaps hold blanks, comments and directives and
nothing else (`IsGap`), and one more gap stands before the end (`Tiles`). So
every character of the text is in one lexeme or in one gap.
-/
import ClrListing.Proofs.Source.Rules
import Mathlib.Data.List.Infix

namespace ClrListing.Source

open Text Text.OneByOne

-- ============================================================= comments

/-- Whether a text does not hold the closing of a block comment. -/
def IsInside (text : List Char) : Prop := ¬ ['*', '/'] <:+: text

theorem isInside_cons {c : Char} {text : List Char} (h : IsInside text)
    (hfirst : ∀ rest, c = '*' → text = '/' :: rest → False) : IsInside (c :: text) := by
  unfold IsInside
  rw [List.infix_cons_iff]
  rintro (⟨rest, hprefix⟩ | hinfix)
  · obtain ⟨hc, htext⟩ := List.cons.inj hprefix
    exact hfirst rest hc.symm htext.symm
  · exact h hinfix

/-- A block comment goes on to its first closing, or to the end. -/
theorem blockComment_cases (s : List Char) :
    (∃ text rest, s = text ++ '*' :: '/' :: rest ∧ IsInside (text ++ ['*'])
        ∧ blockCommentLength s = text.length + 2)
      ∨ IsInside s ∧ blockCommentLength s = s.length := by
  fun_induction blockCommentLength s with
  | case1 => exact .inr ⟨by simp [IsInside], rfl⟩
  | case2 rest => exact .inl ⟨[], rest, rfl, by simp [IsInside, List.infix_cons_iff], rfl⟩
  | case3 c rest hopen ih =>
    rcases ih with ⟨text, back, rfl, hinside, hlength⟩ | ⟨hinside, hlength⟩
    · refine .inl ⟨c :: text, back, rfl, isInside_cons hinside ?_, by rw [hlength]; rfl⟩
      intro rest hc hrest
      refine hopen (rest ++ '/' :: back) hc ?_
      rw [← List.cons_append, ← hrest]
      exact (List.append_assoc text ['*'] ('/' :: back)).symm
    · exact .inr ⟨isInside_cons hinside hopen, by rw [hlength, List.length_cons]⟩

/-- Where a block comment closes, it ends. -/
theorem blockCommentLength_close {text : List Char} (h : IsInside (text ++ ['*']))
    (rest : List Char) : blockCommentLength (text ++ '*' :: '/' :: rest) = text.length + 2 := by
  induction text with
  | nil => rfl
  | cons c text ih =>
    have hinside : IsInside (text ++ ['*']) := fun hinfix => h (List.infix_cons hinfix)
    rw [List.cons_append, blockCommentLength, ih hinside]
    · rfl
    · intro back hc hback
      cases text with
      | nil => cases hback
      | cons d text =>
        obtain ⟨rfl, -⟩ := List.cons.inj hback
        exact h ⟨[], text ++ ['*'], by rw [hc]; rfl⟩

theorem blockCommentLength_unclosed {text : List Char} (h : IsInside text) :
    blockCommentLength text = text.length := by
  rcases blockComment_cases text with ⟨inner, rest, rfl, -, -⟩ | ⟨-, hlength⟩
  · exact absurd ⟨inner, rest, by simp⟩ h
  · exact hlength

-- ============================================================== trivia

/-- What opens a comment or a directive that goes on to the end of its
line. -/
def lineOpenings : List (List Char) := [['/', '/'], ['#']]

/-- What stands before a lexeme without being one: blanks, as many as there
are, a comment or a directive. -/
inductive Trivia : (text rest : List Char) → Prop where
  | blanks {text rest : List Char} : (∀ c ∈ text, isSourceBlank c = true) →
    (∀ c ∈ rest.head?, isSourceBlank c = false) → Trivia text rest
  | line {opening text rest : List Char} : opening ∈ lineOpenings → '\n' ∉ text →
    (∀ c ∈ rest.head?, c = '\n') → Trivia (opening ++ text) rest
  | block {text rest : List Char} : IsInside (text ++ ['*']) →
    Trivia ('/' :: '*' :: (text ++ ['*', '/'])) rest
  | unclosed {text : List Char} : IsInside text → Trivia ('/' :: '*' :: text) []

/-- A front of which every character is in a run, and none behind it, is
as long as the run. -/
theorem runLength_eq_iff {p : Char → Bool} {front back : List Char} :
    runLength p (front ++ back) = front.length
      ↔ (∀ c ∈ front, p c = true) ∧ ∀ c ∈ back.head?, p c = false := by
  induction front with
  | nil =>
    cases back with
    | nil => simp [runLength]
    | cons c back => by_cases hc : p c = true <;> simp [runLength_cons, hc]
  | cons c front ih =>
    rw [List.cons_append, runLength_cons, List.length_cons, List.forall_mem_cons]
    by_cases hc : p c = true
    · rw [if_pos hc, Nat.add_right_cancel_iff, ih]
      simp [hc]
    · simp [hc]

theorem runLength_isInLine_iff {front back : List Char} :
    runLength isInLine (front ++ back) = front.length
      ↔ '\n' ∉ front ∧ ∀ c ∈ back.head?, c = '\n' := by
  rw [runLength_eq_iff]
  refine and_congr ⟨fun h hmem => ?_, fun h c hc => ?_⟩ (by simp [isInLine])
  · exact absurd (h _ hmem) (by decide)
  · exact bne_iff_ne.mpr (ne_of_mem_of_not_mem hc h)

/-- Text that is measured as trivia has the form of trivia. -/
theorem Rule.trivia {text rest : List Char} (h : Rule (text ++ rest) ⟨.trivia, text.length⟩) :
    Trivia text rest := by
  generalize hs : text ++ rest = s at h
  generalize hm : (⟨.trivia, text.length⟩ : Measure) = m at h
  -- the front is what opens it and as much behind it as is measured
  have hlength := congrArg Measure.length hm
  dsimp only at hlength
  cases h with
  | blank hc =>
    rw [Nat.add_comm 1] at hlength
    obtain ⟨text, rfl, rfl, hrun⟩ := exists_front hs.symm hlength
    obtain ⟨hblanks, hback⟩ := runLength_eq_iff.mp hrun.symm
    exact .blanks (List.forall_mem_cons.mpr ⟨hc, hblanks⟩) hback
  | directive =>
    rw [Nat.add_comm 1] at hlength
    obtain ⟨text, rfl, rfl, hrun⟩ := exists_front hs.symm hlength
    obtain ⟨hline, hback⟩ := runLength_isInLine_iff.mp hrun.symm
    have hopening : ['#'] ∈ lineOpenings := by decide
    exact .line hopening hline hback
  | lineComment =>
    rw [runLength_cons, if_pos (by decide), Nat.add_comm 1] at hlength
    obtain ⟨text, rfl, htext, hlength⟩ := exists_front hs.symm hlength
    obtain ⟨text, rfl, rfl, hrun⟩ := exists_front htext hlength
    obtain ⟨hline, hback⟩ := runLength_isInLine_iff.mp hrun.symm
    have hopening : ['/', '/'] ∈ lineOpenings := by decide
    exact .line hopening hline hback
  | blockComment =>
    rw [Nat.add_comm 2] at hlength
    obtain ⟨text, rfl, htext, hlength⟩ := exists_front hs.symm hlength
    obtain ⟨text, rfl, rfl, hlength⟩ := exists_front htext hlength
    rcases blockComment_cases (text ++ rest) with ⟨inner, tail, hsplit, hinside, hclosed⟩ | hopen
    · have hcut : text ++ rest = (inner ++ ['*', '/']) ++ tail := by
        rw [hsplit, List.append_assoc]
        rfl
      obtain ⟨rfl, -⟩ := List.append_inj hcut (by rw [hlength, hclosed]; simp)
      exact .block hinside
    · have hrest : rest = [] := by
        rw [hopen.2, List.length_append] at hlength
        exact List.eq_nil_of_length_eq_zero (by omega)
      subst hrest
      rw [List.append_nil] at hopen
      exact .unclosed hopen.1
  | _ => cases hm

/-- Text of the form of trivia is measured as such. -/
theorem Trivia.rule {text rest : List Char} (h : Trivia text rest) (htext : text ≠ []) :
    Rule (text ++ rest) ⟨.trivia, text.length⟩ := by
  cases h with
  | blanks hblanks hrest =>
    obtain ⟨c, text, rfl⟩ := List.exists_cons_of_ne_nil htext
    rw [List.forall_mem_cons] at hblanks
    have hrun := runLength_eq_iff.mpr ⟨hblanks.2, hrest⟩
    have hrule := @Rule.blank _ (text ++ rest) hblanks.1
    rw [hrun, Nat.add_comm] at hrule
    exact hrule
  | @line opening text rest hopening hline hrest =>
    have hrun := runLength_isInLine_iff.mpr ⟨hline, hrest⟩
    simp only [lineOpenings, List.mem_cons, List.not_mem_nil, or_false] at hopening
    rcases hopening with rfl | rfl
    · have hrule := @Rule.lineComment (text ++ rest)
      rw [runLength_cons, if_pos (by decide), hrun, Nat.add_comm] at hrule
      exact hrule
    · have hrule := @Rule.directive (text ++ rest)
      rw [hrun, Nat.add_comm] at hrule
      exact hrule
  | @block text rest hinside =>
    have hrule := @Rule.blockComment (text ++ '*' :: '/' :: rest)
    rw [blockCommentLength_close hinside, Nat.add_comm] at hrule
    simpa using hrule
  | @unclosed text hinside =>
    have hrule := @Rule.blockComment text
    rw [blockCommentLength_unclosed hinside, Nat.add_comm] at hrule
    simpa using hrule

-- ================================================================ gaps

/-- What stands between two lexemes, or, where it is the last, between a
lexeme and the end of the text: blanks, comments and directives. Only the
last may end without the line feed behind a line comment or directive, or
without the closing of a block comment. -/
inductive IsGap (last : Bool) : List Char → Prop where
  | nil : IsGap last []
  | blank {c : Char} {rest : List Char} : isSourceBlank c = true → IsGap last rest →
    IsGap last (c :: rest)
  | line {opening text rest : List Char} : opening ∈ lineOpenings → '\n' ∉ text →
    (rest.head? = some '\n' ∨ rest = [] ∧ last = true) → IsGap last rest →
    IsGap last (opening ++ text ++ rest)
  | block {text rest : List Char} : IsInside (text ++ ['*']) → IsGap last rest →
    IsGap last ('/' :: '*' :: (text ++ ['*', '/']) ++ rest)
  | unclosed {text : List Char} : last = true → IsInside text → IsGap last ('/' :: '*' :: text)

theorem IsGap.blanks {last : Bool} {blanks rest : List Char}
    (hblanks : ∀ c ∈ blanks, isSourceBlank c = true) (h : IsGap last rest) :
    IsGap last (blanks ++ rest) := by
  induction blanks with
  | nil => exact h
  | cons c blanks ih =>
    rw [List.forall_mem_cons] at hblanks
    exact .blank hblanks.1 (ih hblanks.2)

/-- Trivia before a gap is part of it; what comes behind the gap is no
blank. -/
theorem Trivia.gap {text gap behind : List Char} {last : Bool} (h : Trivia text (gap ++ behind))
    (hgap : IsGap last gap) (hbehind : ∀ c ∈ behind.head?, isSourceBlank c = false)
    (hlast : last = true ↔ behind = []) : IsGap last (text ++ gap) := by
  generalize hrest : gap ++ behind = rest at h
  cases h with
  | blanks hblanks _ => exact .blanks hblanks hgap
  | @line opening text rest hopening hline hnext =>
    refine .line hopening hline ?_ hgap
    subst hrest
    cases gap with
    | nil =>
      refine .inr ⟨rfl, hlast.mpr ?_⟩
      cases behind with
      | nil => rfl
      | cons c behind =>
        obtain rfl : c = '\n' := hnext c rfl
        exact absurd (hbehind '\n' rfl) (by decide)
    | cons c gap => exact .inl (congrArg some (hnext c rfl))
  | block hinside => exact .block hinside hgap
  | unclosed hinside =>
    obtain ⟨rfl, rfl⟩ := List.append_eq_nil_iff.mp hrest
    rw [List.append_nil]
    exact .unclosed (hlast.mpr rfl) hinside

-- =============================================================== tiles

/-- A text from a byte offset on, as its lexemes with gaps between them. -/
inductive Tiles : (offset : Nat) → List Char → List Lexeme → Prop where
  /-- The last gap, and the end. -/
  | stop {offset : Nat} {gap : List Char} : IsGap true gap →
    Tiles offset gap [⟨.endOfText, "", ⟨offset + byteSize gap, offset + byteSize gap⟩⟩]
  /-- A gap, a lexeme where it is written, and the rest. -/
  | lexeme {offset : Nat} {gap text rest : List Char} {kind : LexemeKind} {ls : List Lexeme} :
    IsGap false gap → text ≠ [] → (∀ c ∈ text.head?, isSourceBlank c = false) →
    kind ≠ .endOfText → Tiles (offset + byteSize gap + byteSize text) rest ls →
    Tiles offset (gap ++ (text ++ rest))
      (⟨kind, String.ofList text,
        ⟨offset + byteSize gap, offset + byteSize gap + byteSize text⟩⟩ :: ls)

/-- A text with trivia before it has the same lexemes, further on. -/
theorem Tiles.before {offset : Nat} {text rest : List Char} {ls : List Lexeme}
    (htrivia : Trivia text rest) (h : Tiles (offset + byteSize text) rest ls) :
    Tiles offset (text ++ rest) ls := by
  cases h with
  | stop hgap =>
    rw [← List.append_nil rest] at htrivia
    rw [Nat.add_assoc, ← byteSize_append]
    exact .stop (htrivia.gap hgap (by simp) (by simp))
  | @lexeme _ gap lexeme rest kind ls hgap hne hhead hkind hrest =>
    rw [Nat.add_assoc offset, ← byteSize_append] at hrest ⊢
    rw [← List.append_assoc]
    refine .lexeme (htrivia.gap hgap ?_ ?_) hne hhead hkind hrest
    · rwa [List.head?_append_of_ne_nil _ hne]
    · simp [hne]

namespace Rule

variable {s : List Char} {kind : LexemeKind} {n : Nat}

/-- No lexeme starts with a blank. -/
theorem head_not_blank (h : Rule s ⟨.lexeme kind, n⟩) :
    ∀ c ∈ s.head?, isSourceBlank c = false := by
  intro c hc
  obtain ⟨rest, rfl⟩ := List.head?_eq_some_iff.mp hc
  have hmeasure := h.measure_eq (by simp)
  by_contra hblank
  rw [Bool.not_eq_false] at hblank
  unfold measure at hmeasure
  rw [if_pos hblank] at hmeasure
  cases hmeasure

/-- Nothing that is written is the end of the text. -/
theorem kind_ne_endOfText (h : Rule s ⟨.lexeme kind, n⟩) : kind ≠ .endOfText := by
  have hwords : .endOfText ∉ LexemeKind.identifier :: keywords.map Prod.snd := by decide
  have hquotes : ∀ q ∈ quotes, q.2 ≠ .endOfText := by decide
  have hoperators : ∀ op ∈ operators, op.2 ≠ .endOfText := by decide
  generalize hm : (⟨.lexeme kind, n⟩ : Measure) = m at h
  cases h with
  | word _ | atWord _ =>
    cases hm
    exact ne_of_mem_of_not_mem (wordKind_mem _) hwords
  | quoted hquote _ _ =>
    cases hm
    exact hquotes _ hquote
  | operator hfound _ _ =>
    cases hm
    exact hoperators _ (List.mem_of_find?_eq_some hfound)
  | number _ | fraction _ | verbatim _ | holed _ _ =>
    cases hm
    decide
  | _ => cases hm

end Rule

/-- A text that can be cut is tiled by what it is cut into. -/
theorem Cuts.tiles {offset stop : Nat} {s : List Char} {tokens : List Lexeme}
    (h : Cuts offset s tokens) (hstop : offset + byteSize s = stop) :
    Tiles offset s (tokens ++ [⟨.endOfText, "", ⟨stop, stop⟩⟩]) := by
  induction h with
  | done =>
    subst hstop
    exact .stop .nil
  | trivia _ hrule _ ih =>
    rw [byteSize_append, ← Nat.add_assoc] at hstop
    exact .before hrule.trivia (ih hstop)
  | lexeme htext hrule _ ih =>
    rw [byteSize_append, ← Nat.add_assoc] at hstop
    have hgap : IsGap false [] := .nil
    refine .lexeme hgap htext ?_ hrule.kind_ne_endOfText (ih hstop)
    have hhead := hrule.head_not_blank
    rwa [List.head?_append_of_ne_nil _ htext] at hhead

/-- The lexemes of a source with the gaps between them are the source. -/
theorem tiles_of_lexemes {source : String} {ls : List Lexeme} (h : lexemes source = .ok ls) :
    Tiles 0 source.toList ls := by
  obtain ⟨tokens, hcuts, rfl⟩ := lexemes_eq_ok_iff.mp h
  exact hcuts.tiles (by rw [Nat.zero_add, byteSize_toList])

end ClrListing.Source
