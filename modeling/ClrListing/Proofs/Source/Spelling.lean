/-
How identifiers are spelled.

An identifier is a name, or a name after an at sign. A name has a
character and only such characters as may stand in identifiers, so there
is no dot, no angle bracket and no at sign in it. Every lexeme that the
scanner calls an identifier is spelled so (`isSpelling_of_mem_lexemes`).
-/
import ClrListing.Source.Scanner

namespace ClrListing.Source

open Text

-- =============================================================== names

/-- What an identifier names. -/
def IsName (name : String) : Prop :=
  name.toList ≠ [] ∧ ∀ c ∈ name.toList, isIdentifierPart c = true

/-- How an identifier is written. -/
def IsSpelling (text : String) : Prop :=
  ∃ name, IsName name ∧ (text = name ∨ text.toList = '@' :: name.toList)

namespace IsName

variable {name : String}

/-- A character that may not stand in an identifier is not in a name. -/
theorem not_mem (h : IsName name) {c : Char} (hc : isIdentifierPart c = false) :
    c ∉ name.toList := by
  intro hmem
  rw [h.2 c hmem] at hc
  cases hc

theorem no_dot (h : IsName name) : '.' ∉ name.toList := h.not_mem (by decide)

theorem no_angle (h : IsName name) : '<' ∉ name.toList := h.not_mem (by decide)

theorem no_at (h : IsName name) : '@' ∉ name.toList := h.not_mem (by decide)

/-- A name starts with a character other than a dot. -/
theorem exists_cons (h : IsName name) : ∃ c rest, name.toList = c :: rest ∧ c ≠ '.' := by
  cases hl : name.toList with
  | nil => exact absurd hl h.1
  | cons c rest =>
    refine ⟨c, rest, rfl, ?_⟩
    rintro rfl
    exact h.no_dot (hl ▸ List.mem_cons_self)

end IsName

/-- A start and what may follow it are a name. -/
theorem isName_ofList {c : Char} (hc : isIdentifierStart c = true) (rest : List Char) :
    IsName (String.ofList (c :: rest.takeWhile isIdentifierPart)) := by
  constructor
  · rw [String.toList_ofList]
    exact List.cons_ne_nil _ _
  · intro d hd
    rw [String.toList_ofList, List.mem_cons] at hd
    rcases hd with rfl | hd
    · unfold isIdentifierPart
      rw [hc, Bool.true_or]
    · exact (List.all_eq_true.mp List.all_takeWhile) d hd

-- ============================================================= scanning

/-- The characters of a word: those that open it, and those that may
follow. -/
theorem take_measureWord (opened : Nat) (s : List Char) :
    s.take (measureWord opened s).length
      = s.take opened ++ (s.drop opened).takeWhile isIdentifierPart := by
  unfold measureWord runLength
  simp only []
  rw [List.take_add]
  congr 1
  exact (List.prefix_iff_eq_take.mp (List.takeWhile_prefix isIdentifierPart)).symm

theorem measureQuoted_kind {quote : Char} {kind : LexemeKind} {rest : List Char}
    (h : (measureQuoted quote kind rest).kind = .lexeme .identifier) : kind = .identifier := by
  unfold measureQuoted at h
  simp only [] at h
  split at h
  · exact PieceKind.lexeme.inj h
  · cases h

theorem measureInterpolated_kind (verbatim : Bool) (opened : Nat) (rest : List Char) :
    (measureInterpolated verbatim opened rest).kind ≠ .lexeme .identifier := by
  unfold measureInterpolated
  split <;> simp

theorem measureVerbatim_kind (rest : List Char) :
    (measureVerbatim rest).kind ≠ .lexeme .identifier := by
  unfold measureVerbatim
  split <;> simp

theorem operatorAt?_kind {s spelling : List Char} {kind : LexemeKind}
    (h : operatorAt? s = some (spelling, kind)) : kind ≠ .identifier := by
  have hall : ∀ op ∈ operators, op.2 ≠ .identifier := by decide
  exact hall _ (List.mem_of_find?_eq_some h)

theorem measure_at (rest : List Char) :
    measure '@' rest = match rest with
      | '"' :: rest' => measureVerbatim rest'
      | '$' :: '"' :: rest' => measureInterpolated true 3 rest'
      | d :: _ => if isIdentifierStart d then measureWord 2 ('@' :: rest) else ⟨.bad, 1⟩
      | [] => ⟨.bad, 1⟩ := by
  unfold measure
  exact (if_neg (by decide)).trans <| (if_neg (by decide)).trans <| (if_neg (by simp)).trans <|
    (if_neg (by simp)).trans <| (if_neg (by decide)).trans <| (if_neg (by decide)).trans <|
    (if_neg (by decide)).trans <| (if_neg (by decide)).trans <| if_pos rfl

/-- A word after an at sign, if the scanner reads an identifier there. -/
theorem isSpelling_of_measure_at {rest : List Char}
    (h : (measure '@' rest).kind = .lexeme .identifier) :
    IsSpelling (String.ofList (('@' :: rest).take (measure '@' rest).length)) := by
  rw [measure_at] at h ⊢
  split at h
  · exact absurd h (measureVerbatim_kind _)
  · exact absurd h (measureInterpolated_kind _ _ _)
  · next d rest' _ _ =>
    by_cases hd : isIdentifierStart d = true
    · rw [if_pos hd, take_measureWord]
      refine ⟨_, isName_ofList hd rest', .inr ?_⟩
      rw [String.toList_ofList, String.toList_ofList]
      rfl
    · rw [if_neg hd] at h
      cases h
  · cases h

/-- A piece that the scanner calls an identifier is spelled like one. -/
theorem isSpelling_of_measure {c : Char} {rest : List Char}
    (h : (measure c rest).kind = .lexeme .identifier) :
    IsSpelling (String.ofList ((c :: rest).take (measure c rest).length)) := by
  by_cases hat : c = '@'
  · subst hat
    exact isSpelling_of_measure_at h
  unfold measure at h ⊢
  by_cases hblank : isSourceBlank c = true
  · rw [if_pos hblank] at h
    cases h
  rw [if_neg hblank] at h ⊢
  by_cases hhash : c = '#'
  · rw [if_pos hhash] at h
    cases h
  rw [if_neg hhash] at h ⊢
  by_cases hline : (decide (c = '/') && decide (rest.head? = some '/')) = true
  · rw [if_pos hline] at h
    cases h
  rw [if_neg hline] at h ⊢
  by_cases hblock : (decide (c = '/') && decide (rest.head? = some '*')) = true
  · rw [if_pos hblock] at h
    cases h
  rw [if_neg hblock] at h ⊢
  by_cases hstart : isIdentifierStart c = true
  · rw [if_pos hstart, take_measureWord]
    exact ⟨_, isName_ofList hstart rest, .inl rfl⟩
  rw [if_neg hstart] at h ⊢
  by_cases hdigit : isAsciiDigit c = true
  · rw [if_pos hdigit] at h
    cases h
  rw [if_neg hdigit] at h ⊢
  by_cases hquote : c = '"'
  · rw [if_pos hquote] at h
    cases measureQuoted_kind h
  rw [if_neg hquote] at h ⊢
  by_cases happ : c = '\''
  · rw [if_pos happ] at h
    cases measureQuoted_kind h
  rw [if_neg happ] at h ⊢
  rw [if_neg hat] at h ⊢
  by_cases hdollar : c = '$'
  · rw [if_pos hdollar] at h
    split at h
    · exact absurd h (measureInterpolated_kind _ _ _)
    · exact absurd h (measureInterpolated_kind _ _ _)
    · cases h
  rw [if_neg hdollar] at h ⊢
  by_cases hfraction : fractionLength (c :: rest) ≠ 0
  · rw [if_pos hfraction] at h
    cases h
  rw [if_neg hfraction] at h ⊢
  split at h
  · next heq => exact absurd (PieceKind.lexeme.inj h) (operatorAt?_kind heq)
  · cases h

/-- A piece is what the scanner measures where it stands. -/
theorem exists_measure_of_mem_piecesFrom {p : Piece} {s : List Char} :
    ∀ {skip offset : Nat}, p ∈ piecesFrom skip offset s →
      ∃ c rest, p.kind = (measure c rest).kind
        ∧ p.text = (c :: rest).take (measure c rest).length := by
  induction s with
  | nil =>
    intro skip offset hmem
    rw [piecesFrom] at hmem
    cases hmem
  | cons c rest ih =>
    intro skip offset hmem
    cases skip with
    | succ skip =>
      rw [piecesFrom] at hmem
      exact ih hmem
    | zero =>
      rw [piecesFrom] at hmem
      rcases List.mem_cons.mp hmem with rfl | hmem
      · exact ⟨c, rest, rfl, rfl⟩
      · exact ih hmem

theorem isSpelling_of_mem_piecesFrom {p : Piece} {s : List Char} {skip offset : Nat}
    (hmem : p ∈ piecesFrom skip offset s) (hkind : p.kind = .lexeme .identifier) :
    IsSpelling (String.ofList p.text) := by
  obtain ⟨c, rest, hmeasured, htext⟩ := exists_measure_of_mem_piecesFrom hmem
  rw [htext]
  exact isSpelling_of_measure (hmeasured.symm.trans hkind)

/-- The identifiers among the lexemes of a text are spelled like
identifiers. -/
theorem isSpelling_of_mem_lexemes {source : String} {ls : List Lexeme}
    (h : lexemes source = .ok ls) :
    ∀ l ∈ ls, l.kind = .identifier → IsSpelling l.text := by
  intro l hl hkind
  unfold lexemes at h
  simp only [] at h
  split at h
  · cases h
    rcases List.mem_append.mp hl with hl | hl
    · obtain ⟨p, hp, hlexeme⟩ := List.mem_filterMap.mp hl
      unfold Piece.lexeme? at hlexeme
      split at hlexeme
      · next kind hpk =>
        cases hlexeme
        exact isSpelling_of_mem_piecesFrom hp (hpk.trans (congrArg PieceKind.lexeme hkind))
      · cases hlexeme
    · rw [List.mem_singleton] at hl
      subst hl
      cases hkind
  · cases h

end ClrListing.Source
