/-
What stands behind a lexeme.

A word ends where a character follows that no word goes on with, and an
operator where none follows that makes a longer operator of it (`goings`).
So a text may be put together from lexemes, one after the other, as long as
each stands the first character of the next (`Rule.word_append`,
`Rule.operator_append`).

Any lexeme is found again where a blank has been put behind it, at once or
further on: what the rules look at stops at a blank, and no rule goes on
over one that it did not meet before (`Rule.stable`). So blanks at the ends
of lexemes change nothing but places (`lexemes_spread`).
-/
import ClrListing.Proofs.Source.Tiles

namespace ClrListing.Source

open Text Text.OneByOne

-- ============================================================ operators

/-- The characters that make a longer operator of one. -/
def goings (spelling : List Char) : List Char :=
  operators.filterMap fun op =>
    if spelling.isPrefixOf op.1 then op.1[spelling.length]? else none

/-- No operator comes before a longer one that starts like it. -/
theorem operators_ordered : operators.Pairwise fun op later => ¬ op.1 <+: later.1 := by
  decide +kernel

section Operators

variable {spelling rest : List Char} {kind : LexemeKind}

/-- An operator that starts a text is found there, unless the text goes on
with a longer one. -/
theorem operatorAt?_append (hmem : (spelling, kind) ∈ operators)
    (hrest : ∀ c ∈ rest.head?, c ∉ goings spelling) :
    operatorAt? (spelling ++ rest) = some (spelling, kind) := by
  have hstarts : spelling.isPrefixOf (spelling ++ rest) = true :=
    List.isPrefixOf_iff_prefix.mpr (List.prefix_append _ _)
  cases hfound : operatorAt? (spelling ++ rest) with
  | none => exact absurd hstarts (List.find?_eq_none.mp hfound _ hmem)
  | some op =>
    obtain ⟨hop, before, after, hoperators, hbefore⟩ := List.find?_eq_some_iff_append.mp hfound
    rw [List.isPrefixOf_iff_prefix] at hop
    have hlater : (spelling, kind) = op ∨ (spelling, kind) ∈ after := by
      rw [hoperators, List.mem_append, List.mem_cons] at hmem
      refine hmem.resolve_left fun hmem => ?_
      have hnot := hbefore _ hmem
      rw [hstarts] at hnot
      cases hnot
    rcases hlater with heq | hlater
    · rw [heq]
    -- an operator that is found first is no beginning of the other, so it is a longer one
    have hordered := operators_ordered
    rw [hoperators] at hordered
    have hnot := List.rel_of_pairwise_cons (List.pairwise_append.mp hordered).2.1 hlater
    have hlonger : spelling <+: op.1 :=
      (List.prefix_or_prefix_of_prefix hop (List.prefix_append _ _)).resolve_left hnot
    obtain ⟨more, hmore⟩ := hlonger
    cases more with
    | nil => exact absurd ⟨[], by rw [List.append_nil, ← hmore, List.append_nil]⟩ hnot
    | cons d more =>
      rw [← hmore, List.prefix_append_right_inj] at hop
      obtain ⟨tail, rfl⟩ := hop
      refine absurd ?_ (hrest d rfl)
      refine List.mem_filterMap.mpr ⟨op, hoperators ▸ by simp, ?_⟩
      rw [← hmore, if_pos (List.isPrefixOf_iff_prefix.mpr (List.prefix_append _ _))]
      simp

/-- An operator is found where it is written, unless what follows makes
another lexeme or a comment of it. -/
theorem Rule.operator_append (hmem : (spelling, kind) ∈ operators)
    (hrest : ∀ c ∈ rest.head?, c ∉ goings spelling)
    (hdot : spelling.head? = some '.' → ∀ c ∈ rest.head?, isAsciiDigit c = false)
    (hslash : spelling.head? ≠ some '/') :
    Rule (spelling ++ rest) ⟨.lexeme kind, spelling.length⟩ := by
  have hne : ∀ op ∈ operators, op.1 ≠ [] := by decide
  have hdots : ∀ op ∈ operators, op.1.head? = some '.' → op.1 = ['.'] ∨ op.1 = ['.', '.'] := by
    decide
  have hfound := operatorAt?_append hmem hrest
  obtain ⟨c, more, rfl⟩ := List.exists_cons_of_ne_nil (hne _ hmem)
  refine .operator hfound ?_ fun hc => absurd (congrArg some hc) hslash
  by_contra hfraction
  obtain rfl := eq_dot_of_fraction hfraction
  rcases hdots _ hmem rfl with hone | htwo
  · obtain rfl := (List.cons.inj hone).2
    cases rest with
    | nil => exact hfraction rfl
    | cons d rest => exact hfraction (by simp [fractionLength, hdot rfl d rfl])
  · obtain rfl := (List.cons.inj htwo).2
    exact hfraction rfl

end Operators

-- =============================================================== words

/-- The kinds of words. -/
def wordKinds : List LexemeKind := .identifier :: keywords.map Prod.snd

theorem measureWord_append {kind : LexemeKind} {opened : Nat} {word rest : List Char}
    (h : measureWord opened word = ⟨.lexeme kind, word.length⟩) (hopened : opened ≤ word.length)
    (hrest : ∀ c ∈ rest.head?, isIdentifierPart c = false) :
    measureWord opened (word ++ rest) = ⟨.lexeme kind, word.length⟩ := by
  have hlength := congrArg Measure.length h
  unfold measureWord at h hlength ⊢
  dsimp only at h hlength ⊢
  have hwhole :
      runLength isIdentifierPart (word.drop opened ++ []) = (word.drop opened).length := by
    rw [List.append_nil, List.length_drop]
    omega
  have hrun : runLength isIdentifierPart ((word ++ rest).drop opened) = word.length - opened := by
    rw [List.drop_append_of_le_length hopened, ← List.length_drop]
    exact runLength_eq_iff.mpr ⟨(runLength_eq_iff.mp hwhole).1, hrest⟩
  rw [hlength, List.take_length] at h
  rw [hrun, Nat.add_sub_cancel' hopened, List.take_left, h]

/-- What is measured as a word starts like an identifier, or does behind an
at sign. -/
theorem Rule.word_cases {kind : LexemeKind} {n : Nat} {s : List Char}
    (h : Rule s ⟨.lexeme kind, n⟩) (hkind : kind ∈ wordKinds) :
    ∃ c rest, isIdentifierStart c = true
      ∧ (s = c :: rest ∧ measureWord 1 s = ⟨.lexeme kind, n⟩
        ∨ s = '@' :: c :: rest ∧ measureWord 2 s = ⟨.lexeme kind, n⟩) := by
  have hliterals : ∀ k ∈ [LexemeKind.number, .string, .char], k ∉ wordKinds := by decide
  generalize hm : (⟨.lexeme kind, n⟩ : Measure) = m at h
  cases h with
  | word hc => exact ⟨_, _, hc, .inl ⟨rfl, rfl⟩⟩
  | atWord hc => exact ⟨_, _, hc, .inr ⟨rfl, rfl⟩⟩
  | quoted hquote _ _ =>
    have hquotes : ∀ q ∈ quotes, q.2 ∉ wordKinds := by decide
    obtain rfl := PieceKind.lexeme.inj (congrArg Measure.kind hm)
    exact absurd hkind (hquotes _ hquote)
  | operator hfound _ _ =>
    have hoperators : ∀ op ∈ operators, op.2 ∉ wordKinds := by decide
    obtain rfl := PieceKind.lexeme.inj (congrArg Measure.kind hm)
    exact absurd hkind (hoperators _ (List.mem_of_find?_eq_some hfound))
  | number _ | fraction _ | verbatim _ | holed _ _ =>
    obtain rfl := PieceKind.lexeme.inj (congrArg Measure.kind hm)
    exact absurd hkind (hliterals _ (by decide))
  | _ => cases hm

/-- A word is found where it is written, unless what follows goes on with
it. -/
theorem Rule.word_append {kind : LexemeKind} {word rest : List Char}
    (h : Rule word ⟨.lexeme kind, word.length⟩) (hkind : kind ∈ wordKinds)
    (hrest : ∀ c ∈ rest.head?, isIdentifierPart c = false) :
    Rule (word ++ rest) ⟨.lexeme kind, word.length⟩ := by
  obtain ⟨c, inner, hc, ⟨rfl, hmeasure⟩ | ⟨rfl, hmeasure⟩⟩ := h.word_cases hkind
  · rw [← measureWord_append hmeasure (by simp) hrest]
    exact .word hc
  · rw [← measureWord_append hmeasure (by simp) hrest]
    exact .atWord hc

-- ============================================================= lexemes

section Stable

variable {front back back' : List Char} {b : Char}

/-- What starts a text with a blank in it starts the text without it. -/
theorem head?_of_blank (hb : b ∈ plainBlanks) {d : Char} (hd : d ∉ plainBlanks)
    (h : (front ++ b :: back').head? = some d) : (front ++ back).head? = some d := by
  cases front with
  | nil =>
    cases h
    exact absurd hb hd
  | cons c front => exact h

theorem isLocal_identifierParts : IsLocal (runLength isIdentifierPart) := .run (by decide)

theorem measureWord_stable (hb : b ∈ plainBlanks) {opened : Nat} (hopened : opened ≤ front.length)
    (h : (measureWord opened (front ++ back)).length ≤ front.length) :
    measureWord opened (front ++ b :: back') = measureWord opened (front ++ back) := by
  have hdrop : ∀ s, (front ++ s).drop opened = front.drop opened ++ s :=
    fun s => List.drop_append_of_le_length hopened
  unfold measureWord at h ⊢
  dsimp only at h ⊢
  rw [hdrop] at h
  have hrun : runLength isIdentifierPart (front.drop opened ++ b :: back')
      = runLength isIdentifierPart (front.drop opened ++ back) := by
    refine isLocal_identifierParts.stable _ _ _ hb ?_
    rw [List.length_drop]
    omega
  rw [hdrop, hdrop, hrun, List.take_append_of_le_length h, List.take_append_of_le_length h]

/-- What a text with a blank in it starts with ends before the blank, or
holds it. -/
theorem prefix_of_blank {spelling : List Char} (hspelling : b ∉ spelling)
    (h : spelling <+: front ++ b :: back') : spelling <+: front := by
  obtain ⟨tail, h⟩ := h
  rcases List.append_eq_append_iff.mp h with ⟨middle, hfront, -⟩ | ⟨middle, hlong, hmiddle⟩
  · exact ⟨middle, hfront.symm⟩
  · cases middle with
    | nil => exact ⟨[], by rw [List.append_nil, hlong, List.append_nil]⟩
    | cons c middle =>
      obtain ⟨rfl, -⟩ := List.cons.inj hmiddle
      exact absurd (hlong ▸ List.mem_append_right _ List.mem_cons_self) hspelling

theorem operatorAt?_stable (hb : b ∈ plainBlanks) {spelling : List Char} {kind : LexemeKind}
    (h : operatorAt? (front ++ back) = some (spelling, kind))
    (hlength : spelling.length ≤ front.length) :
    operatorAt? (front ++ b :: back') = some (spelling, kind) := by
  have hnoBlank : ∀ op ∈ operators, ∀ b ∈ plainBlanks, b ∉ op.1 := by decide
  have hfront : spelling <+: front :=
    List.prefix_of_prefix_length_le (operatorAt?_isPrefix h) (List.prefix_append _ _) hlength
  unfold operatorAt? at h ⊢
  rw [List.find?_eq_some_iff_append] at h ⊢
  obtain ⟨-, before, after, hoperators, hbefore⟩ := h
  refine ⟨?_, before, after, hoperators, fun op hop => ?_⟩
  · exact List.isPrefixOf_iff_prefix.mpr (hfront.trans (List.prefix_append _ _))
  · -- an operator that is found with the blank there is found without it
    have hmem : op ∈ operators := hoperators ▸ List.mem_append_left _ hop
    have hnot := hbefore op hop
    simp only [Bool.not_eq_true', ← Bool.not_eq_true] at hnot ⊢
    intro hprefix
    rw [List.isPrefixOf_iff_prefix] at hnot hprefix
    exact hnot ((prefix_of_blank (hnoBlank op hmem b hb) hprefix).trans (List.prefix_append _ _))

/-- A front that is as long as what a text opens with opens with it. -/
theorem exists_opening (opening : List Char) {rest : List Char}
    (h : front ++ back = opening ++ rest) (hle : opening.length ≤ front.length) :
    ∃ inner, front = opening ++ inner ∧ rest = inner ++ back := by
  rcases List.append_eq_append_iff.mp h with ⟨middle, hopening, hback⟩ | ⟨inner, hfront, hrest⟩
  · have hnil : middle = [] := by
      rw [hopening, List.length_append] at hle
      exact List.eq_nil_of_length_eq_zero (by omega)
    subst hnil
    exact ⟨[], by rw [hopening, List.append_nil, List.append_nil], hback.symm⟩
  · exact ⟨inner, hfront, hrest⟩

theorem exists_of_le_length {n : Nat} (h : n ≤ front.length) :
    ∃ body after, front = body ++ after ∧ body.length = n :=
  ⟨front.take n, front.drop n, (List.take_append_drop n front).symm, List.length_take_of_le h⟩

theorem ne_escape_of_mem_quotes {quote : Char} {kind : LexemeKind}
    (h : (quote, kind) ∈ quotes) : quote ≠ '\\' :=
  (by decide : ∀ q ∈ quotes, q.1 ≠ '\\') _ h

/-- A quoted lexeme is found again whatever is put behind it. -/
theorem Rule.quoted_stable {quote : Char} {kind : LexemeKind} {rest : List Char}
    (hquote : (quote, kind) ∈ quotes)
    (hclosed : (rest.drop (quotedItemsLength quote rest)).head? = some quote)
    (hitems : quote = '"' ∨ quotedItemsLength quote rest ≠ 0)
    (hs : front ++ back = quote :: rest) (hn : quotedItemsLength quote rest + 2 ≤ front.length)
    (behind : List Char) :
    Rule (front ++ behind) ⟨.lexeme kind, quotedItemsLength quote rest + 2⟩ := by
  obtain ⟨items, tail, rfl, hcount⟩ : ∃ items tail, rest = items ++ quote :: tail
      ∧ items.length = quotedItemsLength quote rest := by
    obtain ⟨tail, htail⟩ := List.head?_eq_some_iff.mp hclosed
    refine ⟨rest.take (quotedItemsLength quote rest), tail, ?_, ?_⟩
    · rw [← htail, List.take_append_drop]
    · exact List.length_take_of_le (quotedItemsLength_le _ _)
  have hclosed' : front ++ back = quote :: (items ++ [quote]) ++ tail := by
    rw [hs]
    simp
  have hopened : (quote :: (items ++ [quote])).length
      = quotedItemsLength quote (items ++ quote :: tail) + 2 := by
    rw [List.length_cons, List.length_append, hcount]
    rfl
  obtain ⟨inner, rfl, rfl⟩ := exists_opening _ hclosed' (hopened ▸ hn)
  have hsame := quotedItemsLength_congr (ne_escape_of_mem_quotes hquote) _ rfl hcount
    (inner ++ behind)
  rw [← hsame] at hcount hitems ⊢
  have hrule := Rule.quoted hquote (by rw [← hcount, List.drop_left]; rfl) hitems
  simpa using hrule

/-- A lexeme is found again if a blank is put behind it. -/
theorem Rule.stable {kind : LexemeKind} {n : Nat} (hb : b ∈ plainBlanks) (hpos : 0 < n)
    (hn : n ≤ front.length) (h : Rule (front ++ back) ⟨.lexeme kind, n⟩) :
    Rule (front ++ b :: back') ⟨.lexeme kind, n⟩ := by
  have hhead : ∀ {front : List Char} {d : Char}, d ∉ plainBlanks →
      (front ++ b :: back').head? = some d → (front ++ back).head? = some d :=
    fun hd => head?_of_blank hb hd
  generalize hs : front ++ back = s at h
  generalize hm : (⟨.lexeme kind, n⟩ : Measure) = m at h
  have hlength : n = m.length := congrArg Measure.length hm
  rw [hlength] at hn hpos
  cases h with
  | @word c _ hc =>
    obtain ⟨inner, rfl, rfl⟩ := exists_opening [c] hs (Nat.le_trans hpos hn)
    have hstable : measureWord 1 ([c] ++ inner ++ b :: back')
        = measureWord 1 ([c] ++ inner ++ back) :=
      measureWord_stable hb (Nat.le_trans hpos hn) hn
    rw [show c :: (inner ++ back) = [c] ++ inner ++ back from rfl, ← hstable]
    exact .word hc
  | @atWord c _ hc =>
    have hopened : 2 ≤ front.length := Nat.le_trans (Nat.le_add_right _ _) hn
    obtain ⟨inner, rfl, rfl⟩ := exists_opening ['@', c] hs hopened
    have hstable : measureWord 2 (['@', c] ++ inner ++ b :: back')
        = measureWord 2 (['@', c] ++ inner ++ back) := measureWord_stable hb hopened hn
    rw [show '@' :: c :: (inner ++ back) = ['@', c] ++ inner ++ back from rfl, ← hstable]
    exact .atWord hc
  | @number c _ hc =>
    obtain ⟨inner, rfl, rfl⟩ := exists_opening [c] hs (Nat.le_trans hpos hn)
    have hstable := isLocal_number.stable ([c] ++ inner) back back' hb hn
    rw [show c :: (inner ++ back) = [c] ++ inner ++ back from rfl, ← hstable]
    exact .number hc
  | fraction hc =>
    obtain ⟨inner, rfl, rfl⟩ := exists_opening ['.'] hs (Nat.le_trans hpos hn)
    have hstable := isLocal_fractionNumber.stable (['.'] ++ inner) back back' hb hn
    have hfraction := isLocal_fraction.stable (['.'] ++ inner) back back' hb
      (Nat.le_trans (Nat.le_add_right _ _) hn)
    rw [show '.' :: (inner ++ back) = ['.'] ++ inner ++ back from rfl, ← hstable]
    exact .fraction (hfraction ▸ hc)
  | quoted hquote hclosed hitems => exact .quoted_stable hquote hclosed hitems hs hn _
  | @verbatim rest n hlength =>
    obtain ⟨inner, rfl, rfl⟩ := exists_opening ['@', '"'] hs
      (Nat.le_trans (Nat.le_add_left _ _) hn)
    obtain ⟨body, after, rfl, rfl⟩ := exists_of_le_length (Nat.le_of_add_le_add_right hn)
    rw [List.append_assoc] at hlength
    have hsame := verbatimLength?_congr _ rfl hlength (after ++ b :: back') (hhead (by decide))
    rw [← List.append_assoc] at hsame
    exact .verbatim hsame
  | @holed opening rest verbatim n hopening hlength =>
    obtain ⟨inner, rfl, rfl⟩ := exists_opening opening hs (Nat.le_trans (Nat.le_add_right _ _) hn)
    rw [List.length_append] at hn
    obtain ⟨body, after, rfl, rfl⟩ := exists_of_le_length (Nat.le_of_add_le_add_left hn)
    rw [List.append_assoc] at hlength
    have hsame := interpolatedLength?_congr (after ++ b :: back') (hhead (by decide)) hlength
    rw [← List.append_assoc] at hsame
    rw [List.append_assoc]
    exact .holed hopening hsame
  | @operator c rest spelling kind hfound hfraction hcomment =>
    obtain ⟨inner, rfl, rfl⟩ := exists_opening [c] hs (Nat.le_trans hpos hn)
    have hfraction' := isLocal_fraction.stable ([c] ++ inner) back back' hb
      (Nat.le_trans (Nat.le_of_eq hfraction) (Nat.zero_le _))
    refine .operator (operatorAt?_stable hb hfound hn) (hfraction'.trans hfraction) fun hc => ?_
    obtain ⟨hline, hblock⟩ := hcomment hc
    exact ⟨fun h => hline (hhead (by decide) h), fun h => hblock (hhead (by decide) h)⟩
  | _ => cases hm

end Stable

-- ============================================================== blanks

theorem isSourceBlank_of_mem : ∀ b ∈ plainBlanks, isSourceBlank b = true := by decide

/-- Blanks before a text change nothing but where its lexemes stand. -/
theorem Cuts.blanks {blanks s : List Char} {tokens : List Lexeme} {offset : Nat}
    (hblanks : ∀ c ∈ blanks, isSourceBlank c = true)
    (h : Cuts (offset + byteSize blanks) s tokens) : Cuts offset (blanks ++ s) tokens := by
  cases blanks with
  | nil => exact h
  | cons c blanks =>
    -- in front of anything but blanks, they are a piece of their own
    have halone : (∀ d ∈ s.head?, isSourceBlank d = false) →
        Cuts offset (c :: blanks ++ s) tokens := by
      intro hs
      have htrivia : Trivia (c :: blanks) s := .blanks hblanks hs
      exact .trivia (List.cons_ne_nil _ _) (htrivia.rule (List.cons_ne_nil _ _)) h
    cases h with
    | done => exact halone (by simp)
    | lexeme htext hrule hrest => exact halone hrule.head_not_blank
    | @trivia _ text rest _ htext hrule hrest =>
      cases hrule.trivia with
      | blanks hmore hend =>
        have hall : ∀ d ∈ c :: blanks ++ text, isSourceBlank d = true := by
          intro d hd
          rcases List.mem_append.mp hd with hd | hd
          · exact hblanks d hd
          · exact hmore d hd
        have htrivia : Trivia (c :: blanks ++ text) rest := .blanks hall hend
        rw [Nat.add_assoc, ← byteSize_append] at hrest
        rw [← List.append_assoc]
        exact .trivia (by simp) (htrivia.rule (by simp)) hrest
      | line hopening _ _ =>
        refine halone ?_
        simp only [lineOpenings, List.mem_cons, List.not_mem_nil, or_false] at hopening
        rcases hopening with rfl | rfl <;> simp <;> decide
      | block _ | unclosed _ => exact halone (by simp; decide)

theorem isInside_append {inner more : List Char} (h : IsInside inner)
    (hmore : ∀ c ∈ more, c ∈ plainBlanks) : IsInside (inner ++ more) := by
  induction inner with
  | nil =>
    intro hinfix
    have hstar : '*' ∈ more := hinfix.subset List.mem_cons_self
    exact absurd (hmore '*' hstar) (by decide)
  | cons c inner ih =>
    refine isInside_cons (ih fun hinfix => h (List.infix_cons hinfix)) fun tail hc htail => ?_
    cases inner with
    | nil =>
      have hslash : '/' ∈ more := (show more = '/' :: tail from htail) ▸ List.mem_cons_self
      exact absurd (hmore '/' hslash) (by decide)
    | cons d inner =>
      obtain ⟨rfl, -⟩ := List.cons.inj htail
      exact h ⟨[], inner, by rw [hc]; rfl⟩

/-- Whether a text has lexemes of these kinds, written like this, wherever
it stands. -/
def HasReadings (s : List Char) (readings : List (LexemeKind × String)) : Prop :=
  ∀ offset, ∃ tokens, Cuts offset s tokens ∧ tokens.map (fun l => (l.kind, l.text)) = readings

namespace HasReadings

variable {text rest s : List Char} {readings : List (LexemeKind × String)}

theorem nil : HasReadings [] [] := fun _ => ⟨[], .done, rfl⟩

theorem blanks {blanks : List Char} (hblanks : ∀ c ∈ blanks, isSourceBlank c = true)
    (h : HasReadings s readings) : HasReadings (blanks ++ s) readings := by
  intro offset
  obtain ⟨tokens, hcuts, hreadings⟩ := h (offset + byteSize blanks)
  exact ⟨tokens, hcuts.blanks hblanks, hreadings⟩

theorem trivia (htext : text ≠ []) (htrivia : Trivia text rest) (h : HasReadings rest readings) :
    HasReadings (text ++ rest) readings := by
  intro offset
  obtain ⟨tokens, hcuts, hreadings⟩ := h (offset + byteSize text)
  exact ⟨tokens, .trivia htext (htrivia.rule htext) hcuts, hreadings⟩

theorem lexeme {kind : LexemeKind} (htext : text ≠ [])
    (hrule : Rule (text ++ rest) ⟨.lexeme kind, text.length⟩) (h : HasReadings rest readings) :
    HasReadings (text ++ rest) ((kind, String.ofList text) :: readings) := by
  intro offset
  obtain ⟨tokens, hcuts, hreadings⟩ := h (offset + byteSize text)
  exact ⟨_, .lexeme htext hrule hcuts, by rw [List.map_cons, hreadings]⟩

/-- A text that has readings is accepted, and its lexemes read so. -/
theorem lexemes_ok (h : HasReadings s readings) :
    ∃ ls, lexemes (String.ofList s) = .ok ls
      ∧ ls.map (fun l => (l.kind, l.text)) = readings ++ [(.endOfText, "")] := by
  obtain ⟨tokens, hcuts, rfl⟩ := h 0
  refine ⟨tokens ++ [endLexeme (String.ofList s)], lexemes_eq_ok_iff.mpr ⟨tokens, ?_, rfl⟩, ?_⟩
  · rwa [String.toList_ofList]
  · rw [List.map_append]
    rfl

/-- Blanks may be put behind trivia that a text starts with. -/
theorem widen {more : List Char} (htext : text ≠ []) (htrivia : Trivia text rest)
    (hmore : ∀ c ∈ more, c ∈ plainBlanks) (hs : s.head? = rest.head?)
    (h : HasReadings s readings) : HasReadings (text ++ (more ++ s)) readings := by
  have hbehind : HasReadings (more ++ s) readings :=
    h.blanks fun c hc => isSourceBlank_of_mem c (hmore c hc)
  cases htrivia with
  | blanks hblanks _ => exact hbehind.blanks hblanks
  | block hinside => exact hbehind.trivia htext (.block hinside)
  | unclosed hinside =>
    obtain rfl : s = [] := List.head?_eq_none_iff.mp hs
    rw [List.append_nil, ← List.append_nil (_ ++ more), List.cons_append, List.cons_append]
    exact h.trivia (by simp) (.unclosed (isInside_append hinside hmore))
  | @line opening text rest hopening hline hrest =>
    -- the line takes the blanks in up to the first line feed
    have hsplit : opening ++ text ++ (more ++ s)
        = opening ++ (text ++ more.takeWhile isInLine) ++ (more.dropWhile isInLine ++ s) := by
      simp only [List.append_assoc]
      rw [← List.append_assoc (more.takeWhile isInLine), List.takeWhile_append_dropWhile]
    rw [hsplit]
    have hne : opening ++ (text ++ more.takeWhile isInLine) ≠ [] := by
      rw [← List.append_assoc]
      exact List.append_ne_nil_of_left_ne_nil htext _
    refine trivia hne (.line hopening ?_ ?_) (h.blanks ?_)
    · intro hfeed
      rcases List.mem_append.mp hfeed with hfeed | hfeed
      · exact hline hfeed
      · have hin := List.all_eq_true.mp List.all_takeWhile _ hfeed
        exact absurd hin (by decide)
    · intro c hc
      cases hmoreEnd : more.dropWhile isInLine with
      | nil =>
        rw [hmoreEnd, List.nil_append, hs] at hc
        exact hrest c hc
      | cons d tail =>
        have hd := List.head?_dropWhile_not isInLine more
        rw [hmoreEnd] at hc hd
        cases hc
        simpa [isInLine] using hd
    · exact fun c hc => isSourceBlank_of_mem c (hmore c ((List.dropWhile_suffix _).subset hc))

end HasReadings

-- ============================================================ insertion

/-- A text with blanks put behind its characters: so many for each place,
by its byte offset. -/
def spreadBehind (blanks : Nat → List Char) (offset : Nat) : List Char → List Char
  | [] => []
  | c :: rest =>
    c :: (blanks (offset + c.utf8Size) ++ spreadBehind blanks (offset + c.utf8Size) rest)

/-- A source with blanks put between its characters. -/
def spread (blanks : Nat → List Char) (source : String) : String :=
  String.ofList (blanks 0 ++ spreadBehind blanks 0 source.toList)

section Spread

variable {blanks : Nat → List Char} {offset : Nat} {text rest s : List Char}
  {tokens : List Lexeme}

/-- Text into which nothing is put stands as it is. -/
theorem spreadBehind_append (htext : text ≠ [])
    (h : ∀ place, offset < place → place < offset + byteSize text → blanks place = []) :
    spreadBehind blanks offset (text ++ rest)
      = text ++ (blanks (offset + byteSize text)
          ++ spreadBehind blanks (offset + byteSize text) rest) := by
  induction text generalizing offset with
  | nil => exact absurd rfl htext
  | cons c text ih =>
    rw [List.cons_append, spreadBehind, byteSize, ← Nat.add_assoc]
    rw [byteSize] at h
    have hpos := c.utf8Size_pos
    cases text with
    | nil => rfl
    | cons d text =>
      have hnone : blanks (offset + c.utf8Size) = [] := by
        refine h _ (by omega) ?_
        have hd : 0 < byteSize (d :: text) := byteSize_pos (List.cons_ne_nil _ _)
        omega
      rw [hnone, ih (List.cons_ne_nil _ _) fun place hlt hgt => h place (by omega) (by omega)]
      rfl

/-- A text with blanks put into it is the same up to the first of them. -/
theorem spread_cases (hblanks : ∀ place, ∀ c ∈ blanks place, c ∈ plainBlanks) (s : List Char) :
    ∀ offset, blanks offset ++ spreadBehind blanks offset s = s
      ∨ ∃ front back b back', b ∈ plainBlanks ∧ s = front ++ back
        ∧ blanks offset ++ spreadBehind blanks offset s = front ++ b :: back' := by
  induction s with
  | nil =>
    intro offset
    cases h : blanks offset with
    | nil => exact .inl rfl
    | cons b more =>
      exact .inr ⟨[], [], b, _, hblanks offset b (h ▸ List.mem_cons_self), rfl, rfl⟩
  | cons c rest ih =>
    intro offset
    cases h : blanks offset with
    | cons b more =>
      exact .inr ⟨[], c :: rest, b, _, hblanks offset b (h ▸ List.mem_cons_self), rfl, rfl⟩
    | nil =>
      rw [List.nil_append, spreadBehind]
      rcases ih (offset + c.utf8Size) with hsame | ⟨front, back, b, back', hb, hrest, hspread⟩
      · exact .inl (by rw [hsame])
      · exact .inr ⟨c :: front, back, b, back', hb, by rw [hrest]; rfl, by rw [hspread]; rfl⟩

theorem head?_spreadBehind : (spreadBehind blanks offset s).head? = s.head? := by
  cases s <;> rfl

/-- Where lexemes that a text is cut into start and stop. -/
theorem Cuts.le_places (h : Cuts offset s tokens) :
    ∀ l ∈ tokens, offset ≤ l.span.start ∧ offset ≤ l.span.stop := by
  induction h with
  | done => simp
  | trivia _ _ _ ih =>
    intro l hl
    obtain ⟨hstart, hstop⟩ := ih l hl
    exact ⟨Nat.le_trans (Nat.le_add_right _ _) hstart, Nat.le_trans (Nat.le_add_right _ _) hstop⟩
  | lexeme _ _ _ ih =>
    intro l hl
    rcases List.mem_cons.mp hl with rfl | hl
    · exact ⟨Nat.le_refl _, Nat.le_add_right _ _⟩
    · obtain ⟨hstart, hstop⟩ := ih l hl
      exact ⟨Nat.le_trans (Nat.le_add_right _ _) hstart, Nat.le_trans (Nat.le_add_right _ _) hstop⟩

/-- No place where a lexeme or the text itself ends is before the text. -/
theorem Cuts.le_place (h : Cuts offset s tokens) {place : Nat}
    (hplace : (∃ l ∈ tokens, place = l.span.start ∨ place = l.span.stop)
      ∨ place = offset + byteSize s) : offset ≤ place := by
  rcases hplace with ⟨l, hl, rfl | rfl⟩ | rfl
  · exact (h.le_places l hl).1
  · exact (h.le_places l hl).2
  · exact Nat.le_add_right _ _

/-- A lexeme is found again if blanks are put into what stands behind it. -/
theorem Rule.spread {kind : LexemeKind} (htext : text ≠ [])
    (hblanks : ∀ place, ∀ c ∈ blanks place, c ∈ plainBlanks)
    (h : Rule (text ++ rest) ⟨.lexeme kind, text.length⟩) (offset : Nat) :
    Rule (text ++ (blanks offset ++ spreadBehind blanks offset rest))
      ⟨.lexeme kind, text.length⟩ := by
  rcases spread_cases hblanks rest offset with hsame | ⟨front, back, b, back', hb, rfl, hspread⟩
  · rw [hsame]
    exact h
  · rw [← List.append_assoc] at h
    rw [hspread, ← List.append_assoc]
    exact h.stable hb (List.length_pos_iff.mpr htext) (by simp)

/-- A text into which blanks are put where its lexemes start and stop, or
where it ends, has the same readings. -/
theorem Cuts.spread (h : Cuts offset s tokens)
    (hblanks : ∀ place, ∀ c ∈ blanks place, c ∈ plainBlanks)
    (hplaces : ∀ place, offset < place → blanks place ≠ [] →
      (∃ l ∈ tokens, place = l.span.start ∨ place = l.span.stop) ∨ place = offset + byteSize s) :
    HasReadings (spreadBehind blanks offset s) (tokens.map fun l => (l.kind, l.text)) := by
  induction h with
  | done => exact .nil
  | @trivia offset text rest tokens htext hrule hcuts ih =>
    rw [byteSize_append, ← Nat.add_assoc] at hplaces
    have hinside : ∀ place, offset < place → place < offset + byteSize text →
        blanks place = [] := by
      intro place hlt hgt
      by_contra hne
      exact absurd (hcuts.le_place (hplaces place hlt hne)) (Nat.not_le.mpr hgt)
    rw [spreadBehind_append htext hinside]
    refine .widen htext hrule.trivia (hblanks _) head?_spreadBehind (ih fun place hlt hne => ?_)
    exact hplaces place (Nat.lt_of_le_of_lt (Nat.le_add_right _ _) hlt) hne
  | @lexeme offset text rest kind tokens htext hrule hcuts ih =>
    rw [byteSize_append, ← Nat.add_assoc] at hplaces
    -- of the places of the lexeme itself, only the one behind it matters
    have hbehind : ∀ place, offset < place → blanks place ≠ [] → place = offset + byteSize text
        ∨ (∃ l ∈ tokens, place = l.span.start ∨ place = l.span.stop)
          ∨ place = offset + byteSize text + byteSize rest := by
      intro place hlt hne
      rcases hplaces place hlt hne with ⟨l, hl, hend⟩ | hend
      · rcases List.mem_cons.mp hl with rfl | hl
        · exact .inl (hend.resolve_left (Nat.ne_of_gt hlt))
        · exact .inr (.inl ⟨l, hl, hend⟩)
      · exact .inr (.inr hend)
    have hinside : ∀ place, offset < place → place < offset + byteSize text →
        blanks place = [] := by
      intro place hlt hgt
      by_contra hne
      have hlater := (hbehind place hlt hne).resolve_left (Nat.ne_of_lt hgt)
      exact absurd (hcuts.le_place hlater) (Nat.not_le.mpr hgt)
    rw [spreadBehind_append htext hinside]
    refine .lexeme htext (hrule.spread htext hblanks _) ?_
    have hplain : ∀ c ∈ blanks (offset + byteSize text), isSourceBlank c = true :=
      fun c hc => isSourceBlank_of_mem c (hblanks _ c hc)
    refine .blanks hplain (ih fun place hlt hne => ?_)
    exact (hbehind place (Nat.lt_of_le_of_lt (Nat.le_add_right _ _) hlt) hne).resolve_left
      (Nat.ne_of_gt hlt)

end Spread

/-- Blanks may be put wherever a lexeme starts or stops: the text is still
accepted, and its lexemes are the same but for where they stand. -/
theorem lexemes_spread {source : String} {ls : List Lexeme} {blanks : Nat → List Char}
    (h : lexemes source = .ok ls) (hblanks : ∀ place, ∀ c ∈ blanks place, c ∈ plainBlanks)
    (hplaces : ∀ place, blanks place ≠ [] →
      ∃ l ∈ ls, place = l.span.start ∨ place = l.span.stop) :
    ∃ ls', lexemes (spread blanks source) = .ok ls'
      ∧ ls'.map (fun l => (l.kind, l.text)) = ls.map fun l => (l.kind, l.text) := by
  obtain ⟨tokens, hcuts, rfl⟩ := lexemes_eq_ok_iff.mp h
  have hreadings : HasReadings (spreadBehind blanks 0 source.toList)
      (tokens.map fun l => (l.kind, l.text)) := by
    refine hcuts.spread hblanks fun place _ hplace => ?_
    obtain ⟨l, hl, hend⟩ := hplaces place hplace
    rcases List.mem_append.mp hl with hl | hl
    · exact .inl ⟨l, hl, hend⟩
    · rw [List.mem_singleton] at hl
      subst hl
      rw [Nat.zero_add, byteSize_toList]
      exact .inr (hend.elim id id)
  have hfirst := hreadings.blanks fun c hc => isSourceBlank_of_mem c (hblanks 0 c hc)
  obtain ⟨ls', hok, hls'⟩ := hfirst.lexemes_ok
  refine ⟨ls', hok, ?_⟩
  rw [hls', List.map_append]
  rfl

/-- A blank on both sides of an operator that starts like another, and one
behind a verbatim string. -/
theorem lexemes_spread_coalesce :
    ∃ ls', lexemes (spread (fun place => if place ∈ [1, 3, 8] then ['\t'] else [])
        "a??@\"\"\"\"c") = .ok ls'
      ∧ ls'.map (fun l => (l.kind, l.text))
        = [(.identifier, "a"), (.punctuation, "??"), (.string, "@\"\"\"\""), (.identifier, "c"),
          (.endOfText, "")] := by
  have hls : lexemes "a??@\"\"\"\"c" = .ok [⟨.identifier, "a", ⟨0, 1⟩⟩,
      ⟨.punctuation, "??", ⟨1, 3⟩⟩, ⟨.string, "@\"\"\"\"", ⟨3, 8⟩⟩, ⟨.identifier, "c", ⟨8, 9⟩⟩,
      ⟨.endOfText, "", ⟨9, 9⟩⟩] := by
    decide +kernel
  refine lexemes_spread hls (fun place c hc => ?_) fun place hplace => ?_
  · split at hc
    · rw [List.mem_singleton.mp hc]
      decide
    · cases hc
  · have hmem : place ∈ [1, 3, 8] := Decidable.byContradiction fun h => hplace (if_neg h)
    simp only [List.mem_cons, List.not_mem_nil, or_false] at hmem
    rcases hmem with rfl | rfl | rfl <;> simp

end ClrListing.Source
