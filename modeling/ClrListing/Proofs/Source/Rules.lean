/-
The rules of the scanner.

The first characters of a text decide which rule measures its front, and no
two rules apply to one text: the tests of the scanner, one after the other,
are the table `Rule` (`rule_of_measure`, `Rule.measure_eq`). What a text is
cut into is told by this table alone (`Cuts`, `lexemes_eq_ok_iff`).
-/
import ClrListing.Proofs.Source.Placement
import ClrListing.Proofs.Source.Spelling

namespace ClrListing.Text.OneByOne

/-- Of the characters in a list something is decided one by one, and not of
all characters there are. -/
scoped instance (priority := high) decidableInList {p : Char → Prop} [DecidablePred p]
    (s : List Char) : Decidable (∀ c ∈ s, p c) :=
  List.decidableBAll p s

scoped instance (priority := high) decidableInOption {p : Char → Prop} [DecidablePred p]
    (c? : Option Char) : Decidable (∀ c ∈ c?, p c) :=
  Option.decidableForallMem c?

end ClrListing.Text.OneByOne

namespace ClrListing.Source

open Text Text.OneByOne

-- ========================================================== characters

theorem isSourceBlank_iff {c : Char} :
    isSourceBlank c = true ↔ c ∈ [' ', '\t', '\r', '\n', '\x0c', '\ufeff'] := by
  simp [isSourceBlank, or_assoc]

theorem isAsciiDigit_iff {c : Char} :
    isAsciiDigit c = true ↔ c ∈ ['0', '1', '2', '3', '4', '5', '6', '7', '8', '9'] := by
  constructor
  · intro h
    have hall : ∀ n < 128, isAsciiDigit (Char.ofNat n) = true →
        Char.ofNat n ∈ ['0', '1', '2', '3', '4', '5', '6', '7', '8', '9'] := by decide
    have hle : c.toNat ≤ '9'.toNat := by
      simp only [isAsciiDigit, Bool.and_eq_true, decide_eq_true_eq] at h
      exact UInt32.le_iff_toNat_le.mp (Char.le_def.mp h.2)
    have hc := hall c.toNat (Nat.lt_of_le_of_lt hle (by decide))
    rw [Char.ofNat_toNat] at hc
    exact hc h
  · revert c
    decide

/-- The characters that open what is no word. -/
def otherOpenings : List Char :=
  [' ', '\t', '\r', '\n', '\x0c', '\ufeff', '#', '/', '0', '1', '2', '3', '4', '5', '6', '7', '8',
    '9', '"', '\'', '@', '$']

theorem isIdentifierStart_of_mem : ∀ c ∈ otherOpenings, isIdentifierStart c = false := by
  decide +kernel

/-- Where an operator starts, nothing else does but a comment or a number. -/
theorem operator_opening :
    ∀ op ∈ operators, ∀ c ∈ op.1.head?, isSourceBlank c = false ∧ c ≠ '#'
      ∧ isIdentifierStart c = false ∧ isAsciiDigit c = false ∧ c ≠ '"' ∧ c ≠ '\'' ∧ c ≠ '@'
      ∧ c ≠ '$' := by
  decide

-- =============================================================== rules

/-- How the strings with holes are opened, and whether they are verbatim. -/
def holedOpenings : List (List Char × Bool) :=
  [(['$', '"'], false), (['$', '@', '"'], true), (['@', '$', '"'], true)]

/-- The literals without holes that a quote opens. -/
def quotes : List (Char × LexemeKind) := [('"', .string), ('\'', .char)]

/-- The table of the scanner: what the front of a text is measured as. -/
inductive Rule : List Char → Measure → Prop where
  | blank {c : Char} {rest : List Char} : isSourceBlank c = true →
    Rule (c :: rest) ⟨.trivia, 1 + runLength isSourceBlank rest⟩
  | directive {rest : List Char} : Rule ('#' :: rest) ⟨.trivia, 1 + runLength isInLine rest⟩
  | lineComment {rest : List Char} :
    Rule ('/' :: '/' :: rest) ⟨.trivia, 1 + runLength isInLine ('/' :: rest)⟩
  | blockComment {rest : List Char} :
    Rule ('/' :: '*' :: rest) ⟨.trivia, 2 + blockCommentLength rest⟩
  | word {c : Char} {rest : List Char} : isIdentifierStart c = true →
    Rule (c :: rest) (measureWord 1 (c :: rest))
  | atWord {c : Char} {rest : List Char} : isIdentifierStart c = true →
    Rule ('@' :: c :: rest) (measureWord 2 ('@' :: c :: rest))
  | number {c : Char} {rest : List Char} : isAsciiDigit c = true →
    Rule (c :: rest)
      ⟨.lexeme .number, max (decimalLength (c :: rest)) (hexadecimalLength (c :: rest))⟩
  | fraction {rest : List Char} : fractionLength ('.' :: rest) ≠ 0 →
    Rule ('.' :: rest) ⟨.lexeme .number, fractionLength ('.' :: rest)
      + numberTailLength (('.' :: rest).drop (fractionLength ('.' :: rest)))⟩
  | quoted {quote : Char} {kind : LexemeKind} {rest : List Char} : (quote, kind) ∈ quotes →
    (rest.drop (quotedItemsLength quote rest)).head? = some quote →
    (quote = '"' ∨ quotedItemsLength quote rest ≠ 0) →
    Rule (quote :: rest) ⟨.lexeme kind, quotedItemsLength quote rest + 2⟩
  | verbatim {rest : List Char} {n : Nat} : verbatimLength? rest = some n →
    Rule ('@' :: '"' :: rest) ⟨.lexeme .string, n + 2⟩
  | holed {opening rest : List Char} {verbatim : Bool} {n : Nat} :
    (opening, verbatim) ∈ holedOpenings →
    interpolatedLength? verbatim none 0 false rest = some n →
    Rule (opening ++ rest) ⟨.lexeme .string, opening.length + n⟩
  | operator {c : Char} {rest spelling : List Char} {kind : LexemeKind} :
    operatorAt? (c :: rest) = some (spelling, kind) → fractionLength (c :: rest) = 0 →
    (c = '/' → rest.head? ≠ some '/' ∧ rest.head? ≠ some '*') →
    Rule (c :: rest) ⟨.lexeme kind, spelling.length⟩
  | bad {s : List Char} {n : Nat} : Rule s ⟨.bad, n⟩

theorem operatorAt?_isPrefix {s spelling : List Char} {kind : LexemeKind}
    (h : operatorAt? s = some (spelling, kind)) : spelling <+: s := by
  have hprefix := List.find?_some h
  exact List.isPrefixOf_iff_prefix.mp hprefix

theorem measureQuoted_rule {quote : Char} {kind : LexemeKind} (h : (quote, kind) ∈ quotes)
    (rest : List Char) : Rule (quote :: rest) (measureQuoted quote kind rest) := by
  unfold measureQuoted
  dsimp only
  split
  · next hclosed =>
    simp only [Bool.and_eq_true, Bool.or_eq_true, decide_eq_true_eq, ne_eq] at hclosed
    exact .quoted h hclosed.1 hclosed.2
  · exact .bad

theorem measureInterpolated_rule (opening : List Char) {verbatim : Bool}
    (h : (opening, verbatim) ∈ holedOpenings) (rest : List Char) :
    Rule (opening ++ rest) (measureInterpolated verbatim opening.length rest) := by
  unfold measureInterpolated
  split
  · next n hn => exact .holed h hn
  · exact .bad

theorem measureVerbatim_rule (rest : List Char) :
    Rule ('@' :: '"' :: rest) (measureVerbatim rest) := by
  unfold measureVerbatim
  split
  · next n hn => exact .verbatim hn
  · exact .bad

/-- A fraction starts with a dot. -/
theorem eq_dot_of_fraction {c : Char} {rest : List Char} (h : fractionLength (c :: rest) ≠ 0) :
    c = '.' := by
  unfold fractionLength at h
  split at h
  · next heq => exact (List.cons.inj heq).1
  · exact absurd rfl h

theorem Rule.ite {b : Prop} [Decidable b] {s : List Char} {m n : Measure} (hm : b → Rule s m)
    (hn : ¬ b → Rule s n) : Rule s (if b then m else n) := by
  by_cases h : b
  · rw [if_pos h]
    exact hm h
  · rw [if_neg h]
    exact hn h

/-- The scanner follows the table. -/
theorem rule_of_measure (c : Char) (rest : List Char) : Rule (c :: rest) (measure c rest) := by
  unfold measure
  refine .ite (fun h => .blank h) fun _ => .ite (fun h => h ▸ .directive) fun _ => ?_
  refine .ite (fun h => ?_) fun hline => .ite (fun h => ?_) fun hblock => ?_
  · simp only [Bool.and_eq_true, decide_eq_true_eq] at h
    obtain ⟨rfl, h⟩ := h
    obtain ⟨rest', rfl⟩ := List.head?_eq_some_iff.mp h
    exact .lineComment
  · simp only [Bool.and_eq_true, decide_eq_true_eq] at h
    obtain ⟨rfl, h⟩ := h
    obtain ⟨rest', rfl⟩ := List.head?_eq_some_iff.mp h
    exact .blockComment
  refine .ite (fun h => .word h) fun _ => .ite (fun h => .number h) fun _ => ?_
  refine .ite (fun h => ?_) fun _ => .ite (fun h => ?_) fun _ => ?_
  · subst h
    exact measureQuoted_rule (by decide) rest
  · subst h
    exact measureQuoted_rule (by decide) rest
  refine .ite (fun h => ?_) fun _ => .ite (fun h => ?_) fun _ => .ite (fun h => ?_) fun hnone => ?_
  · subst h
    split
    · exact measureVerbatim_rule _
    · exact measureInterpolated_rule ['@', '$', '"'] (by decide) _
    · exact .ite (fun hstart => .atWord hstart) fun _ => .bad
    · exact .bad
  · subst h
    split
    · exact measureInterpolated_rule ['$', '"'] (by decide) _
    · exact measureInterpolated_rule ['$', '@', '"'] (by decide) _
    · exact .bad
  · obtain rfl := eq_dot_of_fraction h
    exact .fraction h
  · split
    · next hoperator =>
      simp only [Bool.and_eq_true, decide_eq_true_eq, not_and] at hline hblock
      exact .operator hoperator (Decidable.not_not.mp hnone) fun hc => ⟨hline hc, hblock hc⟩
    · exact .bad

namespace Rule

variable {c : Char} {rest : List Char} {m : Measure}

theorem not_start {d : Char} (h : isIdentifierStart c = true) (hd : d ∈ otherOpenings) :
    c ≠ d := by
  rintro rfl
  rw [isIdentifierStart_of_mem c hd] at h
  cases h

theorem measure_word (h : isIdentifierStart c = true) (rest : List Char) :
    measure c rest = measureWord 1 (c :: rest) := by
  have hblank : ¬ isSourceBlank c = true := fun hblank =>
    not_start h ((by decide : ∀ d ∈ [' ', '\t', '\r', '\n', '\x0c', '\ufeff'], d ∈ otherOpenings) c
      (isSourceBlank_iff.mp hblank)) rfl
  have hslash : c ≠ '/' := not_start h (by decide)
  unfold measure
  rw [if_neg hblank, if_neg (not_start h (by decide)), if_neg (by simp [hslash]),
    if_neg (by simp [hslash]), if_pos h]

theorem measure_number (h : isAsciiDigit c = true) (rest : List Char) :
    measure c rest
      = ⟨.lexeme .number, max (decimalLength (c :: rest)) (hexadecimalLength (c :: rest))⟩ := by
  have hall : ∀ d ∈ ['0', '1', '2', '3', '4', '5', '6', '7', '8', '9'], isSourceBlank d = false
      ∧ d ≠ '#' ∧ d ≠ '/' ∧ isIdentifierStart d = false := by decide
  obtain ⟨hblank, hhash, hslash, hstart⟩ := hall c (isAsciiDigit_iff.mp h)
  unfold measure
  rw [if_neg (by simp [hblank]), if_neg hhash, if_neg (by simp [hslash]), if_neg (by simp [hslash]),
    if_neg (by simp [hstart]), if_pos h]

theorem measure_operator {spelling : List Char} {kind : LexemeKind}
    (h : operatorAt? (c :: rest) = some (spelling, kind))
    (hfraction : fractionLength (c :: rest) = 0)
    (hcomment : c = '/' → rest.head? ≠ some '/' ∧ rest.head? ≠ some '*') :
    measure c rest = ⟨.lexeme kind, spelling.length⟩ := by
  have hhead : c ∈ spelling.head? := by
    have hprefix := operatorAt?_isPrefix h
    have hne : ∀ op ∈ operators, op.1 ≠ [] := by decide
    have hspelling := hne _ (List.mem_of_find?_eq_some h)
    cases spelling with
    | nil => exact absurd rfl hspelling
    | cons d spelling => rw [(List.cons_prefix_cons.mp hprefix).1]; rfl
  obtain ⟨hblank, hhash, hstart, hdigit, hquote, happ, hat, hdollar⟩ :=
    operator_opening _ (List.mem_of_find?_eq_some h) c hhead
  unfold measure
  rw [if_neg (by simp [hblank]), if_neg hhash, if_neg (by simpa using fun hc => (hcomment hc).1),
    if_neg (by simpa using fun hc => (hcomment hc).2), if_neg (by simp [hstart]),
    if_neg (by simp [hdigit]), if_neg hquote, if_neg happ, if_neg hat, if_neg hdollar,
    if_neg (by simp [hfraction]), h]

/-- The table says what the scanner measures. -/
theorem measure_eq (h : Rule (c :: rest) m) (hm : m.kind ≠ .bad) : measure c rest = m := by
  generalize hs : c :: rest = s at h
  cases h with
  | blank hblank =>
    obtain ⟨rfl, rfl⟩ := List.cons.inj hs
    unfold measure
    rw [if_pos hblank]
  | directive | lineComment | blockComment =>
    obtain ⟨rfl, rfl⟩ := List.cons.inj hs
    rfl
  | word hstart =>
    obtain ⟨rfl, rfl⟩ := List.cons.inj hs
    exact measure_word hstart rest
  | atWord hstart =>
    obtain ⟨rfl, rfl⟩ := List.cons.inj hs
    have hother : ∀ d ∈ otherOpenings, _ ≠ d := fun d hd => not_start hstart hd
    rw [measure_at]
    split
    · next heq => exact absurd (List.cons.inj heq).1 (hother _ (by decide))
    · next heq => exact absurd (List.cons.inj heq).1 (hother _ (by decide))
    · next heq =>
      obtain ⟨rfl, rfl⟩ := List.cons.inj heq
      rw [if_pos hstart]
    · next heq => cases heq
  | number hdigit =>
    obtain ⟨rfl, rfl⟩ := List.cons.inj hs
    exact measure_number hdigit rest
  | fraction hfraction =>
    obtain ⟨rfl, rfl⟩ := List.cons.inj hs
    exact if_pos hfraction
  | @quoted quote kind rest hquote hclosed hitems =>
    obtain ⟨rfl, rfl⟩ := List.cons.inj hs
    have hmeasured : measureQuoted c kind rest = ⟨.lexeme kind, quotedItemsLength c rest + 2⟩ := by
      unfold measureQuoted
      rw [if_pos (by simp [hclosed, hitems])]
    simp only [quotes, List.mem_cons, Prod.mk.injEq, List.not_mem_nil, or_false] at hquote
    rcases hquote with ⟨rfl, rfl⟩ | ⟨rfl, rfl⟩
    · exact hmeasured
    · exact hmeasured
  | verbatim hn =>
    obtain ⟨rfl, rfl⟩ := List.cons.inj hs
    rw [measure_at]
    simp only [measureVerbatim, hn]
  | @holed opening rest' verbatim n hopening hn =>
    have hmeasured : measureInterpolated verbatim opening.length rest'
        = ⟨.lexeme .string, opening.length + n⟩ := by
      unfold measureInterpolated
      rw [hn]
    simp only [holedOpenings, List.mem_cons, Prod.mk.injEq, List.not_mem_nil, or_false] at hopening
    rcases hopening with ⟨rfl, rfl⟩ | ⟨rfl, rfl⟩ | ⟨rfl, rfl⟩
    all_goals
      obtain ⟨rfl, rfl⟩ := List.cons.inj hs
      exact hmeasured
  | operator hfound hfraction hcomment =>
    obtain ⟨rfl, rfl⟩ := List.cons.inj hs
    exact measure_operator hfound hfraction hcomment
  | bad => exact absurd rfl hm

end Rule

-- ============================================================= lengths

/-- The blanks that may be put between lexemes. -/
def plainBlanks : List Char := [' ', '\t', '\r', '\n', '\x0c']

/-- A length that is measured from the front of a text and ends before the
first blank: what stands behind a blank does not matter, nor does what the
blank has been put before, if the length did not reach that far. -/
structure IsLocal (f : List Char → Nat) : Prop where
  le_length (s : List Char) : f s ≤ s.length
  stable (front back back' : List Char) {b : Char} : b ∈ plainBlanks →
    f (front ++ back) ≤ front.length → f (front ++ b :: back') = f (front ++ back)

theorem runLength_cons (p : Char → Bool) (c : Char) (rest : List Char) :
    runLength p (c :: rest) = if p c then runLength p rest + 1 else 0 := by
  unfold runLength
  rw [List.takeWhile_cons]
  split
  · rw [List.length_cons]
  · rfl

namespace IsLocal

variable {f g : List Char → Nat}

theorem run {p : Char → Bool} (h : ∀ b ∈ plainBlanks, p b = false) :
    IsLocal (runLength p) where
  le_length s := (List.takeWhile_sublist p).length_le
  stable front back back' {b} hb hle := by
    induction front with
    | nil =>
      rw [List.nil_append, List.nil_append, runLength_cons, h b hb]
      exact (Nat.le_zero.mp hle).symm
    | cons c front ih =>
      rw [List.cons_append, runLength_cons, List.length_cons] at hle
      rw [List.cons_append, List.cons_append, runLength_cons, runLength_cons]
      split
      · next hc =>
        rw [if_pos hc] at hle
        rw [ih (by omega)]
      · rfl

/-- One length, and then another of what comes behind. -/
theorem andThen (hf : IsLocal f) (hg : IsLocal g) : IsLocal fun s => f s + g (s.drop (f s)) where
  le_length s := by
    have hfirst := hf.le_length s
    have hsecond := hg.le_length (s.drop (f s))
    rw [List.length_drop] at hsecond
    omega
  stable front back back' {b} hb hle := by
    have hlt : f (front ++ back) ≤ front.length := by omega
    have hfirst := hf.stable front back back' hb hlt
    have hdrop : ∀ s, (front ++ s).drop (f (front ++ back)) = front.drop (f (front ++ back)) ++ s :=
      fun s => List.drop_append_of_le_length hlt
    show f (front ++ b :: back') + g ((front ++ b :: back').drop (f (front ++ b :: back'))) = _
    rw [hfirst, hdrop]
    rw [hdrop] at hle ⊢
    rw [hg.stable _ _ _ hb]
    rw [List.length_drop]
    omega

theorem max (hf : IsLocal f) (hg : IsLocal g) : IsLocal fun s => Nat.max (f s) (g s) where
  le_length s := Nat.max_le.mpr ⟨hf.le_length s, hg.le_length s⟩
  stable front back back' _ hb hle := by
    obtain ⟨hfirst, hsecond⟩ := Nat.max_le.mp hle
    show Nat.max (f _) (g _) = _
    rw [hf.stable _ _ _ hb hfirst, hg.stable _ _ _ hb hsecond]

theorem zero : IsLocal fun _ => 0 := ⟨fun _ => Nat.zero_le _, fun _ _ _ _ _ _ => rfl⟩

/-- Nothing is measured of a text that starts with a blank. -/
theorem blank (hf : IsLocal f) {b : Char} (hb : b ∈ plainBlanks) (rest : List Char) :
    f (b :: rest) = 0 := by
  have hnil : f [] = 0 := Nat.le_zero.mp (hf.le_length [])
  exact (hf.stable [] [] rest hb (Nat.le_of_eq hnil)).trans hnil

end IsLocal

/-- A character and what is measured behind it, if anything is. -/
def afterChar (p : Char → Bool) (f : List Char → Nat) : List Char → Nat
  | [] => 0
  | c :: rest => if p c && f rest != 0 then f rest + 1 else 0

/-- One of two lengths, as the first character decides. -/
def byHead (p : Char → Bool) (f g : List Char → Nat) (s : List Char) : Nat :=
  if s.head?.any p then f s else g s

/-- A length of texts of which another is not nothing. -/
def provided (f g : List Char → Nat) (s : List Char) : Nat := if f s = 0 then 0 else g s

theorem afterChar_cons (p : Char → Bool) (f : List Char → Nat) (c : Char) (rest : List Char) :
    afterChar p f (c :: rest) = if p c && f rest != 0 then f rest + 1 else 0 := rfl

theorem byHead_cons (p : Char → Bool) (f g : List Char → Nat) (c : Char) (rest : List Char) :
    byHead p f g (c :: rest) = if p c then f (c :: rest) else g (c :: rest) := rfl

namespace IsLocal

variable {f g : List Char → Nat} {p : Char → Bool}

theorem afterChar (hf : IsLocal f) (hp : ∀ b ∈ plainBlanks, p b = false) :
    IsLocal (afterChar p f) where
  le_length s := by
    cases s with
    | nil => exact Nat.le_refl _
    | cons c rest =>
      have hle := hf.le_length rest
      rw [afterChar_cons, List.length_cons]
      split <;> omega
  stable front back back' {b} hb hle := by
    cases front with
    | nil =>
      rw [Nat.le_zero.mp hle, List.nil_append, afterChar_cons, hp b hb]
      rfl
    | cons c front =>
      rw [List.cons_append, afterChar_cons, List.length_cons] at hle
      rw [List.cons_append, List.cons_append, afterChar_cons, afterChar_cons]
      by_cases hc : p c = true
      · have hstable : f (front ++ b :: back') = f (front ++ back) := by
          refine hf.stable _ _ _ hb ?_
          simp only [hc, Bool.true_and, bne_iff_ne] at hle
          split at hle <;> omega
        rw [hstable]
      · simp [hc]

theorem byHead (hf : IsLocal f) (hg : IsLocal g) (hp : ∀ b ∈ plainBlanks, p b = false) :
    IsLocal (byHead p f g) where
  le_length s := by
    unfold Source.byHead
    split
    · exact hf.le_length s
    · exact hg.le_length s
  stable front back back' {b} hb hle := by
    cases front with
    | nil =>
      rw [Nat.le_zero.mp hle, List.nil_append, byHead_cons, hp b hb]
      exact hg.blank hb back'
    | cons c front =>
      rw [List.cons_append, byHead_cons] at hle
      rw [List.cons_append, List.cons_append, byHead_cons, byHead_cons]
      split
      · next hc =>
        rw [if_pos hc] at hle
        exact hf.stable (c :: front) back back' hb hle
      · next hc =>
        rw [if_neg hc] at hle
        exact hg.stable (c :: front) back back' hb hle

theorem provided (hf : IsLocal f) (hg : IsLocal g) (h : ∀ s, f s ≤ g s) :
    IsLocal (provided f g) where
  le_length s := by
    unfold Source.provided
    split
    · exact Nat.zero_le _
    · exact hg.le_length s
  stable front back back' {b} hb hle := by
    unfold Source.provided at hle ⊢
    have hfirst : f (front ++ b :: back') = f (front ++ back) := by
      refine hf.stable _ _ _ hb ?_
      have hsmall := h (front ++ back)
      split at hle <;> omega
    rw [hfirst]
    split
    · rfl
    · next hzero =>
      rw [if_neg hzero] at hle
      exact hg.stable _ _ _ hb hle

end IsLocal

-- ============================================================== numbers

theorem isLocal_digits : IsLocal (runLength isAsciiDigit) := .run (by decide)

theorem isLocal_letters : IsLocal (runLength isAsciiLetter) := .run (by decide)

theorem isLocal_digitParts : IsLocal (runLength isDigitPart) := .run (by decide)

theorem isLocal_hexParts : IsLocal (runLength isHexPart) := .run (by decide)

theorem fractionLength_eq :
    fractionLength
      = afterChar (· = '.') (byHead isAsciiDigit (runLength isDigitPart) fun _ => 0) := by
  funext s
  unfold fractionLength
  split
  · next d rest =>
    have hpart : isAsciiDigit d = true → isDigitPart d = true := by
      intro hd
      simp [isDigitPart, hd]
    by_cases hd : isAsciiDigit d = true
    · simp [afterChar_cons, byHead_cons, hd, runLength_cons, hpart hd]
      omega
    · simp [afterChar_cons, byHead_cons, hd]
  · next hno =>
    cases s with
    | nil => rfl
    | cons c rest =>
      by_cases hc : c = '.'
      · subst hc
        cases rest with
        | nil => rfl
        | cons d rest => exact absurd rfl (hno d rest)
      · simp [afterChar_cons, hc]

/-- The letters that open an exponent. -/
def isExponentMark (c : Char) : Bool := c = 'e' || c = 'E'

/-- The sign of an exponent. -/
def isSign (c : Char) : Bool := c = '+' || c = '-'

theorem exponentLength_eq :
    exponentLength = afterChar isExponentMark
      (byHead isSign (afterChar isSign (runLength isAsciiDigit)) (runLength isAsciiDigit)) := by
  funext s
  unfold exponentLength
  cases s with
  | nil => rfl
  | cons c rest =>
    rw [afterChar_cons]
    by_cases hc : isExponentMark c = true
    · refine (if_pos (show (decide (c = 'e') || decide (c = 'E')) = true from hc)).trans ?_
      cases rest with
      | nil => simp [byHead, runLength]
      | cons sign digits =>
        rw [byHead_cons, afterChar_cons]
        by_cases hs : isSign sign = true
        · have hsign : (decide (sign = '+') || decide (sign = '-')) = true := hs
          refine (if_pos hsign).trans ?_
          cases runLength isAsciiDigit digits <;> simp [hc, hs]
        · have hsign : ¬ (decide (sign = '+') || decide (sign = '-')) = true := hs
          refine (if_neg hsign).trans ?_
          cases runLength isAsciiDigit (sign :: digits) <;> simp [hc, hs]
    · refine (if_neg (show ¬ (decide (c = 'e') || decide (c = 'E')) = true from hc)).trans ?_
      simp [hc]

/-- The letter behind the zero of a hexadecimal number. -/
def isHexMark (c : Char) : Bool := c = 'x' || c = 'X'

theorem hexadecimalLength_eq :
    hexadecimalLength = afterChar (· = '0') (afterChar isHexMark
      (provided (runLength isHexPart)
        fun s =>
          runLength isHexPart s + runLength isAsciiLetter (s.drop (runLength isHexPart s)))) := by
  funext s
  unfold hexadecimalLength
  split
  · next c rest =>
    rw [afterChar_cons, afterChar_cons]
    unfold provided
    by_cases hc : isHexMark c = true
    · refine (if_pos (show (decide (c = 'x') || decide (c = 'X')) = true from hc)).trans ?_
      cases hn : runLength isHexPart rest with
      | zero => simp
      | succ n =>
        simp [hc, hn]
        omega
    · refine (if_neg (show ¬ (decide (c = 'x') || decide (c = 'X')) = true from hc)).trans ?_
      simp [hc]
  · next hno =>
    cases s with
    | nil => rfl
    | cons c rest =>
      by_cases hc : c = '0'
      · subst hc
        cases rest with
        | nil => rfl
        | cons d rest => exact absurd rfl (hno d rest)
      · simp [afterChar_cons, hc]

theorem isLocal_fraction : IsLocal fractionLength := by
  rw [fractionLength_eq]
  exact .afterChar (.byHead isLocal_digitParts .zero (by decide)) (by decide)

theorem isLocal_exponent : IsLocal exponentLength := by
  rw [exponentLength_eq]
  refine .afterChar (.byHead (.afterChar isLocal_digits ?_) isLocal_digits ?_) ?_ <;> decide

theorem isLocal_hexadecimal : IsLocal hexadecimalLength := by
  rw [hexadecimalLength_eq]
  refine .afterChar (.afterChar (.provided isLocal_hexParts ?_ ?_) ?_) ?_
  · exact isLocal_hexParts.andThen isLocal_letters
  · exact fun s => Nat.le_add_right _ _
  all_goals decide

theorem isLocal_numberTail : IsLocal numberTailLength := isLocal_exponent.andThen isLocal_letters

theorem isLocal_decimal : IsLocal decimalLength :=
  (isLocal_digitParts.andThen isLocal_fraction).andThen isLocal_numberTail

theorem isLocal_number : IsLocal fun s => max (decimalLength s) (hexadecimalLength s) :=
  isLocal_decimal.max isLocal_hexadecimal

theorem isLocal_fractionNumber :
    IsLocal fun s => fractionLength s + numberTailLength (s.drop (fractionLength s)) :=
  isLocal_fraction.andThen isLocal_numberTail

-- ============================================================= literals

/-- A front that is not empty starts where the whole text starts. -/
theorem exists_front {c : Char} {rest front back : List Char} {n : Nat}
    (h : c :: rest = front ++ back) (hlength : front.length = n + 1) :
    ∃ front', front = c :: front' ∧ rest = front' ++ back ∧ front'.length = n := by
  cases front with
  | nil => cases hlength
  | cons d front' =>
    obtain ⟨rfl, hrest⟩ := List.cons.inj h
    exact ⟨front', rfl, hrest, Nat.succ.inj hlength⟩

theorem quotedItemsLength_cons {quote c : Char} (hc : c ≠ '\\') (rest : List Char) :
    quotedItemsLength quote (c :: rest)
      = if c = quote || c = '\n' then 0 else quotedItemsLength quote rest + 1 := by
  rw [quotedItemsLength.eq_def]
  exact if_neg hc

theorem quotedItemsLength_escape (quote c : Char) (rest : List Char) :
    quotedItemsLength quote ('\\' :: c :: rest)
      = if c = '\n' then 0 else quotedItemsLength quote rest + 2 := by
  rw [quotedItemsLength.eq_def]
  exact if_pos rfl

theorem quotedItemsLength_le (quote : Char) (s : List Char) :
    quotedItemsLength quote s ≤ s.length := by
  fun_induction quotedItemsLength quote s <;> simp <;> omega

/-- What a literal holds is read the same whatever stands behind the quote
that closes it. -/
theorem quotedItemsLength_congr {quote : Char} (hescape : quote ≠ '\\') (s : List Char) :
    ∀ {items back : List Char}, s = items ++ quote :: back →
      items.length = quotedItemsLength quote s → ∀ back' : List Char,
      quotedItemsLength quote (items ++ quote :: back') = quotedItemsLength quote s := by
  have hclosed : ∀ back', quotedItemsLength quote (quote :: back') = 0 := fun back' => by
    simp [quotedItemsLength_cons hescape]
  fun_induction quotedItemsLength quote s with
  | case1 =>
    intro items back hs
    simp at hs
  | case2 | case3 | case5 =>
    intro items back hs hlength back'
    obtain rfl := List.eq_nil_of_length_eq_zero hlength
    exact hclosed back'
  | case4 c rest hline ih =>
    intro items back hs hlength back'
    obtain ⟨_, rfl, hs, hlength⟩ := exists_front hs hlength
    obtain ⟨_, rfl, hs, hlength⟩ := exists_front hs hlength
    rw [List.cons_append, List.cons_append, quotedItemsLength_escape, if_neg hline,
      ih hs hlength back']
  | case6 c rest hc hgo ih =>
    intro items back hs hlength back'
    obtain ⟨_, rfl, hs, hlength⟩ := exists_front hs hlength
    rw [List.cons_append, quotedItemsLength_cons hc, if_neg hgo, ih hs hlength back']

theorem verbatimLength?_bounds {s : List Char} {n : Nat} (h : verbatimLength? s = some n) :
    0 < n ∧ n ≤ s.length := by
  fun_induction verbatimLength? s generalizing n with
  | case1 => cases h
  | case2 rest ih =>
    obtain ⟨m, hm, rfl⟩ := Option.map_eq_some_iff.mp h
    have hle := (ih hm).2
    simp only [List.length_cons]
    omega
  | case3 rest =>
    cases h
    simp
  | case4 c rest _ _ ih =>
    obtain ⟨m, hm, rfl⟩ := Option.map_eq_some_iff.mp h
    have hle := (ih hm).2
    simp only [List.length_cons]
    omega

theorem verbatimLength?_close {rest : List Char} (h : rest.head? ≠ some '"') :
    verbatimLength? ('"' :: rest) = some 1 := by
  cases rest with
  | nil => rfl
  | cons c rest =>
    rw [verbatimLength?]
    simpa using h

/-- A verbatim string ends at its quote whatever stands behind it but
another quote. -/
theorem verbatimLength?_congr (s : List Char) :
    ∀ {body back : List Char}, s = body ++ back → verbatimLength? s = some body.length →
      ∀ back' : List Char, (back'.head? = some '"' → back.head? = some '"') →
      verbatimLength? (body ++ back') = some body.length := by
  fun_induction verbatimLength? s with
  | case1 =>
    intro body back hs h
    cases h
  | case2 rest ih =>
    intro body back hs h back' hback'
    obtain ⟨m, hm, hlength⟩ := Option.map_eq_some_iff.mp h
    obtain ⟨_, rfl, hs, hlength⟩ := exists_front hs hlength.symm
    obtain ⟨_, rfl, hs, hlength⟩ := exists_front hs hlength
    rw [List.cons_append, List.cons_append, verbatimLength?, ih hs (hlength ▸ hm) back' hback']
    rfl
  | case3 rest hdoubled =>
    intro body back hs h back' hback'
    obtain ⟨_, rfl, hs, hlength⟩ := exists_front hs (Option.some.inj h).symm
    obtain rfl := List.eq_nil_of_length_eq_zero hlength
    refine verbatimLength?_close fun hquote => ?_
    obtain ⟨tail, hback⟩ := List.head?_eq_some_iff.mp (hback' hquote)
    exact hdoubled tail (hs.trans hback)
  | case4 c rest hdoubled hquote ih =>
    intro body back hs h back' hback'
    obtain ⟨m, hm, hlength⟩ := Option.map_eq_some_iff.mp h
    obtain ⟨_, rfl, hs, hlength⟩ := exists_front hs hlength.symm
    rw [List.cons_append, verbatimLength?, ih hs (hlength ▸ hm) back' hback']
    · rfl
    · exact fun _ hc _ => hquote hc
    · exact hquote

-- ================================================== strings with holes

/-- What a character does to the reading of a string with holes. -/
inductive HoledMove where
  /-- It closes the string. -/
  | close
  /-- The string may not go on with it. -/
  | broken
  /-- The string goes on. -/
  | go (literal : Option Char) (depth : Nat) (escaped : Bool)

/-- What a character does, of which only the next one has to be known. -/
def holedMove (verbatim : Bool) (literal : Option Char) (depth : Nat) (escaped : Bool)
    (c : Char) (next : Option Char) : HoledMove :=
  let doubled := depth = 0 && next = some c
  if escaped then .go literal depth false
  else match literal with
  | some quote =>
    if c = '\\' then .go literal depth true
    else if c = quote then .go none depth false
    else .go literal depth false
  | none =>
    if c = '"' && depth = 0 then if verbatim && doubled then .go none depth true else .close
    else if c = '\\' && depth = 0 && !verbatim then .go none depth true
    else if c = '\n' && depth = 0 && !verbatim then .broken
    else if c = leftBrace then if doubled then .go none depth true else .go none (depth + 1) false
    else if c = rightBrace then if doubled then .go none depth true else .go none (depth - 1) false
    else if c = '"' || c = '\'' then .go (some c) depth false
    else .go none depth false

/-- How long a string is in which a move was made. -/
def HoledMove.length? (verbatim : Bool) (rest : List Char) : HoledMove → Option Nat
  | close => some 1
  | broken => none
  | go literal depth escaped =>
    (interpolatedLength? verbatim literal depth escaped rest).map (· + 1)

theorem interpolatedLength?_cons (verbatim : Bool) (literal : Option Char) (depth : Nat)
    (escaped : Bool) (c : Char) (rest : List Char) :
    interpolatedLength? verbatim literal depth escaped (c :: rest)
      = (holedMove verbatim literal depth escaped c rest.head?).length? verbatim rest := by
  cases escaped with
  | true => rfl
  | false =>
    cases literal with
    | some quote =>
      simp only [holedMove, apply_ite (HoledMove.length? verbatim rest)]
      rfl
    | none =>
      simp only [holedMove, apply_ite (HoledMove.length? verbatim rest)]
      rfl

theorem interpolatedLength?_bounds {verbatim : Bool} {s : List Char} :
    ∀ {literal : Option Char} {depth : Nat} {escaped : Bool} {n : Nat},
      interpolatedLength? verbatim literal depth escaped s = some n → 0 < n ∧ n ≤ s.length := by
  induction s with
  | nil =>
    intro literal depth escaped n h
    cases h
  | cons c rest ih =>
    intro literal depth escaped n h
    rw [interpolatedLength?_cons] at h
    cases hmove : holedMove verbatim literal depth escaped c rest.head? with
    | close =>
      rw [hmove] at h
      cases h
      simp
    | broken =>
      rw [hmove] at h
      cases h
    | go literal' depth' escaped' =>
      rw [hmove] at h
      obtain ⟨m, hm, rfl⟩ := Option.map_eq_some_iff.mp h
      have hle := (ih hm).2
      simp only [List.length_cons]
      omega

/-- Only a quote outside the holes closes a string, and in a verbatim one
only if no other quote is next. -/
theorem holedMove_eq_close_iff {verbatim : Bool} {literal : Option Char} {depth : Nat}
    {escaped : Bool} {c : Char} {next : Option Char} :
    holedMove verbatim literal depth escaped c next = .close
      ↔ escaped = false ∧ literal = none ∧ c = '"' ∧ depth = 0
        ∧ (verbatim = true → next ≠ some '"') := by
  constructor
  · intro h
    unfold holedMove at h
    dsimp only at h
    split at h
    · cases h
    next hescaped =>
    split at h
    · split at h
      · cases h
      · split at h <;> cases h
    split at h
    · next hquote =>
      simp only [Bool.and_eq_true, decide_eq_true_eq] at hquote
      obtain ⟨rfl, rfl⟩ := hquote
      split at h
      · cases h
      · next hdoubled =>
        refine ⟨by simpa using hescaped, rfl, rfl, rfl, fun hverbatim hnext => ?_⟩
        exact hdoubled (by simp [hverbatim, hnext])
    · repeat' split at h
      all_goals cases h
  · rintro ⟨rfl, rfl, rfl, rfl, hnext⟩
    simpa [holedMove] using hnext

/-- A string with holes ends at its quote whatever stands behind it, but
for another quote if it is verbatim. -/
theorem interpolatedLength?_congr {verbatim : Bool} {back : List Char} (back' : List Char)
    (hback : back'.head? = some '"' → back.head? = some '"') {body : List Char} :
    ∀ {literal : Option Char} {depth : Nat} {escaped : Bool},
      interpolatedLength? verbatim literal depth escaped (body ++ back) = some body.length →
      interpolatedLength? verbatim literal depth escaped (body ++ back') = some body.length := by
  induction body with
  | nil =>
    intro literal depth escaped h
    exact absurd (interpolatedLength?_bounds h).1 (Nat.lt_irrefl 0)
  | cons c body ih =>
    intro literal depth escaped h
    rw [List.cons_append, interpolatedLength?_cons] at h ⊢
    cases hmove : holedMove verbatim literal depth escaped c (body ++ back).head? with
    | close =>
      rw [hmove] at h
      obtain rfl := List.eq_nil_of_length_eq_zero (Nat.succ.inj (Option.some.inj h)).symm
      obtain ⟨rfl, rfl, rfl, rfl, hnext⟩ := holedMove_eq_close_iff.mp hmove
      have hnext' : verbatim = true → back'.head? ≠ some '"' :=
        fun hverbatim hquote => hnext hverbatim (hback hquote)
      rw [List.nil_append, holedMove_eq_close_iff.mpr ⟨rfl, rfl, rfl, rfl, hnext'⟩]
      rfl
    | broken =>
      rw [hmove] at h
      cases h
    | go literal' depth' escaped' =>
      rw [hmove] at h
      obtain ⟨m, hm, hlength⟩ := Option.map_eq_some_iff.mp h
      obtain rfl := Nat.succ.inj hlength
      have hhead : (body ++ back').head? = (body ++ back).head? := by
        cases body with
        | nil => exact absurd (interpolatedLength?_bounds hm).1 (Nat.lt_irrefl 0)
        | cons d body => rfl
      rw [hhead, hmove, HoledMove.length?, ih hm]
      rfl

-- ============================================================== cutting

theorem runLength_le (p : Char → Bool) (s : List Char) : runLength p s ≤ s.length :=
  (List.takeWhile_sublist p).length_le

theorem blockCommentLength_le (s : List Char) : blockCommentLength s ≤ s.length := by
  fun_induction blockCommentLength s with
  | case1 => exact Nat.le_refl _
  | case2 rest => exact Nat.le_add_left 2 rest.length
  | case3 c rest _ ih => exact Nat.succ_le_succ ih

theorem length_measureWord_le {opened : Nat} {s : List Char} (h : opened ≤ s.length) :
    (measureWord opened s).length ≤ s.length := by
  have hrun := runLength_le isIdentifierPart (s.drop opened)
  rw [List.length_drop] at hrun
  show opened + runLength isIdentifierPart (s.drop opened) ≤ s.length
  omega

namespace Rule

variable {s : List Char} {m : Measure}

/-- What is measured is there. -/
theorem length_le (h : Rule s m) (hm : m.kind ≠ .bad) : m.length ≤ s.length := by
  cases h with
  | blank _ | directive | lineComment =>
    rw [List.length_cons, Nat.add_comm 1]
    exact Nat.succ_le_succ (runLength_le _ _)
  | blockComment =>
    rw [List.length_cons, List.length_cons, Nat.add_comm 2]
    exact Nat.add_le_add_right (blockCommentLength_le _) 2
  | word _ | atWord _ => exact length_measureWord_le (by simp)
  | number _ => exact isLocal_number.le_length _
  | fraction _ => exact isLocal_fractionNumber.le_length _
  | @quoted quote kind rest _ hclosed _ =>
    have hlt : quotedItemsLength quote rest < rest.length := by
      refine Nat.lt_of_not_le fun hge => ?_
      rw [List.drop_eq_nil_of_le hge] at hclosed
      cases hclosed
    show quotedItemsLength quote rest + 2 ≤ rest.length + 1
    omega
  | verbatim hn =>
    have hle := (verbatimLength?_bounds hn).2
    simp only [List.length_cons]
    omega
  | holed _ hn =>
    rw [List.length_append]
    exact Nat.add_le_add_left (interpolatedLength?_bounds hn).2 _
  | operator hfound _ _ => exact (operatorAt?_isPrefix hfound).length_le
  | bad => exact absurd rfl hm

/-- A text that opens with a piece is that piece and the rest. -/
theorem exists_piece {c : Char} {rest : List Char} (h : (measure c rest).kind ≠ .bad) :
    ∃ text back, c :: rest = text ++ back ∧ text ≠ []
      ∧ Rule (text ++ back) ⟨(measure c rest).kind, text.length⟩ := by
  have hrule := rule_of_measure c rest
  have hle := hrule.length_le h
  refine ⟨_, _, (List.take_append_drop (measure c rest).length (c :: rest)).symm, ?_, ?_⟩
  · have hpos := length_measure_pos c rest
    simp only [ne_eq, List.take_eq_nil_iff, not_or]
    exact ⟨by omega, List.cons_ne_nil _ _⟩
  · rw [List.take_append_drop, List.length_take, Nat.min_eq_left hle]
    exact hrule

end Rule

/-- How a text is cut from a byte offset on, into lexemes with trivia
between them. -/
inductive Cuts : Nat → List Char → List Lexeme → Prop where
  | done {offset : Nat} : Cuts offset [] []
  | trivia {offset : Nat} {text rest : List Char} {ls : List Lexeme} : text ≠ [] →
    Rule (text ++ rest) ⟨.trivia, text.length⟩ → Cuts (offset + byteSize text) rest ls →
    Cuts offset (text ++ rest) ls
  | lexeme {offset : Nat} {text rest : List Char} {kind : LexemeKind} {ls : List Lexeme} :
    text ≠ [] → Rule (text ++ rest) ⟨.lexeme kind, text.length⟩ →
    Cuts (offset + byteSize text) rest ls →
    Cuts offset (text ++ rest)
      (⟨kind, String.ofList text, ⟨offset, offset + byteSize text⟩⟩ :: ls)

theorem piecesFrom_skip (s : List Char) : ∀ skip offset : Nat,
    piecesFrom skip offset s = piecesFrom 0 (offset + byteSize (s.take skip)) (s.drop skip) := by
  induction s with
  | nil => simp [piecesFrom]
  | cons c rest ih =>
    intro skip offset
    cases skip with
    | zero => rfl
    | succ skip =>
      rw [piecesFrom, ih, List.take_succ_cons, List.drop_succ_cons, byteSize, Nat.add_assoc]

/-- The first piece of a text, and the pieces of the rest. -/
theorem piecesFrom_front {text rest : List Char} {kind : PieceKind} (offset : Nat)
    (h : Rule (text ++ rest) ⟨kind, text.length⟩) (hkind : kind ≠ .bad) (htext : text ≠ []) :
    piecesFrom 0 offset (text ++ rest)
      = ⟨kind, text, offset⟩ :: piecesFrom 0 (offset + byteSize text) rest := by
  obtain ⟨c, text, rfl⟩ := List.exists_cons_of_ne_nil htext
  rw [List.cons_append] at h ⊢
  rw [piecesFrom, h.measure_eq hkind, piecesFrom_skip]
  simp [byteSize, Nat.add_assoc]

theorem Cuts.pieces {offset : Nat} {s : List Char} {ls : List Lexeme} (h : Cuts offset s ls) :
    (∀ p ∈ piecesFrom 0 offset s, p.kind ≠ .bad)
      ∧ (piecesFrom 0 offset s).filterMap Piece.lexeme? = ls := by
  induction h with
  | done => simp [piecesFrom]
  | trivia htext hrule _ ih =>
    rw [piecesFrom_front _ hrule (by simp) htext, List.forall_mem_cons]
    exact ⟨⟨by simp, ih.1⟩, ih.2⟩
  | lexeme htext hrule _ ih =>
    rw [piecesFrom_front _ hrule (by simp) htext, List.forall_mem_cons]
    refine ⟨⟨by simp, ih.1⟩, ?_⟩
    rw [← ih.2]
    rfl

theorem cuts_of_pieces {offset : Nat} {s : List Char}
    (h : ∀ p ∈ piecesFrom 0 offset s, p.kind ≠ .bad) :
    Cuts offset s ((piecesFrom 0 offset s).filterMap Piece.lexeme?) := by
  match s with
  | [] => exact .done
  | c :: rest =>
    have hfirst : (measure c rest).kind ≠ .bad := h _ (by rw [piecesFrom]; exact List.mem_cons_self)
    obtain ⟨text, back, hs, htext, hrule⟩ := Rule.exists_piece hfirst
    rw [hs] at h ⊢
    rw [piecesFrom_front _ hrule hfirst htext] at h ⊢
    have hshorter : back.length < (c :: rest).length := by
      rw [hs, List.length_append]
      exact Nat.lt_add_of_pos_left (List.length_pos_iff.mpr htext)
    have hback := cuts_of_pieces (List.forall_mem_cons.mp h).2
    revert hrule
    cases hkind : (measure c rest).kind with
    | lexeme kind => exact fun hrule => .lexeme htext hrule hback
    | trivia => exact fun hrule => .trivia htext hrule hback
    | bad => exact absurd hkind hfirst
termination_by s.length
decreasing_by exact hshorter

/-- The lexemes of a text that is accepted are those it is cut into. -/
theorem lexemes_eq_ok_iff {source : String} {ls : List Lexeme} :
    lexemes source = .ok ls
      ↔ ∃ tokens, Cuts 0 source.toList tokens ∧ ls = tokens ++ [endLexeme source] := by
  have hbad : (pieces source).filterMap (Piece.complaint? source) = []
      ↔ ∀ p ∈ pieces source, p.kind ≠ .bad := by
    rw [List.filterMap_eq_nil_iff]
    refine forall₂_congr fun p _ => ?_
    unfold Piece.complaint?
    split <;> simp_all
  unfold lexemes
  dsimp only
  split
  · next hnone =>
    constructor
    · intro h
      exact ⟨_, cuts_of_pieces (hbad.mp hnone), (Except.ok.inj h).symm⟩
    · rintro ⟨tokens, hcuts, rfl⟩
      rw [pieces, hcuts.pieces.2]
  · next hsome =>
    constructor
    · intro h
      cases h
    · rintro ⟨tokens, hcuts, rfl⟩
      exact absurd (hbad.mpr hcuts.pieces.1) hsome

end ClrListing.Source
