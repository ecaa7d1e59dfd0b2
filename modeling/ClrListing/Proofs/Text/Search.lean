/-
Texts cut at separators, trimmed and cut into words.

A text is cut where it was put together: at the last separator of a
character that does not come again (`afterLast_append`), at each of them
(`splitAll_append`), and at the first separator of several characters, if
there is none in what stands before it (`splitOnce_append`). A separator
whose first character does not come again in it cannot begin in what stands
before and end in what stands behind, so that it is enough to look into the
parts for it (`infix_append_of_not_mem`, `infix_of_append_cons`).
-/
import ClrListing.Text.Search
import Mathlib.Data.List.Infix

namespace ClrListing.Text

variable {c d : Char} {s t before behind separator tail : List Char}

-- ======================================================== one character

theorem splitAll_of_not_mem (h : c ∉ s) : splitAll c s = [s] := by
  induction s with
  | nil => rfl
  | cons d rest ih =>
    rw [List.mem_cons, not_or] at h
    rw [splitAll, if_neg (Ne.symm h.1), ih h.2]

theorem splitAll_ne_nil : splitAll c s ≠ [] := by
  cases s with
  | nil => nofun
  | cons d rest =>
    rw [splitAll]
    split
    · nofun
    · split <;> nofun

/-- A last piece without the separator is cut off. -/
theorem splitAll_append (h : c ∉ t) : splitAll c (s ++ c :: t) = splitAll c s ++ [t] := by
  induction s with
  | nil =>
    change splitAll c (c :: t) = [[]] ++ [t]
    rw [splitAll, if_pos rfl, splitAll_of_not_mem h]
    rfl
  | cons d rest ih =>
    rw [List.cons_append, splitAll, splitAll, ih]
    by_cases hd : d = c
    · rw [if_pos hd, if_pos hd]
      rfl
    · rw [if_neg hd, if_neg hd]
      cases hpieces : splitAll c rest with
      | nil => exact absurd hpieces splitAll_ne_nil
      | cons piece pieces => rfl

/-- What stands after the last separator has none in it. -/
theorem afterLast_append (h : c ∉ t) : afterLast c (s ++ c :: t) = some t := by
  have hcontains : (s ++ c :: t).contains c = true :=
    List.contains_iff_mem.mpr (List.mem_append_right _ List.mem_cons_self)
  have htail : (s ++ c :: t).reverse.takeWhile (· != c) = t.reverse := by
    rw [List.reverse_append, List.reverse_cons, List.append_assoc]
    rw [List.takeWhile_append_of_pos]
    · rw [List.singleton_append, List.takeWhile_cons_of_neg (by simp), List.append_nil]
    · intro d hd
      rw [bne_iff_ne]
      rintro rfl
      exact h (List.mem_reverse.mp hd)
  unfold afterLast
  rw [if_pos hcontains, htail, List.reverse_reverse]

theorem splitLast_of_not_mem (h : c ∉ s) : splitLast c s = none := by
  have hcontains : s.contains c = false := by
    rw [Bool.eq_false_iff]
    intro hmem
    exact h (List.contains_iff_mem.mp hmem)
  unfold splitLast afterLast
  rw [hcontains]
  rfl

/-- What stands before and after the last separator; behind it there is
none. -/
theorem splitLast_append (h : c ∉ t) : splitLast c (s ++ c :: t) = some (s, t) := by
  have hlength : (s ++ c :: t).length - t.length - 1 = s.length := by
    rw [List.length_append, List.length_cons]
    omega
  unfold splitLast
  rw [afterLast_append h, Option.map_some, hlength, List.take_left]

-- ================================================== several characters

theorem splitOnce_eq_none_iff (h : separator ≠ []) :
    splitOnce separator s = none ↔ ¬ separator <:+: s := by
  induction s with
  | nil =>
    rw [splitOnce, if_neg (by rwa [List.isEmpty_iff]), List.infix_nil]
    exact ⟨fun _ => h, fun _ => rfl⟩
  | cons d rest ih =>
    rw [splitOnce, List.infix_cons_iff, not_or, ← ih, ← List.isPrefixOf_iff_prefix]
    split
    · next hfront => exact ⟨nofun, fun hnone => absurd hfront hnone.1⟩
    · next hfront =>
      rw [Option.map_eq_none_iff]
      exact ⟨fun hrest => ⟨hfront, hrest⟩, And.right⟩

/-- What stands in front of a text and has a character not in it stands in
front of what comes before that character. -/
theorem prefix_of_not_mem (hc : c ∉ t) (h : t <+: before ++ c :: behind) : t <+: before := by
  rcases List.prefix_or_prefix_of_prefix h (List.prefix_append before (c :: behind)) with
    hin | ⟨more, rfl⟩
  · exact hin
  · rw [List.prefix_append_right_inj] at h
    cases more with
    | nil => rw [List.append_nil]
    | cons d more =>
      rw [List.cons_prefix_cons] at h
      exact absurd (List.mem_append_right _ (h.1 ▸ List.mem_cons_self)) hc

/-- A text is cut before the first separator, if that begins with a
character that does not come again in it. -/
theorem splitOnce_append (hc : c ∉ tail) (h : ¬ c :: tail <:+: before) :
    splitOnce (c :: tail) (before ++ (c :: tail ++ behind)) = some (before, behind) := by
  induction before with
  | nil =>
    have hfront : (c :: tail).isPrefixOf (c :: tail ++ behind) = true :=
      List.isPrefixOf_iff_prefix.mpr (List.prefix_append _ _)
    rw [List.nil_append, List.cons_append, splitOnce, ← List.cons_append, if_pos hfront,
      List.drop_left]
  | cons d rest ih =>
    rw [List.infix_cons_iff, not_or] at h
    have hfront : ¬ (c :: tail).isPrefixOf (d :: (rest ++ (c :: tail ++ behind))) = true := by
      rw [List.isPrefixOf_iff_prefix, List.cons_prefix_cons]
      rintro ⟨rfl, htail⟩
      exact h.1 (List.cons_prefix_cons.mpr ⟨rfl, prefix_of_not_mem hc htail⟩)
    rw [List.cons_append, splitOnce, if_neg hfront, ih h.2, Option.map_some]

/-- A separator does not begin in a text that lacks its first character. -/
theorem infix_append_of_not_mem (h : c ∉ before) :
    c :: tail <:+: before ++ s ↔ c :: tail <:+: s := by
  induction before with
  | nil => rfl
  | cons d rest ih =>
    rw [List.mem_cons, not_or] at h
    rw [List.cons_append, List.infix_cons_iff, List.cons_prefix_cons, ih h.2]
    exact or_iff_right fun hfront => h.1 hfront.1

/-- A separator is on one side of a character that it has not. -/
theorem infix_of_append_cons (hd : d ∉ separator) (h : separator <:+: before ++ d :: behind) :
    separator <:+: before ∨ separator <:+: behind := by
  induction before with
  | nil =>
    rw [List.nil_append, List.infix_cons_iff] at h
    rcases h with hfront | hin
    · have hin : separator <+: [] := prefix_of_not_mem hd hfront
      exact .inl hin.isInfix
    · exact .inr hin
  | cons e rest ih =>
    rw [List.cons_append, List.infix_cons_iff] at h
    rcases h with hfront | hin
    · have hin : separator <+: e :: rest := prefix_of_not_mem hd hfront
      exact .inl hin.isInfix
    · exact (ih hin).imp_left List.infix_cons

-- =========================================================== white space

/-- Whether a text ends in something else than a blank. -/
def EndsVisibly (s : List Char) : Prop := ∃ c ∈ s.getLast?, isBlank c = false

/-- Whether a text is one word. -/
def IsWord (s : List Char) : Prop := s ≠ [] ∧ ∀ c ∈ s, isBlank c = false

instance (s : List Char) : Decidable (IsWord s) :=
  decidable_of_iff (s ≠ [] ∧ s.all (fun c => !isBlank c) = true)
    (and_congr_right fun _ => by simp only [List.all_eq_true, Bool.not_eq_true'])

theorem EndsVisibly.append_left (h : EndsVisibly t) (s : List Char) : EndsVisibly (s ++ t) := by
  obtain ⟨c, hc, hblank⟩ := h
  refine ⟨c, ?_, hblank⟩
  rw [List.getLast?_append, Option.mem_def.mp hc]
  rfl

theorem IsWord.endsVisibly (h : IsWord s) : EndsVisibly s :=
  ⟨s.getLast h.1, List.getLast?_eq_some_getLast h.1, h.2 _ (List.getLast_mem h.1)⟩

theorem dropEndWhile_append {p : Char → Bool} (hs : ∃ c ∈ s.getLast?, p c = false)
    (hback : ∀ c ∈ behind, p c = true) : dropEndWhile p (s ++ behind) = s := by
  obtain ⟨c, hc, hlast⟩ := hs
  obtain ⟨front, rfl⟩ := List.getLast?_eq_some_iff.mp (Option.mem_def.mp hc)
  have hbehind : ∀ c ∈ behind.reverse, p c = true := fun c hmem =>
    hback c (List.mem_reverse.mp hmem)
  unfold dropEndWhile
  rw [List.reverse_append, List.dropWhile_append_of_pos hbehind, List.reverse_append,
    List.reverse_singleton, List.singleton_append,
    List.dropWhile_cons_of_neg (by rw [hlast]; exact Bool.false_ne_true), List.reverse_cons,
    List.reverse_reverse]

theorem dropWhile_append_cons {p : Char → Bool} (h : p d = false) :
    (s ++ d :: t).dropWhile p = s.dropWhile p ++ d :: t := by
  have hstop : (d :: t).dropWhile p = d :: t :=
    List.dropWhile_cons_of_neg (by rw [h]; exact Bool.false_ne_true)
  rw [List.dropWhile_append]
  split
  · next hall => rw [List.isEmpty_iff.mp hall, hstop, List.nil_append]
  · rfl

/-- Blanks at both ends, and those that a text itself begins with, are
trimmed off. -/
theorem trim_append (hbefore : ∀ c ∈ before, isBlank c = true) (hd : isBlank d = false)
    (hend : EndsVisibly (d :: t)) (hbehind : ∀ c ∈ behind, isBlank c = true) :
    trim (before ++ (s ++ d :: t) ++ behind) = s.dropWhile isBlank ++ d :: t := by
  unfold trim
  rw [List.append_assoc, List.dropWhile_append_of_pos hbefore, List.append_assoc,
    List.cons_append, dropWhile_append_cons hd, ← List.cons_append, ← List.append_assoc]
  exact dropEndWhile_append (hend.append_left _) hbehind

theorem trim_of_visible (hd : isBlank d = false) (hend : EndsVisibly (d :: t)) :
    trim (d :: t) = d :: t := by
  have hnone : ∀ c ∈ ([] : List Char), isBlank c = true := fun _ h => absurd h List.not_mem_nil
  have htrim := trim_append (s := []) hnone hd hend hnone
  rwa [List.nil_append, List.nil_append, List.append_nil] at htrim

theorem IsWord.trim (h : IsWord s) : trim s = s := by
  cases s with
  | nil => exact absurd rfl h.1
  | cons d t => exact trim_of_visible (h.2 d List.mem_cons_self) h.endsVisibly

theorem wordsAfter_append (h : ∀ c ∈ s, isBlank c = false) (run rest : List Char) :
    wordsAfter run (s ++ rest) = wordsAfter (run ++ s) rest := by
  induction s generalizing run with
  | nil => rw [List.nil_append, List.append_nil]
  | cons d s ih =>
    have hd : ¬ isBlank d = true := by
      rw [h d List.mem_cons_self]
      exact Bool.false_ne_true
    rw [List.cons_append, wordsAfter, if_neg hd, ih (fun c hc => h c (List.mem_cons_of_mem _ hc)),
      List.append_assoc, List.singleton_append]

theorem words_pair (hs : IsWord s) (ht : IsWord t) : words (s ++ ' ' :: t) = [s, t] := by
  have hsecond := wordsAfter_append ht.2 [] []
  rw [List.append_nil, List.nil_append, wordsAfter, if_neg (by rw [List.isEmpty_iff]; exact ht.1)]
    at hsecond
  rw [words, wordsAfter_append hs.2, List.nil_append, wordsAfter, if_pos (by decide),
    if_neg (by rw [List.isEmpty_iff]; exact hs.1), hsecond]

-- =============================================================== numbers

theorem isDigit_of_mem_repr {n : Nat} (h : c ∈ n.repr.toList) : c.isDigit = true := by
  rw [Nat.repr_eq_ofList_toDigits, String.toList_ofList] at h
  exact Nat.isDigit_of_mem_toDigits (by decide) (by decide) h

theorem not_mem_repr (n : Nat) (h : c.isDigit = false) : c ∉ n.repr.toList := by
  intro hmem
  rw [isDigit_of_mem_repr hmem] at h
  cases h

theorem isWord_repr (n : Nat) : IsWord n.repr.toList := by
  constructor
  · rw [Nat.repr_eq_ofList_toDigits, String.toList_ofList]
    exact Nat.toDigits_ne_nil
  · intro c hc
    have hdigit := isDigit_of_mem_repr hc
    have hspace : c ≠ ' ' := by
      rintro rfl
      exact absurd hdigit (by decide)
    have hrange : 48 ≤ c.toNat ∧ c.toNat ≤ 57 := by
      simpa [Char.isDigit, UInt32.le_iff_toNat_le] using hdigit
    unfold isBlank
    grind

/-- A number as it is written is read as that number. -/
theorem readBounded_repr {n bound : Nat} (h : n < bound) :
    readBounded bound n.repr.toList = some n := by
  have hall : n.repr.toList.all (fun c => '0' ≤ c && c ≤ '9') = true := by
    rw [List.all_eq_true]
    intro c hc
    have hdigit := isDigit_of_mem_repr hc
    unfold Char.isDigit at hdigit
    simpa [Char.le_def] using hdigit
  have hfold : n.repr.toList.foldl (fun n c => n * 10 + (c.toNat - '0'.toNat)) 0 = n := by
    rw [Nat.repr_eq_ofList_toDigits, String.toList_ofList]
    conv_rhs => rw [← @Nat.ofDigitChars_ten_toDigits n, Nat.ofDigitChars_eq_foldl]
    refine congrArg (fun f => List.foldl f 0 _) (funext fun m => funext fun c => ?_)
    rw [Nat.mul_comm]
  have hempty : n.repr.toList.isEmpty = false := by
    rw [← Bool.not_eq_true, List.isEmpty_iff]
    exact (isWord_repr n).1
  unfold readBounded
  split
  · next rest hplus =>
    -- no digit is a sign
    exact absurd (hplus ▸ List.mem_cons_self) (not_mem_repr n (c := '+') (by decide))
  · simp only [hempty, hall, hfold, Bool.not_false, Bool.and_self, if_true]
    exact if_pos h

end ClrListing.Text
