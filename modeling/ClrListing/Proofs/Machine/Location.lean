/-
Lines and columns.

A line feed moves on to the first column of the next line, any other
character to the next column. So of two places between characters the later
one is further on, lines first and columns second, until the columns of a
line are used up: from the last column on all places of a line have it. In a
source of less than 2³² - 1 bytes no line is that long, and no two places
have one location (`Located`); in one of 2³² - 1 bytes a line may be
(`longest_line_repeats`).

The machine finds lines in bytes: it counts the bytes of line feeds in a
word of 32 bits and keeps the place behind the last one. The text from there
on it cuts out, which faults where that is not between characters, and the
column counts its characters. No other character has the byte of a line
feed, so the machine finds what the characters tell (`locate_append`).
-/
import ClrListing.Proofs.Machine.Scanner
import Mathlib.Data.List.DropRight
import Mathlib.Data.Prod.Lex

namespace ClrListing

open Source Text

-- =============================================================== order

namespace Source.Location

variable {here there : Location}

/-- A location as it is ordered, lines first and columns second. -/
def key (here : Location) : Nat ×ₗ Nat := toLex (here.line, here.column)

theorem key_lt_iff :
    here.key < there.key ↔
      here.line < there.line ∨ here.line = there.line ∧ here.column < there.column :=
  Prod.Lex.toLex_lt_toLex

theorem key_lt_after (here : Location) (c : Char) : here.key < (here.after c).key := by
  rw [key_lt_iff]
  unfold after
  by_cases hc : c = '\n'
  · rw [if_pos hc]
    exact .inl (Nat.lt_succ_self _)
  · rw [if_neg hc]
    exact .inr ⟨rfl, Nat.lt_succ_self _⟩

/-- Behind a text that is not empty one is further on. -/
theorem key_lt_foldl_after {text : List Char} (h : text ≠ []) (here : Location) :
    here.key < (text.foldl after here).key := by
  induction text generalizing here with
  | nil => exact absurd rfl h
  | cons c text ih =>
    have hstep := key_lt_after here c
    rw [List.foldl_cons]
    cases text with
    | nil => exact hstep
    | cons d rest => exact hstep.trans (ih (List.cons_ne_nil d rest) (here.after c))

/-- The location behind a text, counted from the top. -/
theorem foldl_after_first (text : List Char) :
    text.foldl after first
      = ⟨text.count '\n' + 1, (text.rtakeWhile isInLine).length + 1⟩ := by
  induction text using List.reverseRecOn with
  | nil => rfl
  | append_singleton text c ih =>
    rw [List.foldl_append, ih, List.foldl_cons, List.foldl_nil, after, List.count_append,
      List.rtakeWhile_concat]
    by_cases hc : c = '\n'
    · subst hc
      rfl
    · have hline : isInLine c = true := bne_iff_ne.mpr hc
      rw [if_neg hc, if_pos hline, List.count_singleton, if_neg (by simpa using hc),
        List.length_append]
      rfl

variable {source : String} {before behind : List Char}

theorem ofOffset_byteSize (h : source.toList = before ++ behind) :
    ofOffset source (byteSize before) = (before.foldl after first).capped := by
  unfold ofOffset
  rw [h, takeBytes_byteSize]

/-- Of two locations the larger stays so exactly if it is in a later line or
the other has not the last column yet. -/
theorem key_capped_lt_iff (h : here.key < there.key) :
    here.capped.key < there.capped.key
      ↔ here.capped.line < there.capped.line ∨ here.capped.column < lastColumn := by
  rw [key_lt_iff] at h ⊢
  unfold capped
  dsimp only
  omega

/-- A later place is further on, unless both are in one line and the column
of the first is the last already. -/
theorem key_ofOffset_lt_iff {a b : Nat} (ha : IsBoundary source a) (hb : IsBoundary source b)
    (hlt : a < b) :
    (ofOffset source a).key < (ofOffset source b).key
      ↔ (ofOffset source a).line < (ofOffset source b).line
        ∨ (ofOffset source a).column < lastColumn := by
  obtain ⟨before, behind, hsource, rfl⟩ := ha
  obtain ⟨before', behind', hsource', rfl⟩ := hb
  obtain ⟨between, rfl, -⟩ := exists_between (hsource.symm.trans hsource') (Nat.le_of_lt hlt)
  have hne : between ≠ [] := by
    rintro rfl
    rw [List.append_nil] at hlt
    exact Nat.lt_irrefl _ hlt
  have hkeys := key_lt_foldl_after hne (before.foldl after first)
  rw [← List.foldl_append] at hkeys
  rw [ofOffset_byteSize hsource, ofOffset_byteSize hsource']
  exact key_capped_lt_iff hkeys

/-- Each character adds one at most to the line or to the column. -/
theorem line_add_column_foldl_after (text : List Char) (h : 0 < here.column) :
    (text.foldl after here).line + (text.foldl after here).column
      ≤ here.line + here.column + byteSize text := by
  induction text generalizing here with
  | nil => exact Nat.le_refl _
  | cons c text ih =>
    have hstep : (here.after c).line + (here.after c).column ≤ here.line + here.column + 1
        ∧ 0 < (here.after c).column := by
      unfold after
      by_cases hc : c = '\n'
      · rw [if_pos hc]
        exact ⟨by dsimp only; omega, Nat.one_pos⟩
      · rw [if_neg hc]
        exact ⟨Nat.le_refl _, Nat.succ_pos _⟩
    have hlater := ih hstep.2
    have hsize := c.utf8Size_pos
    rw [List.foldl_cons, byteSize]
    omega

/-- Neither the line nor the column is larger than the offset tells. -/
theorem ofOffset_le {offset : Nat} (h : IsBoundary source offset) :
    (ofOffset source offset).line ≤ offset + 1 ∧ (ofOffset source offset).column ≤ offset + 1 := by
  obtain ⟨before, behind, hsource, rfl⟩ := h
  have hsum := line_add_column_foldl_after before (show 0 < first.column from Nat.one_pos)
  rw [ofOffset_byteSize hsource]
  rw [foldl_after_first] at hsum ⊢
  unfold capped
  dsimp only [first] at hsum ⊢
  omega

/-- In a source that is not too large a later place is further on. -/
theorem strictMonoOn_key_ofOffset (h : source.utf8ByteSize < lastColumn) :
    StrictMonoOn (fun offset => (ofOffset source offset).key)
      {offset | IsBoundary source offset} := by
  intro a ha b hb hlt
  have hcolumn := (ofOffset_le ha).2
  have hsize := hb.le
  exact (key_ofOffset_lt_iff ha hb hlt).mpr (.inr (by omega))

end Source.Location

-- ============================================================= machine

namespace Machine

/-- The line behind bytes and the place at which it starts, going on from a
place in a line. -/
def lineBehind (line start place : Nat) : List UInt8 → Machine (Nat × Nat)
  | [] => pure (line, start)
  | b :: rest =>
    if b = byteOf '\n' then do
      lineBehind (← add 32 line 1) (place + 1) (place + 1) rest
    else lineBehind line start (place + 1) rest

/-- The part of a text from a place up to another, if both are between
characters. -/
def textBetween (bytes : List UInt8) (first stop : Nat) : Machine (List UInt8) :=
  if isCharBoundary bytes first && isCharBoundary bytes stop then part bytes first stop
  else fault .outOfRange

/-- How many characters bytes are. -/
def charCount (bytes : List UInt8) : Nat := bytes.countP fun b => !Utf8.isContinuation b.toNat

/-- A number as a word of so many bits, or the largest if it is larger. -/
def saturate (bits n : Nat) : Nat := min n (2 ^ bits - 1)

/-- The location of a place in the bytes of a text; places past the end
count as the end. -/
def locate (bytes : List UInt8) (offset : Nat) : Machine Location := do
  let offset := min offset bytes.length
  let (line, start) ← lineBehind 1 0 0 (← part bytes 0 offset)
  let column := charCount (← textBetween bytes start offset) + 1
  return ⟨line, saturate 32 column⟩

theorem charCount_append (front back : List UInt8) :
    charCount (front ++ back) = charCount front + charCount back := List.countP_append

/-- Characters are counted by the bytes that they start with. -/
theorem charCount_encode (s : List Char) : charCount (Utf8.encode s) = s.length := by
  induction s with
  | nil => rfl
  | cons c rest ih =>
    obtain ⟨b, others, hc⟩ := exists_encodes c
    have hfirst : charCount [b] = 1 := by
      unfold charCount
      rw [List.countP_singleton, hc.starts]
      rfl
    have hothers : charCount others = 0 := by
      refine List.countP_eq_zero.mpr fun x hx => ?_
      rw [hc.goOn x hx]
      decide
    calc charCount (Utf8.encode (c :: rest))
        = charCount ([b] ++ others ++ Utf8.encode rest) := by rw [encode_cons, hc.bytes]; rfl
      _ = 1 + 0 + rest.length := by
        rw [charCount_append, charCount_append, hfirst, hothers, ih]
      _ = (c :: rest).length := by rw [List.length_cons, Nat.add_zero, Nat.add_comm]

/-- Bytes that a character goes on with are passed. -/
theorem lineBehind_skip {others : List UInt8}
    (h : ∀ x ∈ others, Utf8.isContinuation x.toNat = true) (line start place : Nat)
    (rest : List UInt8) :
    lineBehind line start place (others ++ rest)
      = lineBehind line start (place + others.length) rest := by
  induction others generalizing place with
  | nil => rfl
  | cons x others ih =>
    rw [List.forall_mem_cons] at h
    rw [List.cons_append, lineBehind, if_neg (ne_byteOf h.1 (by decide)), ih h.2, List.length_cons,
      Nat.add_assoc, Nat.add_comm 1]

/-- What one character changes. -/
theorem lineBehind_cons (line start place : Nat) (c : Char) (rest : List Char) :
    lineBehind line start place (Utf8.encode (c :: rest))
      = if c = '\n' then do
          lineBehind (← add 32 line 1) (place + 1) (place + 1) (Utf8.encode rest)
        else lineBehind line start (place + c.utf8Size) (Utf8.encode rest) := by
  obtain ⟨b, others, hc⟩ := exists_encodes c
  rw [encode_cons, hc.bytes, List.cons_append, lineBehind]
  by_cases hfeed : c = '\n'
  · subst hfeed
    rw [if_pos ((hc.tells '\n' (by decide)).mpr rfl), if_pos rfl, hc.ascii (by decide),
      List.nil_append]
  · rw [if_neg (mt (hc.tells '\n' (by decide)).mp hfeed), if_neg hfeed, lineBehind_skip hc.goOn,
      ← hc.size, Nat.add_assoc, Nat.add_comm 1]

/-- What is known behind some text becomes what is known behind more of it;
too many line feeds do not fit the word. -/
theorem lineBehind_encode (text : List Char) : ∀ before : List Char,
    before.count '\n' + 1 < 2 ^ 32 →
    lineBehind (before.count '\n' + 1) (byteSize (before.rdropWhile isInLine)) (byteSize before)
        (Utf8.encode text)
      = do
        let line ← word 32 ((before ++ text).count '\n' + 1)
        return (line, byteSize ((before ++ text).rdropWhile isInLine)) := by
  induction text with
  | nil =>
    intro before hline
    rw [List.append_nil, word_eq hline]
    rfl
  | cons c text ih =>
    intro before hline
    have hmore := ih (before ++ [c])
    rw [List.append_assoc, List.singleton_append, List.count_append] at hmore
    rw [lineBehind_cons]
    by_cases hfeed : c = '\n'
    · subst hfeed
      have hsize : byteSize (before ++ ['\n']) = byteSize before + 1 := byteSize_append _ _
      rw [List.rdropWhile_concat_neg _ _ _ (by decide), List.count_singleton_self, hsize] at hmore
      rw [if_pos rfl]
      -- a line that does not fit here is no larger than that at the end
      by_cases hnext : before.count '\n' + 1 + 1 < 2 ^ 32
      · rw [add_eq hnext]
        exact hmore hnext
      · have htotal : ¬ (before ++ '\n' :: text).count '\n' + 1 < 2 ^ 32 := by
          rw [List.count_append, List.count_cons_self]
          omega
        rw [add, if_neg hnext, word, if_neg htotal]
        rfl
    · have hinLine : isInLine c = true := bne_iff_ne.mpr hfeed
      have hsize : byteSize (before ++ [c]) = byteSize before + c.utf8Size := byteSize_append _ _
      have hcount : [c].count '\n' = 0 := List.count_eq_zero.mpr (by simpa using Ne.symm hfeed)
      rw [List.rdropWhile_concat_pos _ _ _ hinLine, hcount, hsize] at hmore
      rw [if_neg hfeed]
      exact hmore hline

/-- Characters are cut out whole. -/
theorem textBetween_encode (upTo inLine behind : List Char) :
    textBetween (Utf8.encode (upTo ++ inLine ++ behind)) (byteSize upTo)
        (byteSize (upTo ++ inLine))
      = pure (Utf8.encode inLine) := by
  have hfirst := isCharBoundary_byteSize upTo (inLine ++ behind)
  have hstop := isCharBoundary_byteSize (upTo ++ inLine) behind
  rw [← List.append_assoc] at hfirst
  unfold textBetween
  rw [hfirst, hstop, Bool.and_self, if_pos rfl, part_eq, encode_append, encode_append,
    byteSize_append, ← length_encode, ← length_encode, Nat.add_sub_cancel_left,
    List.append_assoc, List.drop_left, List.take_left]
  · rw [byteSize_append]
    exact Nat.le_add_right _ _
  · rw [length_encode, byteSize_append (upTo ++ inLine)]
    exact Nat.le_add_right _ _

/-- The machine finds the location of a place if the line fits its word. -/
theorem locate_append (before behind : List Char) :
    locate (Utf8.encode (before ++ behind)) (byteSize before)
      = do
        let _ ← word 32 (before.foldl Location.after Location.first).line
        return (before.foldl Location.after Location.first).capped := by
  have hsize : byteSize before ≤ (Utf8.encode (before ++ behind)).length := by
    rw [length_encode, byteSize_append]
    exact Nat.le_add_right _ _
  have hfront : part (Utf8.encode (before ++ behind)) 0 (byteSize before)
      = pure (Utf8.encode before) := by
    rw [part_eq (Nat.zero_le _) hsize, List.drop_zero, Nat.sub_zero, encode_append,
      ← length_encode, List.take_left]
  have hbetween := textBetween_encode (before.rdropWhile isInLine) (before.rtakeWhile isInLine)
    behind
  rw [List.rdropWhile_append_rtakeWhile] at hbetween
  have hline := lineBehind_encode before [] (by decide)
  rw [List.nil_append] at hline
  rw [Location.foldl_after_first]
  unfold locate
  simp only [Nat.min_eq_left hsize, hfront, pure_bind]
  refine (congrArg (· >>= _) hline).trans ?_
  simp only [bind_assoc, pure_bind, hbetween, charCount_encode]
  by_cases hfits : before.count '\n' + 1 < 2 ^ 32
  · rw [word_eq hfits]
    rfl
  · rw [word, if_neg hfits]
    rfl

/-- The machine finds the locations of a source as far as its words reach. -/
theorem locate_ofOffset {source : String} {offset : Nat} (h : IsBoundary source offset)
    (hline : (Location.ofOffset source offset).line < 2 ^ 32) :
    locate (Utf8.encode source.toList) offset = pure (Location.ofOffset source offset) := by
  obtain ⟨before, behind, hsource, rfl⟩ := h
  rw [Location.ofOffset_byteSize hsource] at hline ⊢
  have hword : (before.foldl Location.after Location.first).line < 2 ^ 32 := hline
  rw [hsource, locate_append, word_eq hword]
  rfl

-- =========================================================== locations

/-- What the locations of the places between the characters of a source tell,
its two ends included. -/
structure Located (source : String) : Prop where
  /-- Lines count line feeds, and columns the characters behind the last, up to
  the last column. -/
  counted : ∀ before behind, source.toList = before ++ behind →
    Location.ofOffset source (byteSize before)
      = ⟨before.count '\n' + 1,
          min ((before.rtakeWhile isInLine).length + 1) Location.lastColumn⟩
  /-- A later place is further on, lines first and columns second, unless the
  line is the same and the column the last already. -/
  increasing_iff : ∀ a b, IsBoundary source a → IsBoundary source b → a < b →
    ((Location.ofOffset source a).key < (Location.ofOffset source b).key
      ↔ (Location.ofOffset source a).line < (Location.ofOffset source b).line
        ∨ (Location.ofOffset source a).column < Location.lastColumn)
  /-- So a later place is further on in any source of 2³² - 2 bytes at most. -/
  increasing : source.utf8ByteSize + 1 < 2 ^ 32 →
    StrictMonoOn (fun offset => (Location.ofOffset source offset).key)
      {offset | IsBoundary source offset}
  /-- In such a source a location is that of one place only. -/
  apart : source.utf8ByteSize + 1 < 2 ^ 32 →
    Set.InjOn (Location.ofOffset source) {offset | IsBoundary source offset}
  /-- The machine finds a location of which the line fits its word. -/
  found : ∀ offset, IsBoundary source offset → (Location.ofOffset source offset).line < 2 ^ 32 →
    locate (Utf8.encode source.toList) offset = pure (Location.ofOffset source offset)
  /-- All lines of such a source fit. -/
  fits : source.utf8ByteSize + 1 < 2 ^ 32 → ∀ offset, IsBoundary source offset →
    (Location.ofOffset source offset).line < 2 ^ 32

/-- The locations of the places of a source grow with the places, as long as
columns are told apart, and so in every source of less than 2³² - 1 bytes. -/
theorem locations_increase (source : String) : Located source where
  counted := by
    intro before behind hsource
    rw [Location.ofOffset_byteSize hsource, Location.foldl_after_first]
    rfl
  increasing_iff := fun a b ha hb hlt => Location.key_ofOffset_lt_iff ha hb hlt
  increasing := fun hsize => Location.strictMonoOn_key_ofOffset (Nat.lt_of_succ_lt_succ hsize)
  apart := by
    intro hsize a ha b hb hab
    have hkeys := Location.strictMonoOn_key_ofOffset (Nat.lt_of_succ_lt_succ hsize)
    exact hkeys.injOn ha hb (congrArg Location.key hab)
  found := fun offset hoffset hline => locate_ofOffset hoffset hline
  fits := by
    intro hsize offset hoffset
    have hline := (Location.ofOffset_le hoffset).1
    have hle := hoffset.le
    omega

/-- Around the line feed that ends an empty line. -/
theorem locations_increase_emptyLine :
    "é\r\n\n".utf8ByteSize + 1 < 2 ^ 32
      ∧ (Location.ofOffset "é\r\n\n" 4).key < (Location.ofOffset "é\r\n\n" 5).key :=
  ⟨by decide, (locations_increase "é\r\n\n").increasing (by decide)
    ⟨['é', '\r', '\n'], ['\n'], by decide, by decide⟩
    ⟨['é', '\r', '\n', '\n'], [], by decide, by decide⟩ (by decide)⟩

/-- A character of two bytes, both characters of a line's end, an empty line,
and the end. -/
example : ([0, 2, 3, 4, 5].map fun offset => (Location.ofOffset "é\r\n\n" offset).display)
    = ["(1,1)", "(1,2)", "(1,3)", "(2,1)", "(3,1)"] := by decide

-- ========================================================== long lines

/-- A line of so many characters of one byte each. -/
def longLine (n : Nat) : String := String.ofList (List.replicate n 'a')

theorem byteSize_replicate (n : Nat) : byteSize (List.replicate n 'a') = n := by
  induction n with
  | zero => rfl
  | succ n ih =>
    rw [List.replicate_succ, byteSize, ih]
    exact Nat.add_comm 1 n

theorem utf8ByteSize_longLine (n : Nat) : (longLine n).utf8ByteSize = n := by
  rw [← byteSize_toList, longLine, String.toList_ofList, byteSize_replicate]

theorem toList_longLine {m n : Nat} (h : m ≤ n) :
    (longLine n).toList = List.replicate m 'a' ++ List.replicate (n - m) 'a' := by
  rw [longLine, String.toList_ofList, List.replicate_append_replicate, Nat.add_sub_cancel' h]

/-- Every place in a long line is between characters. -/
theorem isBoundary_longLine {m n : Nat} (h : m ≤ n) : IsBoundary (longLine n) m :=
  ⟨_, _, toList_longLine h, byteSize_replicate m⟩

theorem ofOffset_longLine {m n : Nat} (h : m ≤ n) :
    Location.ofOffset (longLine n) m = ⟨1, min (m + 1) Location.lastColumn⟩ := by
  have hoffset := Location.ofOffset_byteSize (toList_longLine h)
  have hline : (List.replicate m 'a').rtakeWhile isInLine = List.replicate m 'a' := by
    refine List.rtakeWhile_eq_self_iff.mpr fun c hc => ?_
    rw [List.eq_of_mem_replicate hc]
    decide
  have hfeeds : (List.replicate m 'a').count '\n' = 0 := by
    refine List.count_eq_zero.mpr fun hmem => ?_
    exact absurd (List.eq_of_mem_replicate hmem) (by decide)
  rw [byteSize_replicate, Location.foldl_after_first, hline, hfeeds,
    List.length_replicate] at hoffset
  exact hoffset

/-- The last two places of a line of 2³² - 1 bytes have one location. -/
theorem longest_line_repeats :
    (longLine 0xffffffff).utf8ByteSize < 2 ^ 32
      ∧ IsBoundary (longLine 0xffffffff) 0xfffffffe
      ∧ IsBoundary (longLine 0xffffffff) 0xffffffff
      ∧ Location.ofOffset (longLine 0xffffffff) 0xfffffffe
        = Location.ofOffset (longLine 0xffffffff) 0xffffffff
      ∧ ¬ StrictMonoOn (fun offset => (Location.ofOffset (longLine 0xffffffff) offset).key)
        {offset | IsBoundary (longLine 0xffffffff) offset} := by
  have hsize : (longLine 0xffffffff).utf8ByteSize < 2 ^ 32 := by
    rw [utf8ByteSize_longLine]
    decide
  have hbefore : IsBoundary (longLine 0xffffffff) 0xfffffffe := isBoundary_longLine (by decide)
  have hend : IsBoundary (longLine 0xffffffff) 0xffffffff := isBoundary_longLine (by decide)
  have hsame : Location.ofOffset (longLine 0xffffffff) 0xfffffffe
      = Location.ofOffset (longLine 0xffffffff) 0xffffffff := by
    rw [ofOffset_longLine (by decide), ofOffset_longLine (by decide)]
    rfl
  refine ⟨hsize, hbefore, hend, hsame, fun hstrict => ?_⟩
  have hlt := hstrict hbefore hend (by decide)
  dsimp only at hlt
  rw [hsame] at hlt
  exact lt_irrefl _ hlt

end Machine

end ClrListing
