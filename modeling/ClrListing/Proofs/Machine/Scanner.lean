/-
The scanner over bytes.

What patterns cannot find the end of, the scanner looks for byte by byte:
the closing of a block comment, and the quote that closes a string with
holes. It then moves on by so many bytes, and such a move faults where it
leaves the text or stops in the middle of a character. Going from byte to
byte it steps into characters, behind a backslash above all; but the bytes
that a character goes on with are none of those that matter (`resume_skip`),
so it does what the scanner of characters does and never faults
(`lexemes_eq`).
-/
import ClrListing.Proofs.Machine.Word
import ClrListing.Proofs.Source.Tiles
import ClrListing.Text.Utf8

namespace ClrListing.Machine

open Source Text Text.OneByOne

-- ============================================================ scanning

/-- The byte of an ASCII character. -/
def byteOf (c : Char) : UInt8 := UInt8.ofNat c.toNat

/-- Whether a place in the bytes of a text lies between two characters or
at one of the ends. -/
def isCharBoundary (bytes : List UInt8) (place : Nat) : Bool :=
  place = 0 || place = bytes.length
    || bytes[place]?.any fun b => !Utf8.isContinuation b.toNat

/-- Moves on by so many of the bytes ahead. -/
def bump (bytes : List UInt8) (size : Nat) : Machine Nat :=
  if isCharBoundary bytes size then pure size else fault .outOfRange

/-- Where a block comment is closed. -/
def closing? : List UInt8 → Option Nat
  | [] => none
  | b :: rest =>
    if b = byteOf '*' ∧ rest.head? = some (byteOf '/') then some 0 else (closing? rest).map (· + 1)

/-- Moves on behind a block comment. -/
def blockComment (bytes : List UInt8) : Machine Nat :=
  match closing? bytes with
  | some place => bump bytes (place + 2)
  | none => bump bytes bytes.length

/-- Where a literal in a hole is closed, from a place in it on. -/
def literalEnd (bytes : List UInt8) (quote : UInt8) (place : Nat) : Nat :=
  if h : place < bytes.length then
    if bytes[place] = quote then place
    else if bytes[place] = byteOf '\\' then literalEnd bytes quote (place + 2)
    else literalEnd bytes quote (place + 1)
  else place
termination_by bytes.length - place

theorem le_literalEnd (bytes : List UInt8) (quote : UInt8) (place : Nat) :
    place ≤ literalEnd bytes quote place := by
  fun_induction literalEnd bytes quote place <;> omega

/-- The size of a string with holes up to its closing quote and with it,
from a place in it on, where so many holes are open. -/
def holedEnd? (verbatim : Bool) (bytes : List UInt8) (depth place : Nat) : Option Nat :=
  if h : place < bytes.length then
    let b := bytes[place]
    let next := bytes[place + 1]?
    if b = byteOf '"' ∧ depth = 0 then
      if verbatim = true ∧ next = some (byteOf '"') then holedEnd? verbatim bytes depth (place + 2)
      else some (place + 1)
    else if b = byteOf '\\' ∧ depth = 0 ∧ verbatim = false then
      holedEnd? verbatim bytes depth (place + 2)
    else if b = byteOf '\n' ∧ depth = 0 ∧ verbatim = false then none
    else if b = byteOf leftBrace ∧ depth = 0 ∧ next = some (byteOf leftBrace) then
      holedEnd? verbatim bytes depth (place + 2)
    else if b = byteOf rightBrace ∧ depth = 0 ∧ next = some (byteOf rightBrace) then
      holedEnd? verbatim bytes depth (place + 2)
    else if b = byteOf leftBrace then holedEnd? verbatim bytes (depth + 1) (place + 1)
    else if b = byteOf rightBrace then holedEnd? verbatim bytes (depth - 1) (place + 1)
    else if b = byteOf '"' ∨ b = byteOf '\'' then
      holedEnd? verbatim bytes depth (literalEnd bytes b (place + 1) + 1)
    else holedEnd? verbatim bytes depth (place + 1)
  else none
termination_by bytes.length - place
decreasing_by
  all_goals
    have hliteral := le_literalEnd bytes bytes[place] (place + 1)
    omega

/-- Moves on behind a string with holes of which so many bytes are read. -/
def holed (verbatim : Bool) (opened : Nat) (bytes : List UInt8) : Machine (PieceKind × Nat) :=
  match holedEnd? verbatim bytes 0 0 with
  | some size => do return (.lexeme .string, opened + (← bump bytes size))
  | none => pure (.bad, opened)

/-- What the text `c :: rest` opens with, and how many bytes that is. -/
def measure (c : Char) (rest : List Char) : Machine (PieceKind × Nat) :=
  match c, rest with
  | '/', '*' :: behind => do return (.trivia, 2 + (← blockComment (Utf8.encode behind)))
  | '$', '"' :: behind => holed false 2 (Utf8.encode behind)
  | '$', '@' :: '"' :: behind => holed true 3 (Utf8.encode behind)
  | '@', '$' :: '"' :: behind => holed true 3 (Utf8.encode behind)
  | c, rest =>
    let m := Source.measure c rest
    pure (m.kind, byteSize ((c :: rest).take m.length))

/-- Cuts on from a byte offset, where the next `skip` bytes still belong to
the piece before. -/
def piecesFrom (skip offset : Nat) : List Char → Machine (List Piece)
  | [] => pure []
  | c :: rest =>
    if skip = 0 then do
      let (kind, size) ← measure c rest
      let later ← piecesFrom (size - c.utf8Size) (offset + c.utf8Size) rest
      return ⟨kind, takeBytes size (c :: rest), offset⟩ :: later
    else piecesFrom (skip - c.utf8Size) (offset + c.utf8Size) rest

/-- The lexemes of a source text with the end marked, or a complaint about
every piece that starts none. -/
def lexemes (source : String) : Machine (Except Diagnostics (List Lexeme)) := do
  let cut ← piecesFrom 0 0 source.toList
  match cut.filterMap (Piece.complaint? source) with
  | [] => return .ok (cut.filterMap Piece.lexeme? ++ [endLexeme source])
  | complaints => return .error complaints

-- =============================================================== bytes

/-- The bytes of a character: the first tells an ASCII character, the
others only go on. -/
structure Encodes (c : Char) (b : UInt8) (others : List UInt8) : Prop where
  bytes : Utf8.encodeChar c = b :: others
  tells : ∀ d : Char, d.toNat < 128 → (b = byteOf d ↔ c = d)
  starts : Utf8.isContinuation b.toNat = false
  goOn : ∀ x ∈ others, Utf8.isContinuation x.toNat = true
  size : others.length + 1 = c.utf8Size

theorem ofNat_eq_byteOf_iff {n : Nat} (hn : n < 256) {d : Char} (hd : d.toNat < 128) :
    UInt8.ofNat n = byteOf d ↔ n = d.toNat := by
  unfold byteOf
  rw [← UInt8.toNat_inj, UInt8.toNat_ofNat', UInt8.toNat_ofNat']
  omega

theorem byteOf_inj {c d : Char} (hc : c.toNat < 128) (hd : d.toNat < 128) :
    byteOf c = byteOf d ↔ c = d := by
  rw [byteOf, ofNat_eq_byteOf_iff (by omega) hd, Char.toNat_inj]

theorem isContinuation_ofNat {n : Nat} (hn : n < 256) :
    Utf8.isContinuation (UInt8.ofNat n).toNat = true ↔ 128 ≤ n ∧ n < 192 := by
  rw [UInt8.toNat_ofNat_of_lt' hn]
  simp [Utf8.isContinuation]

theorem isContinuation_low (n : Nat) :
    Utf8.isContinuation (UInt8.ofNat (0x80 + n % 0x40)).toNat = true := by
  rw [isContinuation_ofNat (by omega)]
  omega

theorem exists_encodes (c : Char) : ∃ b others, Encodes c b others := by
  have hc : c.toNat < 0x110000 := by
    rcases c.valid with h | h
    · exact Nat.lt_trans h (by decide)
    · exact h.2
  -- the first byte of a character that is not ASCII is no byte of one that is
  have hlarge : ∀ n others, 192 ≤ n → n < 256 → 128 ≤ c.toNat →
      Utf8.encodeChar c = UInt8.ofNat n :: others →
      (∀ x ∈ others, Utf8.isContinuation x.toNat = true) → others.length + 1 = c.utf8Size →
      ∃ b others, Encodes c b others := by
    intro n others hn hbound hlarge hbytes hothers hsize
    refine ⟨_, _, hbytes, fun d hd => ?_, ?_, hothers, hsize⟩
    · rw [ofNat_eq_byteOf_iff hbound hd, ← Char.toNat_inj]
      omega
    · rw [← Bool.not_eq_true, isContinuation_ofNat hbound]
      omega
  by_cases hone : c.toNat < 0x80
  · refine ⟨_, [], if_pos hone, fun d hd => ?_, ?_, by simp, ?_⟩
    · rw [ofNat_eq_byteOf_iff (by omega) hd, Char.toNat_inj]
    · rw [← Bool.not_eq_true, isContinuation_ofNat (by omega)]
      omega
    · have hle : c.val ≤ 127 := UInt32.le_iff_toNat_le.mpr (Nat.le_of_lt_succ hone)
      exact (Char.utf8Size_eq_one_iff.mpr hle).symm
  by_cases htwo : c.toNat < 0x800
  · refine hlarge (0xc0 + c.toNat / 0x40) [_] (by omega) (by omega) (by omega)
      ((if_neg hone).trans (if_pos htwo)) ?_ ?_
    · simp only [List.mem_singleton, forall_eq, isContinuation_low]
    · refine (Char.utf8Size_eq_two_iff.mpr ⟨UInt32.lt_iff_toNat_lt.mpr ?_, ?_⟩).symm
      · exact Nat.le_of_not_lt hone
      · exact UInt32.le_iff_toNat_le.mpr (Nat.le_of_lt_succ htwo)
  by_cases hthree : c.toNat < 0x10000
  · refine hlarge (0xe0 + c.toNat / 0x1000) [_, _] (by omega) (by omega) (by omega)
      ((if_neg hone).trans ((if_neg htwo).trans (if_pos hthree))) ?_ ?_
    · simp only [List.mem_cons, List.not_mem_nil, or_false, forall_eq_or_imp, forall_eq,
        isContinuation_low, and_self]
    · refine (Char.utf8Size_eq_three_iff.mpr ⟨UInt32.lt_iff_toNat_lt.mpr ?_, ?_⟩).symm
      · exact Nat.le_of_not_lt htwo
      · exact UInt32.le_iff_toNat_le.mpr (Nat.le_of_lt_succ hthree)
  · refine hlarge (0xf0 + c.toNat / 0x40000) [_, _, _] (by omega) (by omega) (by omega)
      ((if_neg hone).trans ((if_neg htwo).trans (if_neg hthree))) ?_ ?_
    · simp only [List.mem_cons, List.not_mem_nil, or_false, forall_eq_or_imp, forall_eq,
        isContinuation_low, and_self]
    · refine (Char.utf8Size_eq_four_iff.mpr (UInt32.lt_iff_toNat_lt.mpr ?_)).symm
      exact Nat.le_of_not_lt hthree

/-- An ASCII character has one byte. -/
theorem Encodes.ascii {c : Char} {b : UInt8} {others : List UInt8} (h : Encodes c b others)
    (hc : c.toNat < 128) : others = [] := by
  have hone := Char.utf8Size_eq_one_iff.mpr (UInt32.le_iff_toNat_le.mpr (Nat.le_of_lt_succ hc))
  exact List.eq_nil_of_length_eq_zero (Nat.succ.inj (h.size.trans hone))

theorem encode_cons (c : Char) (rest : List Char) :
    Utf8.encode (c :: rest) = Utf8.encodeChar c ++ Utf8.encode rest := rfl

theorem encode_append (front back : List Char) :
    Utf8.encode (front ++ back) = Utf8.encode front ++ Utf8.encode back :=
  List.flatMap_append

theorem length_encode (s : List Char) : (Utf8.encode s).length = byteSize s := by
  induction s with
  | nil => rfl
  | cons c rest ih =>
    obtain ⟨b, others, hc⟩ := exists_encodes c
    rw [encode_cons, List.length_append, ih, hc.bytes, List.length_cons, hc.size, byteSize]

/-- The bytes of a text start with that of an ASCII character if the text
starts with the character. -/
theorem head?_encode {d : Char} (hd : d.toNat < 128) (s : List Char) :
    (Utf8.encode s).head? = some (byteOf d) ↔ s.head? = some d := by
  cases s with
  | nil => simp [Utf8.encode]
  | cons c rest =>
    obtain ⟨b, others, hc⟩ := exists_encodes c
    rw [encode_cons, hc.bytes]
    simpa using hc.tells d hd

/-- The bytes of characters that come first end where those of the others
start. -/
theorem isCharBoundary_byteSize (front back : List Char) :
    isCharBoundary (Utf8.encode (front ++ back)) (byteSize front) = true := by
  unfold isCharBoundary
  rw [encode_append, ← length_encode front]
  cases back with
  | nil => simp [Utf8.encode]
  | cons c rest =>
    obtain ⟨b, others, hc⟩ := exists_encodes c
    rw [List.getElem?_append_right (Nat.le_refl _), Nat.sub_self, encode_cons, hc.bytes]
    simp [hc.starts]

/-- A move over whole characters does not fault. -/
theorem bump_byteSize (front back : List Char) :
    bump (Utf8.encode (front ++ back)) (byteSize front) = pure (byteSize front) :=
  if_pos (isCharBoundary_byteSize front back)

-- ====================================================== block comments

/-- No character that matters has a byte that others go on with. -/
theorem ne_byteOf {x : UInt8} (hx : Utf8.isContinuation x.toNat = true) {d : Char}
    (hd : d.toNat < 128) : x ≠ byteOf d := by
  rintro rfl
  unfold byteOf at hx
  rw [isContinuation_ofNat (by omega)] at hx
  omega

theorem closing?_skip {others : List UInt8}
    (h : ∀ x ∈ others, Utf8.isContinuation x.toNat = true) (rest : List UInt8) :
    closing? (others ++ rest) = (closing? rest).map (· + others.length) := by
  induction others with
  | nil => simp
  | cons x others ih =>
    rw [List.forall_mem_cons] at h
    rw [List.cons_append, closing?, if_neg fun hstar => ne_byteOf h.1 (by decide) hstar.1, ih h.2,
      Option.map_map]
    rfl

/-- How many bytes of a block comment are left. -/
def commentSize (bytes : List UInt8) : Nat :=
  ((closing? bytes).map (· + 2)).getD bytes.length

theorem commentSize_encode (s : List Char) :
    commentSize (Utf8.encode s) = byteSize (s.take (blockCommentLength s)) := by
  fun_induction blockCommentLength s with
  | case1 => rfl
  | case2 rest => rfl
  | case3 c rest hopen ih =>
    obtain ⟨b, others, hc⟩ := exists_encodes c
    have hstep : closing? (Utf8.encode (c :: rest))
        = (closing? (Utf8.encode rest)).map (· + c.utf8Size) := by
      rw [encode_cons, hc.bytes, List.cons_append, closing?, if_neg, closing?_skip hc.goOn,
        Option.map_map, ← hc.size]
      · rfl
      · rintro ⟨hstar, hslash⟩
        obtain rfl := (hc.tells '*' (by decide)).mp hstar
        rw [hc.ascii (by decide), List.nil_append, head?_encode (by decide)] at hslash
        obtain ⟨tail, hrest⟩ := List.head?_eq_some_iff.mp hslash
        exact hopen tail rfl hrest
    rw [List.take_succ_cons, byteSize, ← ih]
    unfold commentSize
    rw [hstep, length_encode, length_encode, byteSize]
    cases closing? (Utf8.encode rest) with
    | none => rfl
    | some place =>
      show place + c.utf8Size + 2 = c.utf8Size + (place + 2)
      omega

/-- The move behind a block comment does not fault. -/
theorem blockComment_encode (s : List Char) :
    blockComment (Utf8.encode s) = pure (byteSize (s.take (blockCommentLength s))) := by
  have hsize : blockComment (Utf8.encode s)
      = bump (Utf8.encode s) (commentSize (Utf8.encode s)) := by
    unfold blockComment commentSize
    cases closing? (Utf8.encode s) <;> rfl
  have hbump := bump_byteSize (s.take (blockCommentLength s)) (s.drop (blockCommentLength s))
  rw [List.take_append_drop] at hbump
  rw [hsize, commentSize_encode, hbump]

-- ================================================== strings with holes

theorem getElem?_of_drop {bytes back : List UInt8} {place : Nat} {b : UInt8}
    (h : bytes.drop place = b :: back) :
    bytes[place]? = some b ∧ bytes.drop (place + 1) = back := by
  constructor
  · rw [← List.head?_drop, h]
    rfl
  · rw [← List.drop_drop, h]
    rfl

/-- The characters that matter in a string with holes. -/
def marks : List Char := ['"', '\\', '\n', leftBrace, rightBrace, '\'']

theorem ascii_of_mem_marks : ∀ d ∈ marks, d.toNat < 128 := by decide

/-- Goes on from a place in a string with holes, or in a literal in one of
its holes. -/
def resume (verbatim : Bool) (bytes : List UInt8) (literal : Option Char) (depth place : Nat) :
    Option Nat :=
  match literal with
  | none => holedEnd? verbatim bytes depth place
  | some quote => holedEnd? verbatim bytes depth (literalEnd bytes (byteOf quote) place + 1)

/-- What a character of so many bytes does to the reading of the bytes. -/
def moved (verbatim : Bool) (bytes : List UInt8) (place size : Nat) : HoledMove → Option Nat
  | .close => some (place + 1)
  | .broken => none
  | .go literal depth escaped =>
    resume verbatim bytes literal depth (place + size + escaped.toNat)

section Resume

variable {verbatim : Bool} {bytes : List UInt8} {literal : Option Char} {depth place : Nat}

theorem holedEnd?_eq_none (h : bytes.length ≤ place) :
    holedEnd? verbatim bytes depth place = none := by
  rw [holedEnd?, dif_neg (Nat.not_lt.mpr h)]

theorem resume_eq_none (h : bytes.length ≤ place) :
    resume verbatim bytes literal depth place = none := by
  cases literal with
  | none => exact holedEnd?_eq_none h
  | some quote =>
    exact holedEnd?_eq_none (Nat.le_trans h (Nat.le_succ_of_le (le_literalEnd _ _ _)))

/-- A byte that does not matter is passed over. -/
theorem resume_other {b : UInt8} {back : List UInt8} (hplace : bytes.drop place = b :: back)
    (hb : ∀ d ∈ marks, b ≠ byteOf d) (hliteral : ∀ quote ∈ literal, quote ∈ marks) :
    resume verbatim bytes literal depth place
      = resume verbatim bytes literal depth (place + 1) := by
  obtain ⟨hget, -⟩ := getElem?_of_drop hplace
  obtain ⟨hlt, hget⟩ := List.getElem?_eq_some_iff.mp hget
  cases literal with
  | none =>
    simp only [marks, List.forall_mem_cons] at hb
    obtain ⟨hquote, hescape, hfeed, hleft, hright, happ, -⟩ := hb
    show holedEnd? verbatim bytes depth place = holedEnd? verbatim bytes depth (place + 1)
    rw [holedEnd?, dif_pos hlt]
    simp only [hget, hquote, hescape, hfeed, hleft, hright, happ, false_and, or_self, if_false]
  | some quote =>
    show holedEnd? _ _ _ (literalEnd _ _ _ + 1) = holedEnd? _ _ _ (literalEnd _ _ _ + 1)
    rw [literalEnd, dif_pos hlt, hget, if_neg (hb quote (hliteral quote rfl)),
      if_neg (hb '\\' (by decide))]

/-- The bytes that a character goes on with are passed over. -/
theorem resume_skip {others back : List UInt8}
    (h : ∀ x ∈ others, Utf8.isContinuation x.toNat = true)
    (hliteral : ∀ quote ∈ literal, quote ∈ marks) :
    ∀ place, bytes.drop place = others ++ back →
      resume verbatim bytes literal depth place
        = resume verbatim bytes literal depth (place + others.length) := by
  induction others with
  | nil => exact fun place _ => rfl
  | cons x others ih =>
    intro place hplace
    rw [List.forall_mem_cons] at h
    have hother := fun d hd => ne_byteOf h.1 (ascii_of_mem_marks d hd)
    rw [resume_other hplace hother hliteral, ih h.2 _ (getElem?_of_drop hplace).2,
      List.length_cons, Nat.add_assoc, Nat.add_comm 1]

/-- The byte of a mark does what the mark does. -/
theorem resume_mark {c : Char} {rest : List Char} (hmark : c ∈ marks)
    (hget : bytes[place]? = some (byteOf c))
    (hnext : ∀ d : Char, d.toNat < 128 →
      (bytes[place + 1]? = some (byteOf d) ↔ rest.head? = some d)) :
    resume verbatim bytes none depth place
      = moved verbatim bytes place 1 (holedMove verbatim none depth false c rest.head?) := by
  obtain ⟨hlt, hget⟩ := List.getElem?_eq_some_iff.mp hget
  show holedEnd? _ _ _ _ = _
  rw [holedEnd?, dif_pos hlt]
  simp only [marks, List.mem_cons, List.not_mem_nil, or_false] at hmark
  rcases hmark with rfl | rfl | rfl | rfl | rfl | rfl
  all_goals
    simp (disch := decide) [holedMove, byteOf_inj, hnext, hget, leftBrace, rightBrace]
    first
    | rfl
    | split_ifs <;> simp_all <;> rfl

/-- The byte of a mark does what the mark does in a literal. -/
theorem resume_literal {c quote : Char} {next : Option Char} (hmark : c ∈ marks)
    (hquote : quote = '"' ∨ quote = '\'') (hget : bytes[place]? = some (byteOf c)) :
    resume verbatim bytes (some quote) depth place
      = moved verbatim bytes place 1 (holedMove verbatim (some quote) depth false c next) := by
  obtain ⟨hlt, hget⟩ := List.getElem?_eq_some_iff.mp hget
  have hc := ascii_of_mem_marks c hmark
  have hq : quote.toNat < 128 ∧ quote ≠ '\\' := by
    rcases hquote with rfl | rfl <;> decide
  show holedEnd? _ _ _ (literalEnd _ _ _ + 1) = _
  rw [literalEnd, dif_pos hlt, hget]
  simp only [byteOf_inj hc hq.1, byteOf_inj hc (show '\\'.toNat < 128 by decide)]
  by_cases hclose : c = quote
  · rw [if_pos hclose]
    simp [holedMove, hclose, hq.2]
    rfl
  rw [if_neg hclose]
  by_cases hescape : c = '\\'
  · rw [if_pos hescape]
    simp [holedMove, hescape]
    rfl
  · rw [if_neg hescape]
    simp [holedMove, hescape, hclose]
    rfl

theorem holedMove_other {c : Char} {next : Option Char} (h : c ∉ marks)
    (hliteral : ∀ quote ∈ literal, quote ∈ marks) :
    holedMove verbatim literal depth false c next = .go literal depth false := by
  have hne : ∀ d ∈ marks, c ≠ d := fun d hd heq => h (heq ▸ hd)
  cases literal with
  | none =>
    simp only [marks, List.forall_mem_cons] at hne
    obtain ⟨hquote, hescape, hfeed, hleft, hright, happ, -⟩ := hne
    simp [holedMove, hquote, hescape, hfeed, hleft, hright, happ]
  | some quote => simp [holedMove, hne quote (hliteral quote rfl), hne '\\' (by decide)]

/-- The bytes of a character do what the character does. -/
theorem resume_step {c : Char} {rest : List Char}
    (hplace : bytes.drop place = Utf8.encode (c :: rest))
    (hliteral : ∀ quote ∈ literal, quote = '"' ∨ quote = '\'') :
    resume verbatim bytes literal depth place
      = moved verbatim bytes place c.utf8Size
          (holedMove verbatim literal depth false c rest.head?) := by
  obtain ⟨b, others, hc⟩ := exists_encodes c
  rw [encode_cons, hc.bytes, List.cons_append] at hplace
  obtain ⟨hget, hdrop⟩ := getElem?_of_drop hplace
  have hmarks : ∀ quote ∈ literal, quote ∈ marks := by
    intro quote hquote
    rcases hliteral quote hquote with rfl | rfl <;> decide
  -- a mark has one byte, and the next byte tells the next mark
  have hmark : c ∈ marks → bytes[place]? = some (byteOf c) ∧ c.utf8Size = 1
      ∧ ∀ d : Char, d.toNat < 128 →
        (bytes[place + 1]? = some (byteOf d) ↔ rest.head? = some d) := by
    intro hmem
    have hascii := ascii_of_mem_marks c hmem
    obtain rfl := hc.ascii hascii
    refine ⟨by rw [hget, (hc.tells c hascii).mpr rfl], hc.size.symm, fun d hd => ?_⟩
    rw [← head?_encode hd, ← List.head?_drop, hdrop, List.nil_append]
  -- of any other character all the bytes are passed over
  have hother : c ∉ marks → resume verbatim bytes literal depth place
      = resume verbatim bytes literal depth (place + c.utf8Size) := by
    intro hmem
    have hb : ∀ d ∈ marks, b ≠ byteOf d := by
      intro d hd heq
      rw [hc.tells d (ascii_of_mem_marks d hd)] at heq
      exact hmem (heq ▸ hd)
    rw [resume_other hplace hb hmarks, resume_skip hc.goOn hmarks _ hdrop, ← hc.size,
      Nat.add_assoc, Nat.add_comm 1]
  by_cases hmem : c ∈ marks
  · obtain ⟨hget, hsize, hnext⟩ := hmark hmem
    rw [hsize]
    cases literal with
    | none => exact resume_mark hmem hget hnext
    | some quote => exact resume_literal hmem (hliteral quote rfl) hget
  · rw [hother hmem, holedMove_other hmem hmarks]
    rfl

theorem quote_of_holedMove {literal' : Option Char} {depth' : Nat} {escaped escaped' : Bool}
    {c : Char} {next : Option Char} (hliteral : ∀ quote ∈ literal, quote = '"' ∨ quote = '\'')
    (h : holedMove verbatim literal depth escaped c next = .go literal' depth' escaped') :
    ∀ quote ∈ literal', quote = '"' ∨ quote = '\'' := by
  unfold holedMove at h
  dsimp only at h
  split at h
  · cases h
    exact hliteral
  split at h
  · repeat' split at h
    all_goals
      cases h
      simp_all
  · repeat' split at h
    all_goals cases h
    all_goals simp_all

/-- From where a character starts, or one byte further if it is escaped,
the bytes lead where the characters lead. -/
theorem resume_eq {rest : List Char} : ∀ {literal : Option Char} {depth place : Nat}
    {escaped : Bool}, (∀ quote ∈ literal, quote = '"' ∨ quote = '\'') →
    bytes.drop place = Utf8.encode rest →
    resume verbatim bytes literal depth (place + escaped.toNat)
      = (interpolatedLength? verbatim literal depth escaped rest).map fun n =>
          place + byteSize (rest.take n) := by
  induction rest with
  | nil =>
    intro literal depth place escaped _ hplace
    have hend : bytes.length ≤ place := List.drop_eq_nil_iff.mp hplace
    rw [resume_eq_none (Nat.le_trans hend (Nat.le_add_right _ _))]
    rfl
  | cons c rest ih =>
    intro literal depth place escaped hliteral hplace
    obtain ⟨b, others, hc⟩ := exists_encodes c
    have hplace' := hplace
    rw [encode_cons, hc.bytes, List.cons_append] at hplace'
    obtain ⟨-, hdrop⟩ := getElem?_of_drop hplace'
    have hsize : place + 1 + others.length = place + c.utf8Size := by
      rw [← hc.size]
      omega
    have hafter : bytes.drop (place + c.utf8Size) = Utf8.encode rest := by
      rw [← hsize, ← List.drop_drop, hdrop, List.drop_left]
    have hgo : ∀ (literal' : Option Char) (depth' : Nat) (escaped' : Bool),
        holedMove verbatim literal depth escaped c rest.head? = .go literal' depth' escaped' →
        resume verbatim bytes literal' depth' (place + c.utf8Size + escaped'.toNat)
          = (interpolatedLength? verbatim literal depth escaped (c :: rest)).map fun n =>
              place + byteSize ((c :: rest).take n) := by
      intro literal' depth' escaped' hmove
      rw [ih (quote_of_holedMove hliteral hmove) hafter, interpolatedLength?_cons, hmove,
        HoledMove.length?, Option.map_map]
      refine Option.map_congr fun n _ => ?_
      show place + c.utf8Size + byteSize (rest.take n)
        = place + (c.utf8Size + byteSize (rest.take n))
      omega
    cases escaped with
    | true =>
      -- the first byte has been passed over, and the others do not matter
      have hmarks : ∀ quote ∈ literal, quote ∈ marks := by
        intro quote hquote
        rcases hliteral quote hquote with rfl | rfl <;> decide
      have hpass := hgo literal depth false rfl
      rw [Bool.toNat_false, Nat.add_zero] at hpass
      rw [Bool.toNat_true, resume_skip hc.goOn hmarks _ hdrop, hsize, hpass]
    | false =>
      rw [Bool.toNat_false, Nat.add_zero, resume_step hplace hliteral]
      cases hmove : holedMove verbatim literal depth false c rest.head? with
      | close =>
        rw [interpolatedLength?_cons, hmove]
        obtain ⟨-, -, rfl, -, -⟩ := holedMove_eq_close_iff.mp hmove
        rfl
      | broken =>
        rw [interpolatedLength?_cons, hmove]
        rfl
      | go literal' depth' escaped' => exact hgo literal' depth' escaped' hmove

end Resume

theorem holedEnd?_encode (verbatim : Bool) (s : List Char) :
    holedEnd? verbatim (Utf8.encode s) 0 0
      = (interpolatedLength? verbatim none 0 false s).map fun n => byteSize (s.take n) := by
  have hresume : resume verbatim (Utf8.encode s) none 0 (0 + false.toNat)
      = (interpolatedLength? verbatim none 0 false s).map fun n => 0 + byteSize (s.take n) :=
    resume_eq (by simp) rfl
  simp only [Nat.zero_add] at hresume
  exact hresume

/-- The move behind a string with holes does not fault. -/
theorem holed_encode (opening : List Char) {verbatim : Bool}
    (hopening : byteSize opening = opening.length) (s : List Char) :
    holed verbatim opening.length (Utf8.encode s)
      = pure ((measureInterpolated verbatim opening.length s).kind,
          byteSize
            ((opening ++ s).take (measureInterpolated verbatim opening.length s).length)) := by
  unfold holed measureInterpolated
  rw [holedEnd?_encode]
  cases interpolatedLength? verbatim none 0 false s with
  | none =>
    show pure _ = pure (_, byteSize ((opening ++ s).take opening.length))
    rw [List.take_left, hopening]
  | some n =>
    have hbump := bump_byteSize (s.take n) (s.drop n)
    rw [List.take_append_drop] at hbump
    show (do return (_, opening.length + (← bump _ (byteSize (s.take n)))))
      = pure (_, byteSize ((opening ++ s).take (opening.length + n)))
    rw [hbump, List.take_length_add_append, byteSize_append, hopening]
    rfl

-- ============================================================ lexemes

/-- What the bytes of a text open with is what its characters open with. -/
theorem measure_eq (c : Char) (rest : List Char) :
    measure c rest = pure ((Source.measure c rest).kind,
      byteSize ((c :: rest).take (Source.measure c rest).length)) := by
  unfold measure
  split
  · next behind =>
    rw [blockComment_encode]
    have htake : ('/' :: '*' :: behind).take (2 + blockCommentLength behind)
        = '/' :: '*' :: behind.take (blockCommentLength behind) := by
      rw [Nat.add_comm]
      rfl
    show _ = pure (_, byteSize (('/' :: '*' :: behind).take (2 + blockCommentLength behind)))
    rw [htake, byteSize, byteSize, ← Nat.add_assoc]
    rfl
  · next behind => exact holed_encode ['$', '"'] rfl behind
  · next behind => exact holed_encode ['$', '@', '"'] rfl behind
  · next behind => exact holed_encode ['@', '$', '"'] rfl behind
  · rfl

/-- The bytes are cut where the characters are. -/
theorem piecesFrom_eq (s : List Char) : ∀ skip offset : Nat,
    piecesFrom (byteSize (s.take skip)) offset s = pure (Source.piecesFrom skip offset s) := by
  induction s with
  | nil =>
    intro skip offset
    rfl
  | cons c rest ih =>
    intro skip offset
    have hpos := c.utf8Size_pos
    cases skip with
    | succ skip =>
      rw [List.take_succ_cons, byteSize, piecesFrom, if_neg (by omega), Nat.add_sub_cancel_left, ih]
      rfl
    | zero =>
      obtain ⟨n, hn⟩ : ∃ n, (Source.measure c rest).length = n + 1 :=
        ⟨_, (Nat.sub_add_cancel (length_measure_pos c rest)).symm⟩
      have htake : takeBytes (byteSize ((c :: rest).take (n + 1))) (c :: rest)
          = (c :: rest).take (n + 1) := by
        have hcut := takeBytes_byteSize ((c :: rest).take (n + 1)) ((c :: rest).drop (n + 1))
        rwa [List.take_append_drop] at hcut
      have hlater : byteSize ((c :: rest).take (n + 1)) - c.utf8Size = byteSize (rest.take n) := by
        rw [List.take_succ_cons, byteSize, Nat.add_sub_cancel_left]
      rw [List.take_zero, piecesFrom, if_pos (show byteSize [] = 0 from rfl), measure_eq,
        Source.piecesFrom, hn, Nat.add_sub_cancel, pure_bind]
      dsimp only
      rw [htake, hlater, ih]
      rfl

/-- Over bytes no move of the scanner faults, and it gives the lexemes. -/
theorem lexemes_eq (source : String) : lexemes source = pure (Source.lexemes source) := by
  have hpieces : piecesFrom 0 0 source.toList = pure (pieces source) :=
    piecesFrom_eq source.toList 0 0
  unfold lexemes Source.lexemes
  rw [hpieces, pure_bind]
  dsimp only
  cases (pieces source).filterMap (Piece.complaint? source) <;> rfl

/-- What there is to say of the lexemes of a source but the last, which
marks the end: each covers characters of its own, they follow one another,
and between them the source has gaps only. -/
structure Accounts (source : String) (tokens : List Lexeme) : Prop where
  covers : ∀ l ∈ tokens,
    l.kind ≠ .endOfText ∧ l.span.Proper source ∧ l.span.textOf source = l.text
  ordered : tokens.Pairwise fun l m => l.span.start < m.span.start ∧ l.span.stop ≤ m.span.start
  tiles : Tiles 0 source.toList (tokens ++ [endLexeme source])

/-- The lexemes of a text that can be cut are written. -/
theorem kind_of_cuts {offset : Nat} {s : List Char} {tokens : List Lexeme}
    (h : Cuts offset s tokens) : ∀ l ∈ tokens, l.kind ≠ .endOfText := by
  induction h with
  | done => simp
  | trivia _ _ _ ih => exact ih
  | lexeme _ hrule _ ih => exact List.forall_mem_cons.mpr ⟨hrule.kind_ne_endOfText, ih⟩

/-- The scanner never moves into a character or out of the text, and in a
text that it accepts every character is in one lexeme or in one gap. -/
theorem lexemes_account (source : String) :
    lexemes source = pure (Source.lexemes source)
      ∧ ∀ ls, Source.lexemes source = .ok ls →
        ∃ tokens, ls = tokens ++ [endLexeme source] ∧ Accounts source tokens := by
  refine ⟨lexemes_eq source, fun ls h => ?_⟩
  have hplaced := placed_of_lexemes h
  have htiles := tiles_of_lexemes h
  obtain ⟨tokens, hcuts, rfl⟩ := lexemes_eq_ok_iff.mp h
  have hkind := kind_of_cuts hcuts
  have hcovers : ∀ l ∈ tokens, l.span.Covers source l.text.toList :=
    fun l hl => hplaced.covers l (List.mem_append_left _ hl)
  have hnonempty : ∀ l ∈ tokens, l.span.start < l.span.stop :=
    fun l hl => hplaced.nonempty l (List.mem_append_left _ hl) (hkind l hl)
  refine ⟨tokens, rfl, fun l hl => ⟨hkind l hl, ?_, ?_⟩, ?_, htiles⟩
  · exact Span.proper_of_boundaries (hnonempty l hl) (hcovers l hl).start_boundary
      (hcovers l hl).stop_boundary
  · rw [(hcovers l hl).textOf, String.ofList_toList]
  · have hordered := (List.pairwise_append.mp hplaced.ordered).1
    refine hordered.imp_of_mem fun {l m} hl _ hlm => ⟨?_, hlm⟩
    exact Nat.lt_of_lt_of_le (hnonempty l hl) hlm

/-- A string with an escaped character of two bytes, and a comment that is
not closed. -/
theorem lexemes_account_escape :
    ∃ tokens, [⟨.string, "$\"\\é\"", ⟨0, 6⟩⟩, endLexeme "$\"\\é\" /*"]
        = tokens ++ [endLexeme "$\"\\é\" /*"]
      ∧ Accounts "$\"\\é\" /*" tokens :=
  (lexemes_account "$\"\\é\" /*").2 _ (by decide +kernel)

end ClrListing.Machine
