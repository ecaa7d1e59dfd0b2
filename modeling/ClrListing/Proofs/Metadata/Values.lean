/-
What readers give, whatever they read.

A number of some bytes is less than its bytes can tell, rows are numbered
by their places, the streams that a directory names are inside the
metadata, and the tokens in a signature are made of numbers that stand in
it. None of this depends on how the bytes were made.
-/
import ClrListing.Metadata.Root
import ClrListing.Metadata.Signature
import ClrListing.Metadata.Tables
import ClrListing.Proofs.Metadata.Reads
import ClrListing.Proofs.Run
import Mathlib.Algebra.Group.Nat.Defs

namespace ClrListing.Metadata

open Fallible

-- ============================================================== values

theorem value_of_ok {reader : Reader α} {bytes rest : List UInt8} {a : α}
    (h : reader bytes = .ok (a, rest)) : reader.value bytes = .ok a :=
  congrArg (Except.map Prod.fst) h

theorem value_of_error {reader : Reader α} {bytes : List UInt8} {e : Error}
    (h : reader bytes = .error e) : reader.value bytes = .error e :=
  congrArg (Except.map Prod.fst) h

theorem exists_of_value_eq_ok {reader : Reader α} {bytes : List UInt8} {a : α}
    (h : reader.value bytes = .ok a) : ∃ rest, reader bytes = .ok (a, rest) := by
  cases hread : reader bytes with
  | error e => cases (value_of_error hread).symm.trans h
  | ok r =>
    cases (value_of_ok hread).symm.trans h
    exact ⟨r.2, rfl⟩

/-- Whatever a reader gives satisfies a condition. -/
def Always (reader : Reader α) (P : α → Prop) : Prop :=
  ∀ bytes a rest, reader bytes = .ok (a, rest) → P a

namespace Always

theorem pure {P : α → Prop} {a : α} (h : P a) : Always (pure a : Reader α) P := by
  intro bytes b rest hok
  cases hok
  exact h

theorem bind {P : α → Prop} {Q : β → Prop} {reader : Reader α} {f : α → Reader β}
    (hreader : Always reader P) (hf : ∀ a, P a → Always (f a) Q) : Always (reader >>= f) Q := by
  intro bytes b rest hok
  have hrun : (reader >>= f) bytes = (reader bytes >>= fun r => f r.1 r.2) := rfl
  rw [hrun] at hok
  obtain ⟨r, hread, hok⟩ := exists_of_bind_eq_ok hok
  exact hf r.1 (hreader _ _ _ hread) r.2 b rest hok

/-- Behind a part that may give anything. -/
theorem after {Q : β → Prop} {reader : Reader α} {f : α → Reader β} (hf : ∀ a, Always (f a) Q) :
    Always (reader >>= f) Q :=
  bind (P := fun _ => True) (fun _ _ _ _ => trivial) fun a _ => hf a

theorem damaged {P : α → Prop} (d : Damage) : Always (Reader.damaged d) P := by
  intro bytes a rest hok
  cases hok

theorem times {P : α → Prop} {reader : Reader α} (h : Always reader P) (n : Nat) :
    Always (Reader.times n reader) fun as => as.length = n ∧ ∀ a ∈ as, P a := by
  induction n with
  | zero => exact .pure ⟨rfl, by simp⟩
  | succ n ih =>
    refine h.bind fun a ha => ih.bind fun as has => .pure ⟨by simp [has.1], ?_⟩
    simpa [ha] using has.2

/-- What holds of all that a reader gives holds of its value. -/
theorem of_value {P : α → Prop} {reader : Reader α} (h : Always reader P) {bytes : List UInt8}
    {a : α} (hvalue : reader.value bytes = .ok a) : P a := by
  obtain ⟨rest, hread⟩ := exists_of_value_eq_ok hvalue
  exact h bytes a rest hread

end Always

-- ============================================================= numbers

theorem littleEndian_lt (bytes : List UInt8) : littleEndian bytes < 256 ^ bytes.length := by
  induction bytes with
  | nil => exact Nat.one_pos
  | cons b rest ih =>
    have hbyte := b.toNat_lt
    rw [littleEndian, List.length_cons, Nat.pow_succ]
    omega

theorem splitBytes_eq (n : Nat) (bytes : List UInt8) :
    splitBytes n bytes = if n ≤ bytes.length then some (bytes.take n, bytes.drop n) else none := by
  induction n generalizing bytes with
  | zero => rfl
  | succ n ih =>
    cases bytes with
    | nil => rfl
    | cons b bytes =>
      rw [splitBytes, ih, List.length_cons]
      by_cases h : n ≤ bytes.length
      · rw [if_pos h, if_pos (Nat.succ_le_succ h)]
        rfl
      · rw [if_neg h, if_neg fun h' => h (Nat.le_of_succ_le_succ h')]
        rfl

theorem number_eq (size : Nat) (bytes : List UInt8) :
    Reader.number size bytes = if size ≤ bytes.length
      then .ok (littleEndian (bytes.take size), bytes.drop size) else .error .outOfBounds := by
  change (Reader.take size bytes >>= fun r => .ok (littleEndian r.1, r.2)) = _
  unfold Reader.take
  rw [splitBytes_eq]
  by_cases h : size ≤ bytes.length
  · rw [if_pos h, if_pos h]
    rfl
  · rw [if_neg h, if_neg h]
    rfl

/-- The number of `size` bytes at a place, as far as there are so many. -/
def wordAt (bytes : List UInt8) (place size : Nat) : Nat :=
  littleEndian ((bytes.drop place).take size)

theorem wordAt_lt (bytes : List UInt8) (place size : Nat) : wordAt bytes place size < 256 ^ size :=
  Nat.lt_of_lt_of_le (littleEndian_lt _)
    (Nat.pow_le_pow_right (by decide) (List.length_take_le _ _))

theorem numberAt_eq (bytes : List UInt8) {place size : Nat} (hsize : 0 < size) :
    Reader.numberAt bytes place size
      = if place + size ≤ bytes.length then pure (wordAt bytes place size)
        else .error .outOfBounds := by
  change (Reader.number size (bytes.drop place)).map Prod.fst = _
  rw [number_eq, List.length_drop]
  by_cases h : place + size ≤ bytes.length
  · rw [if_pos h, if_pos (by omega)]
    rfl
  · rw [if_neg h, if_neg (by omega)]
    rfl

theorem numberAt_ok {bytes : List UInt8} {place size : Nat} (hsize : 0 < size)
    (h : place + size ≤ bytes.length) :
    Reader.numberAt bytes place size = pure (wordAt bytes place size) :=
  (numberAt_eq bytes hsize).trans (if_pos h)

theorem value_bind (reader : Reader α) (f : α → Reader β) (bytes : List UInt8) :
    (reader >>= f).value bytes = reader bytes >>= fun r => (f r.1).value r.2 := by
  change (reader bytes >>= fun r => f r.1 r.2).map Prod.fst = _
  cases reader bytes <;> rfl

theorem value_bind_pure (reader : Reader α) (g : α → β) (bytes : List UInt8) :
    (reader >>= fun a => pure (g a)).value bytes = reader.value bytes >>= fun a => pure (g a) := by
  rw [value_bind]
  change _ = (reader bytes).map Prod.fst >>= fun a => pure (g a)
  cases reader bytes <;> rfl

theorem always_take (n : Nat) : Always (Reader.take n) fun part => part.length = n := by
  intro bytes part rest hok
  unfold Reader.take at hok
  rw [splitBytes_eq] at hok
  split at hok
  · next r hsplit =>
    split at hsplit
    · next hle =>
      cases hsplit
      cases hok
      exact List.length_take_of_le hle
    · cases hsplit
  · cases hok

/-- A number is less than its bytes can tell. -/
theorem always_number (size : Nat) : Always (Reader.number size) (· < 256 ^ size) :=
  (always_take size).bind fun part hpart => .pure (hpart ▸ littleEndian_lt part)

theorem always_byte : Always Reader.byte (· < 256) := always_number 1

/-- A compressed number takes less than thirty bits. -/
theorem always_compressed : Always Reader.compressed (· < 2 ^ 29) := by
  refine always_byte.bind fun first _ => ?_
  split
  · exact .pure (by omega)
  split
  · exact always_byte.bind fun second _ => .pure (by omega)
  split
  · refine always_byte.bind fun second _ => always_byte.bind fun third _ =>
      always_byte.bind fun fourth _ => .pure ?_
    omega
  · exact .damaged _

-- ============================================================== tokens

/-- A token is made of a number: the low two bits choose the table, and the
others are the row, whose bits from the 25th on are mixed into the number of
the table. -/
structure IsMadeOf (token : Token) (n : Nat) (t : TableId) : Prop where
  small : n < 2 ^ 29
  chosen : typeTables[n % 4]? = some t
  table : token.tableCode = t.code ||| n / 2 ^ 26
  row : token.row = n / 4 % 2 ^ 24

namespace IsMadeOf

variable {token : Token} {n : Nat} {t : TableId}

theorem mixed (hsmall : n < 2 ^ 29) (hchosen : typeTables[n % 4]? = some t) :
    IsMadeOf (.mixed t (n / 4)) n t := by
  have hrow : n / 4 < 0x8000000 := by omega
  refine ⟨hsmall, hchosen, ?_, Token.row_mixed hrow⟩
  rw [Token.tableCode_mixed hrow, show n / 4 / 0x1000000 = n / 2 ^ 26 by omega]

/-- The chosen table and the row are what the token tells of just if the row
fits into three bytes. -/
theorem sound_iff (h : IsMadeOf token n t) :
    token.isIn t = true ∧ token.row = n / 4 ↔ n < 2 ^ 26 := by
  have hrow := h.row
  constructor
  · rintro ⟨-, heq⟩
    omega
  · intro hfits
    have htable := h.table
    rw [Nat.div_eq_of_lt hfits, Nat.or_zero] at htable
    exact ⟨decide_eq_true htable, by omega⟩

/-- The token names a type just if what is mixed into the number of the table
leaves it as it is. -/
theorem namesType_iff (h : IsMadeOf token n t) :
    NamesType token ↔ t.code ||| n / 2 ^ 26 = t.code := by
  have hmixed : n / 2 ^ 26 < 8 := by
    have := h.small
    omega
  have hchosen : t = .typeDef ∨ t = .typeRef ∨ t = .typeSpec := by
    simpa [typeTables] using List.mem_of_getElem? h.chosen
  unfold NamesType Token.isIn
  rw [h.table]
  revert hmixed
  generalize n / 2 ^ 26 = k
  rcases hchosen with rfl | rfl | rfl <;> revert k <;> decide

end IsMadeOf

/-- A compressed token is made of the number that stands in its place. -/
theorem isMadeOf_compressedToken {bytes rest : List UInt8} {token : Token}
    (h : Reader.compressedToken bytes = .ok (token, rest)) :
    ∃ n t, Reader.compressed bytes = .ok (n, rest) ∧ IsMadeOf token n t := by
  unfold Reader.compressedToken at h
  obtain ⟨⟨n, rest'⟩, hn, h⟩ := exists_of_bind_eq_ok h
  have hsmall := always_compressed _ _ _ hn
  have hlow : n % 4 = 0 ∨ n % 4 = 1 ∨ n % 4 = 2 ∨ n % 4 = 3 := by omega
  dsimp only at h
  rcases hlow with hlow | hlow | hlow | hlow <;> rw [hlow] at h <;> cases h
  · exact ⟨n, .typeDef, hn, .mixed hsmall (by rw [hlow]; rfl)⟩
  · exact ⟨n, .typeRef, hn, .mixed hsmall (by rw [hlow]; rfl)⟩
  · exact ⟨n, .typeSpec, hn, .mixed hsmall (by rw [hlow]; rfl)⟩

-- ========================================================== signatures

/-- What a reader gives from the end of some bytes satisfies a condition, and
what it leaves is an end of them again. -/
def Within (data : List UInt8) (reader : Reader α) (P : α → Prop) : Prop :=
  ∀ bytes a rest, bytes <:+ data → reader bytes = .ok (a, rest) → rest <:+ data ∧ P a

/-- Whether a token is read from some place in bytes. -/
def StandsIn (data : List UInt8) (token : Token) : Prop :=
  ∃ bytes rest, bytes <:+ data ∧ Reader.compressedToken bytes = .ok (token, rest)

namespace Within

variable {data : List UInt8} {P : α → Prop} {Q : β → Prop} {reader : Reader α} {f : α → Reader β}

theorem pure {a : α} (h : P a) : Within data (pure a : Reader α) P := by
  intro bytes b rest hdata hok
  cases hok
  exact ⟨hdata, h⟩

theorem bind (hreader : Within data reader P) (hf : ∀ a, P a → Within data (f a) Q) :
    Within data (reader >>= f) Q := by
  intro bytes b rest hdata hok
  obtain ⟨r, hread, hok⟩ := exists_of_bind_eq_ok hok
  obtain ⟨hleft, ha⟩ := hreader _ _ _ hdata hread
  exact hf r.1 ha r.2 b rest hleft hok

/-- Behind a part of which only matters what it leaves. -/
theorem after (hreader : Within data reader P) (hf : ∀ a, Within data (f a) Q) :
    Within data (reader >>= f) Q :=
  hreader.bind fun a _ => hf a

theorem mono {P' : α → Prop} (hreader : Within data reader P) (h : ∀ a, P a → P' a) :
    Within data reader P' := fun _ _ _ hdata hok =>
  (hreader _ _ _ hdata hok).imp_right (h _)

/-- Behind two branches, of which only matters what they leave. -/
theorem branch {c : Prop} [Decidable c] {left right : Reader α} (hleft : Within data left P)
    (hright : Within data right P) (hf : ∀ a, Within data (f a) Q) :
    Within data (if c then left >>= f else right >>= f) Q := by
  split
  · exact hleft.after hf
  · exact hright.after hf

theorem damaged (d : Damage) : Within data (Reader.damaged d) P := by
  intro bytes a rest hdata hok
  cases hok

theorem times (h : Within data reader P) (n : Nat) :
    Within data (Reader.times n reader) fun as => ∀ a ∈ as, P a := by
  induction n with
  | zero => exact .pure fun a ha => absurd ha List.not_mem_nil
  | succ n ih =>
    exact h.bind fun a ha => ih.bind fun as has => .pure (List.forall_mem_cons.mpr ⟨ha, has⟩)

theorem number (size : Nat) : Within data (Reader.number size) fun _ => True := by
  intro bytes n rest hdata hok
  rw [number_eq] at hok
  split at hok
  · cases hok
    exact ⟨(List.drop_suffix size bytes).trans hdata, trivial⟩
  · cases hok

theorem byte : Within data Reader.byte fun _ => True := number 1

theorem peek : Within data Reader.peek fun _ => True := by
  intro bytes n rest hdata hok
  cases bytes with
  | nil => cases hok
  | cons b bytes =>
    cases hok
    exact ⟨hdata, trivial⟩

theorem compressed : Within data Reader.compressed fun _ => True := by
  refine byte.after fun first => ?_
  split
  · exact .pure trivial
  split
  · exact byte.after fun second => .pure trivial
  split
  · exact byte.after fun second => byte.after fun third => byte.after fun fourth => .pure trivial
  · exact .damaged _

theorem compressedToken : Within data Reader.compressedToken (StandsIn data) := by
  intro bytes token rest hdata hok
  obtain ⟨n, t, hn, -⟩ := isMadeOf_compressedToken hok
  exact ⟨(compressed _ _ _ hdata hn).1, bytes, rest, hdata, hok⟩

end Within

mutual

/-- The tokens of a type and of those in it. -/
def TypeSig.tokens : TypeSig → List Token
  | .named token => [token]
  | .generic token args => token :: typesTokens args
  | .vector inner | .array inner _ | .pointer inner | .byRef inner => inner.tokens
  | .primitive _ | .typeParam _ | .methodParam _ | .functionPointer => []

/-- The tokens of types and of those in them. -/
def typesTokens : List TypeSig → List Token
  | [] => []
  | t :: rest => t.tokens ++ typesTokens rest

end

/-- The tokens of the types of a signature. -/
def MethodSig.tokens (sig : MethodSig) : List Token :=
  sig.returnType.tokens ++ typesTokens sig.params

theorem forall_mem_typesTokens {P : Token → Prop} {ts : List TypeSig}
    (h : ∀ t ∈ ts, ∀ token ∈ t.tokens, P token) : ∀ token ∈ typesTokens ts, P token := by
  induction ts with
  | nil => exact fun token hmem => nomatch hmem
  | cons t rest ih =>
    obtain ⟨ht, hrest⟩ := List.forall_mem_cons.mp h
    exact List.forall_mem_append.mpr ⟨ht, ih hrest⟩

namespace Signature

variable {data : List UInt8} {inner deeper type : Reader TypeSig}

/-- Whether all tokens of a type are read from places in bytes. -/
def AllStandIn (data : List UInt8) (t : TypeSig) : Prop := ∀ token ∈ t.tokens, StandsIn data token

theorem within_readParam (h : Within data type (AllStandIn data)) :
    Within data (readParam type) (AllStandIn data) := by
  refine Within.peek.after fun code => ?_
  split
  · exact Within.byte.after fun _ => h
  · exact h

theorem within_readMethodWith (h : Within data type (AllStandIn data)) :
    Within data (readMethodWith type) fun sig => ∀ token ∈ sig.tokens, StandsIn data token := by
  refine Within.byte.after fun convention => .branch .compressed (.pure trivial)
    fun genericCount => Within.compressed.after fun paramCount => h.bind fun returnType hreturn =>
    ((within_readParam h).times paramCount).bind fun params hparams => .pure ?_
  exact List.forall_mem_append.mpr ⟨hreturn, forall_mem_typesTokens hparams⟩

theorem within_readNumbers : Within data readNumbers fun _ => True :=
  Within.compressed.after fun n => (Within.compressed.times n).mono fun _ _ => trivial

theorem within_readTypeWith (hinner : Within data inner (AllStandIn data))
    (hdeeper : Within data deeper (AllStandIn data)) :
    Within data (readTypeWith inner deeper) (AllStandIn data) := by
  refine Within.byte.after fun code => ?_
  split
  case h_1 => exact .pure fun token h => nomatch h
  split
  case h_1 | h_2 | h_9 => exact hinner.bind fun t h => .pure h
  case h_3 | h_4 =>
    exact Within.compressedToken.bind fun token h => .pure (List.forall_mem_singleton.mpr h)
  case h_5 | h_10 => exact Within.compressed.after fun index => .pure fun token h => nomatch h
  case h_6 =>
    exact hinner.bind fun t h => Within.compressed.after fun rank =>
      within_readNumbers.after fun sizes => within_readNumbers.after fun bounds => .pure h
  case h_7 =>
    exact Within.byte.after fun kind => Within.compressedToken.bind fun base hbase =>
      Within.compressed.after fun count => (hinner.times count).bind fun args hargs =>
      .pure (List.forall_mem_cons.mpr ⟨hbase, forall_mem_typesTokens hargs⟩)
  case h_8 =>
    exact (within_readMethodWith hdeeper).after fun sig => .pure fun token h => nomatch h
  case h_11 | h_12 => exact Within.compressedToken.after fun modifier => hinner
  case h_13 => exact hinner
  case h_14 => exact .damaged _

/-- A level is read with the two below it at hand. -/
theorem within_readType : ∀ levels, Within data (readType levels) (AllStandIn data)
  | 0 => .damaged _
  | 1 => within_readTypeWith (.damaged _) (.damaged _)
  | levels + 2 => within_readTypeWith (within_readType (levels + 1)) (within_readType levels)

end Signature

/-- What compressed tokens are made of, and that the tokens in a signature are
such: each tells of the chosen table and of the whole row just if its number
has no more than 26 bits, and names a type just if what such a number has too
much changes nothing in the number of the table. -/
theorem tokens_of_compressed_numbers (data : List UInt8) :
    (∀ token rest, Reader.compressedToken data = .ok (token, rest) →
      ∃ n t, Reader.compressed data = .ok (n, rest) ∧ IsMadeOf token n t
        ∧ (token.isIn t = true ∧ token.row = n / 4 ↔ n < 2 ^ 26))
    ∧ ∀ sig, Signature.ofBytes data = .ok sig → ∀ token ∈ sig.tokens,
        ∃ place rest n t, Reader.compressedToken (data.drop place) = .ok (token, rest)
          ∧ Reader.compressed (data.drop place) = .ok (n, rest) ∧ IsMadeOf token n t
          ∧ (NamesType token ↔ t.code ||| n / 2 ^ 26 = t.code)
          ∧ (n < 2 ^ 26 → NamesType token) := by
  constructor
  · intro token rest hread
    obtain ⟨n, t, hn, hmade⟩ := isMadeOf_compressedToken hread
    exact ⟨n, t, hn, hmade, hmade.sound_iff⟩
  · intro sig hsig token hmem
    have htypes : Within data (Signature.readType Signature.depthLimit) _ :=
      Signature.within_readType _
    have hwithin := Signature.within_readMethodWith htypes
    obtain ⟨rest, hread⟩ := exists_of_value_eq_ok hsig
    obtain ⟨bytes, left, hsuffix, htoken⟩ :=
      (hwithin data sig rest List.suffix_rfl hread).2 token hmem
    obtain ⟨n, t, hn, hmade⟩ := isMadeOf_compressedToken htoken
    rw [List.suffix_iff_eq_drop.mp hsuffix] at htoken hn
    refine ⟨_, left, n, t, htoken, hn, hmade, hmade.namesType_iff, fun hfits => ?_⟩
    rw [hmade.namesType_iff, Nat.div_eq_of_lt hfits, Nat.or_zero]

/-- A method that gives a generic class with two arguments, the second of
which has a row with more than 24 bits. -/
def sampleSignature : List UInt8 :=
  [0x00, 0x00, 0x15, 0x12, 0x49, 0x02, 0x12, 0x08, 0x12, 0xdf, 0xff, 0xff, 0xfd]

theorem tokens_of_sampleSignature :
    (∃ n t, Reader.compressed [0xdf, 0xff, 0xff, 0xfd] = .ok (n, [])
      ∧ IsMadeOf ⟨0x07ffffff⟩ n t
      ∧ (Token.isIn ⟨0x07ffffff⟩ t = true ∧ Token.row ⟨0x07ffffff⟩ = n / 4 ↔ n < 2 ^ 26))
    ∧ ∃ sig, Signature.ofBytes sampleSignature = .ok sig
      ∧ sig.tokens = [⟨0x01000012⟩, ⟨0x02000002⟩, ⟨0x07ffffff⟩]
      ∧ ∃ place rest n t, Reader.compressedToken (sampleSignature.drop place)
            = .ok (⟨0x02000002⟩, rest)
          ∧ Reader.compressed (sampleSignature.drop place) = .ok (n, rest)
          ∧ IsMadeOf ⟨0x02000002⟩ n t
          ∧ (NamesType ⟨0x02000002⟩ ↔ t.code ||| n / 2 ^ 26 = t.code)
          ∧ (n < 2 ^ 26 → NamesType ⟨0x02000002⟩) :=
  ⟨(tokens_of_compressed_numbers [0xdf, 0xff, 0xff, 0xfd]).1 _ _ rfl, _, rfl, rfl,
    (tokens_of_compressed_numbers sampleSignature).2 _ rfl _ (by decide)⟩

/-- The bits of a large row are put into the number of the table. -/
theorem row_spills :
    Reader.compressedToken [0xdf, 0xff, 0xff, 0xfc] = .ok (⟨0x07ffffff⟩, [])
      ∧ Reader.compressed [0xdf, 0xff, 0xff, 0xfc] = .ok (0x1ffffffc, [])
      ∧ 0x1ffffffc % 4 = 0 ∧ Token.isIn ⟨0x07ffffff⟩ .typeDef = false
      ∧ Token.row ⟨0x07ffffff⟩ ≠ 0x1ffffffc / 4
      ∧ ∃ sig, Signature.ofBytes [0x00, 0x00, 0x12, 0xdf, 0xff, 0xff, 0xfc] = .ok sig
          ∧ sig.tokens = [⟨0x07ffffff⟩] ∧ ¬ NamesType ⟨0x07ffffff⟩ :=
  ⟨rfl, rfl, rfl, rfl, by decide, _, rfl, rfl, by decide⟩

-- =========================================================== numbering

theorem row_of_readTypeDef (l : Layout) (row : Nat) :
    Always (TableRow.read l row) fun r : TypeDefRow => r.row = row :=
  .after fun _ => .after fun _ => .after fun _ => .after fun _ => .after fun _ => .after fun _ =>
    .pure rfl

theorem row_of_readMethodDef (l : Layout) (row : Nat) :
    Always (TableRow.read l row) fun r : MethodDefRow => r.row = row :=
  .after fun _ => .after fun _ => .after fun _ => .after fun _ => .after fun _ => .after fun _ =>
    .pure rfl

/-- Rows are numbered by their places, if each gets the number it is read
with. -/
theorem numbered_readRows [TableRow α] {number : α → Nat} {l : Layout}
    (h : ∀ row, Always (TableRow.read l row) fun r : α => number r = row) (count first : Nat) :
    Always (Table.readRows l first count) fun rows =>
      ∀ i r, rows[i]? = some r → number r = first + i := by
  induction count generalizing first with
  | zero =>
    refine .pure fun i r hr => ?_
    rw [List.getElem?_nil] at hr
    cases hr
  | succ count ih =>
    refine (h first).bind fun row hrow => (ih (first + 1)).bind fun rest hrest => .pure ?_
    intro i r hr
    cases i with
    | zero =>
      cases hr
      exact hrow
    | succ i =>
      rw [hrest i r hr]
      omega

theorem length_readRows [TableRow α] (l : Layout) (count first : Nat) :
    Always (Table.readRows l first count : Reader (List α)) fun rows => rows.length = count := by
  induction count generalizing first with
  | zero => exact .pure rfl
  | succ count ih =>
    exact .after fun row => (ih (first + 1)).bind fun rows hrows => .pure (by simp [hrows])

/-- There are as many rows as the header of the stream tells. -/
theorem length_rows [TableRow α] {s : TableStream} {rows : List α} (hrows : s.rows α = .ok rows) :
    rows.length = s.layout.rowCount (TableRow.table α) := by
  unfold TableStream.rows TableStream.table? at hrows
  dsimp only at hrows
  split at hrows
  · next hzero =>
    cases hrows
    exact hzero.symm
  split at hrows
  · cases hrows
  unfold Table.new at hrows
  dsimp only at hrows
  split at hrows
  · exact (length_readRows _ _ 1).of_value hrows
  · cases hrows

/-- The rows of a table are numbered by their places. -/
theorem numbered_rows [TableRow α] {number : α → Nat}
    (h : ∀ l row, Always (TableRow.read l row) fun r : α => number r = row) {s : TableStream}
    {rows : List α} (hrows : s.rows α = .ok rows) (i : Nat) (r : α) (hr : rows[i]? = some r) :
    number r = i + 1 := by
  unfold TableStream.rows at hrows
  obtain ⟨table, -, hrows⟩ := exists_of_bind_eq_ok hrows
  cases table with
  | none =>
    cases hrows
    rw [List.getElem?_nil] at hr
    cases hr
  | some t =>
    change (Table.rows t : Except Error (List α)) = .ok rows at hrows
    have hnumbered := (numbered_readRows (h t.layout) t.rowCount 1).of_value hrows
    rw [hnumbered i r hr, Nat.add_comm]

-- ============================================================= streams

/-- There is a number of rows, a word of four bytes, for each table. -/
theorem always_readCounts (ts : List TableId) :
    Always (TableStream.readCounts ts) fun counts =>
      counts.length = ts.length ∧ ∀ entry ∈ counts, entry.2 < 2 ^ 32 :=
  ((always_number 4).times _).bind fun words hall => .pure
    ⟨by simp [hall.1], fun entry hentry => hall.2 _ (List.of_mem_zip hentry).2⟩

theorem rowCount_ofCounts_lt {counts : List (TableId × Nat)} {limit : Nat} (hlimit : 0 < limit)
    (h : ∀ entry ∈ counts, entry.2 < limit) (largeStrings largeBlobs largeGuids : Bool)
    (t : TableId) : (Layout.ofCounts counts largeStrings largeBlobs largeGuids).rowCount t < limit := by
  unfold Layout.rowCount Layout.ofCounts
  dsimp only
  cases hlookup : counts.reverse.lookup t with
  | none => exact hlimit
  | some n =>
    obtain ⟨before, behind, hsplit, -⟩ := List.lookup_eq_some_iff.mp hlookup
    have hmem : (t, n) ∈ counts.reverse := hsplit ▸ by simp
    exact h _ (List.mem_reverse.mp hmem)

/-- What the header of the stream of tables is made of. -/
theorem of_tableStream {data : List UInt8} {s : TableStream}
    (h : TableStream.ofBytes data = .ok s) :
    s.data = data ∧ (∀ t, s.layout.rowCount t < 2 ^ 32) ∧ s.start < 2 ^ 32 := by
  unfold TableStream.ofBytes at h
  obtain ⟨-, h⟩ := of_guard_eq_ok h
  obtain ⟨present, -, h⟩ := exists_of_bind_eq_ok h
  obtain ⟨-, h⟩ := of_guard_eq_ok h
  obtain ⟨sorted, -, h⟩ := exists_of_bind_eq_ok h
  obtain ⟨-, h⟩ := of_guard_eq_ok h
  obtain ⟨counts, hcounts, h⟩ := exists_of_bind_eq_ok h
  obtain ⟨major, -, h⟩ := exists_of_bind_eq_ok h
  obtain ⟨minor, -, h⟩ := exists_of_bind_eq_ok h
  obtain ⟨heaps, -, h⟩ := exists_of_bind_eq_ok h
  obtain ⟨hlength, hwords⟩ := (always_readCounts _).of_value hcounts
  have htables : (TableStream.tablesIn present).length ≤ TableId.all.length :=
    List.length_filter_le _ _
  have hall : TableId.all.length = 45 := rfl
  cases h
  refine ⟨rfl, rowCount_ofCounts_lt (Nat.two_pow_pos 32) hwords _ _ _, ?_⟩
  dsimp only
  unfold TableStream.headerSize
  split <;> omega

theorem isInside_readStreams {data : List UInt8} {count offset : Nat} {streams : List StreamHeader}
    (h : Root.readStreams data count offset = .ok streams) :
    ∀ header ∈ streams, header.isInside data.length := by
  induction count generalizing offset streams with
  | zero =>
    cases h
    simp
  | succ count ih =>
    unfold Root.readStreams at h
    obtain ⟨-, h⟩ := of_guard_eq_ok h
    obtain ⟨header, -, h⟩ := exists_of_bind_eq_ok h
    obtain ⟨hinside, h⟩ := of_guard_eq_ok h
    obtain ⟨rest, hrest, h⟩ := exists_of_bind_eq_ok h
    cases h
    simp only [List.mem_cons, forall_eq_or_imp]
    exact ⟨by simpa using hinside, ih hrest⟩

end ClrListing.Metadata
