/-
Readers and the bytes that are written for them.

`Reads reader bytes a` says that a reader takes exactly these bytes,
whatever stands behind them, and gives `a`. A sequence of readers takes
the bytes of its parts one after the other, so a law about a whole format
follows the format. The laws about numbers close the module: those of a
fixed size, compressed ones with and without a sign, and tokens.
-/
import ClrListing.Metadata.Bytes
import ClrListing.Proofs.Metadata.Token

namespace ClrListing.Metadata

-- ============================================================== the law

/-- The reader takes exactly `bytes`, whatever stands behind them, and
gives `a`. -/
def Reads (reader : Reader α) (bytes : List UInt8) (a : α) : Prop :=
  ∀ rest, reader (bytes ++ rest) = .ok (a, rest)

namespace Reads

variable {p : Reader α} {f : α → Reader β} {bytes more : List UInt8} {a : α} {b : β}

theorem pure (a : α) : Reads (pure a) [] a := fun _ => rfl

theorem bind (hp : Reads p bytes a) (hf : Reads (f a) more b) :
    Reads (p >>= f) (bytes ++ more) b := by
  intro rest
  have hrun : (p >>= f) (bytes ++ (more ++ rest))
      = (p (bytes ++ (more ++ rest)) >>= fun r => f r.1 r.2) := rfl
  rw [List.append_assoc, hrun, hp (more ++ rest)]
  exact hf rest

/-- A first part that is all there is to read. -/
theorem bind_pure (hp : Reads p bytes a) (g : α → β) :
    Reads (p >>= fun a => Pure.pure (g a)) bytes (g a) := by
  have h := hp.bind (f := fun a => Pure.pure (g a)) (pure (g a))
  rwa [List.append_nil] at h

theorem map (hp : Reads p bytes a) (g : α → β) : Reads (g <$> p) bytes (g a) := hp.bind_pure g

/-- What a reader gives on bytes that start with what was written for
it. -/
theorem value (hp : Reads p bytes a) (rest : List UInt8) :
    p.value (bytes ++ rest) = .ok a := by
  show (p (bytes ++ rest)).map Prod.fst = _
  rw [hp rest]
  rfl

/-- A repeated reader takes the bytes of its turns. -/
theorem times {write : γ → List UInt8} {value : γ → α} {items : List γ}
    (h : ∀ x ∈ items, Reads p (write x) (value x)) :
    Reads (Reader.times items.length p) (items.flatMap write) (items.map value) := by
  induction items with
  | nil => exact pure []
  | cons x rest ih =>
    rw [List.flatMap_cons, List.map_cons, List.length_cons, Reader.times]
    have hrest := ih fun y hy => h y (List.mem_cons_of_mem _ hy)
    exact (h x List.mem_cons_self).bind (hrest.bind_pure fun as => value x :: as)

end Reads

-- ==================================================== numbers of a size

theorem splitBytes_append {bytes : List UInt8} {n : Nat} (h : bytes.length = n)
    (rest : List UInt8) : splitBytes n (bytes ++ rest) = some (bytes, rest) := by
  subst h
  induction bytes with
  | nil => rfl
  | cons b bytes ih =>
    rw [List.cons_append, List.length_cons, splitBytes, ih]
    rfl

theorem reads_take {bytes : List UInt8} {n : Nat} (h : bytes.length = n) :
    Reads (Reader.take n) bytes bytes := by
  intro rest
  unfold Reader.take
  rw [splitBytes_append h]

/-- Items of one size take as much as there are of them. -/
theorem length_flatMap_of_forall {write : α → List UInt8} {items : List α} {size : Nat}
    (h : ∀ x ∈ items, (write x).length = size) :
    (items.flatMap write).length = items.length * size := by
  induction items with
  | nil => rw [List.flatMap_nil, List.length_nil, List.length_nil, Nat.zero_mul]
  | cons x rest ih =>
    rw [List.flatMap_cons, List.length_append, h x List.mem_cons_self,
      ih fun y hy => h y (List.mem_cons_of_mem _ hy), List.length_cons, Nat.succ_mul, Nat.add_comm]

/-- A number in so many bytes, the least significant first. -/
def littleEndianBytes : (size : Nat) → Nat → List UInt8
  | 0, _ => []
  | size + 1, n => UInt8.ofNat n :: littleEndianBytes size (n / 256)

theorem length_littleEndianBytes (size n : Nat) : (littleEndianBytes size n).length = size := by
  induction size generalizing n with
  | zero => rfl
  | succ size ih => rw [littleEndianBytes, List.length_cons, ih]

theorem littleEndian_bytes {size n : Nat} (h : n < Nat.pow 256 size) :
    littleEndian (littleEndianBytes size n) = n := by
  induction size generalizing n with
  | zero =>
    have hn : n < 1 := h
    rw [littleEndianBytes, littleEndian]
    omega
  | succ size ih =>
    have hpow : Nat.pow 256 (size + 1) = Nat.pow 256 size * 256 := rfl
    have hdiv : n / 256 < Nat.pow 256 size := by
      rw [hpow] at h
      omega
    rw [littleEndianBytes, littleEndian, ih hdiv, UInt8.toNat_ofNat']
    omega

/-- A number that fits its size is read back. -/
theorem reads_number {size n : Nat} (h : n < Nat.pow 256 size) :
    Reads (Reader.number size) (littleEndianBytes size n) n := by
  have htake := (reads_take (length_littleEndianBytes size n)).map littleEndian
  rwa [littleEndian_bytes h] at htake

theorem reads_byte (b : UInt8) : Reads Reader.byte [b] b.toNat := by
  have htake : Reads (Reader.take 1) [b] [b] := reads_take rfl
  have hbyte := htake.map littleEndian
  rwa [littleEndian, littleEndian, Nat.mul_zero, Nat.add_zero] at hbyte

/-- A number that stands behind so many bytes. -/
theorem numberAt_of_reads {size n offset : Nat} (before : List UInt8) {bytes rest : List UInt8}
    (hread : Reads (Reader.number size) bytes n) (hoffset : before.length = offset) :
    Reader.numberAt (before ++ (bytes ++ rest)) offset size = .ok n := by
  subst hoffset
  unfold Reader.numberAt
  rw [List.drop_left]
  exact hread.value rest

/-- A byte that is given as a number. -/
theorem reads_byte_ofNat {n : Nat} (h : n < 256) : Reads Reader.byte [UInt8.ofNat n] n := by
  have hbyte := reads_byte (UInt8.ofNat n)
  rwa [UInt8.toNat_ofNat', Nat.mod_eq_of_lt h] at hbyte

-- ================================================== compressed numbers

/-- The sizes of compressed numbers. -/
inductive Compression where
  | one | two | four
  deriving DecidableEq, Repr

namespace Compression

/-- The first number that is too large for a size. -/
def limit : Compression → Nat
  | .one => 0x80
  | .two => 0x4000
  | .four => 0x20000000

/-- A number in a given size, the most significant byte first; the first
bits of the first byte tell the size. -/
def bytes : Compression → Nat → List UInt8
  | .one, n => [UInt8.ofNat n]
  | .two, n => [UInt8.ofNat (0x80 + n / 0x100), UInt8.ofNat (n % 0x100)]
  | .four, n =>
    [UInt8.ofNat (0xc0 + n / 0x1000000), UInt8.ofNat (n / 0x10000 % 0x100),
      UInt8.ofNat (n / 0x100 % 0x100), UInt8.ofNat (n % 0x100)]

/-- The least size for an amount of numbers. -/
def least (amount : Nat → Prop) [DecidablePred amount] : Compression :=
  if amount 0x80 then .one else if amount 0x4000 then .two else .four

end Compression

/-- A compressed number of any size is read back. -/
theorem reads_compressed_bytes {size : Compression} {n : Nat} (h : n < size.limit) :
    Reads Reader.compressed (size.bytes n) n := by
  cases size with
  | one =>
    have hn : n < 0x80 := h
    show Reads Reader.compressed ([UInt8.ofNat n] ++ []) n
    refine (reads_byte_ofNat (by omega)).bind ?_
    rw [if_pos hn]
    exact .pure n
  | two =>
    have hn : n < 0x4000 := h
    have hfirst : 0x80 + n / 0x100 < 0xc0 := by omega
    refine (reads_byte_ofNat (show 0x80 + n / 0x100 < 256 by omega)).bind ?_
    rw [if_neg (by omega), if_pos hfirst]
    have hsecond := reads_byte_ofNat (Nat.mod_lt n (by decide : 0 < 0x100))
    have hvalue : (0x80 + n / 0x100 - 0x80) * 0x100 + n % 0x100 = n := by omega
    have h := hsecond.bind_pure fun second => (0x80 + n / 0x100 - 0x80) * 0x100 + second
    rwa [hvalue] at h
  | four =>
    have hn : n < 0x20000000 := h
    have hfirst : 0xc0 + n / 0x1000000 < 0xe0 := by omega
    refine (reads_byte_ofNat (show 0xc0 + n / 0x1000000 < 256 by omega)).bind ?_
    rw [if_neg (by omega), if_neg (by omega), if_pos hfirst]
    have hsecond := reads_byte_ofNat (Nat.mod_lt (n / 0x10000) (by decide : 0 < 0x100))
    have hthird := reads_byte_ofNat (Nat.mod_lt (n / 0x100) (by decide : 0 < 0x100))
    have hfourth := reads_byte_ofNat (Nat.mod_lt n (by decide : 0 < 0x100))
    have hvalue : (0xc0 + n / 0x1000000 - 0xc0) * 0x1000000 + n / 0x10000 % 0x100 * 0x10000
        + n / 0x100 % 0x100 * 0x100 + n % 0x100 = n := by omega
    refine hsecond.bind (hthird.bind (b := n) ?_)
    have h := hfourth.bind_pure fun fourth =>
      (0xc0 + n / 0x1000000 - 0xc0) * 0x1000000 + n / 0x10000 % 0x100 * 0x10000
        + n / 0x100 % 0x100 * 0x100 + fourth
    rwa [hvalue] at h

/-- The first number that is too large to be compressed. -/
def compressedLimit : Nat := 0x20000000

/-- A number without a sign, in the least size that takes it. -/
def compressedBytes (n : Nat) : List UInt8 := (Compression.least (n < ·)).bytes n

theorem reads_compressed {n : Nat} (h : n < compressedLimit) :
    Reads Reader.compressed (compressedBytes n) n := by
  refine reads_compressed_bytes ?_
  unfold Compression.least
  split
  · assumption
  · split
    · assumption
    · exact h

/-- Whether a number with a sign is one of so many. -/
def IsAmong (i : Int) (amount : Nat) : Prop := -amount ≤ 2 * i ∧ 2 * i < amount

instance (i : Int) (amount : Nat) : Decidable (IsAmong i amount) :=
  inferInstanceAs (Decidable (_ ∧ _))

/-- A number with a sign as one without: its last bit is the sign, and the
other bits count up from zero or from the least number. -/
def rotated (i : Int) (amount : Nat) : Nat :=
  if 0 ≤ i then (2 * i).toNat else (2 * i + amount + 1).toNat

/-- The size of a number with a sign: the least that takes it. -/
def signedSize (i : Int) : Compression := .least (IsAmong i)

/-- The number without a sign that a number with a sign is written as. -/
def signedCode (i : Int) : Nat := rotated i (signedSize i).limit

/-- A number with a sign, in the least size that takes it. -/
def signedBytes (i : Int) : List UInt8 := (signedSize i).bytes (signedCode i)

/-- Numbers with signs take as many bytes as those without that they are
written as. -/
theorem reads_signed {i : Int} (h : IsAmong i compressedLimit) :
    Reads Reader.compressed (signedBytes i) (signedCode i) := by
  have hamong : IsAmong i (signedSize i).limit := by
    unfold signedSize Compression.least
    split
    · assumption
    · split
      · assumption
      · exact h
  have heven : (signedSize i).limit % 2 = 0 := by
    cases signedSize i <;> rfl
  refine reads_compressed_bytes ?_
  obtain ⟨hlow, hhigh⟩ := hamong
  unfold signedCode rotated
  split <;> omega

-- ============================================================== tokens

/-- Whether a token names a type. -/
def NamesType (token : Token) : Prop :=
  token.isIn .typeDef = true ∨ token.isIn .typeRef = true ∨ token.isIn .typeSpec = true

instance (token : Token) : Decidable (NamesType token) := inferInstanceAs (Decidable (_ ∨ _))

/-- The number that stands for the table of a type's token. -/
def typeTag (token : Token) : Nat :=
  if token.isIn .typeDef then 0 else if token.isIn .typeRef then 1 else 2

/-- The token of a type, compressed. -/
def tokenBytes (token : Token) : List UInt8 := compressedBytes (token.row * 4 + typeTag token)

theorem row_lt (token : Token) : token.row < Token.rowLimit := Nat.mod_lt _ (by decide)

/-- The tables of types, in the order of their tags. -/
def typeTables : List TableId := [.typeDef, .typeRef, .typeSpec]

/-- A number whose low bits choose a table is read as the row in the others. -/
theorem reads_tagged {n : Nat} {t : TableId} (hn : n < compressedLimit)
    (ht : typeTables[n % 4]? = some t) :
    Reads Reader.compressedToken (compressedBytes n) (.mixed t (n / 4)) := by
  have htag : n % 4 = 0 ∨ n % 4 = 1 ∨ n % 4 = 2 ∨ n % 4 = 3 := by omega
  unfold Reader.compressedToken
  rw [← List.append_nil (compressedBytes n)]
  refine (reads_compressed hn).bind ?_
  rcases htag with htag | htag | htag | htag <;> rw [htag] at ht ⊢ <;> cases ht <;>
    exact .pure _

/-- The tag of a type's token stands for its table. -/
theorem exists_typeTag {token : Token} (h : NamesType token) :
    ∃ t, token.isIn t = true ∧ typeTables[typeTag token]? = some t := by
  unfold typeTag
  by_cases hdef : token.isIn .typeDef = true
  · exact ⟨.typeDef, hdef, by rw [if_pos hdef]; rfl⟩
  by_cases href : token.isIn .typeRef = true
  · exact ⟨.typeRef, href, by rw [if_neg hdef, if_pos href]; rfl⟩
  · have hspec := (h.resolve_left hdef).resolve_left href
    exact ⟨.typeSpec, hspec, by rw [if_neg hdef, if_neg href]; rfl⟩

/-- The token of a type is read back. -/
theorem reads_token {token : Token} (h : NamesType token) :
    Reads Reader.compressedToken (tokenBytes token) token := by
  obtain ⟨t, htable, ht⟩ := exists_typeTag h
  have htag : typeTag token < 3 := (List.getElem?_eq_some_iff.mp ht).1
  have hrow : token.row < 0x1000000 := row_lt token
  have hmod : (token.row * 4 + typeTag token) % 4 = typeTag token := by omega
  have hdiv : (token.row * 4 + typeTag token) / 4 = token.row := by omega
  have hread : Reads Reader.compressedToken (tokenBytes token)
      (.mixed t ((token.row * 4 + typeTag token) / 4)) :=
    reads_tagged (by unfold compressedLimit; omega) (by rw [hmod]; exact ht)
  rwa [hdiv, Token.mixed_row htable] at hread

end ClrListing.Metadata
