/-
The tables of metadata on a machine.

What a machine keeps of the header is a row of numbers for each table and a
width for each kind of coded index, both looked up by number. The widths
are computed once, from numbers of rows that the bytes tell, and where a
table starts is a sum over all tables before it.
-/
import ClrListing.Proofs.Machine.Directory
import ClrListing.Proofs.Metadata.Rows
import ClrListing.Proofs.Metadata.Stream
import Mathlib.Data.Nat.Bitwise

namespace ClrListing.Machine

open Metadata

variable {α : Type} {data : List UInt8} {fuel : Nat}

-- ============================================================== tokens

/-- The token of a row. -/
def token (t : TableId) (row : Nat) : Machine Token := do
  let high ← shiftLeft 32 t.code 24
  return ⟨UInt32.ofNat (high ||| row &&& 0xffffff)⟩

theorem token_eq (t : TableId) (row : Nat) : token t row = pure (.ofRow t row) := by
  have hcode := Token.code_lt t
  have hlow : row &&& 0xffffff = row % 0x1000000 := Nat.and_two_pow_sub_one_eq_mod row 24
  have hor := Nat.two_pow_add_eq_or_of_lt (Nat.mod_lt row (Nat.two_pow_pos 24)) t.code
  have hjoin : t.code * 2 ^ 24 ||| row % 0x1000000 = t.code * 0x1000000 + row % 0x1000000 := by
    rw [Nat.mul_comm t.code]
    exact hor.symm.trans (by omega)
  unfold token Token.ofRow
  rw [shiftLeft_eq (by decide) (by omega), pure_bind, hlow, hjoin]

-- ============================================================== widths

/-- What a machine keeps of a table. -/
structure RowInfo where
  rows : Nat
  /-- How many bits the largest row takes. -/
  bits : Nat
  isLarge : Bool
  deriving DecidableEq, Repr

/-- What a machine keeps of the header. -/
structure TableInfo where
  rows : List RowInfo
  /-- How many bits the largest reference of each kind takes. -/
  codedBits : List Nat
  largeStrings : Bool
  largeGuids : Bool
  largeBlobs : Bool

/-- What is kept of a table with so many rows. -/
def rowInfo (rows : Nat) : Machine RowInfo := do
  let bits ← if rows = 0 then pure 1 else sub 32 (leadingZeros 32 rows)
  return ⟨rows, bits, 0xffff < rows⟩

/-- How many low bits choose the table. -/
def tagBits (k : CodedKind) : Machine Nat := do
  sub 64 (leadingZeros 64 (← sub k.tables.length 1))

/-- How many bits the largest reference of a kind takes. -/
def codedBitsOf (rows : List RowInfo) (k : CodedKind) : Machine Nat := do
  let bits ← k.tables.mapM fun t => do return (← index rows t.code).bits
  add 8 (bits.max?.getD 1) (← tagBits k)

/-- The widths of all kinds. -/
def allCodedBits (rows : List RowInfo) : Machine (List Nat) :=
  CodedKind.all.foldlM (fun widths k => do
      let bits ← codedBitsOf rows k
      update widths k.code fun _ => bits)
    (List.replicate CodedKind.all.length 0)

namespace RowInfo

/-- What is kept of a table, given its number of rows if it is present. -/
def ofCount (count : Option Nat) : RowInfo :=
  let l : Layout := ⟨fun _ => count, false, false, false⟩
  ⟨l.rowCount .module, l.rowBits .module, l.isLarge .module⟩

/-- What is kept of all tables. -/
def all (counts : TableId → Option Nat) : List RowInfo :=
  TableId.all.map fun t => ofCount (counts t)

end RowInfo

/-- What is kept of a header. -/
def TableInfo.of (l : Layout) : TableInfo :=
  ⟨RowInfo.all l.counts, CodedKind.all.map l.codedBits, l.largeStrings, l.largeGuids,
    l.largeBlobs⟩

theorem rowInfo_eq {count : Nat} (h : count < 2 ^ 32) :
    rowInfo count = pure (RowInfo.ofCount (some count)) := by
  unfold rowInfo
  cases count with
  | zero => rfl
  | succ count =>
    rw [if_neg (Nat.succ_ne_zero count), sub_leadingZeros (Nat.succ_ne_zero count) h, pure_bind]
    rfl

theorem tagBits_machine (k : CodedKind) : tagBits k = pure k.tagBits := by
  have hlength : 1 ≤ k.tables.length ∧ k.tables.length - 1 ≠ 0
      ∧ k.tables.length - 1 < 2 ^ 64 := by
    cases k <;> decide
  unfold tagBits
  rw [sub_eq hlength.1, pure_bind, sub_leadingZeros hlength.2.1 hlength.2.2]
  rfl

theorem index_rows (counts : TableId → Option Nat) (t : TableId) :
    index (RowInfo.all counts) t.code = pure (RowInfo.ofCount (counts t)) :=
  index_eq (by cases t <;> rfl)

theorem length_all (counts : TableId → Option Nat) : (RowInfo.all counts).length = TableId.count :=
  rfl

theorem index_codedBits (l : Layout) (k : CodedKind) :
    index (TableInfo.of l).codedBits k.code = pure (l.codedBits k) :=
  index_eq (by cases k <;> rfl)

theorem rowBits_le (l : Layout) (h : ∀ t, l.rowCount t < 2 ^ 32) (t : TableId) :
    l.rowBits t ≤ 32 := by
  have hcount := h t
  unfold Layout.rowCount at hcount
  unfold Layout.rowBits
  split
  · omega
  · omega
  · next n hn =>
    rw [hn] at hcount
    exact (Nat.log2_lt (Nat.succ_ne_zero n)).mpr hcount

theorem codedBitsOf_eq {l : Layout} (h : ∀ t, l.rowCount t < 2 ^ 32) (k : CodedKind) :
    codedBitsOf (RowInfo.all l.counts) k = pure (l.codedBits k) := by
  have hall : (k.tables.mapM fun t => do return (← index (RowInfo.all l.counts) t.code).bits)
      = (pure (k.tables.map l.rowBits) : Machine (List Nat)) := by
    refine mapM_eq_pure fun t _ => ?_
    rw [index_rows]
    rfl
  have hmax : (k.tables.map l.rowBits).max?.getD 1 = (k.tables.map l.rowBits).foldl max 0 := by
    obtain ⟨t, ts, htables⟩ : ∃ t ts, k.tables = t :: ts := by
      cases k <;> exact ⟨_, _, rfl⟩
    rw [htables, List.map_cons, List.max?_cons', List.foldl_cons, Nat.zero_max]
    rfl
  have hbits : (k.tables.map l.rowBits).foldl max 0 ≤ 32 := by
    refine (Layout.foldl_max_le _ _ _).mpr ⟨Nat.zero_le _, fun bits hmem => ?_⟩
    obtain ⟨t, -, rfl⟩ := List.mem_map.mp hmem
    exact rowBits_le l h t
  have htag : k.tagBits < 16 := CodedKind.tagBits_eq k ▸ CodedKind.tagWidth_le k
  unfold codedBitsOf
  rw [hall, pure_bind, tagBits_machine, pure_bind, hmax, add_eq (by omega)]
  rfl

theorem allCodedBits_eq {l : Layout} (h : ∀ t, l.rowCount t < 2 ^ 32) :
    allCodedBits (RowInfo.all l.counts) = pure (CodedKind.all.map l.codedBits) := by
  unfold allCodedBits
  simp only [codedBitsOf_eq h]
  rfl

-- ============================================================== header

/-- The header of the stream of tables. -/
structure Tables where
  majorVersion : Nat
  minorVersion : Nat
  /-- A bit for each table that is present. -/
  present : Nat
  /-- A bit for each table that is sorted. -/
  sorted : Nat
  info : TableInfo
  data : List UInt8
  /-- Where the first table starts. -/
  start : Nat

/-- Reads the numbers of rows of those of the given tables that are
present. -/
def readRowInfos (data : List UInt8) (present : Nat) :
    List TableId → List RowInfo → (place : Nat) → Machine (List RowInfo)
  | [], infos, _ => return infos
  | t :: rest, infos, place => do
    if present &&& (← shiftLeft 64 1 t.code) = 0 then readRowInfos data present rest infos place
    else
      let (count, place) ← Cursor.number 4 data place
      let info ← rowInfo count
      let infos ← update infos t.code fun _ => info
      readRowInfos data present rest infos place

/-- Reads what is kept of the header. -/
def readTableInfo (data : List UInt8) (present : Nat) : Machine TableInfo := do
  if (← shiftRight 64 present TableId.count) ≠ 0 then fail .notSupported
  let infos ← readRowInfos data present TableId.all (List.replicate TableId.count ⟨0, 0, false⟩) 24
  let some heaps := data[6]? | fail .outOfBounds
  let codedBits ← allCodedBits infos
  return ⟨infos, codedBits, heaps.toNat &&& 1 = 1, heaps.toNat &&& 2 = 2, heaps.toNat &&& 4 = 4⟩

/-- How many bits of a word are set. -/
def popCount (word : Nat) : Nat := (List.range 64).countP word.testBit

/-- Where the first table starts: behind the numbers of rows, and behind four
bytes more if a flag among the sizes of heaps says so. -/
def startOf (present heaps : Nat) : Machine Nat := do
  let behind ← add 64 24 (← mul 64 (popCount present) 4)
  if heaps &&& 0x40 ≠ 0 then add 64 behind 4 else return behind

/-- Reads the header of the stream of tables. -/
def readTables (data : List UInt8) : Machine Tables := do
  if data.length < TableStream.headerSize then fail .outOfBounds
  let present ← readNumber 8 (← rest data 8)
  if present = 0 then fail (.damaged .noRows)
  let heaps ← index data 6
  let start ← startOf present heaps.toNat
  let major ← index data 4
  let minor ← index data 5
  let sorted ← readNumber 8 (← rest data 16)
  let info ← readTableInfo data present
  return ⟨major.toNat, minor.toNat, present, sorted, info, data, start⟩

/-- What a machine makes of a header. -/
def Tables.of (s : TableStream) : Tables :=
  ⟨s.majorVersion, s.minorVersion, s.present, s.sorted, .of s.layout, s.data, s.start⟩

/-- The number of rows of one more table. -/
def record (counts : TableId → Option Nat) (entry : TableId × Nat) (t : TableId) : Option Nat :=
  if t = entry.1 then some entry.2 else counts t

theorem readCounts_cons (t : TableId) (ts : List TableId) :
    TableStream.readCounts (t :: ts) = (do
      let count ← Reader.number 4
      let entries ← TableStream.readCounts ts
      return (t, count) :: entries) := by
  unfold TableStream.readCounts
  rw [List.length_cons, Reader.times]
  simp only [bind_assoc, pure_bind, List.zip_cons_cons]

theorem value_readCounts_cons (t : TableId) (ts : List TableId) (bytes : List UInt8) :
    (TableStream.readCounts (t :: ts)).value bytes = (do
      let r ← Reader.number 4 bytes
      let entries ← (TableStream.readCounts ts).value r.2
      return (t, r.1) :: entries) := by
  rw [readCounts_cons, value_bind]
  simp only [value_bind_pure]

theorem update_all (counts : TableId → Option Nat) (t : TableId) (count : Nat) :
    update (RowInfo.all counts) t.code (fun _ => RowInfo.ofCount (some count))
      = pure (RowInfo.all (record counts (t, count))) := by
  rw [update_eq (length_all counts ▸ TableContents.code_lt_count t)]
  refine congrArg pure ?_
  cases t <;> rfl

theorem foldl_record (entries : List (TableId × Nat)) (counts : TableId → Option Nat)
    (t : TableId) : entries.foldl record counts t = (entries.reverse.lookup t).or (counts t) := by
  induction entries generalizing counts with
  | nil => rfl
  | cons entry entries ih =>
    rw [List.foldl_cons, ih, List.reverse_cons, List.lookup_append, Option.or_assoc]
    unfold record
    by_cases h : t = entry.1
    · rw [h, List.lookup_cons_self, if_pos rfl]
      cases entries.reverse.lookup entry.1 <;> rfl
    · rw [List.lookup_cons, beq_false_of_ne h, if_neg h]
      cases entries.reverse.lookup t <;> rfl

theorem foldl_record_none (entries : List (TableId × Nat))
    (largeStrings largeBlobs largeGuids : Bool) :
    entries.foldl record (fun _ => none)
      = (Layout.ofCounts entries largeStrings largeBlobs largeGuids).counts :=
  funext fun t => (foldl_record entries _ t).trans Option.or_none

theorem and_bit_eq_zero (word i : Nat) : word &&& 2 ^ i = 0 ↔ word.testBit i = false := by
  rw [Nat.and_two_pow]
  cases word.testBit i <;> simp

theorem readRowInfos_eq (hdata : data.length < 2 ^ 64) (present : Nat) (ts : List TableId)
    (counts : TableId → Option Nat) (place : Nat) :
    readRowInfos data present ts (RowInfo.all counts) place
      = lift (do
        let entries ← (TableStream.readCounts (ts.filter fun t => present.testBit t.code)).value
          (data.drop place)
        return RowInfo.all (entries.foldl record counts)) := by
  induction ts generalizing counts place with
  | nil => rfl
  | cons t ts ih =>
    have hcode : t.code < 64 := Token.code_lt t
    have hbit : 1 * 2 ^ t.code < 2 ^ 64 := by
      rw [Nat.one_mul]
      exact Nat.pow_lt_pow_right (by decide) hcode
    unfold readRowInfos
    rw [shiftLeft_eq hcode hbit, pure_bind, Nat.one_mul]
    simp only [and_bit_eq_zero]
    by_cases hpresent : present.testBit t.code = false
    · rw [if_pos hpresent, List.filter_cons_of_neg (by simp [hpresent]), ih]
    · rw [if_neg hpresent, List.filter_cons_of_pos (by simpa using hpresent),
        value_readCounts_cons, number_at hdata (by decide), number_eq, List.length_drop]
      by_cases hplace : place + 4 ≤ data.length
      · have hword := wordAt_lt data place 4
        rw [if_pos hplace, if_pos (by omega), List.drop_drop, pure_bind]
        dsimp only
        rw [rowInfo_eq hword, pure_bind, update_all, pure_bind, ih]
        simp only [lift_bind, bind_assoc]
        rfl
      · rw [if_neg hplace, if_neg (by omega)]
        rfl

/-- The bits of the sizes of heaps, read as masks and one by one. -/
theorem heap_bits : ∀ heaps < 256, decide (heaps &&& 1 = 1) = heaps.testBit 0
    ∧ decide (heaps &&& 2 = 2) = heaps.testBit 1 ∧ decide (heaps &&& 4 = 4) = heaps.testBit 2
    ∧ (heaps &&& 0x40 ≠ 0 ↔ heaps.testBit 6) := by
  decide +kernel

theorem wordAt_one {place : Nat} (h : place < data.length) :
    wordAt data place 1 = data[place].toNat := by
  unfold wordAt
  rw [List.drop_eq_getElem_cons h]
  rfl

theorem readTableInfo_eq (hdata : data.length < 2 ^ 64) (hlen : 24 ≤ data.length) {present : Nat}
    (hpresent : present / 2 ^ TableId.count = 0) :
    readTableInfo data present = lift (do
      let counts ← (TableStream.readCounts (TableStream.tablesIn present)).value (data.drop 24)
      let heaps := wordAt data 6 1
      return TableInfo.of
        (.ofCounts counts (heaps.testBit 0) (heaps.testBit 2) (heaps.testBit 1))) := by
  have hnone : List.replicate TableId.count ⟨0, 0, false⟩ = RowInfo.all fun _ => none := rfl
  unfold readTableInfo
  rw [shiftRight_eq (by decide), pure_bind, hpresent, if_neg (by decide), hnone,
    readRowInfos_eq hdata, lift_bind, bind_assoc]
  refine bind_congr_lift rfl fun counts hcounts => ?_
  obtain ⟨-, hwords⟩ := (always_readCounts _).of_value hcounts
  have hheaps : data[6]? = some data[6] := List.getElem?_eq_getElem (by omega)
  obtain ⟨hstrings, hguids, hblobs, -⟩ := heap_bits data[6].toNat data[6].toNat_lt
  rw [lift_pure, pure_bind, hheaps, wordAt_one (by omega)]
  dsimp only
  -- what is kept is what the layout tells
  have hrows := rowCount_ofCounts_lt (Nat.two_pow_pos 32) hwords (data[6].toNat.testBit 0)
    (data[6].toNat.testBit 2) (data[6].toNat.testBit 1)
  rw [foldl_record_none counts (data[6].toNat.testBit 0) (data[6].toNat.testBit 2)
    (data[6].toNat.testBit 1), hstrings, hguids, hblobs, allCodedBits_eq hrows, pure_bind]
  rfl

/-- A bit of the word of present tables for each of them. -/
theorem popCount_eq {present : Nat} (hpresent : present / 2 ^ TableId.count = 0) :
    popCount present = (TableStream.tablesIn present).length := by
  have hcodes : TableId.all.map TableId.code = List.range TableId.count := rfl
  have hword : present < 2 ^ TableId.count := Nat.lt_of_div_eq_zero (Nat.two_pow_pos _) hpresent
  have hhigh : ((List.range 19).map (TableId.count + ·)).countP present.testBit = 0 := by
    refine List.countP_eq_zero.mpr fun i hi => ?_
    obtain ⟨i, -, rfl⟩ := List.mem_map.mp hi
    rw [Nat.testBit_lt_two_pow (Nat.lt_of_lt_of_le hword
      (Nat.pow_le_pow_right (by decide) (Nat.le_add_right _ i)))]
    decide
  unfold popCount TableStream.tablesIn
  rw [show 64 = TableId.count + 19 from rfl, List.range_add, List.countP_append, hhigh, ← hcodes,
    List.countP_map, List.countP_eq_length_filter]
  rfl

theorem popCount_le (word : Nat) : popCount word ≤ 64 :=
  Nat.le_trans List.countP_le_length (Nat.le_of_eq List.length_range)

theorem startOf_eq (present : Nat) {heaps : Nat} (hheaps : heaps < 256) :
    startOf present heaps
      = pure (24 + 4 * popCount present + if heaps.testBit 6 then 4 else 0) := by
  have hpop := popCount_le present
  obtain ⟨-, -, -, hextra⟩ := heap_bits heaps hheaps
  unfold startOf
  rw [mul_eq (by omega), pure_bind, add_eq (by omega), pure_bind, Nat.mul_comm]
  by_cases h : heaps.testBit 6 = true
  · rw [if_pos (hextra.mpr h), if_pos h, add_eq (by omega)]
  · rw [if_neg (mt hextra.mp h), if_neg h]
    rfl

/-- The header of the stream is read without a fault. -/
theorem readTables_eq (hdata : data.length < 2 ^ 64) :
    readTables data = lift (do return Tables.of (← TableStream.ofBytes data)) := by
  unfold readTables TableStream.ofBytes
  by_cases hlen : data.length < TableStream.headerSize
  · rw [if_pos hlen, if_pos hlen]
    rfl
  rw [if_neg hlen, if_neg hlen]
  unfold TableStream.headerSize at hlen ⊢
  have hplace {place size : Nat} (hsize : 0 < size) (h : place + size ≤ 24) :
      Reader.numberAt data place size = pure (wordAt data place size) :=
    numberAt_ok hsize (by omega)
  have hindex {place : Nat} (h : place < data.length) : index data place = pure data[place] :=
    index_eq (List.getElem?_eq_getElem h)
  dsimp only
  rw [← bind_assoc, readNumber_rest hdata (by decide) (by omega), hplace (by decide) (by decide),
    hplace (by decide) (by decide), hplace (by decide) (by decide), hplace (by decide) (by decide),
    hplace (by decide) (by decide), lift_pure, pure_bind, pure_bind]
  generalize wordAt data 8 8 = present
  by_cases hzero : present = 0
  · rw [if_pos hzero, if_pos hzero]
    rfl
  rw [if_neg hzero, if_neg hzero, hindex (by omega), pure_bind,
    startOf_eq present data[6].toNat_lt, pure_bind, hindex (by omega), pure_bind,
    hindex (by omega), pure_bind, ← bind_assoc, readNumber_rest hdata (by decide) (by omega),
    hplace (by decide) (by decide), lift_pure, pure_bind, pure_bind]
  by_cases hsupported : present / Nat.pow 2 TableId.count ≠ 0
  · have hunknown : present / 2 ^ TableId.count ≠ 0 := hsupported
    unfold readTableInfo
    rw [shiftRight_eq (by decide), pure_bind, if_pos hsupported, if_pos hunknown]
    rfl
  · have hknown : present / 2 ^ TableId.count = 0 := not_not.mp hsupported
    rw [readTableInfo_eq hdata (by omega) hknown, if_neg hsupported, lift_bind, bind_assoc,
      bind_assoc]
    refine bind_congr_lift rfl fun counts hcounts => ?_
    rw [popCount_eq hknown, ← ((always_readCounts _).of_value hcounts).1,
      wordAt_one (by omega), wordAt_one (by omega), wordAt_one (by omega)]
    rfl

end ClrListing.Machine
