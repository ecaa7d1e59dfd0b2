/-
The rows of tables on a machine.

A table starts behind all tables before it, and its rows are read one after
the other, each as many bytes as its columns take. Nothing compares the
size that was added up with the bytes that are read, so each read is
checked on its own.

How wide a reference to a table is, is found out in two ways: the readers
compare the number of rows with the largest number of two bytes, and the
sizes of rows come from how many bits that number takes. Both agree, and
every row that a coded index may refer to fits (`references_fit`).
-/
import ClrListing.Proofs.Machine.Tables

namespace ClrListing.Machine

open Metadata

variable {α : Type} {data : List UInt8} {fuel : Nat}

-- =============================================================== sizes

namespace TableInfo

/-- The size of a column. -/
def columnSize (info : TableInfo) : Column → Machine Nat
  | .fixed size => return size
  | .string => return Layout.referenceSize info.largeStrings
  | .guid => return Layout.referenceSize info.largeGuids
  | .blob => return Layout.referenceSize info.largeBlobs
  | .rowOf t => do return Layout.referenceSize ((← index info.rows t.code).bits > 16)
  | .coded k => do return Layout.referenceSize ((← index info.codedBits k.code) > 16)

/-- The size of a row of a table. -/
def rowSize (info : TableInfo) (t : TableId) : Machine Nat :=
  (columns t).foldlM (fun size c => do add 32 size (← info.columnSize c)) 0

end TableInfo

theorem referenceSize_le (large : Bool) : Layout.referenceSize large ≤ 4 := by
  cases large <;> decide

theorem columnSize_machine (l : Layout) (c : Column) :
    (TableInfo.of l).columnSize c = pure (l.columnSize c) := by
  cases c with
  | fixed size => rfl
  | string => rfl
  | guid => rfl
  | blob => rfl
  | rowOf t =>
    unfold TableInfo.columnSize TableInfo.of
    dsimp only
    rw [index_rows]
    rfl
  | coded k =>
    unfold TableInfo.columnSize
    dsimp only
    rw [index_codedBits]
    rfl

/-- No table has more than nine columns, nor a number of more than four
bytes. -/
theorem columns_small (t : TableId) : (columns t).length ≤ 9
    ∧ ∀ c ∈ columns t, ∀ size, c = .fixed size → size ≤ 4 := by
  cases t <;> exact ⟨by decide, by simp [columns]⟩

theorem columnSize_le (l : Layout) {t : TableId} {c : Column} (hc : c ∈ columns t) :
    l.columnSize c ≤ 4 := by
  cases c with
  | fixed size => exact (columns_small t).2 _ hc size rfl
  | string => exact referenceSize_le _
  | guid => exact referenceSize_le _
  | blob => exact referenceSize_le _
  | rowOf t => exact referenceSize_le _
  | coded k => exact referenceSize_le _

theorem rowSize_le (l : Layout) (t : TableId) : l.rowSize t ≤ 36 := by
  have hsum : ∀ cs : List Column, (∀ c ∈ cs, l.columnSize c ≤ 4) →
      cs.foldr (fun c size => l.columnSize c + size) 0 ≤ 4 * cs.length := by
    intro cs hcs
    induction cs with
    | nil => exact Nat.le_refl _
    | cons c cs ih =>
      have hc := hcs c List.mem_cons_self
      have hrest := ih fun c' hc' => hcs c' (List.mem_cons_of_mem _ hc')
      rw [List.foldr_cons, List.length_cons]
      omega
  have hall := hsum (columns t) fun c hc => columnSize_le l hc
  have hcount := (columns_small t).1
  unfold Layout.rowSize
  omega

theorem rowSize_machine (l : Layout) (t : TableId) :
    (TableInfo.of l).rowSize t = pure (l.rowSize t) := by
  have hsum : ∀ (cs : List Column) (size : Nat),
      size + cs.foldr (fun c size => l.columnSize c + size) 0 < 2 ^ 32 →
      cs.foldlM (fun size c => do add 32 size (← (TableInfo.of l).columnSize c)) size
        = pure (size + cs.foldr (fun c size => l.columnSize c + size) 0) := by
    intro cs
    induction cs with
    | nil => exact fun size _ => rfl
    | cons c cs ih =>
      intro size hfit
      rw [List.foldr_cons] at hfit ⊢
      rw [List.foldlM_cons, columnSize_machine, pure_bind, add_eq (by omega), pure_bind,
        ih _ (by omega), Nat.add_assoc]
  have hle := rowSize_le l t
  have hrow := hsum (columns t) 0
  rw [Nat.zero_add] at hrow
  exact hrow (by unfold Layout.rowSize at hle; omega)

-- ============================================================== tables

/-- Where a table starts, behind those of the given tables that stand before
it. -/
def skipTables (h : Tables) (t : TableId) : List TableId → (offset : Nat) → Machine Nat
  | [], offset => return offset
  | u :: rest, offset =>
    if u = t then return offset
    else do
      let rows := (← index h.info.rows u.code).rows
      let size ← h.info.rowSize u
      skipTables h t rest (← add 64 offset (← mul 64 rows size))

/-- The bytes from the start of a table on, and how many rows it has, if it
has rows. -/
def table? (h : Tables) (t : TableId) : Machine (Option (List UInt8 × Nat)) := do
  let count := (← index h.info.rows t.code).rows
  if count = 0 then return none
  let offset ← skipTables h t TableId.all h.start
  let some front := part? h.data offset h.data.length | fail .outOfBounds
  let size ← h.info.rowSize t
  if front.length < (← mul 64 count size) then fail .outOfBounds
  return some (front, count)

theorem foldr_add_left (f : TableId → Nat) (ts : List TableId) (a b : Nat) :
    ts.foldr (fun t n => f t + n) (a + b) = a + ts.foldr (fun t n => f t + n) b := by
  induction ts with
  | nil => rfl
  | cons t ts ih =>
    rw [List.foldr_cons, List.foldr_cons, ih]
    omega

/-- The bytes of a table are far from filling a word. -/
theorem tableSize_lt {l : Layout} {t : TableId} (h : l.rowCount t < 2 ^ 32) :
    l.rowCount t * l.rowSize t < 2 ^ 38 := by
  calc l.rowCount t * l.rowSize t
      ≤ l.rowCount t * 36 := Nat.mul_le_mul_left _ (rowSize_le l t)
    _ < 2 ^ 38 := by omega

theorem skipTables_eq {s : TableStream} (hcounts : ∀ t, s.layout.rowCount t < 2 ^ 32) (t : TableId)
    (ts : List TableId) {offset : Nat} (hfit : offset + ts.length * 2 ^ 38 < 2 ^ 64) :
    skipTables (.of s) t ts offset = pure ((ts.takeWhile (· ≠ t)).foldr
      (fun u offset => s.layout.rowCount u * s.layout.rowSize u + offset) offset) := by
  induction ts generalizing offset with
  | nil => rfl
  | cons u ts ih =>
    have htable := tableSize_lt (hcounts u)
    rw [List.length_cons] at hfit
    unfold skipTables
    by_cases hu : u = t
    · rw [if_pos hu, List.takeWhile_cons_of_neg (by simpa using hu)]
      rfl
    · rw [if_neg hu, List.takeWhile_cons_of_pos (by simpa using hu), List.foldr_cons]
      have hindex : index (Tables.of s).info.rows u.code
          = pure (RowInfo.ofCount (s.layout.counts u)) := index_rows _ u
      have hsize : (Tables.of s).info.rowSize u = pure (s.layout.rowSize u) := rowSize_machine _ u
      have hmul : mul 64 (RowInfo.ofCount (s.layout.counts u)).rows (s.layout.rowSize u)
          = pure (s.layout.rowCount u * s.layout.rowSize u) :=
        mul_eq (Nat.lt_trans htable (by decide))
      rw [hindex, pure_bind, hsize, pure_bind, hmul, pure_bind, add_eq (by omega), pure_bind,
        ih (by omega), Nat.add_comm offset, foldr_add_left]

-- ================================================================ rows

namespace TableInfo

/-- Reads a reference that is large or not. -/
def readReference (large : Bool) : Cursor Nat :=
  if large then Cursor.number 4 else Cursor.number 2

/-- Reads an offset into the heap of strings. -/
def readString (info : TableInfo) : Cursor Nat := readReference info.largeStrings

/-- Reads an offset into the heap of byte strings. -/
def readBlob (info : TableInfo) : Cursor Nat := readReference info.largeBlobs

/-- Reads a reference to a table. -/
def readRowOf (info : TableInfo) (t : TableId) : Cursor Nat := do
  readReference (← Cursor.compute (index info.rows t.code)).isLarge

/-- What a coded index refers to. -/
def decode (k : CodedKind) (value : Nat) : Machine RowRef := do
  let bits ← tagBits k
  let mask ← sub (← shiftLeft 32 1 bits) 1
  let row ← shiftRight 32 value bits
  match k.tables[value &&& mask]? with
  | some t => return ⟨t, row⟩
  | none => fail .outOfBounds

/-- Reads a coded index. -/
def readCoded (info : TableInfo) (k : CodedKind) : Cursor RowRef := do
  let bits ← Cursor.compute (index info.codedBits k.code)
  let value ← readReference (bits > 16)
  let ref ← Cursor.compute (decode k value)
  let _ ← Cursor.compute (token ref.table ref.row)
  return ref

end TableInfo

theorem decode_eq (k : CodedKind) (value : Nat) :
    TableInfo.decode k value = lift (k.decode value) := by
  have htag : k.tagBits < 16 := CodedKind.tagBits_eq k ▸ CodedKind.tagWidth_le k
  have hone : 1 * 2 ^ k.tagBits < 2 ^ 32 := by
    rw [Nat.one_mul]
    exact Nat.pow_lt_pow_right (by decide) (by omega)
  unfold TableInfo.decode CodedKind.decode
  rw [tagBits_machine, pure_bind, shiftLeft_eq (by omega) hone, pure_bind, Nat.one_mul,
    sub_eq (Nat.one_le_two_pow), pure_bind, shiftRight_eq (by omega), pure_bind,
    Nat.and_two_pow_sub_one_eq_mod]
  change _ = lift (match k.tables[value % 2 ^ k.tagBits]? with
    | some table => .ok (RowRef.mk table (value / 2 ^ k.tagBits))
    | none => .error .outOfBounds)
  cases k.tables[value % 2 ^ k.tagBits]? <;> rfl

theorem follows_four (hdata : data.length < 2 ^ 64) :
    Follows data 1 (Cursor.number 4) (Reader.number 4) :=
  Follows.mono (follows_number hdata (by decide)) (by decide)

theorem follows_two (hdata : data.length < 2 ^ 64) :
    Follows data 1 (Cursor.number 2) (Reader.number 2) :=
  Follows.mono (follows_number hdata (by decide)) (by decide)

theorem follows_reference (hdata : data.length < 2 ^ 64) (large : Bool) :
    Follows data 1 (TableInfo.readReference large) (Layout.readReference large) := by
  cases large with
  | true => exact follows_four hdata
  | false => exact follows_two hdata

theorem follows_rowOf (hdata : data.length < 2 ^ 64) (l : Layout) (t : TableId) :
    Follows data 1 ((TableInfo.of l).readRowOf t) (l.readRowOf t) :=
  .compute (index_rows l.counts t) (follows_reference hdata _)

theorem follows_lift (x : Except Error α) :
    Follows data 0 (Cursor.compute (lift x)) (liftM x : Reader α) := by
  cases x with
  | ok a => exact .pure a
  | error e => exact .fail e

theorem follows_coded (hdata : data.length < 2 ^ 64) (l : Layout) (k : CodedKind) :
    Follows data 1 ((TableInfo.of l).readCoded k) (l.readCoded k) := by
  refine .compute (index_codedBits l k) ?_
  refine (follows_reference hdata _).bind fun value => ?_
  rw [decode_eq, ← bind_pure (liftM (k.decode value) : Reader RowRef)]
  exact (follows_lift _).after fun ref => .compute (token_eq _ _) (.pure ref)

/-- A type whose values are the rows of a table, read on a machine. -/
class RowCursor (α : Type) where
  /-- Reads the row of a given number. -/
  read : TableInfo → (row : Nat) → Cursor α

/-- Rows are read on a machine as they are read from bytes. -/
class FollowsRow (α : Type) [TableRow α] [RowCursor α] : Prop where
  follows : ∀ {data : List UInt8}, data.length < 2 ^ 64 → ∀ (l : Layout) (row : Nat),
    Follows data 1 (RowCursor.read (.of l) row : Cursor α) (TableRow.read l row)

instance : RowCursor TypeRefRow where
  read info row := do
    let _ ← Cursor.compute (token .typeRef row)
    let scope ← info.readCoded .resolutionScope
    let name ← info.readString
    let space ← info.readString
    return ⟨row, scope, name, space⟩

instance : RowCursor TypeDefRow where
  read info row := do
    let _ ← Cursor.compute (token .typeDef row)
    let flags ← Cursor.number 4
    let name ← info.readString
    let space ← info.readString
    let base ← info.readCoded .typeDefOrRef
    let fields ← info.readRowOf .field
    let methods ← info.readRowOf .methodDef
    return ⟨row, flags, name, space, base, fields, methods⟩

instance : RowCursor MethodDefRow where
  read info row := do
    let _ ← Cursor.compute (token .methodDef row)
    let address ← Cursor.number 4
    let implFlags ← Cursor.number 2
    let flags ← Cursor.number 2
    let name ← info.readString
    let signature ← info.readBlob
    let params ← info.readRowOf .param
    return ⟨row, address, implFlags, flags, name, signature, params⟩

instance : RowCursor MemberRefRow where
  read info row := do
    let _ ← Cursor.compute (token .memberRef row)
    let parent ← info.readCoded .memberRefParent
    let name ← info.readString
    let signature ← info.readBlob
    return ⟨row, parent, name, signature⟩

instance : RowCursor CustomAttributeRow where
  read info row := do
    let _ ← Cursor.compute (token .customAttribute row)
    let parent ← info.readCoded .hasCustomAttribute
    let constructor ← info.readCoded .customAttributeType
    let value ← info.readBlob
    return ⟨row, parent, constructor, value⟩

instance : RowCursor NestedClassRow where
  read info row := do
    let _ ← Cursor.compute (token .nestedClass row)
    let nested ← info.readRowOf .typeDef
    let enclosing ← info.readRowOf .typeDef
    return ⟨row, nested, enclosing⟩

instance : RowCursor GenericParamRow where
  read info row := do
    let _ ← Cursor.compute (token .genericParam row)
    let number ← Cursor.number 2
    let flags ← Cursor.number 2
    let owner ← info.readCoded .typeOrMethodDef
    let name ← info.readString
    return ⟨row, number, flags, owner, name⟩

instance : FollowsRow TypeRefRow where
  follows hdata l _ :=
    .compute (token_eq _ _) <| (follows_coded hdata l _).bind fun _ =>
    (follows_reference hdata _).after fun _ =>
    (follows_reference hdata _).after fun _ => .pure _

instance : FollowsRow TypeDefRow where
  follows hdata l _ :=
    .compute (token_eq _ _) <| (follows_four hdata).bind fun _ =>
    (follows_reference hdata _).after fun _ =>
    (follows_reference hdata _).after fun _ =>
    (follows_coded hdata l _).after fun _ =>
    (follows_rowOf hdata l _).after fun _ =>
    (follows_rowOf hdata l _).after fun _ => .pure _

instance : FollowsRow MethodDefRow where
  follows hdata l _ :=
    .compute (token_eq _ _) <| (follows_four hdata).bind fun _ =>
    (follows_two hdata).after fun _ =>
    (follows_two hdata).after fun _ =>
    (follows_reference hdata _).after fun _ =>
    (follows_reference hdata _).after fun _ =>
    (follows_rowOf hdata l _).after fun _ => .pure _

instance : FollowsRow MemberRefRow where
  follows hdata l _ :=
    .compute (token_eq _ _) <| (follows_coded hdata l _).bind fun _ =>
    (follows_reference hdata _).after fun _ =>
    (follows_reference hdata _).after fun _ => .pure _

instance : FollowsRow CustomAttributeRow where
  follows hdata l _ :=
    .compute (token_eq _ _) <| (follows_coded hdata l _).bind fun _ =>
    (follows_coded hdata l _).after fun _ =>
    (follows_reference hdata _).after fun _ => .pure _

instance : FollowsRow NestedClassRow where
  follows hdata l _ :=
    .compute (token_eq _ _) <| (follows_rowOf hdata l _).bind fun _ =>
    (follows_rowOf hdata l _).after fun _ => .pure _

instance : FollowsRow GenericParamRow where
  follows hdata l _ :=
    .compute (token_eq _ _) <| (follows_two hdata).bind fun _ =>
    (follows_two hdata).after fun _ =>
    (follows_coded hdata l _).after fun _ =>
    (follows_reference hdata _).after fun _ => .pure _

/-- The rows of type `α`. -/
def rows (fuel : Nat) (h : Tables) (α : Type) [TableRow α] [RowCursor α] : Machine (List α) := do
  match ← table? h (TableRow.table α) with
  | none => return []
  | some (front, count) => (Cursor.turns (RowCursor.read h.info) fuel 1 count).value front

theorem readTurns_readRows [TableRow α] (l : Layout) (first count : Nat) :
    readTurns (TableRow.read l : Nat → Reader α) first count = Table.readRows l first count := by
  induction count generalizing first with
  | zero => rfl
  | succ count ih =>
    rw [readTurns, ih]
    rfl

/-- A table is found without a fault. -/
theorem table?_eq {s : TableStream} (hcounts : ∀ t, s.layout.rowCount t < 2 ^ 32)
    (hstart : s.start < 2 ^ 32) (t : TableId) :
    table? (.of s) t =
      if s.layout.rowCount t = 0 then pure none
      else if s.data.length < s.offsetOf t then fail .outOfBounds
      else if (s.data.drop (s.offsetOf t)).length < s.layout.rowCount t * s.layout.rowSize t then
        fail .outOfBounds
      else pure (some (s.data.drop (s.offsetOf t), s.layout.rowCount t)) := by
  have hindex : index (Tables.of s).info.rows t.code
      = pure (RowInfo.ofCount (s.layout.counts t)) := index_rows _ _
  have hrows : (RowInfo.ofCount (s.layout.counts t)).rows = s.layout.rowCount t := rfl
  have hsize : (Tables.of s).info.rowSize t = pure (s.layout.rowSize t) := rowSize_machine _ _
  have hbehind : s.start + TableId.all.length * 2 ^ 38 < 2 ^ 64 := by
    rw [show TableId.all.length = 45 from rfl]
    omega
  have hskip : skipTables (.of s) t TableId.all (Tables.of s).start = pure (s.offsetOf t) :=
    skipTables_eq hcounts t TableId.all hbehind
  have htable := tableSize_lt (hcounts t)
  unfold table?
  rw [hindex, pure_bind, hrows, hskip, hsize]
  by_cases hzero : s.layout.rowCount t = 0
  · rw [if_pos hzero, if_pos hzero]
  rw [if_neg hzero, if_neg hzero, pure_bind]
  by_cases hinside : s.offsetOf t ≤ s.data.length
  · have hfront : part? (Tables.of s).data (s.offsetOf t) (Tables.of s).data.length
        = some (s.data.drop (s.offsetOf t)) := part?_to_end hinside
    rw [hfront, if_neg (Nat.not_lt.mpr hinside)]
    dsimp only
    rw [pure_bind, mul_eq (Nat.lt_trans htable (by decide)), pure_bind]
    rfl
  · have hfront : part? (Tables.of s).data (s.offsetOf t) (Tables.of s).data.length = none :=
      if_neg fun h => hinside h.1
    rw [hfront, if_pos (Nat.lt_of_not_le hinside)]

/-- The rows of a table are read without a fault, however many there should
be. -/
theorem rows_eq [TableRow α] [RowCursor α] [FollowsRow α] {s : TableStream}
    (hcounts : ∀ t, s.layout.rowCount t < 2 ^ 32) (hstart : s.start < 2 ^ 32)
    (hdata : s.data.length < 2 ^ 64) (hfuel : s.data.length < fuel) :
    rows fuel (.of s) α = lift (s.rows α) := by
  unfold rows TableStream.rows TableStream.table?
  rw [table?_eq hcounts hstart]
  dsimp only
  by_cases hzero : s.layout.rowCount (TableRow.table α) = 0
  · rw [if_pos hzero, if_pos hzero]
    rfl
  rw [if_neg hzero, if_neg hzero]
  by_cases hoffset : s.data.length < s.offsetOf (TableRow.table α)
  · rw [if_pos hoffset, if_pos hoffset]
    rfl
  rw [if_neg hoffset, if_neg hoffset]
  unfold Table.new Table.size Table.rowSize
  dsimp only
  have hlength : (s.data.drop (s.offsetOf (TableRow.table α))).length ≤ s.data.length :=
    List.length_drop ▸ Nat.sub_le _ _
  by_cases hfit : s.layout.rowCount (TableRow.table α) * s.layout.rowSize (TableRow.table α)
      ≤ (s.data.drop (s.offsetOf (TableRow.table α))).length
  · rw [if_neg (Nat.not_lt.mpr hfit), if_pos hfit]
    have hturns := follows_turns (fun row => FollowsRow.follows (α := α) (by omega) s.layout row)
      (Nat.lt_of_le_of_lt hlength hfuel) 1 (s.layout.rowCount (TableRow.table α))
    rw [readTurns_readRows] at hturns
    exact hturns.value_eq
  · rw [if_pos (Nat.lt_of_not_le hfit), if_neg hfit]
    rfl

-- ========================================================== references

namespace TableInfo

/-- What is kept of tables with given numbers of rows; of two numbers for one
table the later counts. -/
def ofCounts (entries : List (TableId × Nat)) (largeStrings largeBlobs largeGuids : Bool) :
    Machine TableInfo := do
  let infos ← entries.foldlM (fun infos entry => do
      let info ← rowInfo entry.2
      update infos entry.1.code fun _ => info)
    (List.replicate TableId.count ⟨0, 0, false⟩)
  let codedBits ← allCodedBits infos
  return ⟨infos, codedBits, largeStrings, largeGuids, largeBlobs⟩

/-- Whether references to a table are read as large. -/
def isLarge (info : TableInfo) (t : TableId) : Machine Bool := do
  return (← index info.rows t.code).isLarge

/-- What references to rows need of what is kept of tables with so many rows. -/
structure HoldsReferences (info : TableInfo) (rowCount : TableId → Nat) : Prop where
  /-- Both tests of the width of a row's number agree. -/
  agree : ∀ t, (do return Layout.referenceSize (← info.isLarge t)) = info.columnSize (.rowOf t)
  /-- Every row of every table of a coded index fits, and is read back. -/
  coded : ∀ (k : CodedKind) (tag : Nat) (t : TableId), k.tables[tag]? = some t →
    ∀ row ≤ rowCount t, ∃ size bits, info.columnSize (.coded k) = pure size ∧ tagBits k = pure bits
      ∧ row * Nat.pow 2 bits + tag < Nat.pow 256 size
      ∧ decode k (row * Nat.pow 2 bits + tag) = pure ⟨t, row⟩
  /-- A tag behind those of the tables stands for none. -/
  beyond : ∀ (k : CodedKind) (value : Nat), k.tables.length ≤ value % Nat.pow 2 k.tagBits →
    decode k value = fail .outOfBounds

end TableInfo

theorem foldlM_rowInfo {entries : List (TableId × Nat)}
    (h : ∀ entry ∈ entries, entry.2 < 2 ^ 32) (counts : TableId → Option Nat) :
    entries.foldlM (fun infos entry => do
        let info ← rowInfo entry.2
        update infos entry.1.code fun _ => info) (RowInfo.all counts)
      = pure (RowInfo.all (entries.foldl record counts)) := by
  induction entries generalizing counts with
  | nil => rfl
  | cons entry entries ih =>
    rw [List.forall_mem_cons] at h
    rw [List.foldlM_cons, rowInfo_eq h.1, pure_bind, update_all, pure_bind, ih h.2]
    rfl

/-- What is kept of tables is what their layout tells. -/
theorem ofCounts_eq {entries : List (TableId × Nat)} (h : ∀ entry ∈ entries, entry.2 < 2 ^ 32)
    (largeStrings largeBlobs largeGuids : Bool) :
    TableInfo.ofCounts entries largeStrings largeBlobs largeGuids
      = pure (.of (.ofCounts entries largeStrings largeBlobs largeGuids)) := by
  have hnone : List.replicate TableId.count ⟨0, 0, false⟩ = RowInfo.all fun _ => none := rfl
  have hrows := rowCount_ofCounts_lt (Nat.two_pow_pos 32) h largeStrings largeBlobs largeGuids
  unfold TableInfo.ofCounts
  rw [hnone, foldlM_rowInfo h, pure_bind,
    foldl_record_none entries largeStrings largeBlobs largeGuids, allCodedBits_eq hrows, pure_bind]
  rfl

theorem isLarge_machine (l : Layout) (t : TableId) :
    (TableInfo.of l).isLarge t = pure (l.isLarge t) := by
  unfold TableInfo.isLarge TableInfo.of
  dsimp only
  rw [index_rows]
  rfl

theorem holdsReferences_machine {l : Layout} (h : l.HoldsReferences) :
    (TableInfo.of l).HoldsReferences l.rowCount where
  agree := by
    intro t
    rw [isLarge_machine, columnSize_machine, pure_bind, h.agree]
    rfl
  coded := by
    intro k tag t htable row hrow
    obtain ⟨hfits, hdecode⟩ := h.coded k tag t htable row hrow
    refine ⟨l.codedSize k, k.tagBits, columnSize_machine l (.coded k), tagBits_machine k, hfits, ?_⟩
    rw [decode_eq, hdecode]
    rfl
  beyond := by
    intro k value hvalue
    rw [decode_eq, h.beyond k value hvalue]
    rfl

/-- However many rows tables have, less than 2²⁴ each, and whatever the sizes
of the heaps: the widths of references are found out without a fault, both
tests of the width of a row's number agree, and every row that a coded index
may refer to fits and is read back. -/
theorem references_fit {entries : List (TableId × Nat)}
    (h : ∀ entry ∈ entries, entry.2 < 0x1000000) (largeStrings largeBlobs largeGuids : Bool) :
    (Layout.ofCounts entries largeStrings largeBlobs largeGuids).HoldsReferences
      ∧ ∃ info, TableInfo.ofCounts entries largeStrings largeBlobs largeGuids = pure info
        ∧ info.HoldsReferences
          (Layout.ofCounts entries largeStrings largeBlobs largeGuids).rowCount := by
  have hword : ∀ entry ∈ entries, entry.2 < 2 ^ 32 := fun entry hentry =>
    Nat.lt_trans (h entry hentry) (by decide)
  have hlayout := Layout.holdsReferences
    (rowCount_ofCounts_lt (Nat.succ_pos 0xffffff) h largeStrings largeBlobs largeGuids)
  exact ⟨hlayout, _, ofCounts_eq hword largeStrings largeBlobs largeGuids,
    holdsReferences_machine hlayout⟩

/-- At the thresholds: 2¹¹ - 1 rows leave room for five bits of tag in two
bytes, and 2¹¹ rows do not. -/
theorem references_fit_at_thresholds :
    (∃ info, TableInfo.ofCounts [(.methodDef, 0x7ff), (.field, 0xffff)] true false true = pure info
        ∧ info.HoldsReferences
          (Layout.ofCounts [(.methodDef, 0x7ff), (.field, 0xffff)] true false true).rowCount)
      ∧ (Layout.ofCounts [(.methodDef, 0x7ff)] false false false).codedSize .hasCustomAttribute = 2
      ∧ (Layout.ofCounts [(.methodDef, 0x800)] false false false).codedSize .hasCustomAttribute = 4
      ∧ 0x800 * 2 ^ 5 + 0
        < Nat.pow 256 ((Layout.ofCounts [(.methodDef, 0x800)] false false false).codedSize
          .hasCustomAttribute) :=
  ⟨(references_fit (by decide) true false true).2, by decide, by decide,
    ((references_fit (by decide) false false false).1.coded .hasCustomAttribute 0 .methodDef rfl
      0x800 (by decide)).1⟩

end ClrListing.Machine
