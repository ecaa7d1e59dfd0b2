/-
The stream of tables is read back as it was written.

`TableContents` is what a stream is written from: flags, rows for the
tables that make up types and methods, and the bytes of the rows of all
other tables. Where a table starts depends on the sizes of all tables
before it, so the one fact that carries the module is `bytes_at_offset`:
behind the offset that is computed for a table stand its bytes.
-/
import ClrListing.Metadata.Tables
import ClrListing.Proofs.Metadata.Rows

namespace ClrListing.Metadata

-- ============================================================ contents

/-- What a stream of tables is written from. -/
structure TableContents where
  majorVersion : UInt8
  minorVersion : UInt8
  /-- Which heaps are large, and whether four bytes more stand before the
  tables. -/
  heapSizes : UInt8
  /-- The four bytes more. -/
  extra : UInt32
  sorted : UInt64
  /-- The tables that are present, with rows or without. -/
  present : TableId → Bool
  typeRefs : List TypeRefRow
  typeDefs : List TypeDefRow
  methodDefs : List MethodDefRow
  memberRefs : List MemberRefRow
  customAttributes : List CustomAttributeRow
  nestedClasses : List NestedClassRow
  genericParams : List GenericParamRow
  /-- The bytes of the rows of each other table. -/
  others : TableId → List (List UInt8)

namespace TableContents

variable (c : TableContents)

/-- The number of rows of a table. -/
def rowCount : TableId → Nat
  | .typeRef => c.typeRefs.length
  | .typeDef => c.typeDefs.length
  | .methodDef => c.methodDefs.length
  | .memberRef => c.memberRefs.length
  | .customAttribute => c.customAttributes.length
  | .nestedClass => c.nestedClasses.length
  | .genericParam => c.genericParams.length
  | t => (c.others t).length

/-- What the sizes of columns depend on. -/
def layout : Layout where
  counts t := if c.present t then some (c.rowCount t) else none
  largeStrings := c.heapSizes.toNat.testBit 0
  largeGuids := c.heapSizes.toNat.testBit 1
  largeBlobs := c.heapSizes.toNat.testBit 2

/-- The bytes of a table. -/
def tableBytes : TableId → List UInt8
  | .typeRef => rowsBytes c.layout c.typeRefs
  | .typeDef => rowsBytes c.layout c.typeDefs
  | .methodDef => rowsBytes c.layout c.methodDefs
  | .memberRef => rowsBytes c.layout c.memberRefs
  | .customAttribute => rowsBytes c.layout c.customAttributes
  | .nestedClass => rowsBytes c.layout c.nestedClasses
  | .genericParam => rowsBytes c.layout c.genericParams
  | t => (c.others t).flatten

/-- The tables that are present, in ascending order. -/
def presentTables : List TableId := TableId.all.filter c.present

/-- A bit for each table that is present. -/
def presentWord : Nat := c.presentTables.foldr (fun t word => Nat.pow 2 t.code ||| word) 0

/-- The numbers of rows of the tables that are present. -/
def countBytes : List UInt8 :=
  c.presentTables.flatMap fun t => littleEndianBytes 4 (c.rowCount t)

/-- The bytes that a flag asks for before the tables. -/
def extraBytes : List UInt8 :=
  if c.heapSizes.toNat.testBit 6 then littleEndianBytes 4 c.extra.toNat else []

/-- The header, up to the numbers of rows. -/
def headerBytes : List UInt8 :=
  [0, 0, 0, 0, c.majorVersion, c.minorVersion, c.heapSizes, 1]
    ++ (littleEndianBytes 8 c.presentWord ++ littleEndianBytes 8 c.sorted.toNat)

/-- What stands before the first table. -/
def frontBytes : List UInt8 := c.headerBytes ++ (c.countBytes ++ c.extraBytes)

/-- The bytes of the stream. -/
def bytes : List UInt8 := c.frontBytes ++ c.presentTables.flatMap c.tableBytes

/-- Whether a stream can be written: there is a table, a table with rows
is present and has less than 2²⁴ of them, all rows are numbered from one
and fit their columns, and those that are given as bytes have the size of
a row. -/
structure Fits (c : TableContents) : Prop where
  some_present : ∃ t, c.present t = true
  present : ∀ t, c.rowCount t ≠ 0 → c.present t = true
  rowCount : ∀ t, c.rowCount t < 0x1000000
  typeRefs : RowsFit c.layout 1 c.typeRefs
  typeDefs : RowsFit c.layout 1 c.typeDefs
  methodDefs : RowsFit c.layout 1 c.methodDefs
  memberRefs : RowsFit c.layout 1 c.memberRefs
  customAttributes : RowsFit c.layout 1 c.customAttributes
  nestedClasses : RowsFit c.layout 1 c.nestedClasses
  genericParams : RowsFit c.layout 1 c.genericParams
  others : ∀ t, ∀ row ∈ c.others t, row.length = c.layout.rowSize t

/-- The stream that is read, if it stands in `data`. -/
def stream (data : List UInt8) : TableStream where
  majorVersion := c.majorVersion.toNat
  minorVersion := c.minorVersion.toNat
  present := c.presentWord
  sorted := c.sorted.toNat
  layout := c.layout
  data := data
  start := c.frontBytes.length

-- ======================================================= present tables

theorem mem_all (t : TableId) : t ∈ TableId.all := by
  cases t <;> decide

theorem code_lt_count (t : TableId) : t.code < TableId.count := by
  cases t <;> decide

theorem ofCode?_code (t : TableId) : TableId.ofCode? t.code = some t := by
  cases t <;> rfl

theorem code_injective {t u : TableId} (h : t.code = u.code) : t = u := by
  have hof := ofCode?_code t
  rw [h, ofCode?_code u] at hof
  exact (Option.some.inj hof).symm

variable {c}

theorem mem_presentTables {t : TableId} : t ∈ c.presentTables ↔ c.present t = true := by
  unfold presentTables
  rw [List.mem_filter]
  exact and_iff_right (mem_all t)

theorem testBit_foldr (ts : List TableId) (n : Nat) :
    (ts.foldr (fun t word => Nat.pow 2 t.code ||| word) 0).testBit n
      = decide (∃ t ∈ ts, t.code = n) := by
  induction ts with
  | nil => simp
  | cons t rest ih =>
    have hbit : (Nat.pow 2 t.code).testBit n = decide (t.code = n) := Nat.testBit_two_pow
    rw [List.foldr_cons, Nat.testBit_or, ih, hbit]
    simp

/-- The word of bits holds exactly the tables that are present. -/
theorem tablesIn_presentWord : TableStream.tablesIn c.presentWord = c.presentTables := by
  unfold TableStream.tablesIn
  refine List.filter_congr fun t _ => ?_
  unfold presentWord
  rw [testBit_foldr]
  by_cases h : c.present t = true
  · rw [h]
    exact decide_eq_true ⟨t, mem_presentTables.mpr h, rfl⟩
  · rw [Bool.eq_false_iff.mpr h]
    refine decide_eq_false fun ⟨u, hu, hcode⟩ => h ?_
    rw [← code_injective hcode]
    exact mem_presentTables.mp hu

theorem presentWord_lt : c.presentWord < Nat.pow 2 TableId.count := by
  refine Nat.lt_pow_two_of_testBit _ fun n hn => ?_
  unfold presentWord
  rw [testBit_foldr]
  refine decide_eq_false fun ⟨t, _, hcode⟩ => ?_
  have hcount := code_lt_count t
  omega

theorem presentWord_ne_zero (h : ∃ t, c.present t = true) : c.presentWord ≠ 0 := by
  obtain ⟨t, ht⟩ := h
  intro hzero
  have hmem := mem_presentTables.mpr ht
  rw [← tablesIn_presentWord, hzero] at hmem
  unfold TableStream.tablesIn at hmem
  rw [List.mem_filter, Nat.zero_testBit] at hmem
  exact Bool.false_ne_true hmem.2

-- ========================================================== the layout

theorem lookup_map_pair (f : TableId → β) (ts : List TableId) (t : TableId) :
    (ts.map fun u => (u, f u)).lookup t = if t ∈ ts then some (f t) else none := by
  induction ts with
  | nil => rfl
  | cons u rest ih =>
    rw [List.map_cons, List.lookup_cons, ih]
    by_cases h : t = u
    · subst h
      simp
    · simp [h, beq_false_of_ne h]

/-- The numbers of rows that are read make the layout that was written
for. -/
theorem ofCounts_presentTables :
    Layout.ofCounts (c.presentTables.map fun t => (t, c.rowCount t))
      (c.heapSizes.toNat.testBit 0) (c.heapSizes.toNat.testBit 2) (c.heapSizes.toNat.testBit 1)
      = c.layout := by
  unfold Layout.ofCounts layout
  rw [Layout.mk.injEq]
  refine ⟨funext fun t => ?_, rfl, rfl, rfl⟩
  rw [← List.map_reverse, lookup_map_pair]
  simp only [List.mem_reverse, mem_presentTables]

theorem layout_rowCount (h : c.Fits) (t : TableId) : c.layout.rowCount t = c.rowCount t := by
  unfold Layout.rowCount layout
  by_cases hpresent : c.present t = true
  · simp only [if_pos hpresent, Option.getD_some]
  · simp only [if_neg hpresent, Option.getD_none]
    exact Classical.byContradiction fun hcount =>
      hpresent (h.present t fun hzero => hcount hzero.symm)

/-- A table takes its number of rows times the size of a row. -/
theorem length_tableBytes (h : c.Fits) (t : TableId) :
    (c.tableBytes t).length = c.layout.rowCount t * c.layout.rowSize t := by
  have hcount := layout_rowCount h t
  rw [hcount]
  unfold tableBytes rowCount
  split
  all_goals first
    | exact length_rowsBytes _
    | exact List.flatMap_id ▸ length_flatMap_of_forall (h.others _)

-- ========================================================= the tables

/-- An absent table has no bytes. -/
theorem flatMap_presentTables (h : c.Fits) :
    c.presentTables.flatMap c.tableBytes = TableId.all.flatMap c.tableBytes := by
  unfold presentTables
  induction TableId.all with
  | nil => rfl
  | cons t rest ih =>
    by_cases hpresent : c.present t = true
    · rw [List.filter_cons_of_pos hpresent, List.flatMap_cons, List.flatMap_cons, ih]
    · have hempty : c.tableBytes t = [] := by
        refine List.length_eq_zero_iff.mp ?_
        have hcount : c.rowCount t = 0 :=
          Classical.byContradiction fun hcount => hpresent (h.present t hcount)
        rw [length_tableBytes h, layout_rowCount h, hcount, Nat.zero_mul]
      rw [List.filter_cons_of_neg hpresent, ih, List.flatMap_cons, hempty, List.nil_append]

theorem foldr_offset (h : c.Fits) (ts : List TableId) (start : Nat) :
    ts.foldr (fun before offset =>
        c.layout.rowCount before * c.layout.rowSize before + offset) start
      = (ts.flatMap c.tableBytes).length + start := by
  induction ts with
  | nil => rw [List.foldr_nil, List.flatMap_nil, List.length_nil, Nat.zero_add]
  | cons t rest ih =>
    rw [List.foldr_cons, ih, List.flatMap_cons, List.length_append, length_tableBytes h,
      Nat.add_assoc]

/-- The tables from a given one on. -/
theorem dropWhile_all (t : TableId) :
    ∃ after, TableId.all.dropWhile (· ≠ t) = t :: after := by
  cases t <;> exact ⟨_, rfl⟩

/-- Behind the offset of a table stand its bytes. -/
theorem bytes_at_offset (h : c.Fits) (trailing : List UInt8) (t : TableId) :
    ∃ before rest, c.bytes ++ trailing = before ++ (c.tableBytes t ++ rest)
      ∧ (c.stream (c.bytes ++ trailing)).offsetOf t = before.length := by
  obtain ⟨after, hafter⟩ := dropWhile_all t
  have hall : TableId.all.flatMap c.tableBytes
      = (TableId.all.takeWhile (· ≠ t)).flatMap c.tableBytes
        ++ (c.tableBytes t ++ after.flatMap c.tableBytes) := by
    rw [← List.flatMap_cons, ← hafter, ← List.flatMap_append, List.takeWhile_append_dropWhile]
  refine ⟨c.frontBytes ++ (TableId.all.takeWhile (· ≠ t)).flatMap c.tableBytes,
    after.flatMap c.tableBytes ++ trailing, ?_, ?_⟩
  · rw [bytes, flatMap_presentTables h, hall]
    simp only [List.append_assoc]
  · rw [List.length_append, Nat.add_comm]
    exact foldr_offset h _ _

end TableContents

-- ========================================================== the header

namespace TableContents

variable {c : TableContents}

theorem length_headerBytes : c.headerBytes.length = TableStream.headerSize := by
  simp [headerBytes, length_littleEndianBytes, TableStream.headerSize]

theorem length_frontBytes :
    c.frontBytes.length = TableStream.headerSize + 4 * c.presentTables.length
      + if c.heapSizes.toNat.testBit 6 then 4 else 0 := by
  have hcounts : c.countBytes.length = c.presentTables.length * 4 :=
    length_flatMap_of_forall fun t _ => length_littleEndianBytes 4 _
  have hextra : c.extraBytes.length = if c.heapSizes.toNat.testBit 6 then 4 else 0 := by
    unfold extraBytes
    split
    · exact length_littleEndianBytes 4 _
    · rfl
  rw [frontBytes, List.length_append, List.length_append, length_headerBytes, hcounts, hextra]
  omega

/-- The numbers of rows are read back, each with its table. -/
theorem reads_counts (h : c.Fits) :
    Reads (TableStream.readCounts c.presentTables) c.countBytes
      (c.presentTables.map fun t => (t, c.rowCount t)) := by
  have hcounts : Reads (Reader.times c.presentTables.length (Reader.number 4)) c.countBytes
      (c.presentTables.map c.rowCount) :=
    .times fun t _ => reads_number (Nat.lt_of_lt_of_le (h.rowCount t) (by decide))
  have hzip : c.presentTables.zip (c.presentTables.map c.rowCount)
      = c.presentTables.map fun t => (t, c.rowCount t) := by
    conv => lhs; arg 1; rw [← List.map_id c.presentTables]
    exact List.zip_map'
  rw [← hzip]
  exact hcounts.bind_pure _

/-- The header is read back. -/
theorem ofBytes_bytes (h : c.Fits) (trailing : List UInt8) :
    TableStream.ofBytes (c.bytes ++ trailing) = .ok (c.stream (c.bytes ++ trailing)) := by
  have hword : c.presentWord < Nat.pow 2 TableId.count := presentWord_lt
  have hpresentLimit : c.presentWord < Nat.pow 256 8 := Nat.lt_of_lt_of_le hword (by decide)
  have hsortedLimit : c.sorted.toNat < Nat.pow 256 8 := c.sorted.toNat_lt
  obtain ⟨rest, hdata⟩ : ∃ rest, c.bytes ++ trailing = c.headerBytes ++ (c.countBytes ++ rest) :=
    ⟨c.extraBytes ++ (c.presentTables.flatMap c.tableBytes ++ trailing), by
      simp only [bytes, frontBytes, List.append_assoc]⟩
  have hlength : ¬ (c.bytes ++ trailing).length < TableStream.headerSize := by
    rw [hdata, List.length_append, length_headerBytes]
    omega
  have hmajor : Reader.numberAt (c.bytes ++ trailing) 4 1 = .ok c.majorVersion.toNat := by
    rw [hdata]
    exact numberAt_of_reads [0, 0, 0, 0] (reads_byte c.majorVersion) rfl
  have hminor : Reader.numberAt (c.bytes ++ trailing) 5 1 = .ok c.minorVersion.toNat := by
    rw [hdata]
    exact numberAt_of_reads [0, 0, 0, 0, _] (reads_byte c.minorVersion) rfl
  have hheaps : Reader.numberAt (c.bytes ++ trailing) 6 1 = .ok c.heapSizes.toNat := by
    rw [hdata]
    exact numberAt_of_reads [0, 0, 0, 0, _, _] (reads_byte c.heapSizes) rfl
  have hpresent : Reader.numberAt (c.bytes ++ trailing) 8 8 = .ok c.presentWord := by
    rw [hdata, headerBytes, List.append_assoc, List.append_assoc]
    exact numberAt_of_reads _ (reads_number hpresentLimit) rfl
  have hsorted : Reader.numberAt (c.bytes ++ trailing) 16 8 = .ok c.sorted.toNat := by
    rw [hdata, headerBytes, ← List.append_assoc _ (littleEndianBytes 8 _), List.append_assoc]
    refine numberAt_of_reads _ (reads_number hsortedLimit) ?_
    rw [List.length_append, length_littleEndianBytes]
    rfl
  have hcounts : (TableStream.readCounts c.presentTables).value
        ((c.bytes ++ trailing).drop TableStream.headerSize)
      = .ok (c.presentTables.map fun t => (t, c.rowCount t)) := by
    rw [hdata, ← length_headerBytes, List.drop_left]
    exact (reads_counts h).value rest
  have hknown : ¬ c.presentWord / Nat.pow 2 TableId.count ≠ 0 :=
    fun hne => hne (Nat.div_eq_of_lt hword)
  unfold TableStream.ofBytes
  rw [hpresent, hsorted, hmajor, hminor, hheaps, if_neg hlength]
  show (if c.presentWord = 0 then _ else _) = _
  rw [if_neg (presentWord_ne_zero h.some_present)]
  show (if c.presentWord / Nat.pow 2 TableId.count ≠ 0 then _ else _) = _
  rw [if_neg hknown, tablesIn_presentWord, hcounts]
  show Except.ok (TableStream.mk _ _ _ _ (Layout.ofCounts _ _ _ _) _
    (_ + 4 * (c.presentTables.map _).length + _)) = _
  rw [ofCounts_presentTables, List.length_map, ← length_frontBytes]
  rfl

end TableContents

-- ======================================================= the rows read

/-- A stream gives rows: there is a table that holds exactly these, or
there are none and no table. -/
def TableStream.Gives (s : TableStream) {α : Type} [TableRow α] (rows : List α) : Prop :=
  (rows = [] → s.table? α = .ok none)
    ∧ (rows ≠ [] → ∃ t, s.table? α = .ok (some t) ∧ t.rows = .ok rows)

namespace TableContents

variable {c : TableContents}

/-- Rows that are a table of the stream are given by it. -/
theorem stream_gives (h : c.Fits) (trailing : List UInt8) {α : Type} [TableRow α] [RowForm α]
    [LawfulRowForm α] {rows : List α} (hrows : RowsFit c.layout 1 rows)
    (hcount : c.rowCount (TableRow.table α) = rows.length)
    (hbytes : c.tableBytes (TableRow.table α) = rowsBytes c.layout rows) :
    (c.stream (c.bytes ++ trailing)).Gives rows := by
  have hlayout := layout_rowCount h (TableRow.table α)
  rw [hcount] at hlayout
  obtain ⟨before, rest, hdata, hoffset⟩ := bytes_at_offset h trailing (TableRow.table α)
  rw [hbytes] at hdata
  constructor
  · intro hempty
    rw [hempty, List.length_nil] at hlayout
    exact if_pos hlayout
  · intro hne
    have hlength : 0 < rows.length := List.length_pos_iff.mpr hne
    let table : Table α := ⟨rowsBytes c.layout rows ++ rest, rows.length, c.layout⟩
    have hread := reads_rows hrows
    refine ⟨table, ?_, hread.value rest⟩
    have hsize : table.size ≤ table.data.length := by
      show rows.length * c.layout.rowSize (TableRow.table α)
        ≤ (rowsBytes c.layout rows ++ rest).length
      rw [List.length_append, length_rowsBytes]
      omega
    have hinside : ¬ (c.bytes ++ trailing).length < before.length := by
      rw [hdata, List.length_append]
      omega
    have hnew : Table.new ((c.bytes ++ trailing).drop before.length)
        (c.layout.rowCount (TableRow.table α)) c.layout = .ok table := by
      rw [hlayout, hdata, List.drop_left]
      exact if_pos hsize
    show (if c.layout.rowCount (TableRow.table α) = 0 then _
      else if (c.bytes ++ trailing).length < _ then _
      else (Table.new ((c.bytes ++ trailing).drop _) (c.layout.rowCount _) c.layout).map some) = _
    rw [if_neg (by omega), hoffset, if_neg hinside, hnew]
    rfl

end TableContents

-- ========================================================= reading back

/-- A stream that is written is read, whatever stands behind it, and gives
exactly the rows that it was written from. -/
theorem tables_read_back {c : TableContents} (h : c.Fits) (trailing : List UInt8) :
    ∃ s, TableStream.ofBytes (c.bytes ++ trailing) = .ok s
      ∧ s.Gives c.typeRefs ∧ s.Gives c.typeDefs ∧ s.Gives c.methodDefs ∧ s.Gives c.memberRefs
      ∧ s.Gives c.customAttributes ∧ s.Gives c.nestedClasses ∧ s.Gives c.genericParams :=
  ⟨c.stream (c.bytes ++ trailing), c.ofBytes_bytes h trailing,
    c.stream_gives h trailing h.typeRefs rfl rfl,
    c.stream_gives h trailing h.typeDefs rfl rfl,
    c.stream_gives h trailing h.methodDefs rfl rfl,
    c.stream_gives h trailing h.memberRefs rfl rfl,
    c.stream_gives h trailing h.customAttributes rfl rfl,
    c.stream_gives h trailing h.nestedClasses rfl rfl,
    c.stream_gives h trailing h.genericParams rfl rfl⟩

/-- Rows in each of the tables, with so many parameters beside them that
what carries an attribute takes four bytes, but a parameter two; strings
and byte strings are large, and four bytes more stand before the tables. -/
def mixedContents : TableContents where
  majorVersion := 2
  minorVersion := 0
  heapSizes := 0x45
  extra := 0xdeadbeef
  sorted := 0x16003301fa00
  present := fun t => t ∈ [TableId.module, .typeRef, .typeDef, .methodDef, .param, .memberRef,
    .customAttribute, .event, .nestedClass, .genericParam]
  typeRefs := [⟨1, ⟨.module, 1⟩, 0x10001, 0⟩]
  typeDefs := [⟨1, 0, 1, 0, ⟨.typeDef, 0⟩, 1, 1⟩, ⟨2, 0x100001, 9, 0, ⟨.typeRef, 1⟩, 1, 1⟩]
  methodDefs := [⟨1, 0x2050, 0, 0x1886, 20, 0x12345678, 2048⟩]
  memberRefs := [⟨1, ⟨.typeRef, 1⟩, 30, 6⟩]
  customAttributes := [⟨1, ⟨.genericParam, 1⟩, ⟨.memberRef, 1⟩, 10⟩]
  nestedClasses := [⟨1, 2, 1⟩]
  genericParams := [⟨1, 0, 4, ⟨.methodDef, 1⟩, 40⟩]
  others
    | .module => [[0, 0, 1, 0, 0, 0, 1, 0, 0, 0, 0, 0]]
    | .param => List.replicate 2048 [0, 0, 1, 0, 2, 0, 0, 0]
    | _ => []

theorem tables_read_back_mixed :
    mixedContents.Fits ∧ ∃ s, TableStream.ofBytes (mixedContents.bytes ++ [0, 0]) = .ok s
      ∧ s.Gives mixedContents.typeRefs ∧ s.Gives mixedContents.typeDefs
      ∧ s.Gives mixedContents.methodDefs ∧ s.Gives mixedContents.memberRefs
      ∧ s.Gives mixedContents.customAttributes ∧ s.Gives mixedContents.nestedClasses
      ∧ s.Gives mixedContents.genericParams := by
  have hfits : mixedContents.Fits :=
    { some_present := ⟨.module, by decide⟩
      present := fun t => by cases t <;> decide +kernel
      rowCount := fun t => by cases t <;> decide +kernel
      typeRefs := ⟨rfl, by decide +kernel⟩
      typeDefs := ⟨rfl, by decide +kernel⟩
      methodDefs := ⟨rfl, by decide +kernel⟩
      memberRefs := ⟨rfl, by decide +kernel⟩
      customAttributes := ⟨rfl, by decide +kernel⟩
      nestedClasses := ⟨rfl, by decide +kernel⟩
      genericParams := ⟨rfl, by decide +kernel⟩
      others := fun t => by cases t <;> decide +kernel }
  exact ⟨hfits, tables_read_back hfits [0, 0]⟩

end ClrListing.Metadata
