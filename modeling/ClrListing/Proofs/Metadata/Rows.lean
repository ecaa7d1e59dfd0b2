/-
Rows are read back as they were written, and from where they are measured.

A row is written cell by cell. How wide a cell is follows from the
numbers of rows and the flags of the heaps: `Layout.cellSize` says so in
the words of the standard, and `columnSize_eq` and `isLarge_eq` show that
the two ways in which sizes are found out, when rows are measured and
when they are read, both come to that. A type of rows gives its cells
(`RowForm`), and its reader takes them (`LawfulRowForm`).

On any bytes, a reader of rows takes the columns of its table and refuses
nothing but a tag that stands for no table (`TakesColumns`). So rows that
are read one behind the other are those that are found at the multiples of
a row's size (`Table.AccessesAgree`).
-/
import ClrListing.Metadata.Tables
import ClrListing.Proofs.Metadata.Reads
import ClrListing.Proofs.Metadata.Values

namespace ClrListing.Metadata

-- ======================================================= coded indexes

/-- How many low bits of a coded index choose the table. -/
def tagWidth : CodedKind → Nat
  | .hasFieldMarshal | .hasSemantics | .methodDefOrRef | .memberForwarded | .typeOrMethodDef => 1
  | .typeDefOrRef | .hasConstant | .hasDeclSecurity | .implementation | .resolutionScope => 2
  | .memberRefParent | .customAttributeType => 3
  | .hasCustomAttribute => 5

/-- What the tags of a coded index stand for, some of them for nothing. -/
def choices : CodedKind → List (Option TableId)
  | .typeDefOrRef => [some .typeDef, some .typeRef, some .typeSpec]
  | .hasConstant => [some .field, some .param, some .property]
  | .hasCustomAttribute =>
    [some .methodDef, some .field, some .typeRef, some .typeDef, some .param,
      some .interfaceImpl, some .memberRef, some .module, some .declSecurity, some .property,
      some .event, some .standAloneSig, some .moduleRef, some .typeSpec, some .assembly,
      some .assemblyRef, some .file, some .exportedType, some .manifestResource,
      some .genericParam, some .genericParamConstraint, some .methodSpec]
  | .hasFieldMarshal => [some .field, some .param]
  | .hasDeclSecurity => [some .typeDef, some .methodDef, some .assembly]
  | .memberRefParent =>
    [some .typeDef, some .typeRef, some .moduleRef, some .methodDef, some .typeSpec]
  | .hasSemantics => [some .event, some .property]
  | .methodDefOrRef => [some .methodDef, some .memberRef]
  | .memberForwarded => [some .field, some .methodDef]
  | .implementation => [some .file, some .assemblyRef, some .exportedType]
  | .customAttributeType => [none, none, some .methodDef, some .memberRef, none]
  | .resolutionScope => [some .module, some .moduleRef, some .assemblyRef, some .typeRef]
  | .typeOrMethodDef => [some .typeDef, some .methodDef]

/-- The number that a coded index is written as. -/
def codedValue (k : CodedKind) (ref : RowRef) : Nat :=
  ref.row * Nat.pow 2 (tagWidth k) + (choices k).idxOf (some ref.table)

namespace CodedKind

theorem tagBits_eq (k : CodedKind) : k.tagBits = tagWidth k := by
  cases k <;> decide

theorem tagWidth_le (k : CodedKind) : tagWidth k < 16 := by
  cases k <;> decide

theorem two_pow_tagWidth_le (k : CodedKind) : Nat.pow 2 (tagWidth k) ≤ 32 := by
  cases k <;> decide

theorem length_choices_le (k : CodedKind) : (choices k).length ≤ Nat.pow 2 (tagWidth k) := by
  cases k <;> decide

/-- A kind refers to the tables that its tags stand for. -/
theorem mem_tables (k : CodedKind) :
    (∀ t ∈ k.tables, some t ∈ choices k) ∧ ∀ t ∈ (choices k).filterMap id, t ∈ k.tables := by
  cases k <;> decide

/-- A tag that stands for a table is the tag of that table. -/
theorem choices_agree (k : CodedKind) :
    (choices k).length = k.tables.length
      ∧ ∀ c ∈ (choices k).zip k.tables, c.1 = none ∨ c.1 = some c.2 := by
  cases k <;> decide

theorem tables_of_choice {k : CodedKind} {t : TableId} {tag : Nat}
    (h : (choices k)[tag]? = some (some t)) : k.tables[tag]? = some t := by
  obtain ⟨hlength, hagree⟩ := k.choices_agree
  obtain ⟨htag, hchoice⟩ := List.getElem?_eq_some_iff.mp h
  have htable : tag < k.tables.length := hlength ▸ htag
  have hzip : tag < ((choices k).zip k.tables).length := by
    rw [List.length_zip]
    omega
  have hpair := hagree _ (List.getElem_mem hzip)
  rw [List.getElem_zip, hchoice] at hpair
  rw [List.getElem?_eq_getElem htable]
  simpa [eq_comm] using hpair

theorem lt_of_getElem?_tables {k : CodedKind} {tag : Nat} {t : TableId}
    (h : k.tables[tag]? = some t) : tag < Nat.pow 2 k.tagBits := by
  have htag := (List.getElem?_eq_some_iff.mp h).1
  have hlength := k.choices_agree.1
  have hlimit := k.length_choices_le
  rw [tagBits_eq]
  omega

/-- A coded index is taken apart into its row and the table of its tag. -/
theorem decode_of_tag {k : CodedKind} {tag : Nat} {t : TableId} (h : k.tables[tag]? = some t)
    (row : Nat) : k.decode (row * Nat.pow 2 k.tagBits + tag) = .ok ⟨t, row⟩ := by
  have htag := lt_of_getElem?_tables h
  have hmod : (row * Nat.pow 2 k.tagBits + tag) % Nat.pow 2 k.tagBits = tag := by
    rw [Nat.mul_add_mod_self_right, Nat.mod_eq_of_lt htag]
  have hdiv : (row * Nat.pow 2 k.tagBits + tag) / Nat.pow 2 k.tagBits = row := by
    rw [Nat.add_comm, Nat.add_mul_div_right _ _ (by omega), Nat.div_eq_of_lt htag, Nat.zero_add]
  unfold decode
  rw [hmod, h, hdiv]

theorem decode_beyond {k : CodedKind} {value : Nat}
    (h : k.tables.length ≤ value % Nat.pow 2 k.tagBits) : k.decode value = .error .outOfBounds := by
  unfold decode
  rw [List.getElem?_eq_none h]

theorem exists_decode {k : CodedKind} {value : Nat}
    (h : value % Nat.pow 2 k.tagBits < k.tables.length) : ∃ ref, k.decode value = .ok ref := by
  unfold decode
  rw [List.getElem?_eq_getElem h]
  exact ⟨_, rfl⟩

/-- A coded index is taken apart into what it was made of. -/
theorem decode_codedValue {k : CodedKind} {ref : RowRef} (h : some ref.table ∈ choices k) :
    k.decode (codedValue k ref) = .ok ref := by
  have hchoice : (choices k)[(choices k).idxOf (some ref.table)]? = some (some ref.table) := by
    have htag := List.idxOf_lt_length_of_mem h
    rw [List.getElem?_eq_getElem htag, List.getElem_idxOf htag]
  unfold codedValue
  rw [← tagBits_eq]
  exact decode_of_tag (tables_of_choice hchoice) ref.row

end CodedKind

-- =============================================================== sizes

namespace Layout

/-- The size of what stands in a column: a reference to a table takes two
bytes if the table has less than 2¹⁶ rows, and a coded index if the bits
of its tag and of the rows of each of its tables are sixteen at most. -/
def cellSize (l : Layout) : Column → Nat
  | .fixed size => size
  | .string => if l.largeStrings then 4 else 2
  | .guid => if l.largeGuids then 4 else 2
  | .blob => if l.largeBlobs then 4 else 2
  | .rowOf t => if l.rowCount t < 0x10000 then 2 else 4
  | .coded k =>
    if ∀ t ∈ (choices k).filterMap id, l.rowCount t < Nat.pow 2 (16 - tagWidth k) then 2 else 4

theorem rowBits_le_iff (l : Layout) (t : TableId) {bits : Nat} (hbits : 0 < bits) :
    l.rowBits t ≤ bits ↔ l.rowCount t < Nat.pow 2 bits := by
  have hpos : 0 < Nat.pow 2 bits := Nat.two_pow_pos bits
  unfold rowBits rowCount
  cases h : l.counts t with
  | none => exact iff_of_true (Nat.zero_le _) hpos
  | some n =>
    cases n with
    | zero => exact iff_of_true hbits hpos
    | succ n =>
      show (n + 1).log2 + 1 ≤ bits ↔ n + 1 < Nat.pow 2 bits
      exact Nat.log2_lt (Nat.succ_ne_zero n)

/-- A reference is large or it has two bytes. -/
theorem referenceSize_eq {large : Bool} {small : Prop} [Decidable small]
    (h : large = true ↔ ¬ small) : referenceSize large = if small then 2 else 4 := by
  unfold referenceSize
  by_cases hsmall : small
  · rw [if_pos hsmall, if_neg fun hlarge => h.mp hlarge hsmall]
  · rw [if_neg hsmall, if_pos (h.mpr hsmall)]

theorem isLarge_eq (l : Layout) (t : TableId) :
    referenceSize (l.isLarge t) = l.cellSize (.rowOf t) := by
  refine referenceSize_eq ?_
  unfold isLarge
  rw [decide_eq_true_iff]
  omega

theorem rowRefSize_eq (l : Layout) (t : TableId) : l.rowRefSize t = l.cellSize (.rowOf t) := by
  have hbits : l.rowBits t ≤ 16 ↔ l.rowCount t < 0x10000 := l.rowBits_le_iff t (by decide)
  refine referenceSize_eq ?_
  rw [decide_eq_true_iff, ← hbits]
  omega

theorem foldl_max_le (ns : List Nat) (first limit : Nat) :
    ns.foldl max first ≤ limit ↔ first ≤ limit ∧ ∀ n ∈ ns, n ≤ limit := by
  induction ns generalizing first with
  | nil => simp
  | cons n rest ih => rw [List.foldl_cons, ih, List.forall_mem_cons, Nat.max_le, and_assoc]

theorem codedBits_le_iff (l : Layout) (k : CodedKind) :
    l.codedBits k ≤ 16 ↔
      ∀ t ∈ (choices k).filterMap id, l.rowCount t < Nat.pow 2 (16 - tagWidth k) := by
  obtain ⟨hinto, hfrom⟩ := k.mem_tables
  have hwidth := k.tagWidth_le
  have hfold := foldl_max_le (k.tables.map l.rowBits) 0 (16 - tagWidth k)
  unfold codedBits
  rw [k.tagBits_eq, ← Nat.le_sub_iff_add_le (by omega), hfold, List.forall_mem_map]
  constructor
  · intro h t ht
    exact (l.rowBits_le_iff t (by omega)).mp (h.2 t (hfrom t ht))
  · intro h
    refine ⟨Nat.zero_le _, fun t ht => (l.rowBits_le_iff t (by omega)).mpr (h t ?_)⟩
    exact List.mem_filterMap.mpr ⟨some t, hinto t ht, rfl⟩

theorem codedSize_eq (l : Layout) (k : CodedKind) : l.codedSize k = l.cellSize (.coded k) := by
  refine referenceSize_eq ?_
  rw [decide_eq_true_iff, ← l.codedBits_le_iff k]
  omega

theorem columnSize_eq (l : Layout) (c : Column) : l.columnSize c = l.cellSize c := by
  cases c with
  | fixed size => rfl
  | string => rfl
  | guid => rfl
  | blob => rfl
  | rowOf t => exact l.rowRefSize_eq t
  | coded k => exact l.codedSize_eq k

/-- What references to rows need of a layout. -/
structure HoldsReferences (l : Layout) : Prop where
  /-- Both tests of the width of a row's number agree. -/
  agree : ∀ t, referenceSize (l.isLarge t) = l.rowRefSize t
  /-- Every row of every table of a coded index fits, and is read back. -/
  coded : ∀ (k : CodedKind) (tag : Nat) (t : TableId), k.tables[tag]? = some t →
    ∀ row ≤ l.rowCount t, row * Nat.pow 2 k.tagBits + tag < Nat.pow 256 (l.codedSize k)
      ∧ k.decode (row * Nat.pow 2 k.tagBits + tag) = .ok ⟨t, row⟩
  /-- A tag behind those of the tables stands for none. -/
  beyond : ∀ (k : CodedKind) (value : Nat), k.tables.length ≤ value % Nat.pow 2 k.tagBits →
    k.decode value = .error .outOfBounds

/-- A row that a coded index may refer to fits: it takes two bytes just if, of
`w` bits of tag, each table has less than 2¹⁶⁻ʷ rows. -/
theorem codedValue_lt {l : Layout} (h : ∀ t, l.rowCount t < 0x1000000) {k : CodedKind} {tag : Nat}
    {t : TableId} (htable : k.tables[tag]? = some t) {row : Nat} (hrow : row ≤ l.rowCount t) :
    row * Nat.pow 2 k.tagBits + tag < Nat.pow 256 (l.codedSize k) := by
  have htag := CodedKind.lt_of_getElem?_tables htable
  have hmem : t ∈ (choices k).filterMap id :=
    List.mem_filterMap.mpr ⟨some t, k.mem_tables.1 t (List.mem_of_getElem? htable), rfl⟩
  have hwidth := k.tagWidth_le
  rw [l.codedSize_eq, cellSize]
  rw [k.tagBits_eq] at htag ⊢
  -- the value is below that of the next row
  have hnext : row * Nat.pow 2 (tagWidth k) + tag < (row + 1) * Nat.pow 2 (tagWidth k) := by
    rw [Nat.succ_mul]
    omega
  split
  · next hsmall =>
    have hrows : row + 1 ≤ Nat.pow 2 (16 - tagWidth k) := by
      have := hsmall t hmem
      omega
    calc row * Nat.pow 2 (tagWidth k) + tag
        < (row + 1) * Nat.pow 2 (tagWidth k) := hnext
      _ ≤ Nat.pow 2 (16 - tagWidth k) * Nat.pow 2 (tagWidth k) := Nat.mul_le_mul_right _ hrows
      _ = Nat.pow 2 (16 - tagWidth k + tagWidth k) := (Nat.pow_add 2 _ _).symm
      _ = Nat.pow 256 2 := by rw [Nat.sub_add_cancel (Nat.le_of_lt hwidth)]
  · have hrows : row + 1 ≤ 0x1000000 := by
      have := h t
      omega
    calc row * Nat.pow 2 (tagWidth k) + tag
        < (row + 1) * Nat.pow 2 (tagWidth k) := hnext
      _ ≤ 0x1000000 * 32 := Nat.mul_le_mul hrows k.two_pow_tagWidth_le
      _ < Nat.pow 256 4 := by decide

theorem holdsReferences {l : Layout} (h : ∀ t, l.rowCount t < 0x1000000) : l.HoldsReferences where
  agree := fun t => (l.isLarge_eq t).trans (l.rowRefSize_eq t).symm
  coded := fun _ _ _ htable row hrow =>
    ⟨codedValue_lt h htable hrow, CodedKind.decode_of_tag htable row⟩
  beyond := fun _ _ => CodedKind.decode_beyond

end Layout

-- =============================================================== cells

/-- What stands in a column of a row. -/
inductive Cell where
  /-- A number, written as it is. -/
  | plain (column : Column) (value : Nat)
  | coded (kind : CodedKind) (ref : RowRef)
  deriving DecidableEq, Repr, Inhabited

namespace Cell

/-- The column that a cell stands in. -/
def column : Cell → Column
  | .plain column _ => column
  | .coded kind _ => .coded kind

/-- The number that a cell is written as. -/
def value : Cell → Nat
  | .plain _ value => value
  | .coded kind ref => codedValue kind ref

/-- The bytes of a cell. -/
def bytes (l : Layout) (c : Cell) : List UInt8 := littleEndianBytes (l.cellSize c.column) c.value

/-- Whether a reference is to a table that can be chosen. -/
def IsChoice : Cell → Prop
  | .plain _ _ => True
  | .coded kind ref => some ref.table ∈ choices kind

instance : (c : Cell) → Decidable c.IsChoice
  | .plain _ _ => inferInstanceAs (Decidable True)
  | .coded kind ref => inferInstanceAs (Decidable (some ref.table ∈ choices kind))

/-- Whether a cell fits its column. -/
def Fits (l : Layout) (c : Cell) : Prop :=
  c.value < Nat.pow 256 (l.cellSize c.column) ∧ c.IsChoice

instance (l : Layout) (c : Cell) : Decidable (c.Fits l) := inferInstanceAs (Decidable (_ ∧ _))

variable {l : Layout}

theorem length_bytes (c : Cell) : (c.bytes l).length = l.columnSize c.column := by
  rw [bytes, length_littleEndianBytes, Layout.columnSize_eq]

theorem reads_fixed {size n : Nat} (h : (plain (.fixed size) n).Fits l) :
    Reads (Reader.number size) ((plain (.fixed size) n).bytes l) n := reads_number h.1

theorem reads_string {n : Nat} (h : (plain .string n).Fits l) :
    Reads l.readString ((plain .string n).bytes l) n := reads_number h.1

theorem reads_blob {n : Nat} (h : (plain .blob n).Fits l) :
    Reads l.readBlob ((plain .blob n).bytes l) n := reads_number h.1

theorem reads_rowOf {t : TableId} {n : Nat} (h : (plain (.rowOf t) n).Fits l) :
    Reads (l.readRowOf t) ((plain (.rowOf t) n).bytes l) n := by
  unfold Layout.readRowOf Layout.readReference
  rw [l.isLarge_eq]
  exact reads_number h.1

theorem reads_coded {k : CodedKind} {ref : RowRef} (h : (coded k ref).Fits l) :
    Reads (l.readCoded k) ((coded k ref).bytes l) ref := by
  unfold Layout.readCoded
  rw [l.codedSize_eq, ← List.append_nil (bytes l _)]
  refine (reads_number h.1).bind fun rest => ?_
  show (k.decode (codedValue k ref) >>= fun ref => .ok (ref, rest)) = _
  rw [CodedKind.decode_codedValue h.2]
  rfl

end Cell

-- ================================================================ rows

/-- A type of rows and how they are written. -/
class RowForm (α : Type) [TableRow α] where
  /-- The number of a row, which is not written. -/
  number : α → Nat
  /-- The cells of a row. -/
  cells : α → List Cell

namespace RowForm

variable {α : Type} [TableRow α] [RowForm α]

/-- The bytes of a row. -/
def bytes (l : Layout) (a : α) : List UInt8 := (cells a).flatMap (Cell.bytes l)

/-- Whether all cells of a row fit. -/
def Fits (l : Layout) (a : α) : Prop := ∀ c ∈ cells a, c.Fits l

instance (l : Layout) (a : α) : Decidable (Fits l a) := inferInstanceAs (Decidable (∀ c ∈ _, _))

end RowForm

/-- Rows whose cells stand in the columns of their table, and are what is
read. -/
class LawfulRowForm (α : Type) [TableRow α] [RowForm α] : Prop where
  columns_cells : ∀ a : α, (RowForm.cells a).map Cell.column = columns (TableRow.table α)
  reads : ∀ {l : Layout} {a : α}, RowForm.Fits l a →
    Reads (TableRow.read l (RowForm.number a)) (RowForm.bytes l a) a

instance : RowForm TypeRefRow where
  number := TypeRefRow.row
  cells a := [.coded .resolutionScope a.scope, .plain .string a.name, .plain .string a.space]

instance : LawfulRowForm TypeRefRow where
  columns_cells _ := rfl
  reads {l a} h := by
    obtain ⟨hscope, hname, hspace, -⟩ : _ ∧ _ ∧ _ ∧ _ := by
      simpa only [RowForm.Fits, RowForm.cells, List.forall_mem_cons] using h
    exact (Cell.reads_coded hscope).bind ((Cell.reads_string hname).bind
      ((Cell.reads_string hspace).bind (.pure a)))

instance : RowForm TypeDefRow where
  number := TypeDefRow.row
  cells a :=
    [.plain (.fixed 4) a.flags, .plain .string a.name, .plain .string a.space,
      .coded .typeDefOrRef a.base, .plain (.rowOf .field) a.fields,
      .plain (.rowOf .methodDef) a.methods]

instance : LawfulRowForm TypeDefRow where
  columns_cells _ := rfl
  reads {l a} h := by
    obtain ⟨hflags, hname, hspace, hbase, hfields, hmethods, -⟩ : _ ∧ _ ∧ _ ∧ _ ∧ _ ∧ _ ∧ _ := by
      simpa only [RowForm.Fits, RowForm.cells, List.forall_mem_cons] using h
    exact (Cell.reads_fixed hflags).bind ((Cell.reads_string hname).bind
      ((Cell.reads_string hspace).bind ((Cell.reads_coded hbase).bind
        ((Cell.reads_rowOf hfields).bind ((Cell.reads_rowOf hmethods).bind (.pure a))))))

instance : RowForm MethodDefRow where
  number := MethodDefRow.row
  cells a :=
    [.plain (.fixed 4) a.address, .plain (.fixed 2) a.implFlags, .plain (.fixed 2) a.flags,
      .plain .string a.name, .plain .blob a.signature, .plain (.rowOf .param) a.params]

instance : LawfulRowForm MethodDefRow where
  columns_cells _ := rfl
  reads {l a} h := by
    obtain ⟨haddress, himplFlags, hflags, hname, hsignature, hparams, -⟩ :
        _ ∧ _ ∧ _ ∧ _ ∧ _ ∧ _ ∧ _ := by
      simpa only [RowForm.Fits, RowForm.cells, List.forall_mem_cons] using h
    exact (Cell.reads_fixed haddress).bind ((Cell.reads_fixed himplFlags).bind
      ((Cell.reads_fixed hflags).bind ((Cell.reads_string hname).bind
        ((Cell.reads_blob hsignature).bind ((Cell.reads_rowOf hparams).bind (.pure a))))))

instance : RowForm MemberRefRow where
  number := MemberRefRow.row
  cells a := [.coded .memberRefParent a.parent, .plain .string a.name, .plain .blob a.signature]

instance : LawfulRowForm MemberRefRow where
  columns_cells _ := rfl
  reads {l a} h := by
    obtain ⟨hparent, hname, hsignature, -⟩ : _ ∧ _ ∧ _ ∧ _ := by
      simpa only [RowForm.Fits, RowForm.cells, List.forall_mem_cons] using h
    exact (Cell.reads_coded hparent).bind ((Cell.reads_string hname).bind
      ((Cell.reads_blob hsignature).bind (.pure a)))

instance : RowForm CustomAttributeRow where
  number := CustomAttributeRow.row
  cells a :=
    [.coded .hasCustomAttribute a.parent, .coded .customAttributeType a.constructor,
      .plain .blob a.value]

instance : LawfulRowForm CustomAttributeRow where
  columns_cells _ := rfl
  reads {l a} h := by
    obtain ⟨hparent, hconstructor, hvalue, -⟩ : _ ∧ _ ∧ _ ∧ _ := by
      simpa only [RowForm.Fits, RowForm.cells, List.forall_mem_cons] using h
    exact (Cell.reads_coded hparent).bind ((Cell.reads_coded hconstructor).bind
      ((Cell.reads_blob hvalue).bind (.pure a)))

instance : RowForm NestedClassRow where
  number := NestedClassRow.row
  cells a := [.plain (.rowOf .typeDef) a.nested, .plain (.rowOf .typeDef) a.enclosing]

instance : LawfulRowForm NestedClassRow where
  columns_cells _ := rfl
  reads {l a} h := by
    obtain ⟨hnested, henclosing, -⟩ : _ ∧ _ ∧ _ := by
      simpa only [RowForm.Fits, RowForm.cells, List.forall_mem_cons] using h
    exact (Cell.reads_rowOf hnested).bind ((Cell.reads_rowOf henclosing).bind (.pure a))

instance : RowForm GenericParamRow where
  number := GenericParamRow.row
  cells a :=
    [.plain (.fixed 2) a.number, .plain (.fixed 2) a.flags, .coded .typeOrMethodDef a.owner,
      .plain .string a.name]

instance : LawfulRowForm GenericParamRow where
  columns_cells _ := rfl
  reads {l a} h := by
    obtain ⟨hnumber, hflags, howner, hname, -⟩ : _ ∧ _ ∧ _ ∧ _ ∧ _ := by
      simpa only [RowForm.Fits, RowForm.cells, List.forall_mem_cons] using h
    exact (Cell.reads_fixed hnumber).bind ((Cell.reads_fixed hflags).bind
      ((Cell.reads_coded howner).bind ((Cell.reads_string hname).bind (.pure a))))

-- ============================================================== tables

section Tables

variable {α : Type} [TableRow α] [RowForm α]

/-- The bytes of a table. -/
def rowsBytes (l : Layout) (rows : List α) : List UInt8 := rows.flatMap (RowForm.bytes l)

/-- Whether rows fit, and are numbered from a first number on. -/
structure RowsFit (l : Layout) (first : Nat) (rows : List α) : Prop where
  numbers : rows.map RowForm.number = List.range' first rows.length
  cells : ∀ a ∈ rows, RowForm.Fits l a

variable [LawfulRowForm α] {l : Layout}

theorem length_rowBytes (a : α) :
    (RowForm.bytes l a).length = l.rowSize (TableRow.table α) := by
  unfold Layout.rowSize
  rw [← LawfulRowForm.columns_cells a, RowForm.bytes]
  induction RowForm.cells a with
  | nil => rfl
  | cons c rest ih =>
    rw [List.flatMap_cons, List.length_append, ih, c.length_bytes, List.map_cons, List.foldr_cons]

theorem length_rowsBytes (rows : List α) :
    (rowsBytes l rows).length = rows.length * l.rowSize (TableRow.table α) :=
  length_flatMap_of_forall fun a _ => length_rowBytes a

/-- The rows of a table are read back, each under its number. -/
theorem reads_rows {rows : List α} {first : Nat} (h : RowsFit l first rows) :
    Reads (Table.readRows l first rows.length) (rowsBytes l rows) rows := by
  induction rows generalizing first with
  | nil => exact .pure []
  | cons a rest ih =>
    have hnumbers := h.numbers
    rw [List.map_cons, List.length_cons, List.range'_succ, List.cons.injEq] at hnumbers
    obtain ⟨hfirst, hnumbers⟩ := hnumbers
    have hrest := ih ⟨hnumbers, fun b hb => h.cells b (List.mem_cons_of_mem _ hb)⟩
    have hrow := LawfulRowForm.reads (h.cells a List.mem_cons_self)
    rw [hfirst] at hrow
    exact hrow.bind (hrest.bind_pure fun rows => a :: rows)

end Tables

-- ======================================================= columns taken

namespace Layout

/-- The size of some columns. -/
def width (l : Layout) (cs : List Column) : Nat :=
  cs.foldr (fun c size => l.columnSize c + size) 0

/-- Whether what stands in a column has a tag that stands for no table. -/
def HasBadTag (l : Layout) (bytes : List UInt8) : Column → Prop
  | .coded k => k.tables.length ≤ wordAt bytes 0 (l.codedSize k) % Nat.pow 2 k.tagBits
  | _ => False

/-- Whether there is a bad tag in one of some columns. -/
def HasBadTags (l : Layout) : List Column → List UInt8 → Prop
  | [], _ => False
  | c :: cs, bytes => l.HasBadTag bytes c ∨ HasBadTags l cs (bytes.drop (l.columnSize c))

/-- The reader takes what stands in these columns, and a bad tag is all that
it refuses. -/
def Takes (l : Layout) (cs : List Column) (reader : Reader α) : Prop :=
  ∀ bytes,
    (l.width cs ≤ bytes.length ∧ ¬ l.HasBadTags cs bytes
      ∧ ∃ a, reader bytes = .ok (a, bytes.drop (l.width cs)))
    ∨ ((bytes.length < l.width cs ∨ l.HasBadTags cs bytes) ∧ ∃ e, reader bytes = .error e)

namespace Takes

variable {l : Layout} {c : Column} {cs : List Column} {reader : Reader α} {f : α → Reader β}

theorem pure (a : α) : l.Takes [] (pure a : Reader α) := fun _ =>
  .inl ⟨Nat.zero_le _, id, a, rfl⟩

/-- A column and those behind it. -/
theorem cons (hreader : l.Takes [c] reader) (hf : ∀ a, l.Takes cs (f a)) :
    l.Takes (c :: cs) (reader >>= f) := by
  intro bytes
  have hrun : (reader >>= f) bytes = (reader bytes >>= fun r => f r.1 r.2) := rfl
  have hwidth : l.width (c :: cs) = l.columnSize c + l.width cs := rfl
  have hone : l.width [c] = l.columnSize c := rfl
  have hlength := bytes.length_drop (i := l.columnSize c)
  rw [hrun, hwidth, HasBadTags]
  rcases hreader bytes with ⟨hlong, hgood, a, hread⟩ | ⟨hrefused, e, hread⟩
  · rw [hone] at hlong hread
    have hnone : ¬ l.HasBadTag bytes c := fun hbad => hgood (.inl hbad)
    rw [hread]
    rcases hf a (bytes.drop (l.columnSize c)) with ⟨hmore, hgood, b, hb⟩ | ⟨hrefused, e, he⟩
    · refine .inl ⟨by omega, not_or.mpr ⟨hnone, hgood⟩, b, ?_⟩
      rw [List.drop_drop] at hb
      exact hb
    · refine .inr ⟨?_, e, he⟩
      rcases hrefused with hshort | hbad
      · exact .inl (by omega)
      · exact .inr (.inr hbad)
  · rw [hread]
    refine .inr ⟨?_, e, rfl⟩
    rcases hrefused with hshort | hbad
    · rw [hone] at hshort
      exact .inl (by omega)
    · exact .inr (.inl (hbad.resolve_right id))

/-- A number is taken from a column that has no tags. -/
theorem number {size : Nat} (hsize : size = l.columnSize c)
    (hplain : ∀ bytes, ¬ l.HasBadTag bytes c) : l.Takes [c] (Reader.number size) := by
  intro bytes
  have hwidth : l.width [c] = size := hsize.symm
  have hgood : ¬ l.HasBadTags [c] bytes := fun h => h.elim (hplain bytes) id
  rw [hwidth, number_eq]
  by_cases hlong : size ≤ bytes.length
  · rw [if_pos hlong]
    exact .inl ⟨hlong, hgood, _, rfl⟩
  · rw [if_neg hlong]
    exact .inr ⟨.inl (Nat.lt_of_not_le hlong), _, rfl⟩

theorem fixed (size : Nat) : l.Takes [.fixed size] (Reader.number size) := number rfl fun _ => id

theorem string (l : Layout) : l.Takes [.string] l.readString := number rfl fun _ => id

theorem blob (l : Layout) : l.Takes [.blob] l.readBlob := number rfl fun _ => id

theorem rowOf (t : TableId) : l.Takes [.rowOf t] (l.readRowOf t) :=
  number ((l.isLarge_eq t).trans (l.rowRefSize_eq t).symm) fun _ => id

theorem coded (k : CodedKind) : l.Takes [.coded k] (l.readCoded k) := by
  intro bytes
  have hwidth : l.width [.coded k] = l.codedSize k := rfl
  have hrun : l.readCoded k bytes = (Reader.number (l.codedSize k) bytes >>= fun r =>
      k.decode r.1 >>= fun ref => .ok (ref, r.2)) := rfl
  have htags : l.HasBadTags [.coded k] bytes
      ↔ k.tables.length ≤ littleEndian (bytes.take (l.codedSize k)) % Nat.pow 2 k.tagBits :=
    or_iff_left not_false
  rw [hwidth, hrun, number_eq, htags]
  by_cases hlong : l.codedSize k ≤ bytes.length
  · rw [if_pos hlong]
    by_cases hbad :
        k.tables.length ≤ littleEndian (bytes.take (l.codedSize k)) % Nat.pow 2 k.tagBits
    · refine .inr ⟨.inr hbad, .outOfBounds, ?_⟩
      change k.decode (littleEndian (bytes.take (l.codedSize k))) >>= _ = _
      rw [CodedKind.decode_beyond hbad]
      rfl
    · obtain ⟨ref, href⟩ := CodedKind.exists_decode (Nat.lt_of_not_le hbad)
      refine .inl ⟨hlong, hbad, ref, ?_⟩
      change k.decode (littleEndian (bytes.take (l.codedSize k))) >>= _ = _
      rw [href]
      rfl
  · rw [if_neg hlong]
    exact .inr ⟨.inl (Nat.lt_of_not_le hlong), _, rfl⟩

end Takes

end Layout

/-- Rows whose readers take the columns of their tables. -/
class TakesColumns (α : Type) [TableRow α] : Prop where
  takes : ∀ (l : Layout) (row : Nat),
    l.Takes (columns (TableRow.table α)) (TableRow.read l row : Reader α)

section Takers

open Layout.Takes

instance : TakesColumns TypeRefRow where
  takes l _ := (coded _).cons fun _ => (string l).cons fun _ => (string l).cons fun _ => .pure _

instance : TakesColumns TypeDefRow where
  takes l _ :=
    (fixed 4).cons fun _ => (string l).cons fun _ => (string l).cons fun _ =>
      (coded _).cons fun _ => (rowOf _).cons fun _ => (rowOf _).cons fun _ => .pure _

instance : TakesColumns MethodDefRow where
  takes l _ :=
    (fixed 4).cons fun _ => (fixed 2).cons fun _ => (fixed 2).cons fun _ =>
      (string l).cons fun _ => (blob l).cons fun _ => (rowOf _).cons fun _ => .pure _

instance : TakesColumns MemberRefRow where
  takes l _ := (coded _).cons fun _ => (string l).cons fun _ => (blob l).cons fun _ => .pure _

instance : TakesColumns CustomAttributeRow where
  takes l _ := (coded _).cons fun _ => (coded _).cons fun _ => (blob l).cons fun _ => .pure _

instance : TakesColumns NestedClassRow where
  takes _ _ := (rowOf _).cons fun _ => (rowOf _).cons fun _ => .pure _

instance : TakesColumns GenericParamRow where
  takes l _ :=
    (fixed 2).cons fun _ => (fixed 2).cons fun _ => (coded _).cons fun _ =>
      (string l).cons fun _ => .pure _

end Takers

-- ======================================================== both accesses

namespace Table

variable {α : Type} [TableRow α]

/-- The bytes from a row on. -/
def bytesFrom (t : Table α) (row : Nat) : List UInt8 := t.data.drop ((row - 1) * t.rowSize)

/-- Both ways to read the rows of a table, one by one and all together, find
the same rows in the same places. -/
structure AccessesAgree (t : Table α) : Prop where
  /-- A row that is read takes just the size of a row. -/
  takes : ∀ number bytes (a : α) rest, TableRow.read t.layout number bytes = .ok (a, rest) →
    t.rowSize ≤ bytes.length ∧ rest = bytes.drop t.rowSize
  /-- Only a bad tag is refused. -/
  refuses : ∀ row, 0 < row → row ≤ t.rowCount → ∀ number,
    (∃ e, (TableRow.read t.layout number : Reader α) (t.bytesFrom row) = .error e)
      ↔ t.layout.HasBadTags (columns (TableRow.table α)) (t.bytesFrom row)
  rows : ∀ all, t.rows = .ok all → all.length = t.rowCount
    ∧ ∀ row, 0 < row → row ≤ t.rowCount → ∃ a, all[row - 1]? = some a ∧ t.get? row = some a
  fails : (∃ e, t.rows = .error e) ↔ ∃ row, 0 < row ∧ row ≤ t.rowCount ∧ t.get? row = none
  outside : ∀ row, row = 0 ∨ t.rowCount < row → t.get? row = none

/-- A row that there is is read from its place. -/
theorem get?_of_le {t : Table α} {row : Nat} (hpos : 0 < row) (hle : row ≤ t.rowCount) :
    t.get? row = ((TableRow.read t.layout row).value (t.bytesFrom row)).toOption := by
  unfold get?
  have hin : ¬(decide (row = 0) || decide (t.rowCount < row)) = true := by
    simp
    omega
  rw [if_neg hin]
  rfl

/-- The bytes of a table are enough for each of its rows. -/
theorem rowSize_le_length_bytesFrom {t : Table α} (h : t.size ≤ t.data.length) {row : Nat}
    (hpos : 0 < row) (hle : row ≤ t.rowCount) : t.rowSize ≤ (t.bytesFrom row).length := by
  obtain ⟨i, rfl⟩ := Nat.exists_eq_succ_of_ne_zero (Nat.pos_iff_ne_zero.mp hpos)
  have hmul : (i + 1) * t.rowSize ≤ t.size := Nat.mul_le_mul_right _ hle
  unfold bytesFrom
  rw [Nat.succ_mul] at hmul
  rw [List.length_drop, Nat.succ_sub_one]
  omega

variable [TakesColumns α] {l : Layout}

/-- All rows that stand one behind the other are read from the places of
each, or one of them is refused there. -/
theorem readRows_places (l : Layout) (first : Nat) {count : Nat} (bytes : List UInt8)
    (h : count * l.rowSize (TableRow.table α) ≤ bytes.length) :
    (∃ all : List α, (readRows l first count).value bytes = .ok all ∧ all.length = count
      ∧ ∀ i < count, ∃ a, all[i]? = some a ∧ (TableRow.read l (first + i)).value
          (bytes.drop (i * l.rowSize (TableRow.table α))) = .ok a)
    ∨ ((∃ e, (readRows l first count : Reader (List α)).value bytes = .error e)
      ∧ ∃ i < count, ∃ e, (TableRow.read l (first + i) : Reader α).value
          (bytes.drop (i * l.rowSize (TableRow.table α))) = .error e) := by
  induction count generalizing first bytes with
  | zero => exact .inl ⟨[], rfl, rfl, fun i hi => absurd hi (Nat.not_lt_zero i)⟩
  | succ count ih =>
    -- the rows behind the first stand in what the first leaves
    have hplace : ∀ i, (bytes.drop (l.rowSize (TableRow.table α))).drop
        (i * l.rowSize (TableRow.table α))
          = bytes.drop ((i + 1) * l.rowSize (TableRow.table α)) := fun i => by
      rw [List.drop_drop, Nat.succ_mul, Nat.add_comm]
    have hnumber : ∀ i, first + 1 + i = first + (i + 1) := fun i => by omega
    rw [Nat.succ_mul] at h
    rcases TakesColumns.takes (α := α) l first bytes with ⟨-, -, a, hread⟩ | ⟨-, e, hread⟩
    · have hrun : (readRows l first (count + 1)).value bytes
          = (readRows l (first + 1) count).value (bytes.drop (l.rowSize (TableRow.table α)))
            >>= fun rest => pure (a :: rest) := by
        rw [readRows, value_bind, hread]
        exact value_bind_pure _ _ _
      rw [hrun]
      rcases ih (first + 1) (bytes.drop (l.rowSize (TableRow.table α)))
          (by rw [List.length_drop]; omega) with ⟨all, hall, hlength, hget⟩ | ⟨⟨e, he⟩, i, hi, hbad⟩
      · refine .inl ⟨a :: all, by rw [hall]; rfl, by rw [List.length_cons, hlength], ?_⟩
        intro i hi
        cases i with
        | zero => exact ⟨a, rfl, by rw [Nat.zero_mul]; exact value_of_ok hread⟩
        | succ i =>
          have hrow := hget i (by omega)
          rwa [hplace, hnumber] at hrow
      · refine .inr ⟨⟨e, by rw [he]; rfl⟩, i + 1, by omega, ?_⟩
        rwa [hplace, hnumber] at hbad
    · refine .inr ⟨⟨e, by rw [readRows, value_bind, hread]; rfl⟩, 0, Nat.succ_pos count, e, ?_⟩
      rw [Nat.zero_mul]
      exact value_of_error hread

/-- All rows are what is found one by one, or one of them is not found. -/
theorem rows_or_missing {t : Table α} (h : t.size ≤ t.data.length) :
    (∃ all, t.rows = .ok all ∧ all.length = t.rowCount ∧ ∀ row, 0 < row → row ≤ t.rowCount →
      ∃ a, all[row - 1]? = some a ∧ t.get? row = some a)
    ∨ ((∃ e, t.rows = .error e) ∧ ∃ row, 0 < row ∧ row ≤ t.rowCount ∧ t.get? row = none) := by
  have hget : ∀ i < t.rowCount, t.get? (i + 1) = ((TableRow.read t.layout (1 + i)).value
      (t.data.drop (i * t.layout.rowSize (TableRow.table α)))).toOption := fun i hi => by
    rw [get?_of_le (Nat.succ_pos i) hi, Nat.add_comm 1 i]
    rfl
  rcases readRows_places (α := α) t.layout 1 t.data h with
    ⟨all, hall, hlength, hrows⟩ | ⟨hrefused, i, hi, e, he⟩
  · refine .inl ⟨all, hall, hlength, fun row hpos hle => ?_⟩
    obtain ⟨i, rfl⟩ := Nat.exists_eq_add_one_of_ne_zero (Nat.pos_iff_ne_zero.mp hpos)
    obtain ⟨a, ha, hvalue⟩ := hrows i hle
    exact ⟨a, ha, by rw [hget i hle, hvalue]; rfl⟩
  · exact .inr ⟨hrefused, i + 1, Nat.succ_pos i, hi, by rw [hget i hi, he]; rfl⟩

/-- Both ways to read the rows of a table agree, whatever its bytes are. -/
theorem AccessesAgree.of_new {data : List UInt8} {count : Nat} {t : Table α}
    (h : Table.new data count l = .ok t) : t.AccessesAgree := by
  have hlong : t.size ≤ t.data.length := by
    unfold new at h
    dsimp only at h
    split at h
    · next hsize =>
      cases h
      exact hsize
    · cases h
  refine ⟨?takes, ?refuses, ?rows, ?fails, ?outside⟩
  case takes =>
    intro number bytes a rest hread
    rcases TakesColumns.takes (α := α) t.layout number bytes with
      ⟨hsize, -, b, hb⟩ | ⟨-, e, he⟩
    · cases hread.symm.trans hb
      exact ⟨hsize, rfl⟩
    · cases hread.symm.trans he
  case refuses =>
    intro row hpos hle number
    have hsize := rowSize_le_length_bytesFrom hlong hpos hle
    rcases TakesColumns.takes (α := α) t.layout number (t.bytesFrom row) with
      ⟨-, hgood, b, hb⟩ | ⟨hrefused, e, he⟩
    · exact iff_of_false (fun ⟨e, he⟩ => nomatch hb.symm.trans he) hgood
    · exact iff_of_true ⟨e, he⟩ (hrefused.resolve_left (Nat.not_lt.mpr hsize))
  case rows =>
    intro all hall
    rcases rows_or_missing hlong with ⟨all', hall', hrows⟩ | ⟨⟨e, he⟩, -⟩
    · cases hall.symm.trans hall'
      exact hrows
    · cases hall.symm.trans he
  case fails =>
    rcases rows_or_missing hlong with ⟨all, hall, -, hrows⟩ | ⟨hfails, hmissing⟩
    · refine iff_of_false (fun ⟨e, he⟩ => nomatch hall.symm.trans he) ?_
      rintro ⟨row, hpos, hle, hnone⟩
      obtain ⟨a, -, hsome⟩ := hrows row hpos hle
      cases hnone.symm.trans hsome
    · exact iff_of_true hfails hmissing
  case outside =>
    intro row hout
    unfold get?
    exact if_pos (by simp; omega)

/-- For every layout, every number of rows and any bytes that are enough for
them, both ways to read the rows of each table agree. -/
theorem accesses_agree (data : List UInt8) (count : Nat) (l : Layout) :
    (∀ t : Table TypeRefRow, Table.new data count l = .ok t → t.AccessesAgree)
      ∧ (∀ t : Table TypeDefRow, Table.new data count l = .ok t → t.AccessesAgree)
      ∧ (∀ t : Table MethodDefRow, Table.new data count l = .ok t → t.AccessesAgree)
      ∧ (∀ t : Table MemberRefRow, Table.new data count l = .ok t → t.AccessesAgree)
      ∧ (∀ t : Table CustomAttributeRow, Table.new data count l = .ok t → t.AccessesAgree)
      ∧ (∀ t : Table NestedClassRow, Table.new data count l = .ok t → t.AccessesAgree)
      ∧ ∀ t : Table GenericParamRow, Table.new data count l = .ok t → t.AccessesAgree :=
  ⟨fun _ => .of_new, fun _ => .of_new, fun _ => .of_new, fun _ => .of_new, fun _ => .of_new,
    fun _ => .of_new, fun _ => .of_new⟩

/-- Two attributes, the second of which belongs to a row of no table. -/
def sampleAttributes : List UInt8 := [0x04, 0x00, 0x0b, 0x00, 0x01, 0x00, 0x1f, 0, 0x0b, 0, 1, 0]

theorem accesses_agree_sampleAttributes :
    ∃ t : Table CustomAttributeRow, Table.new sampleAttributes 2 default = .ok t
      ∧ t.AccessesAgree ∧ t.get? 1 ≠ none ∧ t.get? 2 = none ∧ ∃ e, t.rows = .error e := by
  have h := (accesses_agree sampleAttributes 2 default).2.2.2.2.1 _ rfl
  exact ⟨_, rfl, h, by decide, by decide, h.fails.mpr ⟨2, by decide, by decide, by decide⟩⟩

end Table

end ClrListing.Metadata
