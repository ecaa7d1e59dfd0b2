/-
What a loaded module is read from.

A module is put together in steps: types are read from their rows, linked
with the types around them, marked and named, and methods are read with the
names of all types at hand. A `Reading` is what these steps come to, and
whatever is loaded has one (`exists_reading_of_load`). Types stay in the
places of their rows, and so do methods; linking is one step for each row of
nested types, and what each of them keeps is kept (`linkAll_induct`).
-/
import ClrListing.Image.Module
import ClrListing.Proofs.Metadata.Values
import ClrListing.Proofs.Run

namespace ClrListing.Image

open Assembly Fallible Metadata

-- ============================================================== linking

/-- Types are linked by a row of two types that there are. -/
theorem of_linkNested {types linked : List TypeDef} {row : NestedClassRow}
    (h : linkNested types row = .ok linked) :
    (0 < row.enclosing ∧ row.enclosing ≤ types.length)
      ∧ linked = (types.modify (row.nested - 1) fun t =>
          { t with enclosing := some (.ofRow .typeDef row.enclosing) }).modify
        (row.enclosing - 1) fun t =>
          { t with nested := t.nested ++ [.ofRow .typeDef row.nested] } := by
  unfold linkNested at h
  split at h
  · cases h
  · next hnull =>
    split at h
    · cases h
    · next hin =>
      cases h
      simp only [Bool.or_eq_true, decide_eq_true_eq, not_or] at hnull hin
      exact ⟨⟨Nat.pos_of_ne_zero hnull.2, Nat.le_of_not_lt hin.2⟩, rfl⟩

/-- What each row of nested types keeps is kept by linking all. -/
theorem linkAll_induct (P : List TypeDef → Prop) {types linked : List TypeDef}
    {rows : List NestedClassRow} (h : linkAll types rows = .ok linked) (hstart : P types)
    (hstep : ∀ before row after, linkNested before row = .ok after → P before → P after) :
    P linked := by
  unfold linkAll at h
  generalize rows.mergeSort (fun a b => a.nested ≤ b.nested) = sorted at h
  induction sorted generalizing types with
  | nil =>
    cases h
    exact hstart
  | cons row rest ih =>
    rw [List.foldlM_cons] at h
    obtain ⟨one, hone, h⟩ := exists_of_bind_eq_ok h
    exact ih (hstep types row one hone hstart) h

theorem length_of_linkAll {types linked : List TypeDef} {rows : List NestedClassRow}
    (h : linkAll types rows = .ok linked) : linked.length = types.length := by
  apply linkAll_induct (fun ts => ts.length = types.length) h rfl
  intro before row after hlink hbefore
  rw [(of_linkNested hlink).2, List.length_modify, List.length_modify, hbefore]

/-- Types that say that they stand in a type stand in one that there is. -/
def NestedIn (types : List TypeDef) (count : Nat) : Prop :=
  ∀ t ∈ types, ∀ outer, t.enclosing = some outer →
    ∃ row, outer = .ofRow .typeDef row ∧ 0 < row ∧ row ≤ count

theorem NestedIn.modify {types : List TypeDef} {count : Nat} (h : NestedIn types count) (i : Nat)
    {f : TypeDef → TypeDef}
    (hf : ∀ t outer, (f t).enclosing = some outer → t.enclosing = some outer
      ∨ ∃ row, outer = .ofRow .typeDef row ∧ 0 < row ∧ row ≤ count) :
    NestedIn (types.modify i f) count := by
  intro t ht outer houter
  obtain ⟨j, hj, rfl⟩ := List.mem_iff_getElem.mp ht
  have hj' : j < types.length := by simpa using hj
  have hmem : types[j] ∈ types := List.getElem_mem hj'
  rw [List.getElem_modify] at houter
  split at houter
  · rcases hf _ outer houter with houter | hrow
    · exact h _ hmem outer houter
    · exact hrow
  · exact h _ hmem outer houter

/-- Linking types puts them in types that there are. -/
theorem nestedIn_of_linkAll {types linked : List TypeDef} {rows : List NestedClassRow}
    (h : linkAll types rows = .ok linked) (hnone : ∀ t ∈ types, t.enclosing = none) :
    NestedIn linked linked.length := by
  have hall : NestedIn linked types.length ∧ linked.length = types.length := by
    refine linkAll_induct (fun ts => NestedIn ts types.length ∧ ts.length = types.length) h
      ⟨fun t ht outer houter => ?_, rfl⟩ ?_
    · simp [hnone t ht] at houter
    · intro before row after hlink ⟨hbefore, hlength⟩
      obtain ⟨⟨hpos, hle⟩, rfl⟩ := of_linkNested hlink
      refine ⟨?_, by rw [List.length_modify, List.length_modify, hlength]⟩
      refine (hbefore.modify _ fun t outer houter => .inr ?_).modify _ fun t outer houter => ?_
      · exact ⟨row.enclosing, (Option.some.inj houter).symm, hpos, hlength ▸ hle⟩
      · exact .inl houter
  rw [hall.2]
  exact hall.1

-- ================================================================ types

/-- What a type has of its row and of the next one. -/
theorem of_readType {s : Streams} {methodCount : Nat} {row : TypeDefRow}
    {next : Option TypeDefRow} {t : TypeDef} (h : readType s methodCount row next = .ok t) :
    t.token = .ofRow .typeDef row.row ∧ t.methods = methodsOf methodCount row next
      ∧ t.enclosing = none := by
  unfold readType at h
  obtain ⟨name, -, h⟩ := exists_of_bind_eq_ok h
  obtain ⟨space, -, h⟩ := exists_of_bind_eq_ok h
  cases h
  exact ⟨rfl, rfl, rfl⟩

/-- Each row gives one type, which is not linked to others. -/
theorem of_readTypes {s : Streams} {methodCount : Nat} {rows : List TypeDefRow}
    {types : List TypeDef} (h : readTypes s methodCount rows = .ok types) :
    types.length = rows.length ∧ ∀ t ∈ types, t.enclosing = none := by
  induction rows generalizing types with
  | nil =>
    cases h
    exact ⟨rfl, fun t ht => absurd ht List.not_mem_nil⟩
  | cons row rest ih =>
    unfold readTypes at h
    obtain ⟨type, htype, h⟩ := exists_of_bind_eq_ok h
    obtain ⟨others, hothers, h⟩ := exists_of_bind_eq_ok h
    cases h
    obtain ⟨hlength, hnone⟩ := ih hothers
    exact ⟨congrArg Nat.succ hlength,
      List.forall_mem_cons.mpr ⟨(of_readType htype).2.2, hnone⟩⟩

-- ============================================================== methods

/-- The names of the type parameters of a method's type. -/
def ownerParamsOf (types : List TypeDef) (owner : Token) : List String :=
  ((atRow? types owner.row).map TypeDef.genericParams).getD []

/-- What a method has of its row and of its signature there. -/
theorem of_readMethod {s : Streams} {types : List TypeDef} {params : List GenericParam}
    {generated : List Token} {names : TypeNames} {row : MethodDefRow} {m : MethodDef}
    (h : readMethod s types params generated names row = .ok m) :
    m.token = .ofRow .methodDef row.row ∧ m.declaringType = ownerOf types m.token
      ∧ ∃ blob sig, s.blobs.get row.signature = .ok blob ∧ Signature.ofBytes blob = .ok sig
        ∧ m.signature
          = sig.named ⟨names.get, ownerParamsOf types m.declaringType, m.genericParams⟩ := by
  unfold readMethod at h
  obtain ⟨blob, hblob, h⟩ := exists_of_bind_eq_ok h
  obtain ⟨sig, hsig, h⟩ := exists_of_bind_eq_ok h
  obtain ⟨name, -, h⟩ := exists_of_bind_eq_ok h
  cases h
  exact ⟨rfl, rfl, blob, sig, hblob, hsig, rfl⟩

-- ============================================================= readings

/-- What the steps of reading a module come to. -/
structure Reading where
  typeRows : List TypeDefRow
  methodRows : List MethodDefRow
  nestedRows : List NestedClassRow
  /-- The types, before they are linked. -/
  unlinked : List TypeDef
  linked : List TypeDef
  params : List GenericParam
  /-- What is marked as made up by a compiler. -/
  generated : List Token
  names : TypeNames

namespace Reading

/-- A type with its type parameters and its mark. -/
def finish (r : Reading) (t : TypeDef) : TypeDef :=
  { t with
    genericParams := genericParamsOf r.params t.token
    isGenerated := r.generated.contains t.token }

/-- The steps lead from streams to a module. -/
structure Gives (r : Reading) (s : Streams) (a : Assembly) : Prop where
  typeRows : s.rows TypeDefRow = .ok r.typeRows
  methodRows : s.rows MethodDefRow = .ok r.methodRows
  unlinked : readTypes s r.methodRows.length r.typeRows = .ok r.unlinked
  linked : linkAll r.unlinked r.nestedRows = .ok r.linked
  types : a.types = r.linked.map r.finish
  names : readTypeNames s a.types = .ok r.names
  methods : r.methodRows.mapM (readMethod s a.types r.params r.generated r.names) = .ok a.methods

end Reading

theorem exists_reading_of_readModule {name : String} {s : Streams} {a : Assembly}
    (h : readModule name s = .ok a) : ∃ r : Reading, r.Gives s a := by
  unfold readModule at h
  obtain ⟨typeRows, htypeRows, h⟩ := exists_of_bind_eq_ok h
  obtain ⟨methodRows, hmethodRows, h⟩ := exists_of_bind_eq_ok h
  obtain ⟨unlinked, hunlinked, h⟩ := exists_of_bind_eq_ok h
  obtain ⟨nestedRows, -, h⟩ := exists_of_bind_eq_ok h
  obtain ⟨linked, hlinked, h⟩ := exists_of_bind_eq_ok h
  obtain ⟨paramRows, -, h⟩ := exists_of_bind_eq_ok h
  obtain ⟨params, -, h⟩ := exists_of_bind_eq_ok h
  obtain ⟨generated, -, h⟩ := exists_of_bind_eq_ok h
  obtain ⟨names, hnames, h⟩ := exists_of_bind_eq_ok h
  obtain ⟨methods, hmethods, h⟩ := exists_of_bind_eq_ok h
  cases h
  exact ⟨⟨typeRows, methodRows, nestedRows, unlinked, linked, params, generated, names⟩,
    htypeRows, hmethodRows, hunlinked, hlinked, rfl, hnames, hmethods⟩

/-- Whatever is loaded was read, step by step, from the streams of an
image. -/
theorem exists_reading_of_load {name : String} {bytes : List UInt8} {a : Assembly}
    (h : (Run.outcome (load name bytes)).1 = .ok a) :
    ∃ x s, ∃ r : Reading, Executable.ofBytes bytes = .ok x ∧ Streams.ofImage x = .ok s
      ∧ r.Gives s a := by
  rw [Run.outcome_eq] at h
  unfold load at h
  dsimp only at h
  rw [Run.upshot_bind_fst] at h
  obtain ⟨s, hs, h⟩ := exists_of_bind_eq_ok h
  rw [Run.upshot_bind_fst] at h
  obtain ⟨_, -, h⟩ := exists_of_bind_eq_ok h
  rw [Run.upshot_bind_fst] at h
  obtain ⟨a', ha, h⟩ := exists_of_bind_eq_ok h
  cases h
  have hstreams : (Executable.ofBytes bytes >>= fun x => Streams.ofImage x) = .ok s := hs
  have hmodule : readModule name s = .ok a := ha
  obtain ⟨x, hx, hs⟩ := exists_of_bind_eq_ok hstreams
  obtain ⟨r, hr⟩ := exists_reading_of_readModule hmodule
  exact ⟨x, s, r, hx, hs, hr⟩

namespace Reading.Gives

variable {r : Reading} {s : Streams} {a : Assembly}

theorem length_types (h : r.Gives s a) : a.types.length = r.typeRows.length := by
  rw [h.types, List.length_map, length_of_linkAll h.linked, (of_readTypes h.unlinked).1]

theorem length_methods (h : r.Gives s a) : a.methods.length = r.methodRows.length :=
  (forall₂_of_mapM_eq_ok h.methods).length_eq.symm

theorem numberedTypeRows (h : r.Gives s a) (i : Nat) (row : TypeDefRow)
    (hrow : r.typeRows[i]? = some row) : row.row = i + 1 :=
  numbered_rows row_of_readTypeDef h.typeRows i row hrow

/-- A method is read from the row in its place. -/
theorem exists_methodRow (h : r.Gives s a) {i : Nat} {m : MethodDef}
    (hm : a.methods[i]? = some m) :
    ∃ row, r.methodRows[i]? = some row ∧ row.row = i + 1
      ∧ readMethod s a.types r.params r.generated r.names row = .ok m := by
  obtain ⟨row, hrow, hread⟩ := exists_of_mapM_eq_ok h.methods hm
  exact ⟨row, hrow, numbered_rows row_of_readMethodDef h.methodRows i row hrow, hread⟩

/-- Types that say that they stand in a type stand in one of the module. -/
theorem nestedIn (h : r.Gives s a) : NestedIn a.types a.types.length := by
  have hlinked := nestedIn_of_linkAll h.linked (of_readTypes h.unlinked).2
  rw [h.types, List.length_map]
  intro t ht outer houter
  obtain ⟨u, hu, rfl⟩ := List.mem_map.mp ht
  exact hlinked u hu outer houter

end Reading.Gives

end ClrListing.Image
