/-
The module that an image holds, loaded on a machine.

All that is read after the headers of an image is inside the metadata, of
which the size is a word of four bytes. So no place in it comes near the
last place of a machine (`AreSmall`), and no loop over it takes more turns
than the image has bytes.

A machine keeps one owner for each method, and writes it anew for each type
that holds the method, so that the last of these stays. The place of an
owner is the row of the method less one, and the row comes out of the
method's token. A token gives a row back only if it takes three bytes at
most; what comes out of the others may be zero, and then there is no place.
So owners are found as long as tokens can number all methods, and this is
all that loading an image asks for (`load_faultless`).
-/
import ClrListing.Proofs.Image.Owners
import ClrListing.Proofs.Machine.Rows
import ClrListing.Proofs.Machine.Signature
import ClrListing.Proofs.Metadata.Token
import ClrListing.Proofs.Run

namespace ClrListing.Machine

open Assembly Metadata Image

variable {α : Type} {data : List UInt8} {fuel count size : Nat} {s : Image.Streams}

-- ============================================================= streams

/-- The streams that types and methods are read from. -/
structure Streams where
  tables : Tables
  strings : StringHeap
  blobs : BlobHeap

/-- What a machine makes of streams. -/
def Streams.of (s : Image.Streams) : Streams := ⟨.of s.tables, s.strings, s.blobs⟩

/-- Finds the streams in metadata. -/
def streamsIn (fuel : Nat) (data : List UInt8) : Machine Streams := do
  let root ← readRoot fuel data
  if (← stream? root data "#-").isSome then fail .notSupported
  let some tables ← stream? root data "#~" | fail (.damaged .noTablesStream)
  let some strings ← stream? root data "#Strings" | fail (.damaged .noStringsStream)
  let strings ← lift (StringHeap.ofBytes strings)
  let blobs ← lift (BlobHeap.ofBytes ((← stream? root data "#Blob").getD [0]))
  let tables ← readTables tables
  return ⟨tables, strings, blobs⟩

/-- Finds the streams in an image. -/
def streamsOf (fuel : Nat) (x : Executable) : Machine Streams := do
  let header ← readClrHeader (← bytesAt x x.clr.address (max x.clr.size ClrHeader.expectedSize))
  streamsIn fuel (← bytesAt x header.metadataAddress header.metadataSize)

/-- What is known of the sizes of streams, given that of the image. -/
structure AreSmall (size : Nat) (s : Image.Streams) : Prop where
  counts : ∀ t, s.tables.layout.rowCount t < 2 ^ 32
  start : s.tables.start < 2 ^ 32
  tables : s.tables.data.length < 2 ^ 32
  tables_le : s.tables.data.length ≤ size
  blobs : s.blobs.data.length < 2 ^ 32
  blobs_le : s.blobs.data.length ≤ size + 1

theorem areSmall_of_metadata (hdata : data.length < 2 ^ 32)
    (h : Image.Streams.ofMetadata data = .ok s) : AreSmall data.length s := by
  unfold Image.Streams.ofMetadata at h
  obtain ⟨root, -, h⟩ := Fallible.exists_of_bind_eq_ok h
  obtain ⟨-, h⟩ := Fallible.of_guard_eq_ok h
  cases htables : root.stream? data "#~" with
  | none =>
    rw [htables] at h
    cases h
  | some tables =>
  cases hstrings : root.stream? data "#Strings" with
  | none =>
    rw [htables, hstrings] at h
    cases h
  | some strings =>
  rw [htables, hstrings] at h
  obtain ⟨strings, -, h⟩ := Fallible.exists_of_bind_eq_ok h
  obtain ⟨blobs, hblobs, h⟩ := Fallible.exists_of_bind_eq_ok h
  obtain ⟨stream, hstream, h⟩ := Fallible.exists_of_bind_eq_ok h
  cases h
  obtain ⟨hsame, hcounts, hstart⟩ := of_tableStream hstream
  have hlength := length_of_stream? htables
  have hheap : blobs.data.length ≤ max data.length 1 := by
    unfold BlobHeap.ofBytes at hblobs
    split at hblobs
    · cases hblobs
      cases hblob : root.stream? data "#Blob" with
      | none => exact Nat.le_max_right _ _
      | some blob => exact Nat.le_trans (length_of_stream? hblob) (Nat.le_max_left _ _)
    · cases hblobs
  exact ⟨hcounts, hstart, by dsimp only; rw [hsame]; omega, by dsimp only; rw [hsame]; omega,
    by dsimp only; omega, by dsimp only; omega⟩

theorem streamsIn_eq (hdata : data.length < 2 ^ 32) (hfuel : data.length + 2 ≤ fuel) :
    streamsIn fuel data = lift (do return Streams.of (← Image.Streams.ofMetadata data)) := by
  unfold streamsIn Image.Streams.ofMetadata
  rw [bind_assoc]
  refine bind_congr_lift (readRoot_eq hdata hfuel) fun root hroot => ?_
  have hinside := isInside_of_root hroot
  rw [stream?_eq hinside, stream?_eq hinside, stream?_eq hinside, stream?_eq hinside, pure_bind,
    pure_bind]
  by_cases hunsorted : (root.stream? data "#-").isSome = true
  · rw [if_pos hunsorted, if_pos hunsorted]
    rfl
  rw [if_neg hunsorted, if_neg hunsorted]
  cases htables : root.stream? data "#~" with
  | none => rfl
  | some tables =>
  dsimp only
  rw [pure_bind]
  cases hstrings : root.stream? data "#Strings" with
  | none => rfl
  | some strings =>
  have htable := length_of_stream? htables
  dsimp only
  rw [bind_assoc]
  refine bind_congr_lift rfl fun strings _ => ?_
  rw [pure_bind, bind_assoc]
  refine bind_congr_lift rfl fun blobs _ => ?_
  rw [readTables_eq (by omega), lift_bind, bind_assoc, bind_assoc]
  exact bind_congr_lift rfl fun stream _ => rfl

/-- The streams of an image are found without a fault. -/
theorem streamsOf_eq {x : Executable} (hx : IsImage x) (hfuel : x.bytes.length + 2 ≤ fuel) :
    streamsOf fuel x = lift (do return Streams.of (← Image.Streams.ofImage x)) := by
  unfold streamsOf Image.Streams.ofImage
  have hclr : max x.clr.size ClrHeader.expectedSize < 2 ^ 33 := by
    have hsize := hx.size
    unfold ClrHeader.expectedSize
    omega
  rw [bind_assoc]
  refine bind_congr_lift (bytesAt_eq hx hx.address hclr) fun front hfront => ?_
  have hlength := (length_of_bytesAt hfront).1
  rw [bind_assoc]
  refine bind_congr_lift (readClrHeader_eq (by omega)) fun header hheader => ?_
  obtain ⟨haddress, hsize⟩ := words_of_clrHeader hheader
  rw [bind_assoc]
  refine bind_congr_lift (bytesAt_eq hx haddress (by omega)) fun data hdata => ?_
  obtain ⟨hlength', hle⟩ := length_of_bytesAt hdata
  exact streamsIn_eq (by omega) (by omega)

theorem areSmall_of_image {x : Executable} (h : Image.Streams.ofImage x = .ok s) :
    AreSmall x.bytes.length s := by
  unfold Image.Streams.ofImage at h
  obtain ⟨front, -, h⟩ := Fallible.exists_of_bind_eq_ok h
  obtain ⟨header, hheader, h⟩ := Fallible.exists_of_bind_eq_ok h
  obtain ⟨data, hdata, h⟩ := Fallible.exists_of_bind_eq_ok h
  obtain ⟨hlength, hle⟩ := length_of_bytesAt hdata
  have hsize := (words_of_clrHeader hheader).2
  have hsmall := areSmall_of_metadata (by omega) h
  exact { hsmall with
    tables_le := Nat.le_trans hsmall.tables_le hle
    blobs_le := Nat.le_trans hsmall.blobs_le (Nat.succ_le_succ hle) }

/-- What stands in a row counted from one. -/
def at? (xs : List α) (row : Nat) : Option α := (checkedSub row 1).bind fun i => xs[i]?

theorem at?_eq (xs : List α) (row : Nat) : at? xs row = atRow? xs row := by
  unfold at? atRow?
  cases row with
  | zero => rfl
  | succ row =>
    rw [checkedSub_eq (by omega)]
    rfl

-- ============================================================= methods

/-- The methods of the type at a place: those from its own first one up to
that of the type behind it. There are none if these are the other way. -/
def methodsAt (count : Nat) (rows : List TypeDefRow) (i : Nat) (row : TypeDefRow) :
    Machine (List Token) := do
  let limit ← add 32 count 1
  let next := rows[← add 64 i 1]?
  let start := max row.methods 1
  let stop := min ((next.map TypeDefRow.methods).getD limit) limit
  (List.range' start (stop - start)).mapM (token .methodDef)

theorem methodsAt_eq (hcount : count + 1 < 2 ^ 32) {i : Nat} (hi : i + 1 < 2 ^ 64)
    (rows : List TypeDefRow) (row : TypeDefRow) :
    methodsAt count rows i row = pure (methodsOf count row rows[i + 1]?) := by
  unfold methodsAt methodsOf
  rw [add_eq hcount, pure_bind, add_eq hi, pure_bind]
  exact mapM_eq_pure fun k _ => token_eq _ k

/-- The methods of a type are some of those that there are. -/
theorem exists_of_mem_methodsOf {row : TypeDefRow} {next : Option TypeDefRow} {method : Token}
    (h : method ∈ methodsOf count row next) :
    ∃ i, i < count ∧ method = .ofRow .methodDef (i + 1) := by
  unfold methodsOf at h
  obtain ⟨k, hk, rfl⟩ := List.mem_map.mp h
  rw [List.mem_range'_1] at hk
  exact ⟨k - 1, by omega, by rw [Nat.sub_add_cancel (by omega)]⟩

-- ============================================================== owners

/-- Enters a type as the owner of methods. -/
def enterOwner (type : Token) (methods owners : List Token) : Machine (List Token) :=
  methods.foldlM (fun owners method => do update owners (← sub method.row 1) fun _ => type) owners

/-- The owners of so many methods, by what gives each its own. -/
def ownersBy (count : Nat) (owner : Token → Token) : List Token :=
  (List.range count).map fun i => owner (.ofRow .methodDef (i + 1))

/-- The last of those that hold a method. -/
def lastHolder (held : List (Token × List Token)) (method : Token) : Token :=
  ((held.reverse.find? fun h => h.2.contains method).map Prod.fst).getD .null

theorem lastHolder_holdings (types : List TypeDef) (method : Token) :
    lastHolder (types.map holding) method = ownerOf types method := by
  unfold lastHolder ownerOf
  rw [← List.map_reverse, List.find?_map, Option.map_map]
  rfl

/-- What holds a method last comes before all others. -/
theorem lastHolder_append (held : List (Token × List Token)) (type : Token) (methods : List Token)
    (method : Token) : lastHolder (held ++ [(type, methods)]) method
      = if methods.contains method then type else lastHolder held method := by
  unfold lastHolder
  rw [List.reverse_append, List.reverse_singleton, List.singleton_append, List.find?_cons]
  cases methods.contains method <;> rfl

theorem update_ownersBy (hcount : count < Token.rowLimit) {i : Nat} (hi : i < count) (type : Token)
    (owner : Token → Token) : update (ownersBy count owner) i (fun _ => type)
      = pure (ownersBy count fun method =>
        if method = .ofRow .methodDef (i + 1) then type else owner method) := by
  unfold ownersBy
  rw [update_eq (by simpa using hi)]
  refine congrArg pure (List.ext_getElem (by simp) fun j hj _ => ?_)
  have hj : j < count := by simpa using hj
  rw [List.getElem_modify, List.getElem_map, List.getElem_map, List.getElem_range]
  dsimp only
  by_cases h : i = j
  · rw [if_pos h, if_pos (by rw [h])]
  · have hne : Token.ofRow .methodDef (j + 1) ≠ .ofRow .methodDef (i + 1) := fun heq =>
      h (Nat.succ.inj (Token.ofRow_inj (by omega) (by omega) heq)).symm
    rw [if_neg h, if_neg hne]

/-- Each method has a place among the owners if tokens can number all. -/
theorem enterOwner_eq (hcount : count < Token.rowLimit) {methods : List Token}
    (hmethods : ∀ m ∈ methods, ∃ i, i < count ∧ m = .ofRow .methodDef (i + 1)) (type : Token)
    (owner : Token → Token) : enterOwner type methods (ownersBy count owner)
      = pure (ownersBy count fun method =>
        if methods.contains method then type else owner method) := by
  induction methods generalizing owner with
  | nil => rfl
  | cons m methods ih =>
    obtain ⟨i, hi, rfl⟩ := hmethods m List.mem_cons_self
    have hrow : (Token.ofRow .methodDef (i + 1)).row = i + 1 := Token.row_ofRow (by omega)
    have hrest := ih fun m hm => hmethods m (List.mem_cons_of_mem _ hm)
    unfold enterOwner at hrest ⊢
    rw [List.foldlM_cons, hrow, sub_eq (by omega), pure_bind, Nat.add_sub_cancel,
      update_ownersBy hcount hi, pure_bind, hrest]
    refine congrArg (fun owner => pure (ownersBy count owner)) (funext fun method => ?_)
    rw [List.contains_cons]
    by_cases hsame : method = .ofRow .methodDef (i + 1)
    · simp [hsame]
    · simp [hsame]

/-- Behind the last row that a token can number, there is no place for an
owner. -/
theorem enterOwner_rowLimit (type : Token) (methods owners : List Token) :
    enterOwner type (.ofRow .methodDef Token.rowLimit :: methods) owners = fault .underflow := by
  have hrow : (Token.ofRow .methodDef Token.rowLimit).row = 0 := by decide
  unfold enterOwner
  rw [List.foldlM_cons, hrow]
  rfl

-- =============================================================== types

/-- The types of the rows from a place on, and the owners of methods after
them. -/
def readTypes (s : Streams) (count : Nat) (rows : List TypeDefRow) :
    (i : Nat) → (behind : List TypeDefRow) → (owners : List Token) →
      Machine (List TypeDef × List Token)
  | _, [], owners => return ([], owners)
  | i, row :: behind, owners => do
    let methods ← methodsAt count rows i row
    let type ← token .typeDef row.row
    let owners ← enterOwner type methods owners
    let name ← string s.strings row.name
    let space ← string s.strings row.space
    let (types, owners) ← readTypes s count rows (i + 1) behind owners
    return (⟨type, name, space, ⟨row.flags⟩, none, [], methods, [], false⟩ :: types, owners)

/-- Types are read without a fault, and each method then has the last type
that holds it as its owner. -/
theorem readTypes_eq (hcount : count < Token.rowLimit) {rows behind : List TypeDefRow}
    (hrows : rows.length < 2 ^ 64) {i : Nat} (hbehind : rows.drop i = behind)
    (held : List (Token × List Token)) :
    readTypes (.of s) count rows i behind (ownersBy count (lastHolder held))
      = lift (do
        let types ← Image.readTypes s count behind
        return (types, ownersBy count (lastHolder (held ++ types.map holding)))) := by
  have hword : count + 1 < 2 ^ 32 := by
    unfold Token.rowLimit at hcount
    omega
  induction behind generalizing i held with
  | nil =>
    change _ = pure ([], ownersBy count (lastHolder (held ++ [])))
    rw [List.append_nil]
    rfl
  | cons row behind ih =>
    have hi : i < rows.length := by
      have hlength := congrArg List.length hbehind
      rw [List.length_drop, List.length_cons] at hlength
      omega
    have hnext : rows.drop (i + 1) = behind := by
      rw [← List.tail_drop, hbehind, List.tail_cons]
    have hmethods : methodsAt count rows i row = pure (methodsOf count row rows[i + 1]?) :=
      methodsAt_eq hword (by omega) rows row
    rw [← List.head?_drop, hnext] at hmethods
    unfold readTypes Image.readTypes readType
    rw [hmethods, pure_bind, token_eq, pure_bind,
      enterOwner_eq hcount fun m hm => exists_of_mem_methodsOf hm, pure_bind]
    simp only [bind_assoc]
    refine bind_congr_lift (string_eq _ _) fun name _ => ?_
    refine bind_congr_lift (string_eq _ _) fun space _ => ?_
    simp only [← lastHolder_append]
    rw [ih hnext, lift_bind, bind_assoc]
    simp only [pure_bind]
    refine bind_congr_lift rfl fun types _ => ?_
    rw [List.append_assoc]
    rfl

-- =============================================================== links

/-- Links a nested type with the type around it. -/
def linkNested (types : List TypeDef) (row : NestedClassRow) : Machine (List TypeDef) := do
  let nested ← token .typeDef row.nested
  let enclosing ← token .typeDef row.enclosing
  let some inner := checkedSub row.nested 1 | fail (.damaged (.nullNestedRow row.row))
  let some outer := checkedSub row.enclosing 1 | fail (.damaged (.nullNestedRow row.row))
  if types.length ≤ inner ∨ types.length ≤ outer then fail (.damaged (.nestedRowOutside row.row))
  let types ← update types inner fun t => { t with enclosing := some enclosing }
  update types outer fun t => { t with nested := t.nested ++ [nested] }

/-- Links nested types in the order of their rows. -/
def linkAll (types : List TypeDef) (rows : List NestedClassRow) : Machine (List TypeDef) :=
  (rows.mergeSort fun a b => a.nested ≤ b.nested).foldlM linkNested types

theorem linkNested_eq (types : List TypeDef) (row : NestedClassRow) :
    linkNested types row = lift (Image.linkNested types row) := by
  obtain ⟨number, nested, enclosing⟩ := row
  unfold linkNested Image.linkNested
  dsimp only
  rw [token_eq, pure_bind, token_eq, pure_bind]
  cases nested with
  | zero => rfl
  | succ inner =>
    rw [checkedSub_eq (by omega)]
    cases enclosing with
    | zero => rfl
    | succ outer =>
      rw [checkedSub_eq (by omega), if_neg (by simp)]
      dsimp only
      have houtside : (types.length < inner + 1 || types.length < outer + 1) = true
          ↔ types.length ≤ inner ∨ types.length ≤ outer := by
        rw [Bool.or_eq_true, decide_eq_true_eq, decide_eq_true_eq, Nat.lt_succ_iff,
          Nat.lt_succ_iff]
      by_cases h : types.length ≤ inner ∨ types.length ≤ outer
      · rw [if_pos (houtside.mpr h), Nat.add_sub_cancel, Nat.add_sub_cancel, if_pos h]
        rfl
      · rw [if_neg (houtside.not.mpr h), Nat.add_sub_cancel, Nat.add_sub_cancel, if_neg h,
          update_eq (by omega), pure_bind, update_eq (by rw [List.length_modify]; omega)]
        rfl

theorem linkAll_eq (types : List TypeDef) (rows : List NestedClassRow) :
    linkAll types rows = lift (Image.linkAll types rows) :=
  foldlM_eq_lift linkNested_eq _ _

-- ======================================================== made by a compiler

/-- Reads the name of a type parameter. -/
def readGenericParam (s : Streams) (row : GenericParamRow) : Machine GenericParam := do
  return ⟨row.owner.token, row.number, ← string s.strings row.name⟩

/-- Whether a type of another module is the attribute that marks what a
compiler made up. -/
def isForeignMark (s : Streams) (refs : List TypeRefRow) (row : Nat) : Machine Bool := do
  match at? refs row with
  | none => return false
  | some ref =>
    if (← string s.strings ref.name) ≠ generatedName then return false
    return (← string s.strings ref.space) = generatedSpace

/-- Whether the constructor of an attribute is that of the attribute that
marks what a compiler made up. -/
def isMark (s : Streams) (types : List TypeDef) (refs : List TypeRefRow)
    (members : List MemberRefRow) (constructor : RowRef) : Machine Bool := do
  match constructor.table with
  | .memberRef =>
    match at? members constructor.row with
    | none => return false
    | some member =>
      match member.parent.table with
      | .typeRef => isForeignMark s refs member.parent.row
      | .typeDef => return isOwnMark types member.parent.token
      | _ => return false
  | .methodDef =>
    return types.any fun t => t.methods.contains constructor.token && isOwnMark types t.token
  | _ => return false

/-- What an attribute marks as made up by a compiler: nothing, a type or a
method. -/
def markedBy (s : Streams) (types : List TypeDef) (refs : List TypeRefRow)
    (members : List MemberRefRow) (row : CustomAttributeRow) : Machine (List Token) := do
  if row.parent.table = .methodDef || row.parent.table = .typeDef then
    return if ← isMark s types refs members row.constructor then [row.parent.token] else []
  else return []

/-- All that is marked as made up by a compiler. -/
def readGenerated (fuel : Nat) (s : Streams) (types : List TypeDef) : Machine (List Token) := do
  let refs ← rows fuel s.tables TypeRefRow
  let members ← rows fuel s.tables MemberRefRow
  let attributes ← rows fuel s.tables CustomAttributeRow
  return (← attributes.mapM (markedBy s types refs members)).flatten

theorem readGenericParam_eq (s : Image.Streams) (row : GenericParamRow) :
    readGenericParam (.of s) row = lift (Image.readGenericParam s row) :=
  bind_congr_lift (string_eq _ _) fun _ _ => rfl

theorem isForeignMark_eq (s : Image.Streams) (refs : List TypeRefRow) (row : Nat) :
    isForeignMark (.of s) refs row = lift (Image.isForeignMark s refs row) := by
  unfold isForeignMark Image.isForeignMark
  rw [at?_eq]
  cases atRow? refs row with
  | none => rfl
  | some ref =>
    refine bind_congr_lift (string_eq _ _) fun name _ => ?_
    by_cases hname : name ≠ generatedName
    · rw [if_pos hname, if_pos hname]
      rfl
    · rw [if_neg hname, if_neg hname]
      exact bind_congr_lift (string_eq _ _) fun space _ => rfl

theorem isMark_eq (s : Image.Streams) (types : List TypeDef) (refs : List TypeRefRow)
    (members : List MemberRefRow) (constructor : RowRef) :
    isMark (.of s) types refs members constructor
      = lift (Image.isMark s types refs members constructor) := by
  unfold isMark Image.isMark
  rw [at?_eq]
  cases constructor.table with
  | memberRef =>
    dsimp only
    cases atRow? members constructor.row with
    | none => rfl
    | some member =>
      dsimp only
      cases member.parent.table with
      | typeRef => exact isForeignMark_eq s refs _
      | _ => rfl
  | _ => rfl

theorem markedBy_eq (s : Image.Streams) (types : List TypeDef) (refs : List TypeRefRow)
    (members : List MemberRefRow) (row : CustomAttributeRow) :
    markedBy (.of s) types refs members row = lift (Image.markedBy s types refs members row) := by
  unfold markedBy Image.markedBy
  rw [lift_ite]
  split
  · exact bind_congr_lift (isMark_eq s types refs members _) fun _ _ => rfl
  · rfl

-- =============================================================== names

/-- A turn of naming a type: the name of the type around it is put in
front. -/
def nameStep (types : List TypeDef) (named : TypeDef) :
    TypeDef × String × Nat → Machine ((TypeDef × String × Nat) ⊕ String)
  | (t, name, depth) => do
    match t.enclosing.bind fun token => at? types token.row with
    | none => return .inr (Text.qualify t.space name)
    | some outer =>
      if depth = nestingLimit then fail (.damaged (.nestingTooDeep named.name))
      return .inl (outer, outer.name ++ "+" ++ name, ← add 64 depth 1)

/-- The full name of a type of the module. -/
def typeDefName (fuel : Nat) (types : List TypeDef) (t : TypeDef) : Machine String :=
  loop (nameStep types t) fuel (t, t.name, 0)

/-- A turn of naming a type of another module. -/
def foreignStep (s : Streams) (refs : List TypeRefRow) :
    RowRef × String × String × Nat → Machine ((RowRef × String × String × Nat) ⊕ String)
  | (scope, space, name, depth) => do
    if scope.table = .typeRef && depth < nestingLimit then
      match at? refs scope.row with
      | none => return .inr (Text.qualify space name)
      | some outer =>
        let outerName ← string s.strings outer.name
        let outerSpace ← string s.strings outer.space
        return .inl (outer.scope, outerSpace, outerName ++ "+" ++ name, ← add 64 depth 1)
    else return .inr (Text.qualify space name)

/-- The full name of a type of another module. -/
def typeRefName (fuel : Nat) (s : Streams) (refs : List TypeRefRow) (row : TypeRefRow) :
    Machine String := do
  let name ← string s.strings row.name
  let space ← string s.strings row.space
  loop (foreignStep s refs) fuel (row.scope, space, name, 0)

/-- The full names of the types of the module and of those it refers to. -/
def readTypeNames (fuel : Nat) (s : Streams) (types : List TypeDef) : Machine TypeNames := do
  let refs ← rows fuel s.tables TypeRefRow
  let own ← types.mapM fun t => do return (t.token, ← typeDefName fuel types t)
  let foreign ← refs.mapM fun row => do
    return (← token .typeRef row.row, ← typeRefName fuel s refs row)
  return own ++ foreign

/-- What a turn of naming a type comes to, of so many. -/
theorem nameStep_eq {depth : Nat} (hdepth : depth ≤ nestingLimit) (types : List TypeDef)
    (named t : TypeDef) (name : String) : nameStep types named (t, name, depth)
      = match around? types t with
        | none => pure (.inr (Text.qualify t.space name))
        | some outer =>
          if depth = nestingLimit then fail (.damaged (.nestingTooDeep named.name))
          else pure (.inl (outer, outer.name ++ "+" ++ name, depth + 1)) := by
  have hlimit : nestingLimit < 2 ^ 63 := by decide
  have haround : (t.enclosing.bind fun token => at? types token.row) = around? types t :=
    congrArg t.enclosing.bind (funext fun token => at?_eq types token.row)
  unfold nameStep
  dsimp only
  rw [haround, add_eq (by omega)]
  cases around? types t with
  | none => rfl
  | some outer =>
    dsimp only
    split <;> rfl

/-- Types in types end with the limit on them, also where they stand in a
circle. -/
theorem loop_nameStep (types : List TypeDef) (named : TypeDef) {levels fuel depth : Nat}
    (hdepth : depth + levels = nestingLimit) (hfuel : levels < fuel) (t : TypeDef) (name : String) :
    loop (nameStep types named) fuel (t, name, depth)
      = match fullNameFrom? types levels t name with
        | some full => pure full
        | none => fail (.damaged (.nestingTooDeep named.name)) := by
  induction levels generalizing fuel depth t name with
  | zero =>
    obtain ⟨fuel, rfl⟩ := Nat.exists_eq_add_one_of_ne_zero (Nat.ne_zero_of_lt hfuel)
    rw [loop_succ, nameStep_eq (by omega)]
    unfold fullNameFrom?
    cases around? types t with
    | none => rfl
    | some outer =>
      dsimp only
      rw [if_pos (show depth = nestingLimit by omega), fail_bind]
  | succ levels ih =>
    obtain ⟨fuel, rfl⟩ := Nat.exists_eq_add_one_of_ne_zero (Nat.ne_zero_of_lt hfuel)
    rw [loop_succ, nameStep_eq (by omega)]
    unfold fullNameFrom?
    cases around? types t with
    | none => rfl
    | some outer =>
      dsimp only
      rw [if_neg (show depth ≠ nestingLimit by omega), pure_bind]
      exact ih (by omega) (by omega) outer _

theorem typeDefName_eq (hfuel : nestingLimit < fuel) (types : List TypeDef) (t : TypeDef) :
    typeDefName fuel types t = lift (Image.typeDefName types t) := by
  unfold typeDefName Image.typeDefName
  rw [loop_nameStep types t (Nat.zero_add _) hfuel]
  cases fullNameFrom? types nestingLimit t t.name <;> rfl

/-- What a turn of naming a type of another module comes to. -/
theorem foreignStep_eq {depth : Nat} (hdepth : depth ≤ nestingLimit) (s : Image.Streams)
    (refs : List TypeRefRow) (scope : RowRef) (space name : String) :
    foreignStep (.of s) refs (scope, space, name, depth) = lift (do
      match if scope.table = .typeRef && depth < nestingLimit then atRow? refs scope.row
        else none with
      | none => return .inr (Text.qualify space name)
      | some outer =>
        let outerName ← s.strings.get outer.name
        let outerSpace ← s.strings.get outer.space
        return .inl (outer.scope, outerSpace, outerName ++ "+" ++ name, depth + 1)) := by
  have hlimit : nestingLimit < 2 ^ 63 := by decide
  unfold foreignStep
  dsimp only
  rw [at?_eq, add_eq (by omega)]
  split
  · cases atRow? refs scope.row with
    | none => rfl
    | some outer =>
      refine bind_congr_lift (string_eq _ _) fun outerName _ => ?_
      exact bind_congr_lift (string_eq _ _) fun outerSpace _ => rfl
  · rfl

theorem loop_foreignStep (s : Image.Streams) (refs : List TypeRefRow) {levels fuel depth : Nat}
    (hdepth : depth + levels = nestingLimit) (hfuel : levels < fuel) (scope : RowRef)
    (space name : String) : loop (foreignStep (.of s) refs) fuel (scope, space, name, depth)
      = lift (foreignNameFrom s refs levels scope space name) := by
  induction levels generalizing fuel depth scope space name with
  | zero =>
    obtain ⟨fuel, rfl⟩ := Nat.exists_eq_add_one_of_ne_zero (Nat.ne_zero_of_lt hfuel)
    rw [loop_succ, foreignStep_eq (by omega), if_neg (by simp; omega)]
    rfl
  | succ levels ih =>
    obtain ⟨fuel, rfl⟩ := Nat.exists_eq_add_one_of_ne_zero (Nat.ne_zero_of_lt hfuel)
    have hturn : (scope.table = .typeRef && depth < nestingLimit)
        = decide (scope.table = .typeRef) := by
      rw [decide_eq_true (show depth < nestingLimit by omega), Bool.and_true]
    rw [loop_succ, foreignStep_eq (by omega), hturn]
    unfold foreignNameFrom
    simp only [decide_eq_true_eq]
    cases (if scope.table = .typeRef then atRow? refs scope.row else none : Option TypeRefRow) with
    | none => rfl
    | some outer =>
      dsimp only
      rw [lift_bind, bind_assoc]
      refine bind_congr_lift rfl fun outerName _ => ?_
      rw [lift_bind, bind_assoc]
      refine bind_congr_lift rfl fun outerSpace _ => ?_
      exact ih (by omega) (by omega) outer.scope outerSpace _

theorem typeRefName_eq (hfuel : nestingLimit < fuel) (s : Image.Streams)
    (refs : List TypeRefRow) (row : TypeRefRow) :
    typeRefName fuel (.of s) refs row = lift (Image.typeRefName s refs row) := by
  unfold typeRefName Image.typeRefName
  refine bind_congr_lift (string_eq _ _) fun name _ => ?_
  refine bind_congr_lift (string_eq _ _) fun space _ => ?_
  exact loop_foreignStep s refs (Nat.zero_add _) hfuel row.scope space name

-- ============================================================== modules

/-- The method of a row. -/
def readMethod (fuel : Nat) (s : Streams) (types : List TypeDef) (params : List GenericParam)
    (generated : List Token) (names : TypeNames) (row : MethodDefRow) (owner : Token) :
    Machine MethodDef := do
  let method ← token .methodDef row.row
  let genericParams := genericParamsOf params method
  let ownerParams := ((at? types owner.row).map TypeDef.genericParams).getD []
  let signature ← Machine.Signature.parse fuel (← blob s.blobs row.signature)
  let name ← string s.strings row.name
  return {
    token := method
    name := name
    access := .ofWord row.flags
    flags := .ofWord row.flags
    codeKind := .ofWord row.implFlags
    implFlags := .ofWord row.implFlags
    bodyAddress := row.address
    signature := signature.named ⟨names.get, ownerParams, genericParams⟩
    genericParams := genericParams
    isGenerated := generated.contains method
    declaringType := owner }

/-- Reads the types and methods of a module. -/
def readModule (fuel : Nat) (name : String) (s : Streams) : Machine Assembly := do
  let typeRows ← rows fuel s.tables TypeDefRow
  let methodRows ← rows fuel s.tables MethodDefRow
  let count ← word 32 methodRows.length
  let (unlinked, owners) ←
    readTypes s count typeRows 0 typeRows (List.replicate methodRows.length .null)
  let linked ← linkAll unlinked (← rows fuel s.tables NestedClassRow)
  let params ← (← rows fuel s.tables GenericParamRow).mapM (readGenericParam s)
  let generated ← readGenerated fuel s linked
  let types := linked.map fun t =>
    { t with
      genericParams := genericParamsOf params t.token
      isGenerated := generated.contains t.token }
  let names ← readTypeNames fuel s types
  let methods ← (methodRows.zip owners).mapM fun (row, owner) =>
    readMethod fuel s types params generated names row owner
  return ⟨name, types, methods⟩

/-- The module that an image holds. -/
def load (fuel : Nat) (name : String) (x : Executable) : Machine Assembly := do
  readModule fuel name (← streamsOf fuel x)

/-- A byte string of a heap is a part of it. -/
theorem length_of_blob {h : BlobHeap} (hdata : h.data.length < 2 ^ 32) {place : Nat}
    {bytes : List UInt8} (hget : h.get place = .ok bytes) : bytes.length ≤ h.data.length := by
  have hblob : blob h place = .ok bytes := (blob_eq hdata place).trans (congrArg lift hget)
  unfold blob at hblob
  split at hblob
  · cases hblob
  obtain ⟨behind, -, hblob⟩ := Fallible.exists_of_bind_eq_ok hblob
  obtain ⟨⟨length, stop⟩, -, hblob⟩ := Fallible.exists_of_bind_eq_ok hblob
  dsimp only at hblob
  split at hblob
  case h_2 => cases hblob
  split at hblob
  case h_2 => cases hblob
  split at hblob
  case h_2 => cases hblob
  next hpart =>
    cases hblob
    exact length_of_part? hpart

theorem rows_small [TableRow α] [RowCursor α] [FollowsRow α] (hs : AreSmall size s)
    (hfuel : size + 66 ≤ fuel) : rows fuel (Streams.of s).tables α = lift (s.rows α) :=
  rows_eq hs.counts hs.start (Nat.lt_trans hs.tables (by decide))
    (Nat.lt_of_le_of_lt hs.tables_le (by omega))

theorem readGenerated_eq (hs : AreSmall size s) (hfuel : size + 66 ≤ fuel) (types : List TypeDef) :
    readGenerated fuel (.of s) types = lift (Image.readGenerated s types) := by
  unfold readGenerated Image.readGenerated
  refine bind_congr_lift (rows_small hs hfuel) fun refs _ => ?_
  refine bind_congr_lift (rows_small hs hfuel) fun members _ => ?_
  refine bind_congr_lift (rows_small hs hfuel) fun attributes _ => ?_
  exact bind_congr_lift (mapM_eq_lift fun row _ => markedBy_eq s types refs members row)
    fun marked _ => rfl

theorem readTypeNames_eq (hs : AreSmall size s) (hfuel : size + 66 ≤ fuel) (types : List TypeDef) :
    readTypeNames fuel (.of s) types = lift (Image.readTypeNames s types) := by
  have hlimit : nestingLimit < fuel := by
    unfold nestingLimit
    omega
  unfold readTypeNames Image.readTypeNames
  refine bind_congr_lift (rows_small hs hfuel) fun refs _ => ?_
  refine bind_congr_lift (mapM_eq_lift fun t _ => ?_) fun own _ => ?_
  · exact bind_congr_lift (typeDefName_eq hlimit types t) fun name _ => rfl
  refine bind_congr_lift (mapM_eq_lift fun row _ => ?_) fun foreign _ => rfl
  rw [token_eq, pure_bind]
  exact bind_congr_lift (typeRefName_eq hlimit s refs row) fun name _ => rfl

theorem readMethod_eq (hs : AreSmall size s) (hfuel : size + 66 ≤ fuel) (types : List TypeDef)
    (params : List GenericParam) (generated : List Token) (names : TypeNames) (row : MethodDefRow) :
    readMethod fuel (.of s) types params generated names row
        (ownerOf types (.ofRow .methodDef row.row))
      = lift (Image.readMethod s types params generated names row) := by
  unfold readMethod Image.readMethod
  rw [token_eq, pure_bind, at?_eq]
  refine bind_congr_lift (blob_eq hs.blobs _) fun bytes hbytes => ?_
  have hlength := Nat.le_trans (length_of_blob hs.blobs hbytes) hs.blobs_le
  have hword := Nat.lt_of_le_of_lt (length_of_blob hs.blobs hbytes) hs.blobs
  have hparse : Machine.Signature.parse fuel bytes = lift (Metadata.Signature.ofBytes bytes) :=
    Machine.Signature.parse_eq (by omega) (by omega) (by omega)
  refine bind_congr_lift hparse fun signature _ => ?_
  exact bind_congr_lift (string_eq _ _) fun name _ => rfl

/-- The owners that a machine finds are those that types give methods. -/
theorem ownersBy_rows {methodRows : List MethodDefRow}
    (hrows : s.rows MethodDefRow = .ok methodRows) (owner : Token → Token) :
    ownersBy methodRows.length owner
      = methodRows.map fun row => owner (.ofRow .methodDef row.row) := by
  unfold ownersBy
  refine List.ext_getElem (by simp) fun i hi hi' => ?_
  have hi'' : i < methodRows.length := by simpa using hi'
  rw [List.getElem_map, List.getElem_range, List.getElem_map,
    numbered_rows row_of_readMethodDef hrows i _ (List.getElem?_eq_getElem hi'')]

theorem readModule_eq (hs : AreSmall size s) (hfuel : size + 66 ≤ fuel)
    (hmethods : s.tables.layout.rowCount .methodDef < Token.rowLimit) (name : String) :
    readModule fuel name (.of s) = lift (Image.readModule name s) := by
  unfold readModule Image.readModule
  refine bind_congr_lift (rows_small hs hfuel) fun typeRows htypeRows => ?_
  refine bind_congr_lift (rows_small hs hfuel) fun methodRows hmethodRows => ?_
  have htypeCount : typeRows.length < 2 ^ 32 := length_rows htypeRows ▸ hs.counts _
  have hcount : methodRows.length < Token.rowLimit := length_rows hmethodRows ▸ hmethods
  have hnone : List.replicate methodRows.length Token.null
      = ownersBy methodRows.length (lastHolder []) := by
    change _ = (List.range methodRows.length).map fun _ => Token.null
    rw [List.map_const', List.length_range]
  rw [word_eq (Nat.lt_trans hcount (by decide)), pure_bind, hnone,
    readTypes_eq hcount (by omega) List.drop_zero, lift_bind, bind_assoc]
  refine bind_congr_lift rfl fun unlinked _ => ?_
  rw [lift_pure, pure_bind]
  dsimp only
  refine bind_congr_lift (rows_small hs hfuel) fun nestedRows _ => ?_
  refine bind_congr_lift (linkAll_eq _ _) fun linked hlinked => ?_
  refine bind_congr_lift (rows_small hs hfuel) fun paramRows _ => ?_
  refine bind_congr_lift (mapM_eq_lift fun row _ => readGenericParam_eq s row) fun params _ => ?_
  refine bind_congr_lift (readGenerated_eq hs hfuel _) fun generated _ => ?_
  refine bind_congr_lift (readTypeNames_eq hs hfuel _) fun names _ => ?_
  refine bind_congr_lift ?_ fun methods _ => rfl
  -- what types hold is the same before and after they are linked and get their parameters
  have howner : lastHolder ([] ++ unlinked.map holding) = ownerOf (linked.map fun t =>
      { t with
        genericParams := genericParamsOf params t.token
        isGenerated := generated.contains t.token }) := by
    refine funext fun method => ?_
    rw [List.nil_append, ← holdings_of_linkAll hlinked, ← lastHolder_holdings, List.map_map]
    rfl
  rw [howner, ownersBy_rows hmethodRows, ← List.map_prod_left_eq_zip, List.mapM_map]
  exact mapM_eq_lift fun row _ => readMethod_eq hs hfuel _ params generated names row

/-- What loading an image comes to, past what it leaves in the records. -/
theorem outcome_load {name : String} {bytes : List UInt8} {x : Executable}
    (h : Executable.ofBytes bytes = .ok x) : (Run.outcome (Image.load name bytes)).1
      = (do Image.readModule name (← Image.Streams.ofImage x)) := by
  have hstreams : (do Image.Streams.ofImage (← Executable.ofBytes bytes) :
      Except Error Image.Streams) = Image.Streams.ofImage x := by
    rw [h]
    rfl
  rw [Run.outcome_eq]
  unfold Image.load
  rw [hstreams]
  cases Image.Streams.ofImage x with
  | error e => rfl
  | ok s =>
    change (Run.upshot _ (liftM (Image.readModule name s) >>= _)).1 = Image.readModule name s
    rw [Run.upshot_bind_fst]
    cases Image.readModule name s <;> rfl

theorem load_eq {x : Executable} (hx : IsImage x)
    (hmethods : ∀ s, Image.Streams.ofImage x = .ok s →
      s.tables.layout.rowCount .methodDef < Token.rowLimit)
    (hfuel : x.bytes.length + 66 ≤ fuel) (name : String) :
    load fuel name x = lift (do Image.readModule name (← Image.Streams.ofImage x)) := by
  unfold load
  rw [streamsOf_eq hx (by omega), lift_bind, bind_assoc]
  refine bind_congr_lift rfl fun s hs => ?_
  exact readModule_eq (areSmall_of_image hs) hfuel (hmethods s hs) name

/-- Whatever the bytes of an image are, if no table has more rows than tokens
can number, then a machine loads it without a fault: every place that is
looked at is there, every number fits its word, and no loop takes more
turns than there are bytes, and some for types in types. It comes to the
module or to the error that loading the image comes to. -/
theorem load_faultless {x : Executable} (hx : IsImage x)
    (hrows : ∀ s, Image.Streams.ofImage x = .ok s →
      ∀ t, s.tables.layout.rowCount t < Token.rowLimit)
    (hfuel : x.bytes.length + 66 ≤ fuel) (name : String) :
    Ends (load fuel name x) ∧ ∀ bytes, Executable.ofBytes bytes = .ok x →
      load fuel name x = lift (Run.outcome (Image.load name bytes)).1 := by
  have heq := load_eq hx (fun s hs => hrows s hs .methodDef) hfuel name
  refine ⟨heq ▸ ends_lift _, fun bytes hbytes => ?_⟩
  rw [heq, outcome_load hbytes]

/-- An image with three types and one method is loaded, with as many turns as
it has bytes and those for types in types. -/
theorem load_threeClasses :
    ∃ x a, Executable.ofBytes (threeClasses 1 2 2) = .ok x
      ∧ (Run.outcome (Image.load "Sample" (threeClasses 1 2 2))).1 = .ok a
      ∧ load (x.bytes.length + 66) "Sample" x = .ok a := by
  obtain ⟨a, ha⟩ : ∃ a, (Run.outcome (Image.load "Sample" (threeClasses 1 2 2))).1 = .ok a :=
    Fallible.exists_of_isOk (by decide +kernel)
  obtain ⟨x, s, -, hx, hs, -⟩ := readFrom_of_load ha
  have hsmall : ((do Image.Streams.ofImage (← Executable.ofBytes (threeClasses 1 2 2)) :
      Except Error Image.Streams).toOption.all fun s => TableId.all.all fun t =>
        decide (s.tables.layout.rowCount t < Token.rowLimit)) = true := by decide +kernel
  have hstreams : (.ok x >>= fun x => Image.Streams.ofImage x) = .ok s := hs
  rw [hx, hstreams] at hsmall
  have hrows : ∀ s', Image.Streams.ofImage x = .ok s' →
      ∀ t, s'.tables.layout.rowCount t < Token.rowLimit := by
    intro s' hs' t
    cases hs.symm.trans hs'
    exact of_decide_eq_true (List.all_eq_true.mp hsmall t (TableContents.mem_all t))
  have hload := (load_faultless (isImage_of_ofBytes hx) hrows (Nat.le_refl _) "Sample").2 _ hx
  rw [ha] at hload
  exact ⟨x, a, hx, ha, hload⟩

end ClrListing.Machine
