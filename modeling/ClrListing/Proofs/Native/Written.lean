/-
Snapshots that are written and read again.

A record is written as an object, without those of its fields that hold
nothing, and is read by the names of its fields, which may be missing where
there is a value to fall back on. Code is written as hexadecimal digits; the
reader takes the blanks out before it looks at them. What is read of a
written snapshot is the snapshot, and it stays the same with blanks
anywhere between the digits of any code (`ofText_of_respaced`).

Blanks are put into one value of an object in one value of another. So the
first statements are about records that differ in the value of one field
(`Varies`): what is read of the other fields is the same, and so is what is
read of that one if the reader makes no difference between its values.
-/
import ClrListing.Native.Snapshot.Json
import ClrListing.Proofs.Text.Json
import Mathlib.Data.List.Forall2
import Mathlib.Data.List.Nodup

namespace ClrListing.Native

open Metadata Text

-- ============================================================= digits

theorem value?_digit : ∀ n < 16, Hex.value? (Hex.digit n) = some n := by decide

/-- A byte is read from its two digits. -/
theorem readBytes_bytes (code : List UInt8) : Hex.readBytes (Hex.bytes code) = some code := by
  induction code with
  | nil => rfl
  | cons b code ih =>
    have hb := b.toNat_lt
    have hhigh := value?_digit (b.toNat / 16) (by omega)
    have hlow := value?_digit (b.toNat % 16) (by omega)
    change (Hex.value? _ >>= fun h => Hex.value? _ >>= fun l =>
      Hex.readBytes (Hex.bytes code) >>= fun tail => some (UInt8.ofNat (h * 16 + l) :: tail)) = _
    rw [hhigh, hlow, ih]
    change some (UInt8.ofNat (b.toNat / 16 * 16 + b.toNat % 16) :: code) = _
    rw [Nat.div_add_mod', UInt8.ofNat_toNat]

/-- No digit is a blank. -/
theorem isCodeSpace_of_mem_bytes {code : List UInt8} {c : Char} (h : c ∈ Hex.bytes code) :
    isCodeSpace c = false := by
  have hdigit : ∀ n < 16, isCodeSpace (Hex.digit n) = false := by decide
  obtain ⟨b, -, hc⟩ := List.mem_flatMap.mp h
  have hb := b.toNat_lt
  rcases List.mem_cons.mp hc with rfl | hc
  · exact hdigit _ (by omega)
  · rw [List.mem_singleton.mp hc]
    exact hdigit _ (by omega)

@[simp]
theorem codeOf?_codeJson (code : List UInt8) : codeOf? (codeJson code) = some code := by
  change Hex.readBytes ((String.ofList (Hex.bytes code)).toList.filter _) = _
  rw [String.toList_ofList, List.filter_eq_self.mpr, readBytes_bytes]
  intro c hc
  rw [isCodeSpace_of_mem_bytes hc]
  rfl

-- ============================================================= blanks

/-- The second text is the first with blanks put in anywhere: spaces, tabs,
line feeds, form feeds and carriage returns. -/
inductive Spaced : List Char → List Char → Prop
  | nil : Spaced [] []
  | keep (c : Char) {s t : List Char} : Spaced s t → Spaced (c :: s) (c :: t)
  | blank (c : Char) {s t : List Char} : c ∈ [' ', '\t', '\n', '\x0c', '\r'] → Spaced s t →
    Spaced s (c :: t)

/-- Without its blanks a text is the same, whatever blanks were put in. -/
theorem Spaced.filter_eq {s t : List Char} (h : Spaced s t) :
    (t.filter fun c => !isCodeSpace c) = s.filter fun c => !isCodeSpace c := by
  induction h with
  | nil => rfl
  | keep c _ ih => rw [List.filter_cons, List.filter_cons, ih]
  | blank c hc _ ih =>
    have hblank : isCodeSpace c = true := by
      simp only [List.mem_cons, List.not_mem_nil, or_false] at hc
      rcases hc with rfl | rfl | rfl | rfl | rfl <;> rfl
    rw [List.filter_cons, hblank, ih]
    rfl

/-- Two texts of code of which the second has more blanks. -/
def RespacedCode (j j' : Json) : Prop :=
  ∃ s t : String, j = textJson s ∧ j' = textJson t ∧ Spaced s.toList t.toList

theorem RespacedCode.codeOf?_eq {j j' : Json} (h : RespacedCode j j') :
    codeOf? j' = codeOf? j := by
  obtain ⟨s, t, rfl, rfl, hspaced⟩ := h
  change Hex.readBytes (t.toList.filter _) = Hex.readBytes (s.toList.filter _)
  rw [hspaced.filter_eq]

-- ============================================================ records

namespace JsonRecord

/-- Two objects differ at most in values of one name, which are related. -/
def ObjectVaries (name : String) (R : Json → Json → Prop) (j j' : Json) : Prop :=
  ∃ members members', j = .object members ∧ j' = .object members'
    ∧ List.Forall₂ (fun m m' => m'.1 = m.1 ∧ (m'.2 = m.2 ∨ m.1 = some name ∧ R m.2 m'.2))
        members members'

/-- Two records differ at most in values of one name, which are related. -/
def Varies (name : String) (R : Json → Json → Prop) (r r' : JsonRecord) : Prop :=
  List.Forall₂ (fun f f' => f'.1 = f.1 ∧ (f'.2 = f.2 ∨ f.1 = name ∧ R f.2 f'.2)) r r'

variable {name field : String} {R : Json → Json → Prop} {r r' : JsonRecord} {α : Type}

/-- An object whose members have names of their own is a record. -/
theorem ofJson?_object (names : List String) (r : JsonRecord) (h : (r.map Prod.fst).Nodup) :
    ofJson? names (.object (r.map fun f => (some f.1, f.2))) = some r := by
  have hnames : ((r.map fun f => (some f.1, f.2)).all fun m => m.1.isSome) = true := by
    rw [List.all_map]
    exact List.all_eq_true.mpr fun _ _ => rfl
  have honce : (names.all fun n => occurrences n (r.map fun f => (some f.1, f.2)) ≤ 1) = true := by
    refine List.all_eq_true.mpr fun n _ => decide_eq_true ?_
    have hcount : occurrences n (r.map fun f => (some f.1, f.2)) = (r.map Prod.fst).count n := by
      unfold occurrences
      rw [List.countP_map, List.count, List.countP_map]
      refine List.countP_congr fun f _ => ?_
      simp [Function.comp]
    rw [hcount]
    exact List.nodup_iff_count_le_one.mp h n
  have hfields : ((r.map fun f => (some f.1, f.2)).filterMap fun m => m.1.map (·, m.2)) = r := by
    rw [List.filterMap_map]
    exact List.filterMap_some
  unfold ofJson?
  dsimp only
  rw [hnames, honce, hfields]
  rfl

/-- Objects that differ at most in values of one name are both records, or
neither is. -/
theorem ofJson?_of_varies (names : List String) {j j' : Json} (h : ObjectVaries name R j j') :
    (ofJson? names j = none ∧ ofJson? names j' = none)
      ∨ ∃ r r', ofJson? names j = some r ∧ ofJson? names j' = some r' ∧ Varies name R r r' := by
  obtain ⟨ms, ms', rfl, rfl, hms⟩ := h
  have hkeys : ms'.map Prod.fst = ms.map Prod.fst := by
    induction hms with
    | nil => rfl
    | cons hm _ ih => rw [List.map_cons, List.map_cons, hm.1, ih]
  have hnames : ∀ ms : List (Option String × Json),
      (ms.all fun m => m.1.isSome) = (ms.map Prod.fst).all Option.isSome := by
    intro ms
    rw [List.all_map]
    rfl
  have honce : ∀ (ms : List (Option String × Json)) (n : String),
      occurrences n ms = (ms.map Prod.fst).countP fun key => key = some n := by
    intro ms n
    rw [List.countP_map]
    rfl
  have hrecord : Varies name R (ms.filterMap fun m => m.1.map (·, m.2))
      (ms'.filterMap fun m => m.1.map (·, m.2)) := by
    clear hkeys
    induction hms with
    | nil => exact .nil
    | @cons m m' _ _ hm _ ih =>
      obtain ⟨key, value⟩ := m
      obtain ⟨key', value'⟩ := m'
      obtain ⟨rfl, hvalue⟩ := hm
      cases key' with
      | none => exact ih
      | some key =>
        refine List.Forall₂.cons ⟨rfl, hvalue.imp_right fun h => ⟨Option.some.inj h.1, h.2⟩⟩ ih
  unfold ofJson?
  simp only [hnames, honce, hkeys]
  split
  · exact .inr ⟨_, _, rfl, rfl, hrecord⟩
  · exact .inl ⟨rfl, rfl⟩

/-- The other fields have the same values. -/
theorem Varies.lookup_of_ne (h : Varies name R r r') (hne : field ≠ name) :
    r'.lookup field = r.lookup field := by
  induction h with
  | nil => rfl
  | @cons f f' _ _ hf _ ih =>
    obtain ⟨key, value⟩ := f
    obtain ⟨key', value'⟩ := f'
    obtain ⟨rfl, hvalue⟩ := hf
    rw [List.lookup_cons, List.lookup_cons, ih]
    by_cases hkey : field = key'
    · have hsame : value' = value := hvalue.resolve_right fun h => hne (hkey.trans h.1)
      rw [hsame]
    · rw [beq_false_of_ne hkey]

/-- The field has values that are the same or related, or none in both. -/
theorem Varies.lookup (h : Varies name R r r') :
    (r.lookup name = none ∧ r'.lookup name = none) ∨ ∃ value value', r.lookup name = some value
      ∧ r'.lookup name = some value' ∧ (value' = value ∨ R value value') := by
  induction h with
  | nil => exact .inl ⟨rfl, rfl⟩
  | @cons f f' _ _ hf _ ih =>
    obtain ⟨key, value⟩ := f
    obtain ⟨key', value'⟩ := f'
    obtain ⟨rfl, hvalue⟩ := hf
    rw [List.lookup_cons, List.lookup_cons]
    by_cases hkey : name = key'
    · rw [beq_iff_eq.mpr hkey]
      exact .inr ⟨value, value', rfl, rfl, hvalue.imp_right And.right⟩
    · rw [beq_false_of_ne hkey]
      exact ih

theorem Varies.required_of_ne (h : Varies name R r r') (read : Json → Option α) (field : String)
    (hne : field ≠ name) : r'.required read field = r.required read field := by
  unfold required
  rw [h.lookup_of_ne hne]

theorem Varies.optional_of_ne (h : Varies name R r r') (fallback : α) (read : Json → Option α)
    (field : String) (hne : field ≠ name) :
    r'.optional fallback read field = r.optional fallback read field := by
  unfold optional
  rw [h.lookup_of_ne hne]

theorem Varies.nullable_of_ne (h : Varies name R r r') (read : Json → Option α) (field : String)
    (hne : field ≠ name) : r'.nullable read field = r.nullable read field := by
  unfold nullable
  rw [h.lookup_of_ne hne]

/-- The field is read alike if the reader makes no difference between related
values. -/
theorem Varies.optional_eq (h : Varies name R r r') (fallback : α) {read : Json → Option α}
    (hread : ∀ j j', R j j' → read j' = read j) :
    r'.optional fallback read name = r.optional fallback read name := by
  unfold optional
  rcases h.lookup with ⟨hnone, hnone'⟩ | ⟨value, value', hvalue, hvalue', rfl | hR⟩
  · rw [hnone, hnone']
  · rw [hvalue, hvalue']
  · rw [hvalue, hvalue']
    exact hread value value' hR

end JsonRecord

/-- Arrays of related elements are read alike. -/
theorem elementsOf?_congr {α : Type} {R : Json → Json → Prop} {read : Json → Option α}
    (hread : ∀ j j', R j j' → read j' = read j) {js js' : List Json} (h : List.Forall₂ R js js') :
    elementsOf? read (.array js') = elementsOf? read (.array js) := by
  change js'.mapM read = js.mapM read
  induction h with
  | nil => rfl
  | cons hR _ ih => rw [List.mapM_cons, List.mapM_cons, hread _ _ hR, ih]

-- ============================================================= texts

@[simp]
theorem textOf?_textJson (s : String) : textOf? (textJson s) = some s := rfl

@[simp]
theorem flagOf?_bool (b : Bool) : flagOf? (.bool b) = some b := rfl

@[simp]
theorem longOf?_natural (n : UInt64) : longOf? (.natural n.toNat) = some n := by
  have hn := n.toNat_lt
  unfold longOf? numberOf?
  dsimp only
  rw [if_pos (by omega), Option.map_some, UInt64.ofNat_toNat]

@[simp]
theorem wordOf?_natural (n : UInt32) : wordOf? (.natural n.toNat) = some n := by
  have hn := n.toNat_lt
  unfold wordOf? numberOf?
  dsimp only
  rw [if_pos (by omega), Option.map_some, UInt32.ofNat_toNat]

@[simp]
theorem architectureOf?_name (a : Architecture) : architectureOf? (textJson a.name) = some a := by
  cases a <;> decide

-- =========================================================== methods

namespace RecordedMethod

/-- The fields of a recorded method that are written. -/
def written (m : RecordedMethod) : JsonRecord :=
  (m.module.map fun name => ("module", textJson name)).toList
    ++ (m.token.map fun t => ("token", Json.natural t.value.toNat)).toList
    ++ [("entry", .natural m.entry.toNat), ("signature", textJson m.signature),
      ("compiled", .bool m.isCompiled), ("hot_start", .natural m.hotStart.toNat),
      ("hot_size", .natural m.hotSize.toNat), ("code", codeJson m.code)]

theorem toJson_eq (m : RecordedMethod) :
    m.toJson = .object (m.written.map fun f => (some f.1, f.2)) := by
  obtain ⟨module, token, _⟩ := m
  cases module <;> cases token <;> rfl

theorem nodup_written (m : RecordedMethod) : (m.written.map Prod.fst).Nodup := by
  have hsublist : (m.written.map Prod.fst).Sublist fieldNames := by
    obtain ⟨module, token, _⟩ := m
    cases module <;> cases token <;> simp [written, fieldNames]
  exact hsublist.nodup (by decide)

/-- The fields that are left out stand for nothing. -/
theorem nullable_written (m : RecordedMethod) :
    m.written.nullable textOf? "module" = some m.module
      ∧ m.written.nullable wordOf? "token" = some (m.token.map Token.value) := by
  obtain ⟨module, token, _⟩ := m
  constructor
  · cases module <;> cases token <;> rfl
  · cases module <;> cases token <;> simp [written, List.lookup_cons, JsonRecord.nullable]

/-- The other fields are found by their names. -/
theorem required_written (m : RecordedMethod) :
    m.written.required longOf? "entry" = some m.entry
      ∧ m.written.required textOf? "signature" = some m.signature
      ∧ m.written.required flagOf? "compiled" = some m.isCompiled := by
  obtain ⟨module, token, _⟩ := m
  cases module <;> cases token <;> simp [written, List.lookup_cons, JsonRecord.required]

theorem optional_written (m : RecordedMethod) :
    m.written.optional 0 longOf? "hot_start" = some m.hotStart
      ∧ m.written.optional 0 wordOf? "hot_size" = some m.hotSize
      ∧ m.written.optional [] codeOf? "code" = some m.code := by
  obtain ⟨module, token, _⟩ := m
  cases module <;> cases token <;> simp [written, List.lookup_cons, JsonRecord.optional]

theorem ofJson?_toJson (m : RecordedMethod) : ofJson? m.toJson = some m := by
  have hrecord := JsonRecord.ofJson?_object fieldNames m.written m.nodup_written
  obtain ⟨hmodule, htoken⟩ := m.nullable_written
  obtain ⟨hentry, hsignature, hcompiled⟩ := m.required_written
  obtain ⟨hstart, hsize, hcode⟩ := m.optional_written
  unfold ofJson?
  rw [toJson_eq, hrecord, Option.bind_eq_bind, Option.bind_some, hmodule, htoken, hentry,
    hsignature, hcompiled, hstart, hsize, hcode]
  obtain ⟨module, token, _⟩ := m
  cases token <;> rfl

/-- The code of a method may be written with more blanks. -/
def Respaced (j j' : Json) : Prop := j' = j ∨ JsonRecord.ObjectVaries "code" RespacedCode j j'

theorem ofJson?_of_respaced {j j' : Json} (h : Respaced j j') : ofJson? j' = ofJson? j := by
  rcases h with rfl | hvaries
  · rfl
  · unfold ofJson?
    rcases JsonRecord.ofJson?_of_varies fieldNames hvaries with
      ⟨hnone, hnone'⟩ | ⟨r, r', hrecord, hrecord', hr⟩
    · rw [hnone, hnone']
    · rw [hrecord, hrecord', Option.bind_eq_bind, Option.bind_some, Option.bind_some,
        hr.nullable_of_ne textOf? "module" (by decide),
        hr.nullable_of_ne wordOf? "token" (by decide),
        hr.required_of_ne longOf? "entry" (by decide),
        hr.required_of_ne textOf? "signature" (by decide),
        hr.required_of_ne flagOf? "compiled" (by decide),
        hr.optional_of_ne 0 longOf? "hot_start" (by decide),
        hr.optional_of_ne 0 wordOf? "hot_size" (by decide),
        hr.optional_eq [] fun _ _ => RespacedCode.codeOf?_eq]

end RecordedMethod

-- ========================================================= snapshots

/-- What a runtime tells of itself, as it is written. -/
def RuntimeInfo.written (info : RuntimeInfo) : JsonRecord :=
  [("flavor", textJson info.flavor), ("version", textJson info.version),
    ("module", textJson info.module), ("architecture", textJson info.architecture.name)]

theorem RuntimeInfo.ofJson?_toJson (info : RuntimeInfo) : ofJson? info.toJson = some info := by
  have hnodup : (info.written.map Prod.fst).Nodup :=
    (by decide : ["flavor", "version", "module", "architecture"].Nodup)
  have hrecord := JsonRecord.ofJson?_object ["flavor", "version", "module", "architecture"] _ hnodup
  have hjson : info.toJson = .object (info.written.map fun f => (some f.1, f.2)) := rfl
  unfold ofJson?
  rw [hjson, hrecord]
  simp [written, List.lookup_cons, JsonRecord.required]

namespace Snapshot

theorem elementsOf?_toJson (ms : List RecordedMethod) :
    elementsOf? RecordedMethod.ofJson? (.array (ms.map RecordedMethod.toJson)) = some ms := by
  change (ms.map RecordedMethod.toJson).mapM RecordedMethod.ofJson? = some ms
  induction ms with
  | nil => rfl
  | cons m ms ih =>
    rw [List.map_cons, List.mapM_cons, RecordedMethod.ofJson?_toJson, ih]
    rfl

/-- A snapshot, as it is written. -/
def written (s : Snapshot) : JsonRecord :=
  [("runtime", s.info.toJson), ("methods", .array (s.methods.map RecordedMethod.toJson))]

theorem ofJson?_toJson (s : Snapshot) : ofJson? s.toJson = some s := by
  have hnodup : (s.written.map Prod.fst).Nodup := (by decide : ["runtime", "methods"].Nodup)
  have hrecord := JsonRecord.ofJson?_object ["runtime", "methods"] _ hnodup
  have hjson : s.toJson = .object (s.written.map fun f => (some f.1, f.2)) := rfl
  unfold ofJson?
  rw [hjson, hrecord]
  simp [written, List.lookup_cons, JsonRecord.required, JsonRecord.optional, elementsOf?_toJson,
    RuntimeInfo.ofJson?_toJson]

/-- The second value is the first with blanks put in the code of methods, in
as many of them and as many blanks as there may be. -/
def Respaced (j j' : Json) : Prop :=
  JsonRecord.ObjectVaries "methods" (fun ms ms' => ∃ js js', ms = .array js ∧ ms' = .array js'
    ∧ List.Forall₂ RecordedMethod.Respaced js js') j j'

theorem ofJson?_of_respaced {j j' : Json} (h : Respaced j j') : ofJson? j' = ofJson? j := by
  unfold ofJson?
  rcases JsonRecord.ofJson?_of_varies ["runtime", "methods"] h with
    ⟨hnone, hnone'⟩ | ⟨r, r', hrecord, hrecord', hr⟩
  · rw [hnone, hnone']
  · rw [hrecord, hrecord', Option.bind_eq_bind, Option.bind_some, Option.bind_some,
      hr.required_of_ne RuntimeInfo.ofJson? "runtime" (by decide),
      hr.optional_eq [] ?_]
    rintro _ _ ⟨js, js', rfl, rfl, hjs⟩
    exact elementsOf?_congr (fun _ _ h => RecordedMethod.ofJson?_of_respaced h) hjs

/-- The text of a snapshot is read as that snapshot. Whatever value a text is
written of, blanks put in the code of methods make no difference to what is
read: the same snapshot, or none in both cases. -/
theorem ofText_of_respaced : (∀ s : Snapshot, ofText s.toText = .ok s)
    ∧ ∀ j j', Respaced j j' → ofText j'.toText = ofText j.toText := by
  constructor
  · intro s
    unfold ofText toText
    rw [Json.ofText?_toText, Option.bind_some, ofJson?_toJson]
  · intro j j' h
    unfold ofText
    rw [Json.ofText?_toText, Json.ofText?_toText, Option.bind_some, Option.bind_some,
      ofJson?_of_respaced h]

-- ========================================================== example

/-- A method with a token and one without code. -/
def oneCompiled : Snapshot :=
  ⟨defaultInfo .x86,
    [(RecordedMethod.compiled "System.Void C.M()" 0x1000 [0x90, 0xc3]).withToken "test"
        ⟨0x06000001⟩,
      .uncompiled "System.Void C.N()" 0xffffffffffffffff]⟩

/-- The same as a value, with a line feed and two spaces in the code. -/
def oneCompiledSpaced : Json :=
  .object [member "runtime" (defaultInfo .x86).toJson,
    member "methods" (.array
      [.object [member "module" (textJson "test"), member "token" (.natural 0x06000001),
          member "entry" (.natural 0x1000), member "signature" (textJson "System.Void C.M()"),
          member "compiled" (.bool true), member "hot_start" (.natural 0x1000),
          member "hot_size" (.natural 2), member "code" (textJson "9\n0 c3 ")],
        (RecordedMethod.uncompiled "System.Void C.N()" 0xffffffffffffffff).toJson])]

theorem respaced_oneCompiled : Respaced oneCompiled.toJson oneCompiledSpaced := by
  have hspaced : Spaced "90c3".toList "9\n0 c3 ".toList :=
    .keep '9' (.blank '\n' (by decide) (.keep '0' (.blank ' ' (by decide)
      (.keep 'c' (.keep '3' (.blank ' ' (by decide) .nil))))))
  have hcode : RespacedCode (codeJson [0x90, 0xc3]) (textJson "9\n0 c3 ") :=
    ⟨"90c3", "9\n0 c3 ", rfl, rfl, hspaced⟩
  have hsame : ∀ m : Option String × Json, m.1 = m.1 ∧ (m.2 = m.2 ∨
      m.1 = some "code" ∧ RespacedCode m.2 m.2) := fun m => ⟨rfl, .inl rfl⟩
  refine ⟨_, _, rfl, rfl, .cons ⟨rfl, .inl rfl⟩ (.cons ⟨rfl, .inr ⟨rfl, _, _, rfl, rfl, ?_⟩⟩ .nil)⟩
  refine .cons (.inr ⟨_, _, rfl, rfl, ?_⟩) (.cons (.inl rfl) .nil)
  exact .cons (hsame _) (.cons (hsame _) (.cons (hsame _) (.cons (hsame _) (.cons (hsame _)
    (.cons (hsame _) (.cons (hsame _) (.cons ⟨rfl, .inr ⟨rfl, hcode⟩⟩ .nil)))))))

/-- With its code in pieces the snapshot is read as it is. -/
theorem ofText_of_oneCompiledSpaced : Respaced oneCompiled.toJson oneCompiledSpaced
    ∧ ofText oneCompiledSpaced.toText = .ok oneCompiled :=
  ⟨respaced_oneCompiled,
    (ofText_of_respaced.2 _ _ respaced_oneCompiled).trans (ofText_of_respaced.1 oneCompiled)⟩

end Snapshot

end ClrListing.Native
