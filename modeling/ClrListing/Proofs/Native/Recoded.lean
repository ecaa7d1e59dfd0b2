/-
Snapshots in which methods lie apart.

Every question put to a snapshot goes over all recorded methods, and the
first that fits gives the answer. If methods lie apart (`LieApart`), an
address that leads to one method leads to no other:

- the method that starts at an address is found there, whatever code the
  other methods hold (`native_of_methodAt?`);
- code read where a method has its code is the code of that method, since
  no other method has a byte there (`codeAt?_eq_none`).

So other code in the place of one method's (`recode`) is seen by nobody
who asks for another method. Where methods start and what they are called
is not even looked up in the code (`methodAt?_recode`, `entryOf?_recode`).
-/
import ClrListing.Native.Snapshot.Basic
import Mathlib.Data.List.Basic

namespace ClrListing.Native

open Metadata

-- ====================================================== ranges of code

/-- The addresses in the code of a method are those from its start on, as
many as it has bytes. -/
theorem NativeMethod.contains_iff {m : NativeMethod} {address : UInt64} :
    m.contains address = true ↔ m.isCompiled = true ∧ m.hotStart.toNat ≤ address.toNat
      ∧ address.toNat < m.hotStart.toNat + m.hotSize.toNat := by
  unfold contains
  rw [Bool.and_eq_true, Bool.and_eq_true, decide_eq_true_eq, decide_eq_true_eq,
    UInt64.le_iff_toNat_le, UInt64.lt_iff_toNat_lt, UInt32.toNat_toUInt64, and_assoc]
  constructor
  · rintro ⟨hcompiled, hstart, hend⟩
    rw [UInt64.toNat_sub_of_le _ _ (UInt64.le_iff_toNat_le.mpr hstart)] at hend
    exact ⟨hcompiled, hstart, by omega⟩
  · rintro ⟨hcompiled, hstart, hend⟩
    rw [UInt64.toNat_sub_of_le _ _ (UInt64.le_iff_toNat_le.mpr hstart)]
    exact ⟨hcompiled, hstart, by omega⟩

/-- A method with code holds its own start. -/
theorem NativeMethod.contains_hotStart {m : NativeMethod} (hcompiled : m.isCompiled = true)
    (hsize : 0 < m.hotSize.toNat) : m.contains m.hotStart = true :=
  contains_iff.mpr ⟨hcompiled, Nat.le_refl _, by omega⟩

namespace RecordedMethod

/-- A method has so many bytes at an address if none of them lies before
its code or after it. -/
theorem codeAt?_eq_some_iff {m : RecordedMethod} {address : UInt64} {size : Nat}
    {bytes : List UInt8} :
    m.codeAt? address size = some bytes ↔ m.hotStart.toNat ≤ address.toNat
      ∧ address.toNat + size ≤ m.hotStart.toNat + m.code.length
      ∧ bytes = (m.code.drop (address.toNat - m.hotStart.toNat)).take size := by
  unfold codeAt?
  by_cases hbefore : address < m.hotStart
  · rw [if_pos hbefore]
    have hlt := UInt64.lt_iff_toNat_lt.mp hbefore
    exact ⟨nofun, fun h => absurd h.1 (by omega)⟩
  · rw [if_neg hbefore]
    have hle : m.hotStart ≤ address := UInt64.not_lt.mp hbefore
    have hnat := UInt64.le_iff_toNat_le.mp hle
    dsimp only
    rw [UInt64.toNat_sub_of_le _ _ hle]
    constructor
    · intro h
      split at h
      · cases h
        exact ⟨hnat, by omega, rfl⟩
      · cases h
    · rintro ⟨-, hend, rfl⟩
      rw [if_pos (by omega)]

/-- The method with other code. -/
def recoded (m : RecordedMethod) (code : List UInt8) : RecordedMethod := { m with code := code }

/-- The method without its code. -/
def bare (m : RecordedMethod) : RecordedMethod := m.recoded []

@[simp]
theorem bare_recoded (m : RecordedMethod) (code : List UInt8) : (m.recoded code).bare = m.bare :=
  rfl

/-- Two methods lie apart if neither their code nor their starts meet. -/
structure Apart (m m' : RecordedMethod) : Prop where
  /-- No address lies in the code of both. -/
  code : ∀ address, ¬(m.native.contains address = true ∧ m'.native.contains address = true)
  /-- They start at different addresses. -/
  entry : m.entry ≠ m'.entry
  /-- The second does not start in the code of the first. -/
  outside : m.native.contains m'.entry = false

end RecordedMethod

namespace Snapshot

-- ======================================================== lying apart

/-- The methods of a snapshot lie apart, and each compiled one has all the
code that it should have. -/
structure LieApart (s : Snapshot) : Prop where
  whole : ∀ m ∈ s.methods, m.isCompiled = true → m.code.length = m.hotSize.toNat
  apart : ∀ (i j : Nat) (m m' : RecordedMethod), i ≠ j → s.methods[i]? = some m →
    s.methods[j]? = some m' → m.Apart m'

/-- The snapshot with other code in the place of one method's. -/
def recode (s : Snapshot) (i : Nat) (code : List UInt8) : Snapshot :=
  { s with methods := s.methods.modify i fun m => m.recoded code }

/-- The snapshot without any code. -/
def bare (s : Snapshot) : Snapshot := { s with methods := s.methods.map RecordedMethod.bare }

/-- What is the same of a method with other code is the same of all
methods. -/
theorem map_recode {β : Type} (s : Snapshot) {i : Nat} {code : List UInt8} {f : RecordedMethod → β}
    (h : ∀ m, s.methods[i]? = some m → f (m.recoded code) = f m) :
    (s.recode i code).methods.map f = s.methods.map f := by
  apply List.ext_getElem?
  intro j
  unfold recode
  rw [List.getElem?_map, List.getElem?_map]
  by_cases hij : i = j
  · subst hij
    rw [List.getElem?_modify_eq]
    cases hm : s.methods[i]? with
    | none => rfl
    | some m => exact congrArg some (h m hm)
  · rw [List.getElem?_modify_ne _ _ hij]

theorem bare_recode (s : Snapshot) (i : Nat) (code : List UInt8) :
    (s.recode i code).bare = s.bare := by
  unfold bare
  rw [s.map_recode fun m _ => m.bare_recoded code]
  rfl

-- ========================================================== look-ups

/-- Methods are found without regard to their code. -/
theorem methodAt?_bare (s : Snapshot) (address : UInt64) :
    s.bare.methodAt? address = s.methodAt? address := by
  unfold methodAt? bare
  simp only [List.map_map, List.find?_map, Option.map_map]
  rfl

theorem entryOf?_bare (s : Snapshot) (a : Assembly) (token : Token) :
    s.bare.entryOf? a token = s.entryOf? a token := by
  unfold entryOf? bare
  rw [List.find?_map, Option.map_map]
  rfl

@[simp]
theorem methodAt?_recode (s : Snapshot) (i : Nat) (code : List UInt8) (address : UInt64) :
    (s.recode i code).methodAt? address = s.methodAt? address := by
  rw [← methodAt?_bare, bare_recode, methodAt?_bare]

@[simp]
theorem entryOf?_recode (s : Snapshot) (i : Nat) (code : List UInt8) (a : Assembly)
    (token : Token) : (s.recode i code).entryOf? a token = s.entryOf? a token := by
  rw [← entryOf?_bare, bare_recode, entryOf?_bare]

variable {s : Snapshot}

/-- Where a member starts, a recorded method starts. -/
theorem entry_of_entryOf? {a : Assembly} {token : Token} {entry : UInt64}
    (h : s.entryOf? a token = some entry) : ∃ m ∈ s.methods, m.entry = entry := by
  obtain ⟨m, hfind, hentry⟩ := Option.map_eq_some_iff.mp h
  exact ⟨m, List.mem_of_find?_eq_some hfind, hentry⟩

/-- What is found where a method starts is a recorded method; if methods
lie apart, it is none that starts elsewhere. -/
theorem native_of_methodAt? (hs : s.LieApart) {m : RecordedMethod} (hm : m ∈ s.methods)
    {native : NativeMethod} (h : s.methodAt? m.entry = some native) {i : Nat} {other : RecordedMethod}
    (hother : s.methods[i]? = some other) (hne : other.entry ≠ m.entry) :
    ∃ j found, j ≠ i ∧ s.methods[j]? = some found ∧ found.native = native := by
  obtain ⟨k, hk⟩ := List.mem_iff_getElem?.mp hm
  have hki : i ≠ k := by
    rintro rfl
    rw [hother] at hk
    cases hk
    exact hne rfl
  unfold methodAt? at h
  rw [List.find?_map] at h
  cases hinside : s.methods.find? ((fun n : NativeMethod => n.contains m.entry)
      ∘ RecordedMethod.native) with
  | some found =>
    rw [hinside] at h
    have hcontains := List.find?_some hinside
    dsimp only [Function.comp_apply] at hcontains
    obtain ⟨j, hj⟩ := List.mem_iff_getElem?.mp (List.mem_of_find?_eq_some hinside)
    refine ⟨j, found, ?_, hj, ?_⟩
    · -- the method that starts elsewhere does not hold this start
      rintro rfl
      rw [hother] at hj
      cases hj
      have houtside := (hs.apart _ _ _ _ hki hother hk).outside
      rw [hcontains] at houtside
      cases houtside
    · exact Option.some.inj h
  | none =>
    rw [hinside] at h
    obtain ⟨found, hfind, hnative⟩ := Option.map_eq_some_iff.mp h
    have hentry := List.find?_some hfind
    rw [decide_eq_true_eq] at hentry
    obtain ⟨j, hj⟩ := List.mem_iff_getElem?.mp (List.mem_of_find?_eq_some hfind)
    refine ⟨j, found, ?_, hj, hnative⟩
    rintro rfl
    rw [hother] at hj
    cases hj
    exact hne hentry

-- ============================================================ reading

/-- Where one compiled method has its code, no other has any. -/
theorem codeAt?_eq_none (hs : s.LieApart) {i j : Nat} {m m' : RecordedMethod} (hij : i ≠ j)
    (hm : s.methods[i]? = some m) (hm' : s.methods[j]? = some m') (hcompiled : m.isCompiled = true)
    (hcompiled' : m'.isCompiled = true) (hsize : 0 < m'.hotSize.toNat) {code : List UInt8}
    (hcode : code.length = m.code.length) :
    (m.recoded code).codeAt? m'.hotStart m'.hotSize.toNat = none := by
  cases hread : (m.recoded code).codeAt? m'.hotStart m'.hotSize.toNat with
  | none => rfl
  | some bytes =>
    -- a byte read there would lie in the code of both
    obtain ⟨hstart, hend, -⟩ := RecordedMethod.codeAt?_eq_some_iff.mp hread
    have hwhole := hs.whole m (List.mem_of_getElem? hm) hcompiled
    have hinside : m.native.contains m'.hotStart = true := by
      refine NativeMethod.contains_iff.mpr ⟨hcompiled, hstart, ?_⟩
      change m'.hotStart.toNat + _ ≤ m.hotStart.toNat + code.length at hend
      change m'.hotStart.toNat < m.hotStart.toNat + m.hotSize.toNat
      omega
    have hown : m'.native.contains m'.native.hotStart = true :=
      NativeMethod.contains_hotStart hcompiled' hsize
    exact absurd ⟨hinside, hown⟩ ((hs.apart i j m m' hij hm hm').code _)

/-- Whether no bytes at all can be read at an address depends on the length
of the code alone. -/
theorem codeAt?_zero (m : RecordedMethod) {code : List UInt8} (hcode : code.length = m.code.length)
    (address : UInt64) : (m.recoded code).codeAt? address 0 = m.codeAt? address 0 := by
  apply Option.ext
  intro bytes
  rw [RecordedMethod.codeAt?_eq_some_iff, RecordedMethod.codeAt?_eq_some_iff, List.take_zero,
    List.take_zero]
  change _ ∧ _ ≤ m.hotStart.toNat + code.length ∧ _ ↔ _
  rw [hcode]
  rfl

/-- Where one compiled method has its code, the code of another makes no
difference. -/
theorem codeAt?_recoded (hs : s.LieApart) {i j : Nat} {m m' : RecordedMethod} (hij : i ≠ j)
    (hm : s.methods[i]? = some m) (hm' : s.methods[j]? = some m') (hcompiled : m.isCompiled = true)
    (hcompiled' : m'.isCompiled = true) {code : List UInt8} (hcode : code.length = m.code.length) :
    (m.recoded code).codeAt? m'.hotStart m'.hotSize.toNat
      = m.codeAt? m'.hotStart m'.hotSize.toNat := by
  by_cases hsize : m'.hotSize.toNat = 0
  · rw [hsize]
    exact codeAt?_zero m hcode _
  · have hpos : 0 < m'.hotSize.toNat := Nat.pos_of_ne_zero hsize
    have hbefore : m.codeAt? m'.hotStart m'.hotSize.toNat = none :=
      codeAt?_eq_none hs hij hm hm' hcompiled hcompiled' hpos rfl
    rw [hbefore]
    exact codeAt?_eq_none hs hij hm hm' hcompiled hcompiled' hpos hcode

/-- What is read of a method: its code, if it is compiled. -/
def compiledCodeAt? (address : UInt64) (size : Nat) (m : RecordedMethod) : Option (List UInt8) :=
  if m.isCompiled then m.codeAt? address size else none

/-- Two snapshots of whose methods the same is read are read alike. -/
theorem read_congr {s s' : Snapshot} {address : UInt64} {size : Nat}
    (h : s.methods.map (compiledCodeAt? address size)
      = s'.methods.map (compiledCodeAt? address size)) :
    s.read address size = s'.read address size := by
  have hfirst (ms : List RecordedMethod) :
      (ms.filter RecordedMethod.isCompiled).findSome? (fun m => m.codeAt? address size)
        = ((ms.map (compiledCodeAt? address size)).filterMap id).head? := by
    rw [← List.head?_filterMap, List.filterMap_filter, List.filterMap_map]
    rfl
  unfold read
  rw [hfirst, hfirst, h]

/-- Code of the same length in the place of one method's leaves all reads
of the others' code as they are. -/
theorem read_recode (hs : s.LieApart) {i j : Nat} {m m' : RecordedMethod} (hij : i ≠ j)
    (hm : s.methods[i]? = some m) (hm' : s.methods[j]? = some m')
    (hcompiled' : m'.isCompiled = true) {code : List UInt8} (hcode : code.length = m.code.length) :
    (s.recode i code).read m'.hotStart m'.hotSize.toNat
      = s.read m'.hotStart m'.hotSize.toNat := by
  refine read_congr (s.map_recode ?_)
  intro n hn
  rw [hm] at hn
  cases hn
  unfold compiledCodeAt?
  by_cases hcompiled : m.isCompiled = true
  · have hkept : (m.recoded code).isCompiled = true := hcompiled
    rw [if_pos hcompiled, if_pos hkept]
    exact codeAt?_recoded hs hij hm hm' hcompiled hcompiled' hcode
  · have hkept : ¬(m.recoded code).isCompiled = true := hcompiled
    rw [if_neg hcompiled, if_neg hkept]

end Snapshot

end ClrListing.Native
