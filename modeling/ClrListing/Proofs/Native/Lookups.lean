/-
What a snapshot answers when it is asked for an address.

A method is found by two scans over all recorded methods: the first goes by
their code, the second by where they start. Code is read by a third, which
goes by how many bytes a method has at an address. Each scan takes the
first method that fits.

Whatever was recorded, a method is found exactly where some method starts
or has code (`methodAt?_eq_none_iff`), and bytes are read exactly where some
compiled method has them (`read_cases`). If methods lie apart, then no two
of them are at one address (`eq_of_isAt`). So the scans come to the same
method whichever of them finds it, and the order in which methods were
recorded makes no difference (`answers_of_lieApart`).
-/
import ClrListing.Proofs.Native.Recoded

namespace ClrListing.Native

namespace RecordedMethod

-- ========================================================= addresses

/-- The code of a compiled method covers `size` addresses from the first
on. -/
def Covers (m : RecordedMethod) (first size : Nat) : Prop :=
  m.isCompiled = true ∧ m.hotStart.toNat ≤ first
    ∧ first + size ≤ m.hotStart.toNat + m.hotSize.toNat

/-- A method is at an address if it starts there or has code there. -/
def IsAt (m : RecordedMethod) (address : UInt64) : Prop :=
  m.entry = address ∨ m.Covers address.toNat 1

/-- The bytes of a method from an address on. -/
def bytesAt (m : RecordedMethod) (address : UInt64) (size : Nat) : List UInt8 :=
  (m.code.drop (address.toNat - m.hotStart.toNat)).take size

variable {m m' : RecordedMethod} {address : UInt64} {size : Nat}

theorem covers_one_iff : m.Covers address.toNat 1 ↔ m.native.contains address = true := by
  rw [NativeMethod.contains_iff]
  rfl

/-- What covers some addresses covers the first. -/
theorem Covers.first (h : m.Covers address.toNat size) (hsize : 0 < size) :
    m.Covers address.toNat 1 := by
  obtain ⟨hcompiled, hstart, hend⟩ := h
  exact ⟨hcompiled, hstart, by omega⟩

/-- A compiled method that has all its code has those bytes that its code
covers. -/
theorem codeAt?_eq_some_iff_covers (hcompiled : m.isCompiled = true)
    (hwhole : m.code.length = m.hotSize.toNat) {bytes : List UInt8} :
    m.codeAt? address size = some bytes
      ↔ m.Covers address.toNat size ∧ bytes = m.bytesAt address size := by
  rw [codeAt?_eq_some_iff, hwhole]
  constructor
  · rintro ⟨hstart, hend, hbytes⟩
    exact ⟨⟨hcompiled, hstart, hend⟩, hbytes⟩
  · rintro ⟨⟨-, hstart, hend⟩, hbytes⟩
    exact ⟨hstart, hend, hbytes⟩

/-- The bytes of a method from its start on are its code. -/
theorem bytesAt_hotStart (hwhole : m.code.length = m.hotSize.toNat) :
    m.bytesAt m.hotStart m.hotSize.toNat = m.code := by
  unfold bytesAt
  rw [Nat.sub_self, List.drop_zero, ← hwhole, List.take_length]

/-- Two methods lie apart if the code of one ends before that of the other
starts. -/
theorem apart_of_ordered (hcode : m.isCompiled = true → m'.isCompiled = true →
      m.hotStart.toNat + m.hotSize.toNat ≤ m'.hotStart.toNat
        ∨ m'.hotStart.toNat + m'.hotSize.toNat ≤ m.hotStart.toNat)
    (hentry : m.entry ≠ m'.entry) (houtside : m.native.contains m'.entry = false) :
    m.Apart m' where
  code := by
    rintro address ⟨hin, hin'⟩
    obtain ⟨hcompiled, hstart, hend⟩ := NativeMethod.contains_iff.mp hin
    obtain ⟨hcompiled', hstart', hend'⟩ := NativeMethod.contains_iff.mp hin'
    dsimp only [native] at hstart hend hstart' hend'
    rcases hcode hcompiled hcompiled' with hbefore | hbehind
    · omega
    · omega
  entry := hentry
  outside := houtside

end RecordedMethod

namespace Snapshot

variable {s s' : Snapshot} {address : UInt64} {size : Nat}

-- ========================================================= the scans

/-- Both scans go over recorded methods. -/
theorem methodAt?_eq (s : Snapshot) (address : UInt64) : s.methodAt? address
    = ((s.methods.find? fun m => m.native.contains address).map RecordedMethod.native).or
        ((s.methods.find? fun m => m.entry = address).map RecordedMethod.native) := by
  unfold methodAt?
  rw [List.find?_map, Option.orElse_eq_orElse, Option.orElse_eq_or]
  rfl

/-- What is found at an address is a method that is there. -/
theorem exists_of_methodAt? {native : NativeMethod} (h : s.methodAt? address = some native) :
    ∃ m ∈ s.methods, m.IsAt address ∧ m.native = native := by
  rw [methodAt?_eq] at h
  rcases Option.or_eq_some_iff.mp h with hcode | ⟨-, hentry⟩
  · obtain ⟨m, hfind, hnative⟩ := Option.map_eq_some_iff.mp hcode
    have hcontains := List.find?_some hfind
    exact ⟨m, List.mem_of_find?_eq_some hfind, .inr (RecordedMethod.covers_one_iff.mpr hcontains),
      hnative⟩
  · obtain ⟨m, hfind, hnative⟩ := Option.map_eq_some_iff.mp hentry
    have hstart := List.find?_some hfind
    exact ⟨m, List.mem_of_find?_eq_some hfind, .inl (of_decide_eq_true hstart), hnative⟩

/-- Nothing is found exactly where there is no method. -/
theorem methodAt?_eq_none_iff :
    s.methodAt? address = none ↔ ∀ m ∈ s.methods, ¬m.IsAt address := by
  constructor
  · intro h m hm hat
    rw [methodAt?_eq] at h
    obtain ⟨hcode, hentry⟩ := Option.or_eq_none_iff.mp h
    rcases hat with hstart | hcovers
    · have hnone := List.find?_eq_none.mp (Option.map_eq_none_iff.mp hentry) m hm
      exact hnone (decide_eq_true hstart)
    · have hnone := List.find?_eq_none.mp (Option.map_eq_none_iff.mp hcode) m hm
      exact hnone (RecordedMethod.covers_one_iff.mp hcovers)
  · intro h
    cases hfound : s.methodAt? address with
    | none => rfl
    | some native =>
      obtain ⟨m, hm, hat, -⟩ := exists_of_methodAt? hfound
      exact absurd hat (h m hm)

/-- Bytes are read of a compiled method that has them, if there is one. -/
theorem read_cases (s : Snapshot) (address : UInt64) (size : Nat) :
    (∃ m ∈ s.methods, ∃ bytes, m.isCompiled = true ∧ m.codeAt? address size = some bytes
        ∧ s.read address size = .ok bytes)
      ∨ (∀ m ∈ s.methods, m.isCompiled = true → m.codeAt? address size = none)
        ∧ s.read address size = .error .outOfBounds := by
  unfold read
  cases hscan : (s.methods.filter RecordedMethod.isCompiled).findSome? fun m =>
      m.codeAt? address size with
  | some bytes =>
    obtain ⟨m, hmem, hcode⟩ := List.exists_of_findSome?_eq_some hscan
    obtain ⟨hm, hcompiled⟩ := List.mem_filter.mp hmem
    exact .inl ⟨m, hm, bytes, hcompiled, hcode, rfl⟩
  | none =>
    refine .inr ⟨fun m hm hcompiled => ?_, rfl⟩
    exact List.findSome?_eq_none_iff.mp hscan m (List.mem_filter.mpr ⟨hm, hcompiled⟩)

-- ======================================================= one method

/-- Of methods that lie apart, at most one is at an address. -/
theorem position_of_isAt (hs : s.LieApart) {i j : Nat} {m m' : RecordedMethod}
    (hm : s.methods[i]? = some m) (hm' : s.methods[j]? = some m') (hat : m.IsAt address)
    (hat' : m'.IsAt address) : i = j := by
  by_contra hij
  have hapart := hs.apart i j m m' hij hm hm'
  have hapart' := hs.apart j i m' m (Ne.symm hij) hm' hm
  rcases hat with rfl | hcovers
  · rcases hat' with hstart | hcovers'
    · exact hapart.entry hstart.symm
    · have houtside := hapart'.outside
      rw [RecordedMethod.covers_one_iff.mp hcovers'] at houtside
      cases houtside
  · rcases hat' with rfl | hcovers'
    · have houtside := hapart.outside
      rw [RecordedMethod.covers_one_iff.mp hcovers] at houtside
      cases houtside
    · exact hapart.code address
        ⟨RecordedMethod.covers_one_iff.mp hcovers, RecordedMethod.covers_one_iff.mp hcovers'⟩

theorem eq_of_isAt (hs : s.LieApart) {m m' : RecordedMethod} (hm : m ∈ s.methods)
    (hm' : m' ∈ s.methods) (hat : m.IsAt address) (hat' : m'.IsAt address) : m = m' := by
  obtain ⟨i, hi⟩ := List.mem_iff_getElem?.mp hm
  obtain ⟨j, hj⟩ := List.mem_iff_getElem?.mp hm'
  have hij := position_of_isAt hs hi hj hat hat'
  subst hij
  exact Option.some.inj (hi.symm.trans hj)

/-- The method at an address is the one that is found there. -/
theorem methodAt?_of_isAt (hs : s.LieApart) {m : RecordedMethod} (hm : m ∈ s.methods)
    (hat : m.IsAt address) : s.methodAt? address = some m.native := by
  cases hfound : s.methodAt? address with
  | none => exact absurd hat (methodAt?_eq_none_iff.mp hfound m hm)
  | some native =>
    obtain ⟨found, hmem, hat', rfl⟩ := exists_of_methodAt? hfound
    rw [eq_of_isAt hs hmem hm hat' hat]

/-- Whichever compiled method bytes are read of, they are the same. -/
theorem bytes_unique (hs : s.LieApart) {m m' : RecordedMethod} (hm : m ∈ s.methods)
    (hm' : m' ∈ s.methods) (hcompiled : m.isCompiled = true) (hcompiled' : m'.isCompiled = true)
    {bytes bytes' : List UInt8} (hcode : m.codeAt? address size = some bytes)
    (hcode' : m'.codeAt? address size = some bytes') : bytes = bytes' := by
  obtain ⟨hcovers, hbytes⟩ :=
    (RecordedMethod.codeAt?_eq_some_iff_covers hcompiled (hs.whole m hm hcompiled)).mp hcode
  obtain ⟨hcovers', hbytes'⟩ :=
    (RecordedMethod.codeAt?_eq_some_iff_covers hcompiled' (hs.whole m' hm' hcompiled')).mp hcode'
  rcases Nat.eq_zero_or_pos size with rfl | hsize
  · -- no bytes at all may be read of several methods
    rw [hbytes, hbytes']
    unfold RecordedMethod.bytesAt
    rw [List.take_zero, List.take_zero]
  · have hsame := eq_of_isAt hs hm hm' (.inr (hcovers.first hsize)) (.inr (hcovers'.first hsize))
    rw [hbytes, hbytes', hsame]

/-- Bytes that a compiled method has are read. -/
theorem read_of_codeAt? (hs : s.LieApart) {m : RecordedMethod} (hm : m ∈ s.methods)
    (hcompiled : m.isCompiled = true) {bytes : List UInt8}
    (hcode : m.codeAt? address size = some bytes) : s.read address size = .ok bytes := by
  rcases s.read_cases address size with ⟨m', hm', bytes', hcompiled', hcode', hread⟩ | ⟨hnone, -⟩
  · rw [hread, bytes_unique hs hm' hm hcompiled' hcompiled hcode' hcode]
  · rw [hnone m hm hcompiled] at hcode
    cases hcode

theorem read_of_covers (hs : s.LieApart) {m : RecordedMethod} (hm : m ∈ s.methods)
    (hcovers : m.Covers address.toNat size) : s.read address size = .ok (m.bytesAt address size) :=
  read_of_codeAt? hs hm hcovers.1
    ((RecordedMethod.codeAt?_eq_some_iff_covers hcovers.1 (hs.whole m hm hcovers.1)).mpr
      ⟨hcovers, rfl⟩)

/-- Bytes that are read are covered by the code of a method. -/
theorem exists_of_read (hs : s.LieApart) {bytes : List UInt8}
    (h : s.read address size = .ok bytes) :
    ∃ m ∈ s.methods, m.Covers address.toNat size ∧ bytes = m.bytesAt address size := by
  rcases s.read_cases address size with ⟨m, hm, bytes', hcompiled, hcode, hread⟩ | ⟨-, hread⟩
  · rw [hread] at h
    cases h
    exact ⟨m, hm, (RecordedMethod.codeAt?_eq_some_iff_covers hcompiled
      (hs.whole m hm hcompiled)).mp hcode⟩
  · rw [hread] at h
    cases h

-- ============================================================ order

/-- The order of methods makes no difference to what is found. -/
theorem methodAt?_of_perm (hs : s.LieApart) (hperm : s'.methods.Perm s.methods)
    (address : UInt64) : s'.methodAt? address = s.methodAt? address := by
  cases hfound : s'.methodAt? address with
  | none =>
    symm
    rw [methodAt?_eq_none_iff] at hfound ⊢
    exact fun m hm => hfound m (hperm.mem_iff.mpr hm)
  | some native =>
    obtain ⟨m, hm, hat, rfl⟩ := exists_of_methodAt? hfound
    exact (methodAt?_of_isAt hs (hperm.mem_iff.mp hm) hat).symm

/-- The order of methods makes no difference to what is read. -/
theorem read_of_perm (hs : s.LieApart) (hperm : s'.methods.Perm s.methods) (address : UInt64)
    (size : Nat) : s'.read address size = s.read address size := by
  rcases s'.read_cases address size with ⟨m, hm, bytes, hcompiled, hcode, hread⟩ | ⟨hnone, hread⟩
  · rw [hread]
    exact (read_of_codeAt? hs (hperm.mem_iff.mp hm) hcompiled hcode).symm
  · rw [hread]
    rcases s.read_cases address size with ⟨m, hm, bytes, hcompiled, hcode, -⟩ | ⟨-, hread'⟩
    · rw [hnone m (hperm.mem_iff.mpr hm) hcompiled] at hcode
      cases hcode
    · exact hread'.symm

-- ========================================================== answers

/-- A snapshot answers as the runtime would: every question for an address
comes to the one method that is there. -/
structure Answers (s : Snapshot) : Prop where
  /-- No two methods are at one address. -/
  single : ∀ (i j : Nat) (m m' : RecordedMethod) (address : UInt64), s.methods[i]? = some m →
    s.methods[j]? = some m' → m.IsAt address → m'.IsAt address → i = j
  /-- A method is found exactly at the addresses that it is at. -/
  found : ∀ address native, s.methodAt? address = some native
    ↔ ∃ m ∈ s.methods, m.IsAt address ∧ m.native = native
  /-- Nothing is found exactly where there is no method. -/
  missing : ∀ address, s.methodAt? address = none ↔ ∀ m ∈ s.methods, ¬m.IsAt address
  /-- Bytes are read exactly where the code of one method covers them all, and
  they are those of its code. -/
  bytes : ∀ address size bytes, 0 < size → (s.read address size = .ok bytes
    ↔ ∃ m ∈ s.methods, m.Covers address.toNat size ∧ bytes = m.bytesAt address size)
  /-- Elsewhere a read fails because it would leave the code. -/
  outside : ∀ address size, 0 < size → (∀ m ∈ s.methods, ¬m.Covers address.toNat size) →
    s.read address size = .error .outOfBounds
  /-- As many bytes as a compiled method has, read where they start, are its
  code. -/
  whole : ∀ m ∈ s.methods, m.isCompiled = true →
    s.read m.hotStart m.hotSize.toNat = .ok m.code

/-- A snapshot whose methods lie apart answers as the runtime would, and the
order in which its methods were recorded changes no answer. -/
theorem answers_of_lieApart (hs : s.LieApart) :
    s.Answers ∧ ∀ s' : Snapshot, s'.methods.Perm s.methods → ∀ address,
      s'.methodAt? address = s.methodAt? address
        ∧ ∀ size, s'.read address size = s.read address size := by
  refine ⟨?_, fun s' hperm address =>
    ⟨methodAt?_of_perm hs hperm address, read_of_perm hs hperm address⟩⟩
  constructor
  case single =>
    intro i j m m' address hm hm' hat hat'
    exact position_of_isAt hs hm hm' hat hat'
  case found =>
    intro address native
    constructor
    · exact exists_of_methodAt?
    · rintro ⟨m, hm, hat, rfl⟩
      exact methodAt?_of_isAt hs hm hat
  case missing =>
    exact fun address => methodAt?_eq_none_iff
  case bytes =>
    intro address size bytes _
    constructor
    · exact exists_of_read hs
    · rintro ⟨m, hm, hcovers, rfl⟩
      exact read_of_covers hs hm hcovers
  case outside =>
    intro address size _ hnone
    cases hread : s.read address size with
    | ok bytes =>
      obtain ⟨m, hm, hcovers, -⟩ := exists_of_read hs hread
      exact absurd hcovers (hnone m hm)
    | error e =>
      rcases s.read_cases address size with ⟨-, -, bytes, -, -, hok⟩ | ⟨-, hfails⟩
      · rw [hread] at hok
        cases hok
      · rw [← hread, hfails]
  case whole =>
    intro m hm hcompiled
    have hwhole := hs.whole m hm hcompiled
    rw [read_of_covers hs hm ⟨hcompiled, Nat.le_refl _, Nat.le_refl _⟩,
      RecordedMethod.bytesAt_hotStart hwhole]

-- ========================================================== example

/-- Two methods side by side at the end of memory, the second of which starts
elsewhere, and one without code. -/
def sideBySide : Snapshot :=
  ⟨defaultInfo .x64,
    [⟨none, none, 0x1000, "System.Void C.M()", true, 0xfffffffffffffffe, 2, [0x90, 0xc3]⟩,
      .compiled "System.Void C.N()" 0xfffffffffffffffd [0xc3],
      .uncompiled "System.Void C.O()" 0x2000]⟩

theorem lieApart_sideBySide : sideBySide.LieApart where
  whole := by decide
  apart := by
    have hall : ∀ i j : Fin 3, i ≠ j →
        (sideBySide.methods[i]).Apart (sideBySide.methods[j]) := by
      intro i j hij
      refine RecordedMethod.apart_of_ordered ?_ ?_ ?_
      · revert i j
        decide
      · revert i j
        decide
      · revert i j
        decide
    intro i j m m' hij hm hm'
    obtain ⟨hi, rfl⟩ := List.getElem?_eq_some_iff.mp hm
    obtain ⟨hj, rfl⟩ := List.getElem?_eq_some_iff.mp hm'
    exact hall ⟨i, hi⟩ ⟨j, hj⟩ fun h => hij (congrArg Fin.val h)

/-- The last byte of memory belongs to the first method, which is found where
it starts as well, and the byte before its code to the second; no read goes
from the code of one to that of the other. -/
theorem answers_of_sideBySide : sideBySide.LieApart ∧ sideBySide.Answers
    ∧ sideBySide.methodAt? 0xffffffffffffffff
        = some ⟨"System.Void C.M()", true, 0xfffffffffffffffe, 2⟩
    ∧ sideBySide.methodAt? 0x1000 = some ⟨"System.Void C.M()", true, 0xfffffffffffffffe, 2⟩
    ∧ sideBySide.methodAt? 0xfffffffffffffffd
        = some ⟨"System.Void C.N()", true, 0xfffffffffffffffd, 1⟩
    ∧ sideBySide.read 0xfffffffffffffffe 2 = .ok [0x90, 0xc3]
    ∧ sideBySide.read 0xfffffffffffffffd 2 = .error .outOfBounds
    ∧ ∀ s' : Snapshot, s'.methods = sideBySide.methods.reverse → ∀ address,
        s'.methodAt? address = sideBySide.methodAt? address := by
  have hanswers := answers_of_lieApart lieApart_sideBySide
  refine ⟨lieApart_sideBySide, hanswers.1, by decide, by decide, by decide, ?_, by decide, ?_⟩
  · exact hanswers.1.whole _ List.mem_cons_self rfl
  · intro s' hs' address
    exact (hanswers.2 s' (hs' ▸ List.reverse_perm _) address).1

end Snapshot

end ClrListing.Native
