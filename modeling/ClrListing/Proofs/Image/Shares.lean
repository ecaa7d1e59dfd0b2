/-
How the types of an image share out its methods.

The table of types has one column for methods: the row of a type's first
one. A type lists the methods from there up to the first one of the next
type (`InShare`), never one before the first row or behind the last. Rows
are listed by several types where the column descends, and by none that
stand before the first number; what several list belongs to the last of
them (`SharesOut`). Where the column does not descend, lists are apart, and
there is no way past a row without a type that lists it (`exists_crossing`),
so that each method from the first number on is listed once (`SplitsUp`).
-/
import ClrListing.Proofs.Image.Owners

namespace ClrListing.Image

open Assembly Fallible Metadata

-- ============================================================== shares

/-- The first method of the type in a place. Behind all types stands what is
behind the last method. -/
def firstAt (methodCount : Nat) (firsts : List Nat) (i : Nat) : Nat :=
  firsts[i]?.getD (methodCount + 1)

/-- The rows that the type in a place lists. -/
def InShare (methodCount : Nat) (firsts : List Nat) (i row : Nat) : Prop :=
  max (firstAt methodCount firsts i) 1 ≤ row
    ∧ row < min (firstAt methodCount firsts (i + 1)) (methodCount + 1)

instance (methodCount : Nat) (firsts : List Nat) (i row : Nat) :
    Decidable (InShare methodCount firsts i row) :=
  inferInstanceAs (Decidable (_ ∧ _))

/-- What a module has of the first methods of its types. -/
structure SharesOut (a : Assembly) (firsts : List Nat) : Prop where
  /-- There is a type for each number. -/
  length : a.types.length = firsts.length
  numberedTypes : ∀ i (t : TypeDef), a.types[i]? = some t → t.token = .ofRow .typeDef (i + 1)
  /-- A type lists exactly the rows of its share. -/
  lists : ∀ i t, a.types[i]? = some t → ∀ method, method ∈ t.methods ↔
    ∃ row, InShare a.methods.length firsts i row ∧ method = .ofRow .methodDef row
  /-- It lists them in ascending order. -/
  ascending : ∀ t ∈ a.types, (t.methods.map Token.row).Pairwise (· < ·)
  numbered : ∀ i (m : MethodDef), a.methods[i]? = some m → m.token = .ofRow .methodDef (i + 1)
  /-- What is listed belongs to the last type that lists it. -/
  listed : ∀ m ∈ a.methods, (∃ t ∈ a.types, m.token ∈ t.methods) →
    ∃ t, IsLastHolder a.types m.token t ∧ m.declaringType = t.token
  unlisted : ∀ m ∈ a.methods, (∀ t ∈ a.types, m.token ∉ t.methods) → m.declaringType = .null

/-- No method is listed twice, and none behind the first number is left
out. -/
structure SplitsUp (a : Assembly) (firsts : List Nat) : Prop where
  apart : ∀ (i j : Nat) (t u : TypeDef), a.types[i]? = some t → a.types[j]? = some u → i ≠ j →
    t.methods.Disjoint u.methods
  /-- Exactly one type lists the method, and the method belongs to it. -/
  covered : ∀ k (m : MethodDef), a.methods[k]? = some m →
    firstAt a.methods.length firsts 0 ≤ k + 1 →
    ∃ (i : Nat) (t : TypeDef), a.types[i]? = some t ∧ m.token ∈ t.methods
      ∧ m.declaringType = t.token
      ∧ ∀ (j : Nat) (u : TypeDef), a.types[j]? = some u → m.token ∈ u.methods → j = i

-- =============================================================== lists

theorem mem_methodsOf {methodCount : Nat} {row : TypeDefRow} {next : Option TypeDefRow}
    {method : Token} : method ∈ methodsOf methodCount row next ↔
      ∃ k, (max row.methods 1 ≤ k
        ∧ k < min ((next.map TypeDefRow.methods).getD (methodCount + 1)) (methodCount + 1))
        ∧ method = .ofRow .methodDef k := by
  unfold methodsOf
  simp only [List.mem_map, List.mem_range'_1]
  constructor
  · rintro ⟨k, hk, rfl⟩
    exact ⟨k, by omega, rfl⟩
  · rintro ⟨k, hk, rfl⟩
    exact ⟨k, by omega, rfl⟩

theorem ascending_methodsOf {methodCount : Nat} (hfit : methodCount < Token.rowLimit)
    (row : TypeDefRow) (next : Option TypeDefRow) :
    ((methodsOf methodCount row next).map Token.row).Pairwise (· < ·) := by
  unfold methodsOf
  dsimp only
  rw [List.map_map, List.pairwise_map]
  refine List.Pairwise.imp_of_mem ?_ List.pairwise_lt_range'
  intro k l hk hl hlt
  rw [List.mem_range'_1] at hk hl
  show (Token.ofRow .methodDef k).row < (Token.ofRow .methodDef l).row
  rw [Token.row_ofRow (by omega), Token.row_ofRow (by omega)]
  exact hlt

/-- Between the first number and a row there is no way past that row. -/
theorem exists_crossing {methodCount : Nat} {firsts : List Nat} {row : Nat}
    (hfirst : firstAt methodCount firsts 0 ≤ row) (hrow : row ≤ methodCount) :
    ∃ i, i < firsts.length ∧ firstAt methodCount firsts i ≤ row
      ∧ row < firstAt methodCount firsts (i + 1) := by
  induction firsts with
  | nil =>
    simp only [firstAt, List.getElem?_nil, Option.getD_none] at hfirst
    omega
  | cons first rest ih =>
    by_cases hnext : firstAt methodCount rest 0 ≤ row
    · obtain ⟨i, hi, hle, hlt⟩ := ih hnext
      exact ⟨i + 1, Nat.succ_lt_succ hi, hle, hlt⟩
    · exact ⟨0, Nat.succ_pos _, hfirst, Nat.lt_of_not_le hnext⟩

namespace ReadFrom

variable {a : Assembly} {rows : List TypeDefRow}

/-- The numbers of the rows that a module is read from. -/
theorem firstAt_eq (methodCount i : Nat) :
    firstAt methodCount (rows.map TypeDefRow.methods) i
      = (rows[i]?.map TypeDefRow.methods).getD (methodCount + 1) := by
  rw [firstAt, List.getElem?_map]

theorem mem_methods (h : ReadFrom a rows) {i : Nat} {t : TypeDef} (ht : a.types[i]? = some t)
    (method : Token) : method ∈ t.methods ↔
      ∃ row, InShare a.methods.length (rows.map TypeDefRow.methods) i row
        ∧ method = .ofRow .methodDef row := by
  obtain ⟨row, hrow, -, hmethods⟩ := h.exists_row ht
  rw [hmethods, mem_methodsOf]
  simp only [InShare, firstAt_eq, hrow, Option.map_some, Option.getD_some]

theorem sharesOut (h : ReadFrom a rows) (hlength : a.types.length = rows.length)
    (hfit : a.methods.length < Token.rowLimit) : SharesOut a (rows.map TypeDefRow.methods) where
  length := hlength.trans (List.length_map _).symm
  numberedTypes _ _ ht := by
    obtain ⟨_, -, htoken, -⟩ := h.exists_row ht
    exact htoken
  lists _ _ ht := h.mem_methods ht
  ascending t ht := by
    obtain ⟨i, hi⟩ := List.mem_iff_getElem?.mp ht
    obtain ⟨row, -, -, hmethods⟩ := h.exists_row hi
    rw [hmethods]
    exact ascending_methodsOf hfit row _
  numbered i m hm := (h.methods i m hm).1
  listed m hm hlisted := by
    obtain ⟨i, hi⟩ := List.mem_iff_getElem?.mp hm
    obtain ⟨t, hlast, howner⟩ := exists_lastHolder hlisted
    exact ⟨t, hlast, (h.methods i m hi).2.trans howner⟩
  unlisted m hm hnone := by
    obtain ⟨i, hi⟩ := List.mem_iff_getElem?.mp hm
    rw [(h.methods i m hi).2, ownerOf, List.find?_eq_none.mpr]
    · rfl
    · intro t ht hholds
      exact hnone t (List.mem_reverse.mp ht) (List.contains_iff_mem.mp hholds)

/-- The place of a type that lists a method is the only one, if numbers do
not descend. -/
theorem place_eq (h : ReadFrom a rows) (hfit : a.methods.length < Token.rowLimit)
    (hascend : rows.Pairwise fun row next => row.methods ≤ next.methods) {i j : Nat}
    {t u : TypeDef} {method : Token} (ht : a.types[i]? = some t) (hu : a.types[j]? = some u)
    (hmethod : method ∈ t.methods) (hmethod' : method ∈ u.methods) : i = j := by
  have hle := h.not_both_hold hascend hfit hu ht hmethod' hmethod
  have hge := h.not_both_hold hascend hfit ht hu hmethod hmethod'
  omega

theorem splitsUp (h : ReadFrom a rows) (hlength : a.types.length = rows.length)
    (hfit : a.methods.length < Token.rowLimit)
    (hascend : rows.Pairwise fun row next => row.methods ≤ next.methods) :
    SplitsUp a (rows.map TypeDefRow.methods) where
  apart i j t u ht hu hne method hmethod hmethod' :=
    hne (h.place_eq hfit hascend ht hu hmethod hmethod')
  covered k m hm hfirst := by
    have hk : k < a.methods.length := (List.getElem?_eq_some_iff.mp hm).1
    obtain ⟨htoken, howner⟩ := h.methods k m hm
    -- the type whose number is the last one up to the row, before the next is past it
    obtain ⟨i, hi, hle, hlt⟩ := exists_crossing hfirst hk
    rw [List.length_map, ← hlength] at hi
    have ht : a.types[i]? = some a.types[i] := List.getElem?_eq_getElem hi
    have hlisted : m.token ∈ a.types[i].methods :=
      (h.mem_methods ht m.token).mpr ⟨k + 1, ⟨by omega, by omega⟩, htoken⟩
    have honly : ∀ j u, a.types[j]? = some u → m.token ∈ u.methods → j = i :=
      fun j u hu hmem => h.place_eq hfit hascend hu ht hmem hlisted
    obtain ⟨last, ⟨before, behind, htypes, hholds, -⟩, hlast⟩ :=
      exists_lastHolder ⟨_, List.mem_of_getElem? ht, hlisted⟩
    have hat : a.types[before.length]? = some last := by simp [htypes]
    rw [honly _ last hat hholds] at hat
    cases ht.symm.trans hat
    exact ⟨i, _, ht, hlisted, howner.trans hlast, honly⟩

end ReadFrom

-- ============================================================== modules

/-- The types of whatever is loaded share out its methods by the numbers in
their rows. They split them up if the numbers do not descend. -/
theorem sharesOut_of_load {name : String} {bytes : List UInt8} {a : Assembly}
    (h : (Run.outcome (load name bytes)).1 = .ok a) :
    ∃ x s rows methodRows, Executable.ofBytes bytes = .ok x ∧ Streams.ofImage x = .ok s
      ∧ s.rows TypeDefRow = .ok rows ∧ s.rows MethodDefRow = .ok methodRows
      ∧ a.methods.length = methodRows.length
      ∧ (methodRows.length < Token.rowLimit →
        SharesOut a (rows.map TypeDefRow.methods)
          ∧ ((rows.map TypeDefRow.methods).Pairwise (· ≤ ·) →
            SplitsUp a (rows.map TypeDefRow.methods))) := by
  obtain ⟨x, s, r, hx, hs, hr⟩ := exists_reading_of_load h
  refine ⟨x, s, r.typeRows, r.methodRows, hx, hs, hr.typeRows, hr.methodRows, hr.length_methods,
    fun hfit => ?_⟩
  rw [← hr.length_methods] at hfit
  refine ⟨hr.readFrom.sharesOut hr.length_types hfit, fun hascend => ?_⟩
  exact hr.readFrom.splitsUp hr.length_types hfit (List.pairwise_map.mp hascend)

/-- Of three classes the first lists the one method that there is, and the
others, whose numbers are past it, list none. -/
theorem sharesOut_of_threeClasses :
    ∃ a, (Run.outcome (load "Sample" (threeClasses 1 2 2))).1 = .ok a
      ∧ a.methods.length < Token.rowLimit ∧ SharesOut a [1, 2, 2] ∧ SplitsUp a [1, 2, 2] := by
  obtain ⟨a, x, s, rows, -, hload, hx, hs, hrows, -, hcheck⟩ :=
    of_resolvesIn (threeClasses 1 2 2)
      (fun a rows _ => decide (rows.map TypeDefRow.methods = [1, 2, 2])
        && decide (a.methods.length < Token.rowLimit))
      (by decide +kernel)
  rw [Bool.and_eq_true, decide_eq_true_eq, decide_eq_true_eq] at hcheck
  obtain ⟨hfirsts, hfit⟩ := hcheck
  obtain ⟨x', s', rows', methodRows, hx', hs', hrows', -, hlength, hshares⟩ :=
    sharesOut_of_load hload
  cases hx.symm.trans hx'
  cases hs.symm.trans hs'
  cases hrows.symm.trans hrows'
  obtain ⟨hout, hup⟩ := hshares (hlength ▸ hfit)
  rw [hfirsts] at hout hup
  exact ⟨a, hload, hfit, hout, hup (by decide)⟩

end ClrListing.Image
