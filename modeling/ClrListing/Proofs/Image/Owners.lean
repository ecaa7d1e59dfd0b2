/-
Which type a method of an image belongs to.

The table of types gives each type its first method, and so every type a
range of methods: those from its own first one up to the first one of the
next type (`holdings`). Nothing makes these numbers ascend, so that ranges
may overlap; a method that several types hold belongs to the last of them
(`IsLastHolder`). What is resolved against a module takes methods from the
range of the type that it found. So the two agree about a method unless a
type further on holds it, too, and agree about all methods if the first
methods ascend (`declaringType_of_resolved`).
-/
import ClrListing.Proofs.Binding.Requests
import ClrListing.Proofs.Binding.Rounds
import ClrListing.Proofs.Image.Reading
import ClrListing.Proofs.Metadata.Reads

namespace ClrListing.Image

open Assembly Binding Fallible Metadata

-- ============================================================= holdings

/-- What types hold, by their rows: each its range of methods. -/
def holdings (methodCount : Nat) : List TypeDefRow → List (Token × List Token)
  | [] => []
  | row :: rest =>
    (.ofRow .typeDef row.row, methodsOf methodCount row rest.head?) :: holdings methodCount rest

/-- What a type holds. -/
def holding (t : TypeDef) : Token × List Token := (t.token, t.methods)

theorem holdings_of_readTypes {s : Streams} {methodCount : Nat} {rows : List TypeDefRow}
    {types : List TypeDef} (h : readTypes s methodCount rows = .ok types) :
    types.map holding = holdings methodCount rows := by
  induction rows generalizing types with
  | nil =>
    cases h
    rfl
  | cons row rest ih =>
    unfold readTypes at h
    obtain ⟨type, htype, h⟩ := exists_of_bind_eq_ok h
    obtain ⟨others, hothers, h⟩ := exists_of_bind_eq_ok h
    cases h
    obtain ⟨htoken, hmethods, -⟩ := of_readType htype
    rw [List.map_cons, holdings, ih hothers, holding, htoken, hmethods]

theorem holdings_modify {f : TypeDef → TypeDef} (hf : ∀ t, holding (f t) = holding t)
    (types : List TypeDef) (i : Nat) : (types.modify i f).map holding = types.map holding := by
  induction types generalizing i with
  | nil => cases i <;> rfl
  | cons t rest ih =>
    cases i with
    | zero => rw [List.modify_zero_cons, List.map_cons, hf, List.map_cons]
    | succ i => rw [List.modify_succ_cons, List.map_cons, ih, List.map_cons]

/-- Linking types changes nothing about what they hold. -/
theorem holdings_of_linkAll {types linked : List TypeDef} {rows : List NestedClassRow}
    (h : linkAll types rows = .ok linked) : linked.map holding = types.map holding := by
  apply linkAll_induct (fun ts => ts.map holding = types.map holding) h rfl
  intro before row after hlink hbefore
  obtain ⟨-, rfl⟩ := of_linkNested hlink
  refine (holdings_modify ?_ _ _).trans ((holdings_modify ?_ _ _).trans hbefore)
  · exact fun _ => rfl
  · exact fun _ => rfl

-- ============================================================= modules

/-- What a module has of the rows that it is read from. -/
structure ReadFrom (a : Assembly) (rows : List TypeDefRow) : Prop where
  /-- Types are numbered by their places. -/
  numbered : ∀ i r, rows[i]? = some r → r.row = i + 1
  /-- Each type holds its range. -/
  holds : a.types.map holding = holdings a.methods.length rows
  /-- Methods are numbered by their places, and belong to the last type
  that holds them. -/
  methods : ∀ i (m : MethodDef), a.methods[i]? = some m →
    m.token = .ofRow .methodDef (i + 1) ∧ m.declaringType = ownerOf a.types m.token

theorem Reading.Gives.readFrom {r : Reading} {s : Streams} {a : Assembly} (h : r.Gives s a) :
    ReadFrom a r.typeRows where
  numbered := h.numberedTypeRows
  holds := by
    rw [h.length_methods, ← holdings_of_readTypes h.unlinked, ← holdings_of_linkAll h.linked,
      h.types, List.map_map]
    rfl
  methods i m hm := by
    obtain ⟨row, -, hnumber, hread⟩ := h.exists_methodRow hm
    obtain ⟨htoken, howner, -⟩ := of_readMethod hread
    exact ⟨hnumber ▸ htoken, howner⟩

theorem readFrom_of_load {name : String} {bytes : List UInt8} {a : Assembly}
    (h : (Run.outcome (load name bytes)).1 = .ok a) :
    ∃ x s rows, Executable.ofBytes bytes = .ok x ∧ Streams.ofImage x = .ok s
      ∧ s.rows TypeDefRow = .ok rows ∧ ReadFrom a rows := by
  obtain ⟨x, s, r, hx, hs, hr⟩ := exists_reading_of_load h
  exact ⟨x, s, r.typeRows, hx, hs, hr.typeRows, hr.readFrom⟩

-- ============================================================== owners

/-- Whether a type is the last one that holds a method. -/
def IsLastHolder (types : List TypeDef) (method : Token) (t : TypeDef) : Prop :=
  ∃ before behind, types = before ++ t :: behind ∧ method ∈ t.methods
    ∧ ∀ u ∈ behind, method ∉ u.methods

/-- A method that a type holds belongs to the last one that does. -/
theorem exists_lastHolder {types : List TypeDef} {method : Token}
    (h : ∃ t ∈ types, method ∈ t.methods) :
    ∃ t, IsLastHolder types method t ∧ ownerOf types method = t.token := by
  unfold ownerOf
  cases hfind : types.reverse.find? fun t => t.methods.contains method with
  | none =>
    obtain ⟨t, ht, hholds⟩ := h
    have hno := List.find?_eq_none.mp hfind t (List.mem_reverse.mpr ht)
    exact absurd (List.contains_iff_mem.mpr hholds) hno
  | some t =>
    obtain ⟨hholds, behind, before, hsplit, hno⟩ := List.find?_eq_some_iff_append.mp hfind
    refine ⟨t, ⟨before.reverse, behind.reverse, ?_, List.contains_iff_mem.mp hholds, ?_⟩, rfl⟩
    · have hreverse := congrArg List.reverse hsplit
      rw [List.reverse_reverse] at hreverse
      rw [hreverse]
      simp
    · intro u hu hmem
      have hlacks := hno u (List.mem_reverse.mp hu)
      rw [List.contains_iff_mem.mpr hmem] at hlacks
      cases hlacks

theorem holdings_getElem? (methodCount : Nat) (rows : List TypeDefRow) (i : Nat) :
    (holdings methodCount rows)[i]? = rows[i]?.map fun row =>
      (.ofRow .typeDef row.row, methodsOf methodCount row rows[i + 1]?) := by
  induction rows generalizing i with
  | nil => rfl
  | cons row rest ih =>
    cases i with
    | zero =>
      rw [holdings, List.head?_eq_getElem?]
      rfl
    | succ i => exact ih i

namespace ReadFrom

variable {a : Assembly} {rows : List TypeDefRow}

/-- The token and the methods of a type are those of its row. -/
theorem exists_row (h : ReadFrom a rows) {i : Nat} {t : TypeDef} (ht : a.types[i]? = some t) :
    ∃ row, rows[i]? = some row ∧ t.token = .ofRow .typeDef (i + 1)
      ∧ t.methods = methodsOf a.methods.length row rows[i + 1]? := by
  have hat := congrArg (fun hs => hs[i]?) h.holds
  rw [List.getElem?_map, ht, holdings_getElem?] at hat
  cases hrow : rows[i]? with
  | none =>
    rw [hrow] at hat
    cases hat
  | some row =>
    rw [hrow] at hat
    obtain ⟨htoken, hmethods⟩ := Prod.mk.inj (Option.some.inj hat)
    rw [h.numbered i row hrow] at htoken
    exact ⟨row, rfl, htoken, hmethods⟩

/-- Types and methods are numbered by their places, if tokens can number as
many. -/
theorem isNumbered (h : ReadFrom a rows) (htypes : a.types.length < Token.rowLimit)
    (hmethods : a.methods.length < Token.rowLimit) : a.Numbered where
  types i t ht := by
    obtain ⟨_, -, htoken, -⟩ := h.exists_row ht
    exact htoken
  methods i m hm := (h.methods i m hm).1
  typesFit := htypes
  methodsFit := hmethods

theorem exists_of_type? (h : ReadFrom a rows) {token : Token} {t : TypeDef}
    (ht : a.type? token = some t) : ∃ i : Nat, a.types[i]? = some t ∧ t.token = token := by
  unfold Assembly.type? at ht
  split at ht
  · next hin =>
    unfold atRow? at ht
    split at ht
    · cases ht
    · next hrow =>
      obtain ⟨_, -, htoken, -⟩ := h.exists_row ht
      rw [Nat.sub_add_cancel (Nat.one_le_iff_ne_zero.mpr hrow), Token.ofRow_row hin] at htoken
      exact ⟨_, ht, htoken⟩
  · cases ht

theorem token_of_method? (h : ReadFrom a rows) {token : Token} {m : MethodDef}
    (hm : a.method? token = some m) :
    m.token = token ∧ m.declaringType = ownerOf a.types token := by
  unfold Assembly.method? at hm
  split at hm
  · next hin =>
    unfold atRow? at hm
    split at hm
    · cases hm
    · next hrow =>
      obtain ⟨htoken, howner⟩ := h.methods _ m hm
      rw [Nat.sub_add_cancel (Nat.one_le_iff_ne_zero.mpr hrow), Token.ofRow_row hin] at htoken
      rw [htoken] at howner
      exact ⟨htoken, howner⟩
  · cases hm

/-- A method that is found under a name in a type is one that the type
holds. -/
theorem exists_of_mem_methodsNamed (h : ReadFrom a rows) {type token : Token} {name : String}
    (hmem : token ∈ a.methodsNamed type name) :
    ∃ t m, a.type? type = some t ∧ token ∈ t.methods ∧ a.method? token = some m := by
  unfold Assembly.methodsNamed Assembly.declaredMethods at hmem
  obtain ⟨m, hm, rfl⟩ := List.mem_map.mp hmem
  have hm := List.mem_of_mem_filter hm
  split at hm
  · next t ht =>
    obtain ⟨token, htoken, hm⟩ := List.mem_filterMap.mp hm
    rw [(h.token_of_method? hm).1]
    exact ⟨t, m, ht, htoken, hm⟩
  · cases hm

/-- In a module whose types have ascending first methods, no two types hold
one method. -/
theorem not_both_hold (h : ReadFrom a rows)
    (hascend : rows.Pairwise fun row next => row.methods ≤ next.methods)
    (hfit : a.methods.length < Token.rowLimit) {i j : Nat} {t u : TypeDef} {method : Token}
    (ht : a.types[i]? = some t) (hu : a.types[j]? = some u) (hmethod : method ∈ t.methods)
    (hmethod' : method ∈ u.methods) : ¬ i < j := by
  intro hlt
  obtain ⟨row, hrow, -, hheld⟩ := h.exists_row ht
  obtain ⟨row', hrow', -, hheld'⟩ := h.exists_row hu
  rw [hheld] at hmethod
  rw [hheld'] at hmethod'
  unfold methodsOf at hmethod hmethod'
  obtain ⟨k, hk, rfl⟩ := List.mem_map.mp hmethod
  obtain ⟨k', hk', heq⟩ := List.mem_map.mp hmethod'
  rw [List.mem_range'_1] at hk hk'
  -- the next row stands at `j` or before, so its first method is not behind that of `j`
  obtain ⟨hj, hrow'⟩ := List.getElem?_eq_some_iff.mp hrow'
  have hnext :
      (rows[i + 1]?.map TypeDefRow.methods).getD (a.methods.length + 1) ≤ row'.methods := by
    rw [List.getElem?_eq_getElem (by omega)]
    rcases Nat.lt_or_eq_of_le (Nat.succ_le_of_lt hlt) with hlt' | rfl
    · exact hrow' ▸ List.pairwise_iff_getElem.mp hascend _ _ _ _ hlt'
    · exact Nat.le_of_eq (congrArg TypeDefRow.methods hrow')
  have hsame : k' = k := Token.ofRow_inj (by omega) (by omega) heq
  omega

end ReadFrom

/-- Every module that is loaded is numbered by places, if tokens can number
as many types and methods. -/
theorem numbered_of_load {name : String} {bytes : List UInt8} {a : Assembly}
    (h : (Run.outcome (load name bytes)).1 = .ok a) (htypes : a.types.length < Token.rowLimit)
    (hmethods : a.methods.length < Token.rowLimit) : a.Numbered := by
  obtain ⟨_, _, rows, -, -, -, hread⟩ := readFrom_of_load h
  exact hread.isNumbered htypes hmethods

/-- Whatever is resolved against the module of an image, also after other
forests: each method that a declaration takes is one that the type around
the declaration holds, and it belongs to the last type that holds it. Where
the first methods of types ascend, that is the type around the
declaration. -/
theorem declaringType_of_resolved {name : String} {bytes : List UInt8} {a : Assembly}
    (hload : (Run.outcome (load name bytes)).1 = .ok a) {log : Log}
    {earlier : List (List Declaration)} {forest : List Declaration} {members : List ResolvedMember}
    (hresolve : (Run.upshot (runRounds a ⟨.start, log⟩ earlier)
      (Resolver.resolve a forest)).1 = .ok members) :
    ∃ x s rows, Executable.ofBytes bytes = .ok x ∧ Streams.ofImage x = .ok s
      ∧ s.rows TypeDefRow = .ok rows
      ∧ ∀ g ∈ grantsOf forest members, ∃ t m last,
        a.type? g.owner = some t ∧ g.token ∈ t.methods
          ∧ a.method? g.token = some m ∧ m.declaringType = last.token
          ∧ IsLastHolder a.types g.token last
          ∧ (rows.Pairwise (fun row next => row.methods ≤ next.methods) →
            a.methods.length < Token.rowLimit → m.declaringType = g.owner) := by
  obtain ⟨x, s, rows, hx, hs, hrows, hread⟩ := readFrom_of_load hload
  refine ⟨x, s, rows, hx, hs, hrows, fun g hg => ?_⟩
  -- what was taken is among the methods of its name in the type
  have hnamed : g.token ∈ a.methodsNamed g.owner g.name := by
    have hbefore := rounds_account (a := a) earlier ⟨.start, log⟩ accounts_start
    have haccount := serve_accounts hbefore (visits a forest) g.owner g.name
    rw [haccount, ← (round_answers hresolve).2]
    exact List.mem_append_left _ (token_mem_handed (List.mem_append_right _ hg))
  obtain ⟨t, m, ht, hheld, hm⟩ := hread.exists_of_mem_methodsNamed hnamed
  obtain ⟨i, hi, htoken⟩ := hread.exists_of_type? ht
  obtain ⟨last, hlast, howner⟩ := exists_lastHolder ⟨t, List.mem_of_getElem? hi, hheld⟩
  obtain ⟨-, hdeclaring⟩ := hread.token_of_method? hm
  refine ⟨t, m, last, ht, hheld, hm, hdeclaring.trans howner, hlast, fun hascend hfit => ?_⟩
  obtain ⟨before, behind, htypes, hheld', -⟩ := hlast
  have hj : a.types[before.length]? = some last := by
    rw [htypes, List.getElem?_append_right (Nat.le_refl _), Nat.sub_self]
    rfl
  have hle := hread.not_both_hold hascend hfit hi hj hheld hheld'
  have hge := hread.not_both_hold hascend hfit hj hi hheld' hheld
  obtain rfl : i = before.length := by omega
  cases hi.symm.trans hj
  rw [hdeclaring, howner, htoken]

-- ======================================================== small images

section Small

/-- Bytes of zero. -/
def zeros (count : Nat) : List UInt8 := List.replicate count 0

/-- The headers of an image of one section, at the address 0x2000, which
has 260 bytes and starts with the managed part. -/
def smallHeaders : List UInt8 :=
  [0x4d, 0x5a] ++ zeros 58 ++ littleEndianBytes 4 0x80 ++ zeros 64
    -- the kind of machine, one section, and the size of what follows
    ++ littleEndianBytes 4 0x4550 ++ littleEndianBytes 2 0x14c ++ littleEndianBytes 2 1 ++ zeros 12
    ++ littleEndianBytes 2 224 ++ littleEndianBytes 2 0x2102
    -- the optional headers, with the alignments and the sizes of stacks
    ++ littleEndianBytes 2 0x10b ++ [8, 0] ++ zeros 16 ++ littleEndianBytes 4 0x2000 ++ zeros 4
    ++ littleEndianBytes 4 0x10000000 ++ littleEndianBytes 4 0x2000 ++ littleEndianBytes 4 0x200
    ++ littleEndianBytes 4 4 ++ zeros 4 ++ littleEndianBytes 4 4 ++ zeros 4
    ++ littleEndianBytes 4 0x4000 ++ littleEndianBytes 4 0x200 ++ zeros 4 ++ [3, 0, 0x40, 0x85]
    ++ littleEndianBytes 4 0x100000 ++ littleEndianBytes 4 0x1000
    ++ littleEndianBytes 4 0x100000 ++ littleEndianBytes 4 0x1000 ++ zeros 4
    -- sixteen directories, of which only the managed part is there
    ++ littleEndianBytes 4 16 ++ zeros 112 ++ littleEndianBytes 4 0x2000 ++ littleEndianBytes 4 72
    ++ zeros 8
    ++ ".text".toUTF8.toList ++ zeros 3 ++ littleEndianBytes 4 260 ++ littleEndianBytes 4 0x2000
    ++ littleEndianBytes 4 260 ++ littleEndianBytes 4 0x200 ++ zeros 12
    ++ littleEndianBytes 4 0x60000020 ++ zeros 96

/-- A class without base or members other than methods. -/
def classRow (name first : Nat) : List UInt8 :=
  littleEndianBytes 4 0x100000 ++ littleEndianBytes 2 name ++ zeros 4 ++ littleEndianBytes 2 1
    ++ littleEndianBytes 2 first

/-- An image with the classes `C`, `E` and `D`, whose first methods are
given, and one method `M` that takes and gives nothing. -/
def threeClasses (c e d : Nat) : List UInt8 :=
  smallHeaders
    ++ littleEndianBytes 4 72 ++ [2, 0, 5, 0] ++ littleEndianBytes 4 0x2048
    ++ littleEndianBytes 4 188 ++ littleEndianBytes 4 1 ++ zeros 52
    -- the directory of streams
    ++ littleEndianBytes 4 0x424a5342 ++ [1, 0, 1, 0] ++ zeros 4 ++ littleEndianBytes 4 12
    ++ "v4.0.30319".toUTF8.toList ++ zeros 4 ++ littleEndianBytes 2 3
    ++ littleEndianBytes 4 80 ++ littleEndianBytes 4 88 ++ "#~".toUTF8.toList ++ zeros 2
    ++ littleEndianBytes 4 168 ++ littleEndianBytes 4 12 ++ "#Strings".toUTF8.toList ++ zeros 4
    ++ littleEndianBytes 4 180 ++ littleEndianBytes 4 8 ++ "#Blob".toUTF8.toList ++ zeros 3
    -- three types and a method
    ++ zeros 4 ++ [2, 0, 0, 1] ++ littleEndianBytes 8 0x44 ++ zeros 8
    ++ littleEndianBytes 4 3 ++ littleEndianBytes 4 1
    ++ classRow 1 c ++ classRow 3 e ++ classRow 5 d
    ++ littleEndianBytes 4 0x2050 ++ littleEndianBytes 2 0 ++ littleEndianBytes 2 0x86
    ++ littleEndianBytes 2 7 ++ littleEndianBytes 2 1 ++ littleEndianBytes 2 1
    ++ [0, 0x43, 0, 0x45, 0, 0x44, 0, 0x4d, 0, 0, 0, 0] ++ [0, 3, 0x20, 0, 1, 0, 0, 0]

/-- The declaration of the class `C` with its method. -/
def classC : Declaration :=
  ⟨.type "" "C" 0, default, [.leaf (.method "M" 0 none false 0) default]⟩

/-- Whether an image is loaded, `C` is resolved, and a condition on the
module, on the rows of its types and on what is taken holds. -/
def resolvesIn (bytes : List UInt8)
    (check : Assembly → List TypeDefRow → List Grant → Bool) : Bool :=
  match (Run.outcome (load "Sample" bytes)).1,
    (do (← Streams.ofImage (← Executable.ofBytes bytes)).rows TypeDefRow :
      Except Error (List TypeDefRow)) with
  | .ok a, .ok rows =>
    match (Run.upshot ⟨.start, []⟩ (Resolver.resolve a [classC])).1 with
    | .ok members => check a rows (grantsOf [classC] members)
    | .error _ => false
  | _, _ => false

theorem of_resolvesIn (bytes : List UInt8) (check : Assembly → List TypeDefRow → List Grant → Bool)
    (h : resolvesIn bytes check) :
    ∃ a x s rows members, (Run.outcome (load "Sample" bytes)).1 = .ok a
      ∧ Executable.ofBytes bytes = .ok x ∧ Streams.ofImage x = .ok s
      ∧ s.rows TypeDefRow = .ok rows
      ∧ (Run.upshot ⟨.start, []⟩ (Resolver.resolve a [classC])).1 = .ok members
      ∧ check a rows (grantsOf [classC] members) := by
  unfold resolvesIn at h
  split at h
  · next a rows hload hread =>
    split at h
    · next members hmembers =>
      obtain ⟨x, hx, hread⟩ := exists_of_bind_eq_ok hread
      obtain ⟨s, hs, hrows⟩ := exists_of_bind_eq_ok hread
      exact ⟨a, x, s, rows, members, hload, hx, hs, hrows, hmembers, h⟩
    · cases h
  · cases h

/-- `C` alone holds the method, which belongs to it. -/
theorem declaringType_of_ascending :
    ∃ a members, (Run.outcome (load "Sample" (threeClasses 1 2 2))).1 = .ok a
      ∧ (Run.upshot ⟨.start, []⟩ (Resolver.resolve a [classC])).1 = .ok members
      ∧ ∃ g ∈ grantsOf [classC] members, ∃ m, a.method? g.token = some m
        ∧ m.declaringType = g.owner := by
  obtain ⟨a, x, s, rows, members, hload, hx, hs, hrows, hmembers, hcheck⟩ :=
    of_resolvesIn (threeClasses 1 2 2)
      (fun a rows grants =>
        decide (rows.Pairwise fun (row next : TypeDefRow) => row.methods ≤ next.methods)
          && decide (a.methods.length < Token.rowLimit) && decide (grants ≠ []))
      (by decide +kernel)
  rw [Bool.and_eq_true, Bool.and_eq_true, decide_eq_true_eq, decide_eq_true_eq,
    decide_eq_true_eq] at hcheck
  obtain ⟨⟨hascend, hfit⟩, hsome⟩ := hcheck
  obtain ⟨g, hg⟩ := List.exists_mem_of_ne_nil _ hsome
  have hresolve : (Run.upshot (runRounds a ⟨.start, []⟩ []) (Resolver.resolve a [classC])).1
      = .ok members := hmembers
  obtain ⟨x', s', rows', hx', hs', hrows', hall⟩ := declaringType_of_resolved hload hresolve
  -- the rows of the theorem are those that were looked at
  cases hx.symm.trans hx'
  cases hs.symm.trans hs'
  cases hrows.symm.trans hrows'
  obtain ⟨-, m, -, -, -, hm, -, -, howner⟩ := hall g hg
  exact ⟨a, members, hload, hmembers, g, hg, m, hm, howner hascend hfit⟩

/-- Both `C` and `D` hold the method: it is taken for a declaration in `C`,
and belongs to `D`. -/
theorem declaringType_of_overlap :
    ∃ a members, (Run.outcome (load "Sample" (threeClasses 1 2 1))).1 = .ok a
      ∧ (Run.upshot ⟨.start, []⟩ (Resolver.resolve a [classC])).1 = .ok members
      ∧ ∃ g ∈ grantsOf [classC] members, ∃ m, a.method? g.token = some m
        ∧ m.declaringType ≠ g.owner := by
  obtain ⟨a, _, _, _, members, hload, -, -, -, hmembers, hcheck⟩ :=
    of_resolvesIn (threeClasses 1 2 1)
      (fun a _ grants => grants.any fun g =>
        (a.method? g.token).any fun m => decide (m.declaringType ≠ g.owner))
      (by decide +kernel)
  obtain ⟨g, hg, hmethod⟩ := List.any_eq_true.mp hcheck
  obtain ⟨m, hm, hne⟩ := (Option.any_eq_true _ _).mp hmethod
  exact ⟨a, members, hload, hmembers, g, hg, m, hm, of_decide_eq_true hne⟩

end Small

end ClrListing.Image
