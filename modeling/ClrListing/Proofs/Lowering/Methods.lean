/-
The methods of a compiled module.

`MethodTable` says it in full: which methods there are and in which rows of
types, in the order of the members of the file, with the constructors that
the compiler adds behind them; which of them have bodies, and where these
lie; that no two methods of a type have one key; and that no class that is
not static is without a constructor.

A type is known by its row. Rows tell types apart however many there are,
tokens only as long as there are not too many types; then the keys of the
methods are different also with tokens for types (`MethodTable.keysApart`),
and the rows of different paths are different (`MethodTable.rowsApart`).

The two halves of the table meet in the marks of the records. A constructor
is added where the mark of its sort is missing, so a member that declares
one has to leave its mark, whichever part of the type it stands in
(`done_marks_iff`).
-/
import ClrListing.Proofs.Lowering.Bodies
import ClrListing.Proofs.Lowering.Pushes

namespace ClrListing.Lowering

open Assembly Metadata Source Syntax

-- ==================================================== compiled members

/-- The methods that are compiled at a stop, each with the path of its
type. -/
def Stop.compiled : Stop → List (TypePath × Compiled)
  | .type _ _ => []
  | .work b w => (w.compiled b.surroundings).map fun c => (b.path, c)

/-- The methods that the members of a file are compiled to, in order, each
with the path of its type. -/
def compiledIn (unit : CompilationUnit) : List (TypePath × Compiled) :=
  (walk unit).flatMap Stop.compiled

/-- Whether there is no complaint about what is done at a stop. -/
def Stop.Uncontested : Stop → Prop
  | .type _ _ => True
  | .work b w => Lowering.Uncontested (w.effects b.surroundings)

variable {setting : Setting} {module : String} {deeds : List Deed} {e : Emission}
variable {stops : List Stop}

/-- What is declared on a walk is what is compiled at its stops. -/
theorem declares_deeds (h : ∀ stop ∈ stops, stop.Uncontested) :
    declares (stops.flatMap Stop.deeds)
      = (stops.flatMap Stop.compiled).map fun x => (x.1, x.2.declared) := by
  induction stops with
  | nil => rfl
  | cons stop rest ih =>
    rw [List.flatMap_cons, List.flatMap_cons, declares_append, List.map_append,
      ih fun stop hstop => h stop (List.mem_cons_of_mem _ hstop)]
    congr 1
    cases stop with
    | type path decl => rfl
    | work b w =>
      have hbodies := bodiesBy_effects (h _ List.mem_cons_self)
      have hdeclares : ∀ effects : List Effect, declares (effects.map (.effect b.path))
          = (bodiesBy effects).map fun x => (b.path, x) := by
        intro effects
        unfold declares bodiesBy
        rw [List.filterMap_map, List.map_filterMap]
        refine List.filterMap_congr fun effect _ => ?_
        cases effect <;> rfl
      rw [Stop.deeds, hdeclares, hbodies, Stop.compiled, List.map_map, List.map_map]
      rfl

/-- No error has been complained about on the way to where a compilation
gets. -/
theorem Reaches.no_error (h : Reaches setting module deeds e) :
    ∀ path d span, Deed.effect path (.complain d span) ∈ deeds → d.severity ≠ .error := by
  induction h with
  | start => exact fun _ _ _ hd => (List.not_mem_nil hd).elim
  | enter _ _ _ ih =>
    intro path d span hd
    rcases List.mem_append.mp hd with hd | hd
    · exact ih path d span hd
    · cases List.mem_singleton.mp hd
  | @effect deeds e path record token s effect _ _ hclean ih =>
    intro path' d span hd
    rcases List.mem_append.mp hd with hd | hd
    · exact ih path' d span hd
    · cases List.mem_singleton.mp hd
      intro herror
      have hcomplains := hasErrors_of_error setting e span herror
      rw [show Emission.apply setting s record token e (.complain d span)
        = e.complain setting d span from rfl, hcomplains] at hclean
      cases hclean

/-- Then there are no complaints at all. -/
theorem uncontested_of_reaches (h : Reaches setting module (stops.flatMap Stop.deeds) e) :
    ∀ stop ∈ stops, stop.Uncontested := by
  intro stop hstop
  cases stop with
  | type path decl => trivial
  | work b w =>
    intro d span hd
    have hdeed : Deed.effect b.path (.complain d span) ∈ stops.flatMap Stop.deeds :=
      List.mem_flatMap.mpr ⟨_, hstop, List.mem_map_of_mem hd⟩
    exact h.no_error b.path d span hdeed (onlyErrors_effects w d span hd)

/-- A type has the mark of a constructor if and only if one of its members
is compiled to it. -/
theorem done_marks_iff {types : List DeclaredType} (htypes : TypesNamed types)
    (hnamed : ∀ stop ∈ stops, stop.Named types) (hfree : ∀ stop ∈ stops, stop.Uncontested)
    {mark : Mark} {name : String} (hname : mark.constructorName = some name) (i : Nat) :
    Done e (stops.flatMap Stop.deeds) i (Deed.Marks mark)
      ↔ ∃ x ∈ stops.flatMap Stop.compiled,
          recordAt? e x.1 = some i ∧ x.2.method.name = name := by
  have hwork : ∀ b w, Stop.work b w ∈ stops →
      (Effect.mark mark ∈ w.effects b.surroundings
        ↔ ∃ c ∈ w.compiled b.surroundings, c.method.name = name) := by
    intro b w hstop
    rw [announces_effects htypes (hnamed _ hstop) (hfree _ hstop) mark name hname,
      bodiesBy_effects (hfree _ hstop)]
    simp only [List.mem_map, exists_exists_and_eq_and]
    rfl
  constructor
  · rintro ⟨d, hd, hi, hmarks⟩
    obtain ⟨stop, hstop, hin⟩ := List.mem_flatMap.mp hd
    cases stop with
    | type path decl =>
      rw [List.mem_singleton.mp hin] at hmarks
      exact hmarks.elim
    | work b w =>
      obtain ⟨effect, heffect, rfl⟩ := List.mem_map.mp hin
      have hmarked : effect = .mark mark := hmarks
      obtain ⟨c, hc, hcname⟩ := (hwork b w hstop).mp (hmarked ▸ heffect)
      exact ⟨(b.path, c), List.mem_flatMap.mpr ⟨_, hstop, List.mem_map_of_mem hc⟩, hi, hcname⟩
  · rintro ⟨x, hx, hi, hxname⟩
    obtain ⟨stop, hstop, hin⟩ := List.mem_flatMap.mp hx
    cases stop with
    | type path decl => exact (List.not_mem_nil hin).elim
    | work b w =>
      obtain ⟨c, hc, rfl⟩ := List.mem_map.mp hin
      have hmark := (hwork b w hstop).mpr ⟨c, hc, hxname⟩
      exact ⟨.effect b.path (.mark mark), List.mem_flatMap.mpr
        ⟨_, hstop, List.mem_map_of_mem hmark⟩, hi, rfl⟩

-- =============================================================== keys

/-- A method that is added lacks its mark in the record of its type. -/
structure IsAddition (rs : List TypeRecord) (p : Push) : Prop where
  hasBody : p.hasBody = true
  plain : ∃ (i : Nat) (r : TypeRecord) (mark : Mark), rs[i]? = some r ∧ p.row = i + 1
    ∧ mark.constructorName = some p.method.name ∧ r.isMarked mark = false

/-- Whatever is added lacks its mark. -/
theorem isAddition_of_mem {rs : List TypeRecord} {p : Push} (hp : p ∈ additionsFrom 1 rs) :
    IsAddition rs p := by
  obtain ⟨i, r, hr, hp⟩ := mem_additionsFrom.mp hp
  rw [Nat.add_comm 1 i] at hp
  rcases mem_additionsTo.mp hp with ⟨hneeds, rfl⟩ | ⟨hneeds, rfl⟩
  · refine ⟨rfl, i, r, .instanceConstructor, hr, rfl, rfl, ?_⟩
    unfold Emission.needsConstructor at hneeds
    rw [Bool.and_eq_true, Bool.not_eq_true'] at hneeds
    exact hneeds.2
  · refine ⟨rfl, i, r, .typeConstructor, hr, rfl, rfl, ?_⟩
    unfold Emission.needsTypeConstructor at hneeds
    rw [Bool.and_eq_true, Bool.not_eq_true'] at hneeds
    exact hneeds.2

-- ======================================================= method tables

/-- A compiled method in the row of its type. -/
structure Placed where
  row : Nat
  compiled : Compiled

/-- The push that adds a method. -/
def Placed.push (x : Placed) : Push := ⟨x.row, x.compiled.method, x.compiled.origin.isSome⟩

/-- The methods of the members of a file, each in the row of its type. -/
def placedIn (unit : CompilationUnit) (row : TypePath → Nat) : List Placed :=
  (compiledIn unit).map fun x => ⟨row x.1, x.2⟩

/-- The methods of a module are those of a file and the constructors that
are added. -/
structure MethodTable (unit : CompilationUnit) (a : Assembly) (row : TypePath → Nat)
    (added : List Placed) : Prop where
  /-- Every declared type has its row. -/
  types : ∀ d ∈ declarations unit, ∃ t, a.types[row d.1]? = some t
    ∧ t.token = .ofRow .typeDef (row d.1 + 1)
    ∧ keyOfRow t
      = ⟨d.1.outer.map fun q => .ofRow .typeDef (row q + 1), d.1.space, d.1.name⟩
  /-- Every row but the module's own is that of a declared type. -/
  declared : ∀ i, 0 < i → i < a.types.length → ∃ d ∈ declarations unit, row d.1 = i
  /-- Different paths have different rows if tokens can tell these apart. -/
  rowsApart : a.types.length < Token.rowLimit → ∀ d ∈ declarations unit,
    ∀ d' ∈ declarations unit, row d.1 = row d'.1 → d.1 = d'.1
  /-- There are the methods of the members and the added ones behind them,
  each in its type, and those have an address that have a body. -/
  methods : List.Forall₂ IsPushed ((placedIn unit row ++ added).map Placed.push) a.methods
  /-- Methods are numbered by their places. -/
  tokens : ∀ (i : Nat) (m : MethodDef), a.methods[i]? = some m →
    m.token = .ofRow .methodDef (i + 1)
  /-- What is added has a body that is added, and is a constructor of a
  sort that no member of the type is. -/
  additions : ∀ x ∈ added, x.compiled.origin = some .added
    ∧ NamesConstructor x.compiled.method.name
    ∧ ∀ y ∈ placedIn unit row, y.row = x.row → y.compiled.method.name ≠ x.compiled.method.name
  /-- No two methods in one row have one key. -/
  distinct : (((placedIn unit row ++ added).map Placed.row).zip (a.methods.map keyOfMethod)).Nodup
  /-- So it is with tokens for types, if these can tell types apart. -/
  keysApart : a.types.length < Token.rowLimit → (a.methods.map keyOfMethod).Nodup
  /-- A class no part of which is static has a constructor of instances. -/
  constructed : ∀ d ∈ declarations unit, d.2.kind = .classType →
    (∀ d' ∈ declarations unit, row d'.1 = row d.1 → d'.2.modifiers.has .isStatic = false) →
    ∃ x m, (x, m) ∈ (placedIn unit row ++ added).zip a.methods
      ∧ x.row = row d.1 ∧ m.name = ".ctor"
  /-- The addresses of bodies ascend with the tokens. -/
  ascending : ∀ m ∈ a.methods, ∀ m' ∈ a.methods, m.token.row < m'.token.row →
    m.bodyAddress ≠ 0 → m'.bodyAddress ≠ 0 → m.bodyAddress < m'.bodyAddress
  /-- They fit a word. -/
  word : ∀ m ∈ a.methods, m.bodyAddress < 0x100000000

-- ==================================================== the emitted tables

/-- The type around a type has a record. -/
theorem exists_record_of_outer {path outer : TypePath} {i : Nat}
    (hfound : recordAt? e path = some i) (houter : path.outer = some outer) :
    ∃ j, recordAt? e outer = some j ∧ j < e.types.length := by
  cases path with
  | top space name => cases houter
  | inner around name =>
    cases houter
    rw [recordAt?] at hfound
    obtain ⟨r, hr, -⟩ := Option.bind_eq_some_iff.mp hfound
    obtain ⟨j, hj, hget⟩ := Option.bind_eq_some_iff.mp hr
    exact ⟨j, hj, (List.getElem?_eq_some_iff.mp hget).1⟩

/-- Paths with one record have the same parts. -/
theorem Ranked.parts_eq (h : Ranked e) {path other : TypePath} {i : Nat}
    (hp : recordAt? e path = some i) (hq : recordAt? e other = some i) :
    path.outer.map (fun q => Token.ofRow .typeDef (rowAt e q + 1))
        = other.outer.map (fun q => Token.ofRow .typeDef (rowAt e q + 1))
      ∧ path.space = other.space ∧ path.name = other.name := by
  obtain ⟨r, hr, hkey⟩ := h.key_of_recordAt? hp
  obtain ⟨r', hr', hkey'⟩ := h.key_of_recordAt? hq
  obtain rfl := Option.some.inj (hr.symm.trans hr')
  exact TypeKey.mk.inj (hkey.symm.trans hkey')

/-- Paths have records of their own as long as tokens tell these apart. -/
theorem Ranked.path_eq (h : Ranked e) (hfits : e.types.length + 1 < Token.rowLimit)
    {path other : TypePath} {i : Nat} (hp : recordAt? e path = some i)
    (hq : recordAt? e other = some i) : path = other := by
  induction path generalizing other i with
  | top space name =>
    obtain ⟨houter, hspace, hname⟩ := h.parts_eq hp hq
    exact TypePath.ext_of_parts (Option.map_eq_none_iff.mp houter.symm).symm hspace hname
  | inner around name ih =>
    obtain ⟨houter, hspace, hname⟩ := h.parts_eq hp hq
    obtain ⟨around', haround', htoken⟩ := Option.map_eq_some_iff.mp houter.symm
    obtain ⟨j, hj, hlt⟩ := exists_record_of_outer hp rfl
    obtain ⟨j', hj', hlt'⟩ := exists_record_of_outer hq haround'
    change Token.ofRow .typeDef (rowAt e around' + 1)
      = Token.ofRow .typeDef (rowAt e around + 1) at htoken
    rw [rowAt_of_recordAt? hj, rowAt_of_recordAt? hj'] at htoken
    have hrow := Token.ofRow_inj (by omega) (by omega) htoken
    obtain rfl : j' = j := by omega
    exact TypePath.ext_of_parts (haround'.trans (congrArg some (ih hj hj').symm)).symm hspace hname

/-- The deeds of a file. -/
def deedsOf (unit : CompilationUnit) : List Deed := (walk unit).flatMap Stop.deeds

/-- The constructors that are added for records. -/
def addedTo (rs : List TypeRecord) : List Placed :=
  (additionsFrom 1 rs).map fun p => ⟨p.row, ⟨p.method, some .added⟩⟩

theorem push_addedTo (rs : List TypeRecord) : (addedTo rs).map Placed.push = additionsFrom 1 rs := by
  unfold addedTo
  rw [List.map_map]
  refine (List.map_congr_left fun p hp => ?_).trans (List.map_id _)
  have hbody := (isAddition_of_mem hp).hasBody
  obtain ⟨row, m, hasBody⟩ := p
  cases hbody
  rfl

/-- The keys of methods are those under which they were added. -/
theorem keys_of_isPushed {pushes : List Push} {ms : List MethodDef}
    (h : List.Forall₂ IsPushed pushes ms) :
    ms.map keyOfMethod = pushes.map fun p => (Push.key p).2 := by
  induction h with
  | nil => rfl
  | cons hone _ ih => rw [List.map_cons, List.map_cons, hone.key_eq, ih]; rfl

/-- Each method that is added is found beside the row it is pushed as. -/
theorem exists_mem_zip {xs : List Placed} {ms : List MethodDef}
    (h : List.Forall₂ IsPushed (xs.map Placed.push) ms) {x : Placed} (hx : x ∈ xs) :
    ∃ m, (x, m) ∈ xs.zip ms ∧ IsPushed x.push m := by
  induction xs generalizing ms with
  | nil => cases hx
  | cons y rest ih =>
    cases h with
    | @cons _ m _ ms hone hrest =>
      rcases List.mem_cons.mp hx with rfl | hx
      · exact ⟨m, List.mem_cons_self, hone⟩
      · obtain ⟨m', hm', hpushed⟩ := ih hrest hx
        exact ⟨m', List.mem_cons_of_mem _ hm', hpushed⟩

section Emitted

variable {unit : CompilationUnit}

theorem mem_declarations_iff (hw : unit.WellNamed) {path : TypePath} {decl : TypeDecl} :
    (path, decl) ∈ declarations unit ↔ Deed.enter path decl ∈ deedsOf unit := by
  rw [← openings_walk hw, ← entries_deeds]
  exact mem_entries_iff

variable (h : Reaches setting module (deedsOf unit) e)
include h

/-- The pushes of a file are those of its members. -/
theorem pushesOf_deedsOf : pushesOf e (deedsOf unit) = (placedIn unit (rowAt e)).map Placed.push := by
  unfold pushesOf deedsOf placedIn
  rw [declares_deeds (uncontested_of_reaches h), List.map_map, List.map_map]
  rfl

theorem filled_of_reaches : Filled ((placedIn unit (rowAt e)).map Placed.push) e := by
  rw [← pushesOf_deedsOf h]
  refine h.filled fun x hx => ?_
  unfold deedsOf at hx
  rw [declares_deeds (uncontested_of_reaches h)] at hx
  obtain ⟨y, hy, rfl⟩ := List.mem_map.mp hx
  obtain ⟨stop, -, hin⟩ := List.mem_flatMap.mp hy
  cases stop with
  | type path decl => exact (List.not_mem_nil hin).elim
  | work b w =>
    obtain ⟨c, hc, rfl⟩ := List.mem_map.mp hin
    exact bodyAddress_compiled w c hc

/-- A method of a member stands in the row of a record. -/
theorem exists_record_of_placed {x : Placed} (hx : x ∈ placedIn unit (rowAt e)) :
    ∃ (i : Nat) (r : TypeRecord), e.types[i]? = some r ∧ x.row = i + 1
      ∧ ∃ y ∈ compiledIn unit, recordAt? e y.1 = some i ∧ y.2 = x.compiled := by
  obtain ⟨y, hy, rfl⟩ := List.mem_map.mp hx
  have hdeclared : (y.1, y.2.declared) ∈ declares (deedsOf unit) := by
    unfold deedsOf
    rw [declares_deeds (uncontested_of_reaches h)]
    exact List.mem_map_of_mem hy
  obtain ⟨span, hd⟩ := exists_deed_of_mem_declares hdeclared
  obtain ⟨record, token, hat⟩ := h.sited _ hd
  obtain ⟨r, hr, -⟩ := hat.holds
  exact ⟨record, r, hr, rowAt_of_recordAt? hat.found, y, hy, hat.found, rfl⟩

/-- A declared type has a record. -/
theorem exists_record_of_declared (hw : unit.WellNamed) {d : TypePath × TypeDecl}
    (hd : d ∈ declarations unit) :
    ∃ (i : Nat) (r : TypeRecord), e.types[i]? = some r ∧ recordAt? e d.1 = some i
      ∧ r.kind = d.2.kind := by
  have hdeed := (mem_declarations_iff hw).mp hd
  obtain ⟨record, token, hat⟩ := h.sited _ hdeed
  obtain ⟨r, hr, -⟩ := hat.holds
  exact ⟨record, r, hr, hat.found,
    ((h.summed record r hr).kind d.2.kind).mp ⟨_, hdeed, hat.found, rfl⟩⟩

/-- A record is that of a declared type. -/
theorem exists_declared_of_record (hw : unit.WellNamed) {i : Nat} {r : TypeRecord}
    (hr : e.types[i]? = some r) : ∃ d ∈ declarations unit, rowAt e d.1 = i + 1 := by
  obtain ⟨deed, hdeed, hi, hkind⟩ := ((h.summed i r hr).kind r.kind).mpr rfl
  cases deed with
  | enter path decl =>
    exact ⟨(path, decl), (mem_declarations_iff hw).mpr hdeed, rowAt_of_recordAt? hi⟩
  | effect path done => exact hkind.elim

/-- A record is static if a declaration of its type is. -/
theorem isStatic_iff_declared (hw : unit.WellNamed) {i : Nat} {r : TypeRecord}
    (hr : e.types[i]? = some r) :
    r.isStatic = true ↔ ∃ d ∈ declarations unit, rowAt e d.1 = i + 1
      ∧ d.2.modifiers.has .isStatic = true := by
  rw [← (h.summed i r hr).isStatic]
  constructor
  · rintro ⟨deed, hdeed, hi, hstatic⟩
    cases deed with
    | enter path decl =>
      exact ⟨(path, decl), (mem_declarations_iff hw).mpr hdeed, rowAt_of_recordAt? hi, hstatic⟩
    | effect path done => exact hstatic.elim
  · rintro ⟨d, hd, hrow, hstatic⟩
    obtain ⟨j, _, -, hj, -⟩ := exists_record_of_declared h hw hd
    rw [rowAt_of_recordAt? hj, Nat.add_right_cancel_iff] at hrow
    exact ⟨.enter d.1 d.2, (mem_declarations_iff hw).mp hd, hrow ▸ hj, hstatic⟩

/-- A record has the mark of a constructor if a member of its type is
compiled to one. -/
theorem isMarked_iff_placed (hw : unit.WellNamed) {i : Nat} {r : TypeRecord}
    (hr : e.types[i]? = some r) {mark : Mark} {name : String}
    (hname : mark.constructorName = some name) :
    r.isMarked mark = true
      ↔ ∃ x ∈ placedIn unit (rowAt e), x.row = i + 1 ∧ x.compiled.method.name = name := by
  rw [← (h.summed i r hr).isMarked mark]
  refine (done_marks_iff (typesNamed_declaredTypes hw) (named_walk hw)
    (uncontested_of_reaches h) hname i).trans ⟨?_, ?_⟩
  · rintro ⟨y, hy, hi, hyname⟩
    exact ⟨_, List.mem_map_of_mem hy, rowAt_of_recordAt? hi, hyname⟩
  · rintro ⟨x, hx, hrow, hxname⟩
    obtain ⟨j, _, -, hj, y, hy, hyj, hyx⟩ := exists_record_of_placed h hx
    rw [hj, Nat.add_right_cancel_iff] at hrow
    exact ⟨y, hy, hrow ▸ hyj, hyx ▸ hxname⟩

/-- An added constructor is none that a member of its type is. -/
theorem name_ne_of_addedTo (hw : unit.WellNamed) {x y : Placed} (hx : x ∈ addedTo e.types)
    (hy : y ∈ placedIn unit (rowAt e)) (hrow : y.row = x.row) :
    y.compiled.method.name ≠ x.compiled.method.name := by
  obtain ⟨p, hp, rfl⟩ := List.mem_map.mp hx
  obtain ⟨i, r, mark, hr, hi, hname, hunmarked⟩ := (isAddition_of_mem hp).plain
  intro heq
  have hmarked := (isMarked_iff_placed h hw hr hname).mpr ⟨y, hy, hrow.trans hi, heq⟩
  rw [hunmarked] at hmarked
  cases hmarked

/-- No two methods in one row have one key. -/
theorem nodup_placed (hw : unit.WellNamed) :
    ((placedIn unit (rowAt e) ++ addedTo e.types).map fun x => x.push.key).Nodup := by
  have hsplit : ∀ xs : List Placed, xs.map (fun x => x.push.key)
      = (xs.map Placed.push).map Push.key := by
    intro xs
    rw [List.map_map]
    rfl
  rw [List.map_append]
  refine List.Nodup.append ?_ ?_ ?_
  · -- members are looked up among the keys
    have hkeys := keys_of_isPushed (filled_of_reaches h).methods
    have hnodup := h.keyed.nodup
    rw [h.keyed.keys, hkeys, show (fun p => (Push.key p).2) = Prod.snd ∘ Push.key from rfl,
      ← List.map_map] at hnodup
    rw [hsplit]
    exact hnodup.of_map
  · rw [hsplit, push_addedTo]
    exact nodup_additionsFrom 1 e.types
  · intro key hkey hkey'
    obtain ⟨y, hy, rfl⟩ := List.mem_map.mp hkey
    obtain ⟨x, hx, heq⟩ := List.mem_map.mp hkey'
    have hrow : x.row = y.row := congrArg Prod.fst heq
    have hname : x.compiled.method.name = y.compiled.method.name :=
      congrArg (fun k => k.2.name) heq
    exact name_ne_of_addedTo h hw hx hy hrow.symm hname.symm

/-- Every method stands in the row of a record. -/
theorem row_of_placed {x : Placed} (hx : x ∈ placedIn unit (rowAt e) ++ addedTo e.types) :
    ∃ i, i < e.types.length ∧ x.row = i + 1 := by
  rcases List.mem_append.mp hx with hx | hx
  · obtain ⟨i, r, hr, hrow, -⟩ := exists_record_of_placed h hx
    exact ⟨i, (List.getElem?_eq_some_iff.mp hr).1, hrow⟩
  · obtain ⟨p, hp, rfl⟩ := List.mem_map.mp hx
    obtain ⟨i, r, -, hr, hrow, -⟩ := (isAddition_of_mem hp).plain
    exact ⟨i, (List.getElem?_eq_some_iff.mp hr).1, hrow⟩

/-- With few types, the tokens of types tell as much as their rows. -/
theorem nodup_keys (hw : unit.WellNamed) (hfits : e.types.length + 1 < Token.rowLimit) :
    ((placedIn unit (rowAt e) ++ addedTo e.types).map fun x => x.push.key.2).Nodup := by
  have hrows := nodup_placed h hw
  have hsplit : (placedIn unit (rowAt e) ++ addedTo e.types).map (fun x => x.push.key.2)
      = ((placedIn unit (rowAt e) ++ addedTo e.types).map fun x => x.push.key).map Prod.snd := by
    rw [List.map_map]
    rfl
  rw [hsplit]
  refine List.Nodup.map_on ?_ hrows
  intro key hkey key' hkey' heq
  obtain ⟨x, hx, rfl⟩ := List.mem_map.mp hkey
  obtain ⟨y, hy, rfl⟩ := List.mem_map.mp hkey'
  obtain ⟨i, hi, hxi⟩ := row_of_placed h hx
  obtain ⟨j, hj, hyj⟩ := row_of_placed h hy
  have htoken : Token.ofRow .typeDef (x.row + 1) = Token.ofRow .typeDef (y.row + 1) :=
    congrArg MethodKey.declaring heq
  have hrow := Token.ofRow_inj (by omega) (by omega) htoken
  exact Prod.ext (Nat.add_right_cancel hrow) heq

/-- A class that is not static has a constructor of instances, of its own
or added. -/
theorem exists_constructor (hw : unit.WellNamed) {d : TypePath × TypeDecl}
    (hd : d ∈ declarations unit) (hkind : d.2.kind = .classType)
    (hstatic : ∀ d' ∈ declarations unit, rowAt e d'.1 = rowAt e d.1 →
      d'.2.modifiers.has .isStatic = false) :
    ∃ x ∈ placedIn unit (rowAt e) ++ addedTo e.types,
      x.row = rowAt e d.1 ∧ x.compiled.method.name = ".ctor" := by
  obtain ⟨i, r, hr, hi, hrkind⟩ := exists_record_of_declared h hw hd
  have hrow := rowAt_of_recordAt? hi
  have hplain : r.isStatic = false := by
    by_contra hne
    rw [Bool.not_eq_false, isStatic_iff_declared h hw hr] at hne
    obtain ⟨d', hd', hrow', hmodifiers⟩ := hne
    rw [hstatic d' hd' (hrow'.trans hrow.symm)] at hmodifiers
    cases hmodifiers
  by_cases hmarked : r.isMarked .instanceConstructor = true
  · have hmark : Mark.constructorName .instanceConstructor = some ".ctor" := rfl
    obtain ⟨x, hx, hxrow, hname⟩ := (isMarked_iff_placed h hw hr hmark).mp hmarked
    exact ⟨x, List.mem_append_left _ hx, hxrow.trans hrow.symm, hname⟩
  · have hunmarked : r.hasInstanceConstructor = false := Bool.eq_false_iff.mpr hmarked
    have hneeds : Emission.needsConstructor r = true := by
      unfold Emission.needsConstructor
      rw [hrkind, hkind, hplain, hunmarked]
      rfl
    have hadded : Push.mk (i + 1) (Emission.addedConstructor r) true ∈ additionsFrom 1 e.types :=
      mem_additionsFrom.mpr ⟨i, r, hr, Nat.add_comm 1 i ▸ mem_additionsTo.mpr (.inl ⟨hneeds, rfl⟩)⟩
    exact ⟨_, List.mem_append_right _ (List.mem_map_of_mem hadded), hrow.symm, rfl⟩

/-- The table of methods is filled by members and then by added
constructors. -/
theorem filled_placed (setting : Setting) :
    Filled ((placedIn unit (rowAt e) ++ addedTo e.types).map Placed.push) (e.complete setting) := by
  have hfilled := filled_complete (filled_of_reaches h) h.ranked setting
  rwa [← push_addedTo, ← List.map_append] at hfilled

theorem length_types_complete (setting : Setting) :
    (e.complete setting).builder.types.length = e.types.length + 1 := by
  obtain ⟨hrecords, hcompleted⟩ := ranked_complete h.ranked setting
  rw [hcompleted.length_types, hrecords]

/-- A declared type is found in its row. -/
theorem exists_type_of_declared (hw : unit.WellNamed) (setting : Setting)
    {d : TypePath × TypeDecl} (hd : d ∈ declarations unit) :
    ∃ t, (e.complete setting).builder.types[rowAt e d.1]? = some t
      ∧ t.token = .ofRow .typeDef (rowAt e d.1 + 1)
      ∧ keyOfRow t
        = ⟨d.1.outer.map fun q => .ofRow .typeDef (rowAt e q + 1), d.1.space, d.1.name⟩ := by
  obtain ⟨hrecords, hcompleted⟩ := ranked_complete h.ranked setting
  obtain ⟨i, -, -, hi, -⟩ := exists_record_of_declared h hw hd
  obtain ⟨r, hr, hkey⟩ := h.ranked.key_of_recordAt? hi
  obtain ⟨t, ht, htkey, httoken⟩ := hcompleted.row (hrecords.symm ▸ hr)
  rw [rowAt_of_recordAt? hi]
  exact ⟨t, ht, httoken.trans (h.ranked.tokens i r hr), htkey.trans hkey⟩

/-- Different declared types have different rows, if there are few. -/
theorem path_eq_of_rowAt_eq (hw : unit.WellNamed) (hfits : e.types.length + 1 < Token.rowLimit)
    {d d' : TypePath × TypeDecl} (hd : d ∈ declarations unit) (hd' : d' ∈ declarations unit)
    (hrow : rowAt e d.1 = rowAt e d'.1) : d.1 = d'.1 := by
  obtain ⟨i, -, -, hi, -⟩ := exists_record_of_declared h hw hd
  obtain ⟨i', -, -, hi', -⟩ := exists_record_of_declared h hw hd'
  rw [rowAt_of_recordAt? hi, rowAt_of_recordAt? hi', Nat.add_right_cancel_iff] at hrow
  exact h.ranked.path_eq hfits hi (hrow ▸ hi')

end Emitted

/-- An added constructor is named like one and has an added body. -/
theorem namesConstructor_of_mem_addedTo {rs : List TypeRecord} {x : Placed} (hx : x ∈ addedTo rs) :
    x.compiled.origin = some .added ∧ NamesConstructor x.compiled.method.name := by
  obtain ⟨p, hp, rfl⟩ := List.mem_map.mp hx
  obtain ⟨i, r, mark, -, -, hname, -⟩ := (isAddition_of_mem hp).plain
  exact ⟨rfl, namesConstructor_of_constructorName hname⟩

-- ========================================================= a whole file

/-- The methods of every file that parses and compiles are those of its
members and the constructors that are added. -/
theorem methodTable_of_compile {source module : String} {tree : Tree} {options : CompileOptions}
    {a : Assembly} (hparse : (Run.outcome (Tree.parse source)).1 = .ok tree)
    (hcompile : (Run.outcome (compile module tree options)).1 = .ok a)
    (hmethods : a.methods.length < Token.rowLimit) :
    ∃ row added, MethodTable tree.root a row added := by
  have hw := wellNamed_of_parse hparse
  obtain ⟨hclean, rfl⟩ := build_of_compile hcompile
  let setting : Setting := ⟨tree.source, options⟩
  let e := emitSpaceMembers setting (topScope tree.root) tree.root.members (.start module)
  have hemission : emission module tree options = e.complete setting := rfl
  rw [hemission] at hclean hmethods ⊢
  have h : Reaches setting module (deedsOf tree.root) e :=
    reaches_emission ((grows_foldl_completeType setting e.types e).clean hclean)
  have hfilled := filled_placed h setting
  have hlength := length_types_complete h setting
  refine ⟨rowAt e, addedTo e.types, ?_⟩
  constructor
  case types => exact fun d hd => exists_type_of_declared h hw setting hd
  case declared =>
    intro i hpos hlt
    have hbound : i - 1 < e.types.length := by
      have hlt : i < (e.complete setting).builder.types.length := hlt
      omega
    obtain ⟨d, hd, hrow⟩ := exists_declared_of_record h hw (List.getElem?_eq_getElem hbound)
    exact ⟨d, hd, by omega⟩
  case rowsApart =>
    exact fun hfits d hd d' hd' hrow => path_eq_of_rowAt_eq h hw (hlength ▸ hfits) hd hd' hrow
  case methods => exact hfilled.methods
  case tokens => exact hfilled.tokens
  case additions =>
    intro x hx
    obtain ⟨horigin, hname⟩ := namesConstructor_of_mem_addedTo hx
    exact ⟨horigin, hname, fun y hy hrow => name_ne_of_addedTo h hw hx hy hrow⟩
  case distinct =>
    show (((placedIn tree.root (rowAt e) ++ addedTo e.types).map Placed.row).zip
      ((e.complete setting).builder.methods.map keyOfMethod)).Nodup
    rw [keys_of_isPushed hfilled.methods, List.map_map, List.zip_map']
    exact nodup_placed h hw
  case keysApart =>
    intro hfits
    show ((e.complete setting).builder.methods.map keyOfMethod).Nodup
    rw [keys_of_isPushed hfilled.methods, List.map_map]
    exact nodup_keys h hw (hlength ▸ hfits)
  case constructed =>
    intro d hd hkind hstatic
    obtain ⟨x, hx, hrow, hname⟩ := exists_constructor h hw hd hkind hstatic
    obtain ⟨m, hm, hpushed⟩ := exists_mem_zip hfilled.methods hx
    exact ⟨x, m, hm, hrow, hpushed.name_eq.trans hname⟩
  case ascending => exact fun m hm m' hm' => hfilled.address_lt hmethods hm hm'
  case word => exact fun m hm => hfilled.address_fits hmethods hm

/-- A file with a partial class, a delegate, conversions and a static
class. -/
def conversionSource : String :=
  "partial class A \x7b static int n = 1; int P \x7b get; \x7d \x7d delegate void H();\n"
    ++ "partial class A \x7b event H E; static implicit operator int(A a) => 1;\n"
    ++ "static implicit operator long(A a) => 1; \x7d static class S \x7b \x7d"

/-- The methods of the file with conversions: each with the row of its type
and the address of its body, those of the delegate without one, and two
constructors added behind the rest. -/
theorem methodTable_of_conversionSource : ∃ tree a row added,
    (Run.outcome (Tree.parse conversionSource)).1 = .ok tree
      ∧ (Run.outcome (compile "Conversions" tree ⟨false⟩)).1 = .ok a
      ∧ a.methods.length < Token.rowLimit
      ∧ (a.methods.map fun m => (m.declaringType.row, m.name, m.bodyAddress))
        = [(2, "get_P", 0x2050), (3, ".ctor", 0), (3, "Invoke", 0), (3, "BeginInvoke", 0),
          (3, "EndInvoke", 0), (2, "add_E", 0x2060), (2, "remove_E", 0x2070),
          (2, "op_Implicit", 0x2080), (2, "op_Implicit", 0x2090), (2, ".ctor", 0x20a0),
          (2, ".cctor", 0x20b0)]
      ∧ MethodTable tree.root a row added := by
  have hruns : compilesTo conversionSource "Conversions" (fun _ a =>
      (a.methods.map fun m => (m.declaringType.row, m.name, m.bodyAddress))
        = [(2, "get_P", 0x2050), (3, ".ctor", 0), (3, "Invoke", 0), (3, "BeginInvoke", 0),
          (3, "EndInvoke", 0), (2, "add_E", 0x2060), (2, "remove_E", 0x2070),
          (2, "op_Implicit", 0x2080), (2, "op_Implicit", 0x2090), (2, ".ctor", 0x20a0),
          (2, ".cctor", 0x20b0)]) = true := by
    decide +kernel
  obtain ⟨tree, a, hparse, hcompile, -, hmethods, hrows⟩ := of_compilesTo hruns
  obtain ⟨row, added, htable⟩ := methodTable_of_compile hparse hcompile hmethods
  exact ⟨tree, a, row, added, hparse, hcompile, hmethods, of_decide_eq_true hrows, htable⟩

end ClrListing.Lowering
