/-
What the records of a compilation tell of what was done.

The constructors that a compiler adds depend on marks that all parts of a
type have left in one record. Each record is the sum of the deeds about its
type (`Summed`): its kind is that of every declaration entered there, it is
static if one of these is, and it has the marks that were set there. The
rows of the types are numbered like the records, one place further on
because of the module's own row (`Ranked`).
-/
import ClrListing.Proofs.Lowering.Deeds
import ClrListing.Proofs.Lowering.Layout

namespace ClrListing.Lowering

open Assembly Metadata Source Syntax

variable {setting : Setting} {module : String} {deeds : List Deed} {e e' : Emission}
variable {path : TypePath} {record : Nat} {token : Token}

-- ====================================================== deeds at a record

/-- Whether something of a sort was done about the type of a record. -/
def Done (e : Emission) (deeds : List Deed) (i : Nat) (sort : Deed → Prop) : Prop :=
  ∃ d ∈ deeds, recordAt? e d.site = some i ∧ sort d

/-- Whether all that was done was done about types that have records. -/
def Sited (e : Emission) (deeds : List Deed) : Prop :=
  ∀ d ∈ deeds, ∃ record token, HousedAt e d.site record token

theorem HousedAt.recordAt?_eq (hat : HousedAt e path record token) (hk : Keeps e e') :
    recordAt? e' path = recordAt? e path := by
  rw [hk.recordAt? hat.found, hat.found]

theorem Sited.recordAt?_eq (hs : Sited e deeds) (hk : Keeps e e') {d : Deed} (hd : d ∈ deeds) :
    recordAt? e' d.site = recordAt? e d.site := by
  obtain ⟨record, token, hat⟩ := hs d hd
  exact hat.recordAt?_eq hk

theorem Sited.concat (hs : Sited e deeds) (hk : Keeps e e') {d : Deed}
    (hat : HousedAt e' d.site record token) : Sited e' (deeds ++ [d]) := by
  intro d' hd'
  rcases List.mem_append.mp hd' with hd' | hd'
  · obtain ⟨record', token', hat'⟩ := hs d' hd'
    exact ⟨record', token', hat'.keeps hk⟩
  · rw [List.mem_singleton] at hd'
    subst hd'
    exact ⟨record, token, hat⟩

/-- Nothing was done about a record that is not there yet. -/
theorem Sited.not_done (hs : Sited e deeds) {i : Nat} (hnone : e.types[i]? = none)
    (sort : Deed → Prop) : ¬ Done e deeds i sort := by
  rintro ⟨d, hd, hi, -⟩
  obtain ⟨record, token, hat⟩ := hs d hd
  obtain ⟨r, hr, -⟩ := hat.holds
  rw [Option.some.inj (hat.found.symm.trans hi), hnone] at hr
  cases hr

/-- One more deed counts at its own record. -/
theorem Sited.done_concat (hs : Sited e deeds) (hk : Keeps e e') {d : Deed}
    (hat : HousedAt e' d.site record token) (i : Nat) (sort : Deed → Prop) :
    Done e' (deeds ++ [d]) i sort ↔ Done e deeds i sort ∨ i = record ∧ sort d := by
  constructor
  · rintro ⟨d', hd', hi, hsort⟩
    rcases List.mem_append.mp hd' with hd' | hd'
    · exact .inl ⟨d', hd', (hs.recordAt?_eq hk hd').symm.trans hi, hsort⟩
    · rw [List.mem_singleton] at hd'
      subst hd'
      exact .inr ⟨Option.some.inj (hi.symm.trans hat.found), hsort⟩
  · rintro (⟨d', hd', hi, hsort⟩ | ⟨rfl, hsort⟩)
    · exact ⟨d', List.mem_append_left _ hd', (hs.recordAt?_eq hk hd').trans hi, hsort⟩
    · exact ⟨d, List.mem_append_right _ (List.mem_singleton_self d), hat.found, hsort⟩

/-- Whatever is done is done about a type that has a record. -/
theorem Reaches.sited (h : Reaches setting module deeds e) : Sited e deeds := by
  induction h with
  | start => exact fun _ hd => (List.not_mem_nil hd).elim
  | enter _ hst hopen ih =>
    exact ih.concat (keeps_openType setting _ _ _ _) (housed_openType hst hopen).record
  | @effect deeds e path record token s effect _ hat _ ih =>
    have hkept := keeps_apply setting e s record token effect
    exact ih.concat hkept (hat.keeps hkept)

-- ====================================================== opening a record

/-- Whether a record has a mark. -/
def TypeRecord.isMarked (r : TypeRecord) : Mark → Bool
  | .instanceConstructor => r.hasInstanceConstructor
  | .typeConstructor => r.hasTypeConstructor
  | .staticInitializer => r.hasStaticInitializer

theorem isMarked_marked (r : TypeRecord) (m mark : Mark) :
    (r.marked m).isMarked mark = true ↔ r.isMarked mark = true ∨ m = mark := by
  cases m <;> cases mark <;> simp [TypeRecord.marked, TypeRecord.isMarked]

/-- A record that nothing has been noted in. -/
structure TypeRecord.IsBlank (r : TypeRecord) : Prop where
  isStatic : r.isStatic = false
  isMarked : ∀ mark, r.isMarked mark = false

/-- What opening a declaration does to the records: it is noted in one, an
old one or a blank one at the end. -/
structure NotedAt (e e' : Emission) (decl : TypeDecl) (record : Nat) (r : TypeRecord) : Prop where
  kind : r.kind = decl.kind
  before : e.types[record]? = some r ∨ e.types[record]? = none ∧ r.IsBlank
  after : ∀ i, e'.types[i]?
    = if i = record then some (r.declaredWith decl.modifiers) else e.types[i]?

section Opening

variable {scope : Scope} {outer : Option Enclosing} {decl : TypeDecl} {inside : Enclosing}

theorem getElem?_modify_of_eq {rs : List TypeRecord} {f : TypeRecord → TypeRecord}
    {r : TypeRecord} (hr : rs[record]? = some r) (i : Nat) :
    (rs.modify record f)[i]? = if i = record then some (f r) else rs[i]? := by
  rw [List.getElem?_modify]
  by_cases hi : i = record
  · subst hi
    rw [if_pos rfl, hr]
    exact congrArg some (if_pos rfl)
  · rw [if_neg hi]
    cases rs[i]? with
    | none => rfl
    | some x => exact congrArg some (if_neg fun heq => hi heq.symm)

theorem notedAt_openType (hopen : (openType setting scope outer decl e).2 = some inside) :
    ∃ r, NotedAt e (openType setting scope outer decl e).1 decl inside.record r := by
  unfold openType at hopen ⊢
  simp only [] at hopen ⊢
  split at hopen
  · cases hopen
    let added : TypeRecord := ⟨keyOf scope outer decl.name decl.arity, e.builder.nextType,
      decl.kind, decl.modifiers.has .isPartial, false, false, false, false, false⟩
    have hlast : (e.types ++ [added])[e.types.length]? = some added :=
      List.getElem?_concat_length
    have hblank : added.IsBlank := ⟨rfl, fun mark => by cases mark <;> rfl⟩
    refine ⟨added, rfl, .inr ⟨List.getElem?_eq_none (Nat.le_refl _), hblank⟩, fun i => ?_⟩
    refine (getElem?_modify_of_eq hlast i).trans ?_
    show _ = if i = e.types.length then _ else _
    by_cases hi : i = e.types.length
    · rw [if_pos hi, if_pos hi]
    · rw [if_neg hi, if_neg hi]
      by_cases hlt : i < e.types.length
      · exact List.getElem?_append_left hlt
      · rw [List.getElem?_eq_none (by rw [List.length_append, List.length_singleton]; omega),
          List.getElem?_eq_none (by omega)]
  · next record hdest =>
    cases hopen
    obtain ⟨-, r, hr, hkind, -⟩ := findRecord?_of_merged hdest
    exact ⟨r, hkind, .inl hr, fun i => getElem?_modify_of_eq hr i⟩
  · cases hopen

end Opening

/-- An effect changes no more of the records than the marks of its own. -/
theorem exists_record_before {s : Surroundings} {effect : Effect} {i : Nat} {r' : TypeRecord}
    (hr' : (Emission.apply setting s record token e effect).types[i]? = some r') :
    ∃ r, e.types[i]? = some r ∧ r'.kind = r.kind ∧ r'.isStatic = r.isStatic
      ∧ ∀ mark, r'.isMarked mark = true
        ↔ r.isMarked mark = true ∨ i = record ∧ effect = .mark mark := by
  cases effect with
  | complain d span => exact ⟨r', hr', rfl, rfl, fun mark => by simp⟩
  | mark m =>
    have hget : (e.types.modify record fun r => r.marked m)[i]? = some r' := hr'
    rw [List.getElem?_modify] at hget
    obtain ⟨r, hr, heq⟩ := Option.map_eq_some_iff.mp hget
    refine ⟨r, hr, ?_⟩
    by_cases hi : record = i
    · rw [if_pos hi] at heq
      subst heq
      have hkept := recordKept_marked r m
      refine ⟨hkept.kind, ?_, fun mark => ?_⟩
      · cases m <;> rfl
      · rw [isMarked_marked, Effect.mark.injEq]
        simp [hi]
    · rw [if_neg hi] at heq
      subst heq
      exact ⟨rfl, rfl, fun mark => by simp [Ne.symm hi]⟩
  | declare m hasBody span =>
    have hsame : (Emission.declareMethod e setting s token m hasBody span).types = e.types := by
      unfold Emission.declareMethod
      simp only []
      split <;> rfl
    rw [show (Emission.apply setting s record token e (.declare m hasBody span)).types
      = e.types from hsame] at hr'
    exact ⟨r', hr', rfl, rfl, fun mark => by simp⟩

-- ================================================================ sums

/-- Whether a type of a kind is entered. -/
def Deed.EntersKind (kind : TypeKind) : Deed → Prop
  | .enter _ decl => decl.kind = kind
  | .effect _ _ => False

/-- Whether a type is entered as static. -/
def Deed.EntersStatic : Deed → Prop
  | .enter _ decl => decl.modifiers.has .isStatic = true
  | .effect _ _ => False

/-- Whether a mark is set. -/
def Deed.Marks (mark : Mark) : Deed → Prop
  | .enter _ _ => False
  | .effect _ done => done = .mark mark

/-- A record sums up what was done about its type. -/
structure Summed (e : Emission) (deeds : List Deed) (i : Nat) (r : TypeRecord) : Prop where
  kind : ∀ kind, Done e deeds i (Deed.EntersKind kind) ↔ r.kind = kind
  isStatic : Done e deeds i Deed.EntersStatic ↔ r.isStatic = true
  isMarked : ∀ mark, Done e deeds i (Deed.Marks mark) ↔ r.isMarked mark = true

/-- Entering a type adds to the sum of its record. -/
theorem summed_enter {decl : TypeDecl} {r : TypeRecord} (hs : Sited e deeds) (hk : Keeps e e')
    (hat : HousedAt e' path record token) (hnoted : NotedAt e e' decl record r)
    (hold : ∀ i r, e.types[i]? = some r → Summed e deeds i r) {i : Nat} {r' : TypeRecord}
    (hr' : e'.types[i]? = some r') : Summed e' (deeds ++ [.enter path decl]) i r' := by
  have hdone := hs.done_concat (d := .enter path decl) hk hat i
  rw [hnoted.after] at hr'
  by_cases hi : i = record
  · subst hi
    rw [if_pos rfl] at hr'
    obtain rfl := Option.some.inj hr'
    rcases hnoted.before with hr | ⟨hnone, hblank⟩
    · have hsum := hold i r hr
      refine ⟨fun kind => ?_, ?_, fun mark => ?_⟩
      · rw [hdone, hsum.kind]
        simp only [Deed.EntersKind, TypeRecord.declaredWith, hnoted.kind, true_and, or_self]
      · rw [hdone, hsum.isStatic]
        simp only [Deed.EntersStatic, TypeRecord.declaredWith, true_and, Bool.or_eq_true]
      · rw [hdone, hsum.isMarked]
        simp only [Deed.Marks, and_false, or_false]
        cases mark <;> rfl
    · -- nothing has been done here before
      refine ⟨fun kind => ?_, ?_, fun mark => ?_⟩
      · rw [hdone, or_iff_right (hs.not_done hnone _)]
        simp only [Deed.EntersKind, TypeRecord.declaredWith, hnoted.kind, true_and]
      · rw [hdone, or_iff_right (hs.not_done hnone _)]
        simp only [Deed.EntersStatic, TypeRecord.declaredWith, hblank.isStatic, true_and,
          Bool.false_or]
      · rw [hdone, or_iff_right (hs.not_done hnone _)]
        have hunmarked := hblank.isMarked mark
        simp only [Deed.Marks, and_false, false_iff, Bool.not_eq_true]
        cases mark <;> exact hunmarked
  · rw [if_neg hi] at hr'
    have hsum := hold i r' hr'
    refine ⟨fun kind => ?_, ?_, fun mark => ?_⟩
    · rw [hdone, or_iff_left fun hnew => hi hnew.1, hsum.kind]
    · rw [hdone, or_iff_left fun hnew => hi hnew.1, hsum.isStatic]
    · rw [hdone, or_iff_left fun hnew => hi hnew.1, hsum.isMarked]

/-- Every record sums up what was done about its type. -/
theorem Reaches.summed (h : Reaches setting module deeds e) :
    ∀ i r, e.types[i]? = some r → Summed e deeds i r := by
  induction h with
  | start =>
    intro i r hr
    cases hr
  | enter hbefore hst hopen ih =>
    obtain ⟨r, hnoted⟩ := notedAt_openType hopen
    intro i r' hr'
    exact summed_enter hbefore.sited (keeps_openType setting _ _ _ _)
      (housed_openType hst hopen).record hnoted ih hr'
  | @effect deeds e path record token s effect hbefore hat _ ih =>
    have hk := keeps_apply setting e s record token effect
    intro i r' hr'
    have hdone := hbefore.sited.done_concat (d := .effect path effect) hk (hat.keeps hk) i
    obtain ⟨r, hr, hkind, hstatic, hmarked⟩ := exists_record_before hr'
    have hsum := ih i r hr
    refine ⟨fun kind => ?_, ?_, fun mark => ?_⟩
    · rw [hdone, hsum.kind, hkind]
      simp only [Deed.EntersKind, and_false, or_false]
    · rw [hdone, hsum.isStatic, hstatic]
      simp only [Deed.EntersStatic, and_false, or_false]
    · rw [hdone, hsum.isMarked, hmarked]
      simp only [Deed.Marks]

-- =============================================================== ranks

/-- Types and records have the same keys and tokens, behind the row of the
module itself, and the tokens give their places. -/
structure Ranked (e : Emission) : Prop where
  types : e.builder.types.map (fun t => (keyOfRow t, t.token))
    = (keyOfRow moduleRow, moduleRow.token) :: e.types.map fun r => (r.key, r.token)
  tokens : ∀ (i : Nat) (r : TypeRecord), e.types[i]? = some r → r.token = .ofRow .typeDef (i + 2)

namespace Ranked

theorem length_types (h : Ranked e) : e.builder.types.length = e.types.length + 1 := by
  have hlen := congrArg List.length h.types
  rwa [List.length_map, List.length_cons, List.length_map] at hlen

/-- The row of a record is the next one in the table of types. -/
theorem row (h : Ranked e) {i : Nat} {r : TypeRecord} (hr : e.types[i]? = some r) :
    ∃ t, e.builder.types[i + 1]? = some t ∧ keyOfRow t = r.key ∧ t.token = r.token := by
  have hget : (e.builder.types.map fun t => (keyOfRow t, t.token))[i + 1]?
      = some (r.key, r.token) := by
    rw [h.types, List.getElem?_cons_succ, List.getElem?_map, hr, Option.map_some]
  rw [List.getElem?_map] at hget
  obtain ⟨t, ht, heq⟩ := Option.map_eq_some_iff.mp hget
  obtain ⟨hkey, htoken⟩ := Prod.mk.inj heq
  exact ⟨t, ht, hkey, htoken⟩

/-- Marks and notes change neither keys nor tokens. -/
theorem of_same (h : Ranked e)
    (htypes : e'.types.map (fun r => (r.key, r.token)) = e.types.map fun r => (r.key, r.token))
    (hbuilder : e'.builder.types.map (fun t => (keyOfRow t, t.token))
      = e.builder.types.map fun t => (keyOfRow t, t.token)) : Ranked e' where
  types := by rw [htypes, hbuilder, h.types]
  tokens := by
    intro i r hr
    have hget := congrArg (fun rs => rs[i]?) htypes
    simp only [List.getElem?_map, hr, Option.map_some] at hget
    obtain ⟨r', hr', heq⟩ := Option.map_eq_some_iff.mp hget.symm
    rw [← (Prod.mk.inj heq).2]
    exact h.tokens i r' hr'

theorem addType (h : Ranked e) (scope : Scope) (outer : Option Enclosing) (decl : TypeDecl) :
    Ranked (addType e scope outer decl) := by
  have hnext : e.builder.nextType = .ofRow .typeDef (e.types.length + 2) := by
    unfold Builder.nextType
    rw [h.length_types]
  constructor
  · show ((e.builder.linkNested (keyOf scope outer decl.name decl.arity).enclosing
      e.builder.nextType).types ++ [_]).map _ = _ :: (e.types ++ [_]).map _
    rw [List.map_append, List.map_append, ← List.cons_append, ← h.types]
    congr 1
    exact Builder.map_linkNested e.builder _ _ fun _ _ => rfl
  · intro i r hr
    have hget : (e.types ++ [_])[i]? = some r := hr
    rw [List.getElem?_append] at hget
    split at hget
    · exact h.tokens i r hget
    · next hge =>
      have hlast : i = e.types.length := by
        have hlt := (List.getElem?_eq_some_iff.mp hget).1
        rw [List.length_singleton] at hlt
        omega
      subst hlast
      rw [Nat.sub_self] at hget
      obtain rfl := Option.some.inj hget
      exact hnext

theorem modifyRecord (h : Ranked e) (index : Nat) {f : TypeRecord → TypeRecord}
    (hf : ∀ r, ((f r).key, (f r).token) = (r.key, r.token)) : Ranked (e.modifyRecord index f) :=
  h.of_same (map_modify_of_same hf _ _) rfl

theorem pushMethod (h : Ranked e) (setting : Setting) (declaring : Token) (m : MethodDef)
    (hasBody : Bool) : Ranked (e.pushMethod setting declaring m hasBody) :=
  h.of_same rfl (Builder.map_modifyType e.builder declaring fun _ => rfl)

end Ranked

/-- The row of the type at a path: behind the module's own row, types stand
like their records. -/
def rowAt (e : Emission) (path : TypePath) : Nat := (recordAt? e path).getD 0 + 1

theorem rowAt_of_recordAt? (hfound : recordAt? e path = some record) :
    rowAt e path = record + 1 := by
  unfold rowAt
  rw [hfound]
  rfl

theorem Sited.rowAt_eq (hs : Sited e deeds) (hk : Keeps e e') {d : Deed} (hd : d ∈ deeds) :
    rowAt e' d.site = rowAt e d.site := by
  unfold rowAt
  rw [hs.recordAt?_eq hk hd]

theorem exists_record_of_findRecord? {key : TypeKey} (hfound : e.findRecord? key = some record) :
    ∃ r, e.types[record]? = some r ∧ r.key = key := by
  obtain ⟨hlt, hkey, -⟩ := List.findIdx?_eq_some_iff_getElem.mp hfound
  exact ⟨_, List.getElem?_eq_getElem hlt, of_decide_eq_true hkey⟩

/-- The record at a path says where the path leads to. -/
theorem Ranked.key_of_recordAt? (h : Ranked e) (hfound : recordAt? e path = some record) :
    ∃ r, e.types[record]? = some r
      ∧ r.key = ⟨path.outer.map fun q => .ofRow .typeDef (rowAt e q + 1), path.space,
          path.name⟩ := by
  cases path with
  | top space name => exact exists_record_of_findRecord? hfound
  | inner outer name =>
    rw [recordAt?] at hfound
    obtain ⟨around, haround, hinner⟩ := Option.bind_eq_some_iff.mp hfound
    obtain ⟨i, hi, hget⟩ := Option.bind_eq_some_iff.mp haround
    obtain ⟨r, hr, hkey⟩ := exists_record_of_findRecord? hinner
    rw [h.tokens i around hget] at hkey
    refine ⟨r, hr, ?_⟩
    rw [hkey, TypePath.outer, Option.map_some, rowAt_of_recordAt? hi]
    rfl

/-- Records and rows keep pace. -/
theorem Reaches.ranked (h : Reaches setting module deeds e) : Ranked e := by
  induction h with
  | start =>
    refine ⟨rfl, fun i r hr => ?_⟩
    cases hr
  | @enter deeds e scope outer around decl inside _ _ hopen ih =>
    have hmoved : Ranked { e with place := e.place + 1 } := ih.of_same rfl rfl
    unfold openType at hopen ⊢
    simp only [] at hopen ⊢
    split at hopen
    · exact (hmoved.addType scope outer decl).modifyRecord _ fun r => declaredWith_same r _
    · exact hmoved.modifyRecord _ fun r => declaredWith_same r _
    · cases hopen
  | @effect deeds e path record token s effect _ _ _ ih =>
    cases effect with
    | complain d span => exact ih.of_same rfl rfl
    | mark m => exact ih.modifyRecord record fun r => marked_same r m
    | declare m hasBody span =>
      refine Ranked.pushMethod ?_ setting token m hasBody
      split
      · exact ih.of_same rfl rfl
      · exact ih.of_same rfl rfl

end ClrListing.Lowering
