/-
The methods that a compilation adds, with their bodies.

A method is pushed to the table of methods under the next token, and one
with a body gets the next address. `Filled` says what the table looks like
after pushes, whoever makes them: the members of types (`Reaches.filled`)
or, at the end, the compiler that adds constructors (`filled_complete`).
Members push under keys that are noted, and a key that is taken is an
error, so that their keys are distinct (`Reaches.keyed`); the added
constructors are not looked up among the keys.
-/
import ClrListing.Proofs.Lowering.Tallies

namespace ClrListing.Lowering

open Assembly Metadata Source Syntax

variable {setting : Setting} {module : String} {deeds : List Deed} {e e' : Emission}

-- ============================================================== pushes

/-- A method that is added to the type in a row. -/
structure Push where
  row : Nat
  method : MethodDef
  hasBody : Bool

/-- The token of the type that a method is added to. -/
def Push.token (p : Push) : Token := .ofRow .typeDef (p.row + 1)

/-- What tells a method apart from the others in the rows of a module. -/
def Push.key (p : Push) : Nat × MethodKey := (p.row, MethodKey.of p.token p.method)

/-- A method of the table is one that was added. -/
structure IsPushed (p : Push) (m : MethodDef) : Prop where
  declaring : m.declaringType = p.token
  /-- Its own token and type apart, and what options and bodies change, it
  is as it was. -/
  same : bare m = { bare p.method with token := m.token, declaringType := m.declaringType }
  body : m.bodyAddress ≠ 0 ↔ p.hasBody = true

/-- The table of methods after pushes. -/
structure Filled (pushes : List Push) (e : Emission) : Prop where
  methods : List.Forall₂ IsPushed pushes e.builder.methods
  /-- Methods are numbered by their places. -/
  tokens : ∀ (i : Nat) (m : MethodDef), e.builder.methods[i]? = some m →
    m.token = .ofRow .methodDef (i + 1)
  /-- A body comes behind those before it. -/
  ascending : (e.builder.methods.map MethodDef.bodyAddress).Pairwise fun x y =>
    x ≠ 0 → y ≠ 0 → x < y
  below : ∀ m ∈ e.builder.methods, m.bodyAddress < e.nextBody
  first : firstBody ≤ e.nextBody
  /-- The bodies lie close together. -/
  next : e.nextBody ≤ firstBody + bodyDistance * e.builder.methods.length

/-- The row that a method is pushed to the table as. -/
def placedMethod (e : Emission) (setting : Setting) (declaring : Token) (m : MethodDef)
    (hasBody : Bool) : MethodDef :=
  let finished := Emission.finishMethod setting m
  { (if hasBody then { finished with bodyAddress := e.nextBody } else finished) with
    token := e.builder.nextMethod, declaringType := declaring }

theorem methods_modifyType (b : Builder) (token : Token) (f : TypeDef → TypeDef) :
    (b.modifyType token f).methods = b.methods := by
  unfold Builder.modifyType
  split <;> rfl

theorem methods_pushMethod (e : Emission) (setting : Setting) (declaring : Token) (m : MethodDef)
    (hasBody : Bool) :
    (e.pushMethod setting declaring m hasBody).builder.methods
      = e.builder.methods ++ [placedMethod e setting declaring m hasBody] := by
  show (Builder.modifyType e.builder declaring _).methods ++ [_] = _
  rw [methods_modifyType]
  rfl

theorem bare_placedMethod (e : Emission) (setting : Setting) (declaring : Token) (m : MethodDef)
    (hasBody : Bool) :
    bare (placedMethod e setting declaring m hasBody)
      = { bare m with token := e.builder.nextMethod, declaringType := declaring } := by
  cases hasBody with
  | true => exact bare_finishMethod setting m _ _ _
  | false => exact bare_finishMethod setting m _ _ _

theorem bodyAddress_placedMethod (e : Emission) (setting : Setting) (declaring : Token)
    {m : MethodDef} (hasBody : Bool) (hplain : m.bodyAddress = 0) :
    (placedMethod e setting declaring m hasBody).bodyAddress
      = if hasBody then e.nextBody else 0 := by
  cases hasBody with
  | true => rfl
  | false =>
    show (Emission.finishMethod setting m).bodyAddress = 0
    unfold Emission.finishMethod
    split
    · exact hplain
    · exact hplain

/-- The row that a push adds is one of the method that was pushed. -/
theorem isPushed_placedMethod (hnext : 0 < e.nextBody) (setting : Setting) {p : Push}
    (hplain : p.method.bodyAddress = 0) :
    IsPushed p (placedMethod e setting p.token p.method p.hasBody) := by
  refine ⟨rfl, bare_placedMethod .., ?_⟩
  rw [bodyAddress_placedMethod e setting p.token p.hasBody hplain]
  cases p.hasBody with
  | true => exact iff_of_true (Nat.ne_of_gt hnext) rfl
  | false => exact iff_of_false (fun hne => hne rfl) Bool.false_ne_true

/-- A push adds a row. -/
theorem Filled.push {pushes : List Push} (h : Filled pushes e) (setting : Setting) (p : Push)
    (hplain : p.method.bodyAddress = 0) :
    Filled (pushes ++ [p]) (e.pushMethod setting p.token p.method p.hasBody) := by
  have haddress := bodyAddress_placedMethod e setting p.token p.hasBody hplain
  have hnext : (e.pushMethod setting p.token p.method p.hasBody).nextBody
      = if p.hasBody then e.nextBody + bodyDistance else e.nextBody := rfl
  have hfirst : 0 < e.nextBody := Nat.lt_of_lt_of_le (by decide) h.first
  have hdistance : 0 < bodyDistance := by decide
  constructor
  case methods =>
    rw [methods_pushMethod]
    exact List.rel_append h.methods (.cons (isPushed_placedMethod hfirst setting hplain) .nil)
  case tokens =>
    intro i m hm
    rw [methods_pushMethod, List.getElem?_append] at hm
    split at hm
    · exact h.tokens i m hm
    · next hge =>
      have hlt := (List.getElem?_eq_some_iff.mp hm).1
      rw [List.length_singleton] at hlt
      rw [show i - e.builder.methods.length = 0 by omega] at hm
      obtain rfl := Option.some.inj hm
      show e.builder.nextMethod = _
      unfold Builder.nextMethod
      congr 1
      omega
  case ascending =>
    rw [methods_pushMethod, List.map_append, List.pairwise_append]
    refine ⟨h.ascending, List.pairwise_singleton _ _, ?_⟩
    intro x hx y hy _ hy0
    obtain ⟨m, hm, rfl⟩ := List.mem_map.mp hx
    rw [List.map_singleton, List.mem_singleton, haddress] at hy
    have hlt := h.below m hm
    split at hy
    · omega
    · exact absurd hy hy0
  case below =>
    rw [methods_pushMethod, hnext]
    intro m hm
    rcases List.mem_append.mp hm with hm | hm
    · have hlt := h.below m hm
      split
      · omega
      · exact hlt
    · rw [List.mem_singleton] at hm
      rw [hm, haddress]
      split <;> omega
  case first =>
    rw [hnext]
    have hle := h.first
    split <;> omega
  case next =>
    rw [hnext, methods_pushMethod, List.length_append, List.length_singleton, Nat.mul_add]
    have hle := h.next
    split <;> omega

theorem Filled.of_same {pushes : List Push} (h : Filled pushes e)
    (hmethods : e'.builder.methods = e.builder.methods) (hnext : e'.nextBody = e.nextBody) :
    Filled pushes e' where
  methods := hmethods ▸ h.methods
  tokens := hmethods ▸ h.tokens
  ascending := hmethods ▸ h.ascending
  below := by
    rw [hmethods, hnext]
    exact h.below
  first := hnext ▸ h.first
  next := by
    rw [hmethods, hnext]
    exact h.next

/-- Addresses ascend with the tokens, as long as tokens ascend. -/
theorem Filled.address_lt {pushes : List Push} (h : Filled pushes e)
    (hfits : e.builder.methods.length < Token.rowLimit) {m m' : MethodDef}
    (hm : m ∈ e.builder.methods) (hm' : m' ∈ e.builder.methods)
    (hrow : m.token.row < m'.token.row) (hbody : m.bodyAddress ≠ 0)
    (hbody' : m'.bodyAddress ≠ 0) : m.bodyAddress < m'.bodyAddress := by
  obtain ⟨i, hi, rfl⟩ := List.getElem_of_mem hm
  obtain ⟨j, hj, rfl⟩ := List.getElem_of_mem hm'
  rw [h.tokens i _ (List.getElem?_eq_getElem hi), h.tokens j _ (List.getElem?_eq_getElem hj),
    Token.row_ofRow (by omega), Token.row_ofRow (by omega)] at hrow
  have hpair := List.pairwise_iff_getElem.mp h.ascending i j (by rwa [List.length_map])
    (by rwa [List.length_map]) (by omega)
  rw [List.getElem_map, List.getElem_map] at hpair
  exact hpair hbody hbody'

/-- Addresses fit a word. -/
theorem Filled.address_fits {pushes : List Push} (h : Filled pushes e)
    (hfits : e.builder.methods.length < Token.rowLimit) {m : MethodDef}
    (hm : m ∈ e.builder.methods) : m.bodyAddress < 0x100000000 := by
  have hbelow := h.below m hm
  have hnext := h.next
  unfold firstBody bodyDistance at hnext
  unfold Token.rowLimit at hfits
  omega

-- ============================================== what members declare

/-- The methods that are declared, each with the path of its type and
whether it has a body. -/
def declares (deeds : List Deed) : List (TypePath × MethodDef × Bool) :=
  deeds.filterMap fun
    | .effect path (.declare m hasBody _) => some (path, m, hasBody)
    | _ => none

/-- The pushes that declarations make, each to the row of its type. -/
def pushesOf (e : Emission) (deeds : List Deed) : List Push :=
  (declares deeds).map fun x => ⟨rowAt e x.1, x.2.1, x.2.2⟩

theorem declares_append {more : List Deed} :
    declares (deeds ++ more) = declares deeds ++ declares more :=
  List.filterMap_append

theorem exists_deed_of_mem_declares {x : TypePath × MethodDef × Bool} (hx : x ∈ declares deeds) :
    ∃ span, Deed.effect x.1 (.declare x.2.1 x.2.2 span) ∈ deeds := by
  obtain ⟨d, hd, heq⟩ := List.mem_filterMap.mp hx
  cases d with
  | enter path decl => cases heq
  | effect path done =>
    cases done with
    | complain diagnostic span => cases heq
    | mark m => cases heq
    | declare m hasBody span =>
      cases heq
      exact ⟨span, hd⟩

theorem mem_declares {path : TypePath} {m : MethodDef} {hasBody : Bool} {span : Span}
    (hd : Deed.effect path (.declare m hasBody span) ∈ deeds) :
    (path, m, hasBody) ∈ declares deeds :=
  List.mem_filterMap.mpr ⟨_, hd, rfl⟩

/-- Declared methods stay in their rows. -/
theorem pushesOf_keeps (hs : Sited e deeds) (hk : Keeps e e') :
    pushesOf e' deeds = pushesOf e deeds := by
  unfold pushesOf
  refine List.map_congr_left fun x hx => ?_
  obtain ⟨span, hd⟩ := exists_deed_of_mem_declares hx
  have hrow : rowAt e' x.1 = rowAt e x.1 := hs.rowAt_eq hk hd
  rw [hrow]

theorem methods_openType {scope : Scope} {outer : Option Enclosing} {decl : TypeDecl} :
    (openType setting scope outer decl e).1.builder.methods = e.builder.methods
      ∧ (openType setting scope outer decl e).1.nextBody = e.nextBody := by
  unfold openType
  simp only []
  split
  · refine ⟨?_, rfl⟩
    show (e.builder.linkNested _ _).methods = _
    cases (keyOf scope outer decl.name decl.arity).enclosing with
    | none => rfl
    | some token => exact methods_modifyType _ _ _
  · exact ⟨rfl, rfl⟩
  · exact ⟨rfl, rfl⟩

/-- The table is filled with what members declare. -/
theorem Reaches.filled (h : Reaches setting module deeds e)
    (hplain : ∀ x ∈ declares deeds, x.2.1.bodyAddress = 0) : Filled (pushesOf e deeds) e := by
  induction h with
  | start =>
    refine ⟨.nil, fun i m hm => ?_, .nil, fun m hm => (List.not_mem_nil hm).elim, Nat.le_refl _,
      Nat.le_refl _⟩
    cases hm
  | @enter deeds e scope outer around decl inside hbefore _ _ ih =>
    have hold := ih fun x hx => hplain x (by rw [declares_append]; exact List.mem_append_left _ hx)
    have hnothing : ∀ state path, pushesOf state (deeds ++ [.enter path decl])
        = pushesOf state deeds := by
      intro state path
      unfold pushesOf
      rw [declares_append]
      exact congrArg _ (List.append_nil _)
    rw [hnothing, pushesOf_keeps hbefore.sited (keeps_openType setting scope outer decl e)]
    exact hold.of_same methods_openType.1 methods_openType.2
  | @effect deeds e path record token s effect hbefore hat _ ih =>
    have hold := ih fun x hx => hplain x (by rw [declares_append]; exact List.mem_append_left _ hx)
    have hk := keeps_apply setting e s record token effect
    have hsplit : pushesOf (Emission.apply setting s record token e effect)
          (deeds ++ [.effect path effect])
        = pushesOf e deeds
          ++ pushesOf (Emission.apply setting s record token e effect) [.effect path effect] := by
      rw [← pushesOf_keeps hbefore.sited hk]
      unfold pushesOf
      rw [declares_append, List.map_append]
    rw [hsplit]
    cases effect with
    | complain d span =>
      rw [show pushesOf _ [Deed.effect path (.complain d span)] = [] from rfl, List.append_nil]
      exact hold.of_same rfl rfl
    | mark m =>
      rw [show pushesOf _ [Deed.effect path (.mark m)] = [] from rfl, List.append_nil]
      exact hold.of_same rfl rfl
    | declare m hasBody span =>
      obtain ⟨r, hr, htoken⟩ := hat.holds
      have hnoticed := hplain (path, m, hasBody)
        (mem_declares (List.mem_append_right _ (List.mem_singleton_self _)))
      have hdeclaring : token = Push.token ⟨record + 1, m, hasBody⟩ := by
        rw [← htoken, hbefore.ranked.tokens record r hr]
        rfl
      have hone : pushesOf (Emission.apply setting s record token e (.declare m hasBody span))
          [.effect path (.declare m hasBody span)] = [⟨record + 1, m, hasBody⟩] := by
        show [Push.mk (rowAt _ path) m hasBody] = _
        rw [rowAt_of_recordAt? (hat.keeps hk).found]
      rw [hone]
      show Filled _ (Emission.declareMethod e setting s token m hasBody span)
      unfold Emission.declareMethod
      rw [hdeclaring]
      refine Filled.push ?_ setting ⟨record + 1, m, hasBody⟩ hnoticed
      split
      · exact hold.of_same rfl rfl
      · exact hold.of_same rfl rfl

-- ================================================================ keys

/-- The key of a method in a table. -/
def keyOfMethod (m : MethodDef) : MethodKey := MethodKey.of m.declaringType m

/-- The keys that are noted are those of the methods, and all are
different. -/
structure Keyed (e : Emission) : Prop where
  keys : e.keys = e.builder.methods.map keyOfMethod
  nodup : e.keys.Nodup

theorem IsPushed.name_eq {p : Push} {m : MethodDef} (h : IsPushed p m) :
    m.name = p.method.name := by
  have hname : (bare m).name = p.method.name := by
    rw [h.same]
    rfl
  exact hname

theorem IsPushed.signature_eq {p : Push} {m : MethodDef} (h : IsPushed p m) :
    m.signature = p.method.signature := by
  have hsignature : (bare m).signature = p.method.signature := by
    rw [h.same]
    rfl
  exact hsignature

/-- What a method is known by does not change when it is pushed. -/
theorem IsPushed.key_eq {p : Push} {m : MethodDef} (h : IsPushed p m) :
    keyOfMethod m = MethodKey.of p.token p.method := by
  unfold keyOfMethod MethodKey.of
  rw [h.declaring, h.name_eq, h.signature_eq]

/-- No two methods that members declare have the same key. -/
theorem Reaches.keyed (h : Reaches setting module deeds e) : Keyed e := by
  induction h with
  | start => exact ⟨rfl, .nil⟩
  | @enter deeds e scope outer around decl inside _ _ _ ih =>
    have hkeys : (openType setting scope outer decl e).1.keys = e.keys := by
      unfold openType
      simp only []
      split <;> rfl
    refine ⟨?_, hkeys ▸ ih.nodup⟩
    rw [hkeys, methods_openType.1]
    exact ih.keys
  | @effect deeds e path record token s effect _ _ hclean ih =>
    cases effect with
    | complain d span => exact ⟨ih.keys, ih.nodup⟩
    | mark m => exact ⟨ih.keys, ih.nodup⟩
    | declare m hasBody span =>
      have hfree : e.keys.contains (MethodKey.of token m) = false := by
        by_contra hne
        rw [Bool.not_eq_false] at hne
        have hcomplains : (e.complain setting (Emission.repeated s m) span).diagnostics.hasErrors
            = true := hasErrors_of_error setting e span rfl
        have hnoticed : (Emission.apply setting s record token e
              (.declare m hasBody span)).diagnostics
            = (e.complain setting (Emission.repeated s m) span).diagnostics := by
          show (Emission.declareMethod e setting s token m hasBody span).diagnostics = _
          simp only [Emission.declareMethod, hne, if_true]
          rfl
        rw [hnoticed, hcomplains] at hclean
        cases hclean
      have hdeclared : Emission.apply setting s record token e (.declare m hasBody span)
          = ({ e with keys := e.keys ++ [MethodKey.of token m] } : Emission).pushMethod setting
              token m hasBody := by
        show Emission.declareMethod e setting s token m hasBody span = _
        simp only [Emission.declareMethod, hfree, Bool.false_eq_true, if_false]
      rw [hdeclared]
      constructor
      · show e.keys ++ [MethodKey.of token m] = _
        rw [methods_pushMethod, List.map_append, ih.keys, List.map_singleton]
        congr 2
        unfold keyOfMethod placedMethod Emission.finishMethod MethodKey.of
        cases hasBody <;> cases setting.options.disableOptimization <;> rfl
      · show (e.keys ++ [MethodKey.of token m]).Nodup
        refine List.Nodup.append ih.nodup (List.nodup_singleton _) ?_
        rw [List.disjoint_singleton]
        intro hmem
        rw [List.contains_iff_mem.mpr hmem] at hfree
        cases hfree

-- ================================================== added constructors

/-- The constructors that the type of a record gets. -/
def additionsTo (row : Nat) (r : TypeRecord) : List Push :=
  (if Emission.needsConstructor r then [⟨row, Emission.addedConstructor r, true⟩] else [])
    ++ if Emission.needsTypeConstructor r then [⟨row, Emission.addedTypeConstructor, true⟩] else []

/-- The constructors that the types of records get, the first of which has
a row. -/
def additionsFrom (row : Nat) : List TypeRecord → List Push
  | [] => []
  | r :: rest => additionsTo row r ++ additionsFrom (row + 1) rest

theorem mem_additionsTo {row : Nat} {r : TypeRecord} {p : Push} :
    p ∈ additionsTo row r
      ↔ Emission.needsConstructor r = true ∧ p = ⟨row, Emission.addedConstructor r, true⟩
        ∨ Emission.needsTypeConstructor r = true
          ∧ p = ⟨row, Emission.addedTypeConstructor, true⟩ := by
  unfold additionsTo
  rw [List.mem_append]
  cases Emission.needsConstructor r <;> cases Emission.needsTypeConstructor r <;> simp

theorem mem_additionsFrom {row : Nat} {rs : List TypeRecord} {p : Push} :
    p ∈ additionsFrom row rs
      ↔ ∃ (i : Nat) (r : TypeRecord), rs[i]? = some r ∧ p ∈ additionsTo (row + i) r := by
  induction rs generalizing row with
  | nil =>
    refine iff_of_false List.not_mem_nil ?_
    rintro ⟨i, r, hr, -⟩
    cases hr
  | cons r rest ih =>
    rw [additionsFrom, List.mem_append, ih]
    constructor
    · rintro (hp | ⟨i, r', hr', hp⟩)
      · exact ⟨0, r, rfl, hp⟩
      · exact ⟨i + 1, r', hr', by rwa [Nat.add_right_comm row 1 i] at hp⟩
    · rintro ⟨i, r', hr', hp⟩
      cases i with
      | zero =>
        cases hr'
        exact .inl hp
      | succ i =>
        refine .inr ⟨i, r', hr', ?_⟩
        rwa [Nat.add_right_comm row 1 i]

theorem row_of_mem_additionsTo {row : Nat} {r : TypeRecord} {p : Push}
    (hp : p ∈ additionsTo row r) : p.row = row := by
  rcases mem_additionsTo.mp hp with ⟨-, rfl⟩ | ⟨-, rfl⟩ <;> rfl

/-- The added constructors have different keys. -/
theorem nodup_additionsFrom (row : Nat) (rs : List TypeRecord) :
    ((additionsFrom row rs).map Push.key).Nodup := by
  induction rs generalizing row with
  | nil => exact .nil
  | cons r rest ih =>
    rw [additionsFrom, List.map_append]
    refine List.Nodup.append ?_ (ih (row + 1)) ?_
    · -- the two of one type have different names
      unfold additionsTo
      split <;> split
      · refine List.nodup_cons.mpr ⟨fun hmem => ?_, List.nodup_singleton _⟩
        have heq := congrArg (fun x => x.2.name) (List.mem_singleton.mp hmem)
        exact absurd (show ".ctor" = ".cctor" from heq) (by decide)
      · exact List.nodup_singleton _
      · exact List.nodup_singleton _
      · exact .nil
    · intro x hx hx'
      obtain ⟨p, hp, rfl⟩ := List.mem_map.mp hx
      obtain ⟨q, hq, heq⟩ := List.mem_map.mp hx'
      obtain ⟨i, r', -, hq⟩ := mem_additionsFrom.mp hq
      have hrow : q.row = p.row := congrArg Prod.fst heq
      rw [row_of_mem_additionsTo hq, row_of_mem_additionsTo hp] at hrow
      omega

theorem filled_completeType {pushes : List Push} (h : Filled pushes e) {row : Nat}
    {r : TypeRecord} (htoken : r.token = .ofRow .typeDef (row + 1)) :
    Filled (pushes ++ additionsTo row r) (Emission.completeType setting e r) := by
  unfold Emission.completeType additionsTo
  simp only []
  rw [htoken]
  by_cases hc : Emission.needsConstructor r = true
  · rw [if_pos hc, if_pos hc]
    have hfirst := h.push setting ⟨row, Emission.addedConstructor r, true⟩ rfl
    by_cases ht : Emission.needsTypeConstructor r = true
    · rw [if_pos ht, if_pos ht, ← List.append_assoc]
      exact hfirst.push setting ⟨row, Emission.addedTypeConstructor, true⟩ rfl
    · rw [if_neg ht, if_neg ht, List.append_nil]
      exact hfirst
  · rw [if_neg hc, if_neg hc, List.nil_append]
    by_cases ht : Emission.needsTypeConstructor r = true
    · rw [if_pos ht, if_pos ht]
      exact h.push setting ⟨row, Emission.addedTypeConstructor, true⟩ rfl
    · rw [if_neg ht, if_neg ht, List.append_nil]
      exact h

theorem filled_foldl_completeType {pushes : List Push} {rs : List TypeRecord} {row : Nat}
    (h : Filled pushes e)
    (htokens : ∀ (i : Nat) (r : TypeRecord), rs[i]? = some r →
      r.token = .ofRow .typeDef (row + i + 1)) :
    Filled (pushes ++ additionsFrom row rs) (rs.foldl (Emission.completeType setting) e) := by
  induction rs generalizing e pushes row with
  | nil =>
    rw [additionsFrom, List.append_nil]
    exact h
  | cons r rest ih =>
    rw [additionsFrom, ← List.append_assoc]
    refine ih (filled_completeType h (htokens 0 r rfl)) fun i r' hr' => ?_
    rw [htokens (i + 1) r' hr']
    congr 1
    omega

/-- The added constructors come behind the methods of members. -/
theorem filled_complete {pushes : List Push} (h : Filled pushes e) (hranked : Ranked e)
    (setting : Setting) :
    Filled (pushes ++ additionsFrom 1 e.types) (e.complete setting) := by
  refine filled_foldl_completeType h fun i r hr => ?_
  rw [hranked.tokens i r hr]
  congr 1
  omega

/-- What pushes keep is kept when constructors are added. -/
theorem complete_induction {P : Emission → Prop} (h : P e)
    (hpush : ∀ e declaring m hasBody, P e → P (e.pushMethod setting declaring m hasBody)) :
    P (e.complete setting) := by
  have hone : ∀ e r, P e → P (Emission.completeType setting e r) := by
    intro e r he
    have hfirst : P (if Emission.needsConstructor r then
        e.pushMethod setting r.token (Emission.addedConstructor r) true else e) := by
      split
      · exact hpush e _ _ _ he
      · exact he
    unfold Emission.completeType
    simp only []
    split
    · exact hpush _ _ _ _ hfirst
    · exact hfirst
  have hall : ∀ (rs : List TypeRecord) e, P e → P (rs.foldl (Emission.completeType setting) e) := by
    intro rs
    induction rs with
    | nil => exact fun _ he => he
    | cons r rest ih => exact fun e he => ih _ (hone e r he)
  exact hall e.types e h

/-- Adding constructors changes no record, and rows keep pace. -/
theorem ranked_complete (h : Ranked e) (setting : Setting) :
    (e.complete setting).types = e.types ∧ Ranked (e.complete setting) :=
  complete_induction (P := fun e' => e'.types = e.types ∧ Ranked e') ⟨rfl, h⟩
    fun _ declaring m hasBody he => ⟨he.1, he.2.pushMethod setting declaring m hasBody⟩

end ClrListing.Lowering
