/-
What a resolver finds in the module that a file compiles to.

The types of such a module are found by the names along their paths, as
no two of them stand in the same place under the same name. The methods
that a type declares are those that say so, in the order of their rows.
So the visits of a resolver are the calls of the forest, with tokens for
paths (`visits_eq_calls`), and which methods a type has under a name can
be seen in the script (`map_isNamed`).
-/
import ClrListing.Proofs.Binding.Requests
import ClrListing.Proofs.Lowering.Layout
import ClrListing.Proofs.Lowering.Listed

namespace ClrListing.Binding

open Assembly Lowering Metadata

variable {a : Assembly} {steps : List Step} {path : TypePath}

-- ======================================================== finding types

/-- What is found is the one element that fits. -/
theorem find?_of_unique {α : Type} {p : α → Bool} {xs : List α} {x : α} (hmem : x ∈ xs)
    (hfits : p x = true) (honly : ∀ y ∈ xs, p y = true → y = x) : xs.find? p = some x := by
  cases hfound : xs.find? p with
  | none => exact absurd hfits (List.find?_eq_none.mp hfound x hmem)
  | some y => rw [honly y (List.mem_of_find?_eq_some hfound) (List.find?_some hfound)]

/-- A token names the type that has it. -/
theorem token_of_type? (h : a.Numbered) {token : Token} {t : TypeDef}
    (hfound : a.type? token = some t) : t ∈ a.types ∧ t.token = token := by
  unfold Assembly.type? at hfound
  split at hfound
  · next hin =>
    unfold atRow? at hfound
    split at hfound
    · cases hfound
    · next hrow =>
      refine ⟨List.mem_of_getElem? hfound, ?_⟩
      rw [h.types _ t hfound, Nat.sub_add_cancel (Nat.one_le_iff_ne_zero.mpr hrow)]
      exact Token.ofRow_row hin
  · cases hfound

/-- A type is found under its token. -/
theorem type?_token (h : a.Numbered) {t : TypeDef} (ht : t ∈ a.types) :
    a.type? t.token = some t := by
  obtain ⟨i, hlt, hget⟩ := List.getElem_of_mem ht
  have hat : a.types[i]? = some t := List.getElem?_eq_some_iff.mpr ⟨hlt, hget⟩
  have hfit := h.typesFit
  unfold Assembly.type? atRow?
  rw [h.types i t hat, if_pos (Token.isIn_ofRow _ _),
    Token.row_ofRow (by unfold Token.rowLimit; omega), if_neg (by omega), Nat.add_sub_cancel, hat]

/-- A declared type at the top is found by its namespace and its name. -/
theorem findType?_top (h : RendersTypes a steps) {space name : String}
    (hmem : TypePath.top space name ∈ rowsOf steps) (hname : name ≠ "<Module>") :
    a.findType? space name = some (typeRow steps (.top space name)) := by
  unfold Assembly.findType?
  apply find?_of_unique
  · exact (mem_types_iff h).mpr (.inr ⟨_, hmem, rfl⟩)
  · simp [typeRow, TypePath.outer, TypePath.space, TypePath.name]
  · intro t ht hfits
    rw [Bool.and_eq_true, Bool.and_eq_true, Option.isNone_iff_eq_none, decide_eq_true_eq,
      decide_eq_true_eq] at hfits
    obtain ⟨⟨htop, hspace⟩, hsame⟩ := hfits
    rcases (mem_types_iff h).mp ht with rfl | ⟨path, hpath, rfl⟩
    · exact absurd hsame.symm hname
    · cases path with
      | top space' name' =>
        rw [show space' = space from hspace, show name' = name from hsame]
      | inner outer name' => cases htop

/-- The types that are nested in a declared type. -/
theorem nested_typeRow (h : RendersTypes a steps) :
    (typeRow steps path).nested.filterMap a.type?
      = ((rowsOf steps).filter fun q => q.outer = some path).map (typeRow steps) := by
  rw [show (typeRow steps path).nested = nestedTokens (rowsOf steps) path from rfl, nestedTokens,
    List.filterMap_map, ← List.filterMap_eq_map]
  refine List.filterMap_congr fun q hq => ?_
  exact h.type?_tokenIn (List.mem_of_mem_filter hq)

/-- A declared type in another is found by its name. -/
theorem nestedType?_inner (h : RendersTypes a steps) {name : String}
    (hmem : path.inner name ∈ rowsOf steps) :
    a.nestedType? (tokenIn (rowsOf steps) path) name = some (typeRow steps (path.inner name)) := by
  have houter : path ∈ rowsOf steps := h.grounded.rooted _ hmem path rfl
  unfold Assembly.nestedType?
  rw [h.type?_tokenIn houter, Option.bind_eq_bind, Option.bind_some, nested_typeRow h]
  apply find?_of_unique
  · exact List.mem_map_of_mem (List.mem_filter.mpr ⟨hmem, decide_eq_true rfl⟩)
  · exact decide_eq_true rfl
  · intro t ht hname
    obtain ⟨q, hq, rfl⟩ := List.mem_map.mp ht
    have hin : q.outer = some path := of_decide_eq_true (List.mem_filter.mp hq).2
    have hsame : q.name = name := of_decide_eq_true hname
    cases q with
    | top space name' => cases hin
    | inner outer name' =>
      cases hin
      rw [show name' = name from hsame]

/-- A declaration names the type at its path. -/
theorem locate_pathIn (h : Renders a steps)
    (hnamed : ∀ path ∈ rowsOf steps, path.name ≠ "<Module>") {outer : Option TypePath}
    {d : Declaration} (htype : d.isType = true) (hmem : pathIn outer d ∈ rowsOf steps) :
    locate a (outer.map (tokenIn (rowsOf steps))) d
      = some (tokenIn (rowsOf steps) (pathIn outer d)) := by
  cases outer with
  | some path =>
    rw [Option.map_some, locate, nestedType?_inner h.rows hmem]
    rfl
  | none =>
    cases hk : d.kind with
    | type space name arity =>
      have hpath : pathIn none d = .top space d.canonicalName := by
        simp only [pathIn, hk]
      rw [hpath] at hmem ⊢
      simp only [Option.map_none, locate, hk]
      rw [findType?_top h.rows hmem (hnamed _ hmem)]
      rfl
    | constructor =>
      rw [Declaration.isType, hk] at htype
      cases htype
    | method =>
      rw [Declaration.isType, hk] at htype
      cases htype
    | accessor =>
      rw [Declaration.isType, hk] at htype
      cases htype

-- ==================================================== visits and calls

/-- The visit that a call is, with tokens for paths. -/
def visitIn (rows : List TypePath) : Call → Visit
  | .type outer d => .type (outer.map (tokenIn rows)) d
  | .member owner d => .member (tokenIn rows owner) d

/-- Whether the types that are called for are found at their paths. -/
def AllLocated (a : Assembly) (rows : List TypePath) (cs : List Call) : Prop :=
  ∀ outer d, Call.type outer d ∈ cs →
    locate a (outer.map (tokenIn rows)) d = some (tokenIn rows (pathIn outer d))

variable {rows : List TypePath}

theorem AllLocated.left {cs cs' : List Call} (h : AllLocated a rows (cs ++ cs')) :
    AllLocated a rows cs := fun outer d hd => h outer d (List.mem_append_left _ hd)

theorem AllLocated.right {cs cs' : List Call} (h : AllLocated a rows (cs ++ cs')) :
    AllLocated a rows cs' := fun outer d hd => h outer d (List.mem_append_right _ hd)

mutual

theorem visitsOfType_eq_calls :
    ∀ (d : Declaration) (outer : Option TypePath), AllLocated a rows (callsOfType outer d) →
      visitsOfType a (outer.map (tokenIn rows)) d = (callsOfType outer d).map (visitIn rows)
  | ⟨kind, span, children⟩, outer, h => by
    rw [callsOfType] at h ⊢
    have hinside : AllLocated a rows (callsInside (pathIn outer ⟨kind, span, children⟩) children) :=
      fun outer' d' hd' => h outer' d' (List.mem_cons_of_mem _ hd')
    rw [visitsOfType, h outer _ List.mem_cons_self]
    simp only []
    rw [visitsInside_eq_calls children _ hinside]
    rfl

theorem visitsInside_eq_calls :
    ∀ (ds : List Declaration) (owner : TypePath), AllLocated a rows (callsInside owner ds) →
      visitsInside a (tokenIn rows owner) ds = (callsInside owner ds).map (visitIn rows)
  | [], owner, _ => by
    rw [visitsInside, callsInside, List.map_nil]
  | d :: rest, owner, h => by
    rw [callsInside] at h ⊢
    rw [visitsInside, visitsInside_eq_calls rest owner h.right, List.map_append]
    congr 1
    cases htype : d.isType with
    | true =>
      rw [htype] at h
      exact visitsOfType_eq_calls d (some owner) h.left
    | false => rfl

end

/-- The visits of a forest are its calls. -/
theorem visits_eq_calls :
    ∀ forest : List Declaration, AllLocated a rows (calls forest) →
      visits a forest = (calls forest).map (visitIn rows) := by
  intro forest
  induction forest with
  | nil =>
    intro _
    rw [visits, calls, List.map_nil]
  | cons d rest ih =>
    intro h
    rw [calls] at h ⊢
    rw [visits, List.map_append, ih h.right]
    congr 1
    exact visitsOfType_eq_calls d none h.left

/-- What the visits of calls ask for is what is called for. -/
theorem requests_visitIn (cs : List Call) :
    requests (cs.map (visitIn rows)) = (memberCalls cs).map fun q => (tokenIn rows q.1, q.2) := by
  unfold requests memberCalls
  rw [List.filterMap_map, List.map_filterMap]
  refine List.filterMap_congr fun c _ => ?_
  cases c <;> rfl

-- ====================================================== finding methods

/-- A method is found under its token. -/
theorem method?_token (h : a.Numbered) {m : MethodDef} (hm : m ∈ a.methods) :
    a.method? m.token = some m := by
  obtain ⟨i, hlt, hget⟩ := List.getElem_of_mem hm
  have hat : a.methods[i]? = some m := List.getElem?_eq_some_iff.mpr ⟨hlt, hget⟩
  have hfit := h.methodsFit
  unfold Assembly.method? atRow?
  rw [h.methods i m hat, if_pos (Token.isIn_ofRow _ _),
    Token.row_ofRow (by unfold Token.rowLimit; omega), if_neg (by omega), Nat.add_sub_cancel, hat]

/-- The methods of a type are those that say that it declares them. -/
theorem declaredMethods_eq (h : Renders a steps) (type : Token) :
    a.declaredMethods type = a.methods.filter fun m => m.declaringType = type := by
  unfold Assembly.declaredMethods
  cases hfound : a.type? type with
  | some t =>
    obtain ⟨ht, rfl⟩ := token_of_type? h.numbered hfound
    simp only []
    rw [methods_of_renders h t ht, List.filterMap_map]
    refine (List.filterMap_congr fun m hm => ?_).trans List.filterMap_some
    exact method?_token h.numbered (List.mem_of_mem_filter hm)
  | none =>
    simp only []
    symm
    rw [List.filter_eq_nil_iff]
    intro m hm hdeclares
    obtain ⟨path, hpath, heq⟩ := exists_row_of_method h hm
    have hsome := h.type?_tokenIn hpath
    rw [← heq, of_decide_eq_true hdeclares, hfound] at hsome
    cases hsome

/-- Whether a method is one that declarations of a name take from a
type. -/
def isNamed (type : Token) (name : String) (m : MethodDef) : Bool :=
  m.declaringType = type && (!m.isGenerated && m.canonicalName = name)

theorem methodsNamed_eq (h : Renders a steps) (type : Token) (name : String) :
    a.methodsNamed type name = (a.methods.filter (isNamed type name)).map MethodDef.token := by
  unfold Assembly.methodsNamed
  rw [declaredMethods_eq h, List.filter_filter]
  congr 1
  refine List.filter_congr fun m _ => ?_
  rw [Bool.and_comm]
  rfl

theorem nodup_methodsNamed (h : Renders a steps) (type : Token) (name : String) :
    (a.methodsNamed type name).Nodup := by
  rw [methodsNamed_eq h]
  exact h.nodup_tokens.sublist (List.filter_sublist.map _)

/-- A token among the methods of a name is that of a method of the type
and the name. -/
theorem method_of_methodsNamed (h : Renders a steps) {type token : Token} {name : String}
    (hmem : token ∈ a.methodsNamed type name) :
    ∃ m, a.method? token = some m ∧ m.declaringType = type ∧ m.canonicalName = name := by
  rw [methodsNamed_eq h] at hmem
  obtain ⟨m, hm, rfl⟩ := List.mem_map.mp hmem
  obtain ⟨hin, hnamed⟩ := List.mem_filter.mp hm
  rw [isNamed, Bool.and_eq_true, Bool.and_eq_true, decide_eq_true_eq, decide_eq_true_eq] at hnamed
  exact ⟨m, method?_token h.numbered hin, hnamed.1, hnamed.2.2⟩

/-- No method is among those of two names or two types. -/
theorem methodsNamed_apart (h : Renders a steps) {type type' token : Token} {name name' : String}
    (hmem : token ∈ a.methodsNamed type name) (hmem' : token ∈ a.methodsNamed type' name') :
    type = type' ∧ name = name' := by
  obtain ⟨m, hm, htype, hname⟩ := method_of_methodsNamed h hmem
  obtain ⟨m', hm', htype', hname'⟩ := method_of_methodsNamed h hmem'
  rw [hm] at hm'
  cases hm'
  exact ⟨htype.symm.trans htype', hname.symm.trans hname'⟩

/-- Whether a method of a script is one that declarations of a name take
from a type. -/
def isPushedUnder (rows : List TypePath) (type : Token) (name : String)
    (p : TypePath × Lowered) : Bool :=
  tokenIn rows p.1 = type && (!p.2.method.isGenerated && p.2.method.canonicalName = name)

/-- A method that stands for a declaration is taken where the declaration
asks. -/
theorem isPushedUnder_eq {rows : List TypePath} {type : Token} {name : String}
    {p : TypePath × Lowered} {d : Declaration} (h : StandsFor p.2.method d) :
    isPushedUnder rows type name p = asksFor type name (tokenIn rows p.1, d) := by
  unfold isPushedUnder asksFor
  rw [h.kept, h.name, Bool.not_false, Bool.true_and]

/-- Which methods are named by type and name can be seen in the script. -/
theorem map_isNamed (h : Renders a steps) (type : Token) (name : String) :
    a.methods.map (isNamed type name)
      = (pushed steps).map (isPushedUnder (rowsOf steps) type name) := by
  calc a.methods.map (isNamed type name)
      = (a.methods.map bare).map (isNamed type name) := by
        rw [List.map_map]
        rfl
    _ = (pushed steps).zipIdx.map (isPushedUnder (rowsOf steps) type name ∘ Prod.fst) := by
        rw [h.methods, methodsIn, List.map_map]
        rfl
    _ = (pushed steps).map (isPushedUnder (rowsOf steps) type name) := by
        rw [← List.map_map, List.zipIdx_map_fst]

/-- How many of the first methods are named by type and name can be
counted in the script. -/
theorem countP_take_isNamed (h : Renders a steps) (type : Token) (name : String) (i : Nat) :
    (a.methods.take i).countP (isNamed type name)
      = ((pushed steps).take i).countP (isPushedUnder (rowsOf steps) type name) := by
  have hmap := congrArg (fun bs => (bs.take i).countP id) (map_isNamed h type name)
  simp only [← List.map_take, List.countP_map, Function.id_comp] at hmap
  exact hmap

theorem length_methodsNamed (h : Renders a steps) (type : Token) (name : String) :
    (a.methodsNamed type name).length
      = (pushed steps).countP (isPushedUnder (rowsOf steps) type name) := by
  have hall := countP_take_isNamed h type name a.methods.length
  rw [List.take_length, h.length_methods, List.take_length] at hall
  rw [methodsNamed_eq h, List.length_map, ← List.countP_eq_length_filter, hall]

end ClrListing.Binding
