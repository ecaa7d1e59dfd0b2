/-
How the flat tables of a compiled module reflect the nested declarations
of its file.

`Layout` spells it out: which types there are and in which order, where
each of them says that it stands and what is nested in it, which type
parameters it has, and how the methods are shared out among the types.
Partial declarations of a type are one type; where they name their type
parameters differently, those of the first count.
-/
import ClrListing.Proofs.Lowering.Compiled

namespace ClrListing.Lowering

open Assembly Metadata Syntax

-- ============================================================== layouts

/-- What tells the row of a type apart. -/
def keyOfRow (t : TypeDef) : TypeKey := ⟨t.enclosing, t.space, t.name⟩

/-- The distinct paths of the types that a file declares, in the order in
which they first occur. -/
def declaredRows (unit : CompilationUnit) : List TypePath :=
  ((declarations unit).map Prod.fst).eraseDups

/-- The tables of a module reflect the declarations of a file. -/
structure Layout (unit : CompilationUnit) (a : Assembly) : Prop where
  /-- Types and methods are numbered by their places. -/
  numbered : a.Numbered
  /-- The first type stands for the module. -/
  module : a.types.head? = some moduleRow
  /-- Behind it are the types that the file declares, each once, in the
  order in which they are first declared. -/
  keys : a.types.tail.map keyOfRow
    = ((declarations unit).map fun d => keyIn (declaredRows unit) d.1).eraseDups
  /-- Each declared type has its name, stands in the type in which it is
  declared, holds the types that are declared directly in it, in that
  order, and has the type parameters that are declared along the way to
  it. -/
  row : ∀ d ∈ declarations unit,
    ∃ t, a.type? (tokenIn (declaredRows unit) d.1) = some t
      ∧ t.space = d.1.space ∧ t.name = d.1.name
      ∧ t.enclosing = d.1.outer.map (tokenIn (declaredRows unit))
      ∧ t.nested = ((declaredRows unit).filter fun q => q.outer = some d.1).map
          (tokenIn (declaredRows unit))
      ∧ t.genericParams = paramsAlong (declarations unit) d.1
  /-- What is nested in an open type is open. -/
  opened : ∀ t ∈ a.types, ∀ token, t.enclosing = some token →
    ∃ outer, a.type? token = some outer ∧ (outer.isOpen → t.isOpen)
  /-- A type lists exactly the methods that it declares, in ascending
  order. -/
  methods : ∀ t ∈ a.types,
    t.methods = (a.methods.filter fun m => m.declaringType = t.token).map MethodDef.token
      ∧ t.methods.Pairwise fun x y => x.row < y.row
  /-- Every method is listed by one type. -/
  housed : ∀ m ∈ a.methods, ∃! t, t ∈ a.types ∧ m.token ∈ t.methods

variable {unit : CompilationUnit} {added : List Step} {a : Assembly} {steps : List Step}

theorem rowsOf_script (hw : unit.WellNamed) (hadded : Unlisted added) :
    rowsOf (script unit ++ added) = declaredRows unit := by
  unfold rowsOf declaredRows
  rw [entered_script hw hadded]

/-- The keys of the types are the distinct keys of the declarations. -/
theorem keys_of_renders (h : Renders a steps) :
    a.types.tail.map keyOfRow
      = ((entered steps).map fun d => keyIn (rowsOf steps) d.1).eraseDups := by
  have hrows : (typesIn steps).tail.map keyOfRow = (rowsOf steps).map (keyIn (rowsOf steps)) := by
    rw [typesIn, List.tail_cons, List.map_map]
    rfl
  have hinj : ∀ p ∈ (entered steps).map Prod.fst, ∀ q ∈ (entered steps).map Prod.fst,
      keyIn (rowsOf steps) p = keyIn (rowsOf steps) q → p = q := by
    intro p hp q hq heq
    exact keyIn_inj h.fits h.grounded.rooted (h.grounded.rooted p (mem_rowsOf.mpr hp))
      (mem_rowsOf.mpr hq) heq
  have hmap : ((entered steps).map fun d => keyIn (rowsOf steps) d.1)
      = ((entered steps).map Prod.fst).map (keyIn (rowsOf steps)) := by
    rw [List.map_map]
    rfl
  rw [h.types, hrows, hmap, Distinct.eraseDups_map hinj]
  rfl

/-- The type parameters along a way are not fewer farther down. -/
theorem isOpen_typeRow {path outer : TypePath} (ho : path.outer = some outer)
    (h : (typeRow steps outer).isOpen = true) : (typeRow steps path).isOpen = true := by
  unfold TypeDef.isOpen typeRow at h ⊢
  simp only [] at h ⊢
  rw [paramsAlong_eq, ho, Option.map_some, Option.getD_some]
  cases hparams : paramsAlong (entered steps) outer with
  | nil =>
    rw [hparams] at h
    cases h
  | cons p ps => rfl

theorem mem_types_iff (h : RendersTypes a steps) {t : TypeDef} :
    t ∈ a.types ↔ t = moduleRow ∨ ∃ path ∈ rowsOf steps, typeRow steps path = t := by
  rw [h.types, typesIn, List.mem_cons, List.mem_map]

theorem opened_of_renders (h : Renders a steps) :
    ∀ t ∈ a.types, ∀ token, t.enclosing = some token →
      ∃ outer, a.type? token = some outer ∧ (outer.isOpen → t.isOpen) := by
  intro t ht token henclosing
  rcases (mem_types_iff h.rows).mp ht with rfl | ⟨path, hpath, rfl⟩
  · cases henclosing
  · obtain ⟨outer, houter, rfl⟩ := Option.map_eq_some_iff.mp henclosing
    exact ⟨typeRow steps outer, h.type?_tokenIn (h.grounded.rooted path hpath outer houter),
      isOpen_typeRow houter⟩

/-- The token of the module's row is that of no declared type. -/
theorem token_ne_moduleRow (h : RendersTypes a steps) {path : TypePath} (hmem : path ∈ rowsOf steps) :
    tokenIn (rowsOf steps) path ≠ moduleRow.token := by
  intro heq
  have hrow := congrArg Token.row heq
  rw [row_tokenIn h.fits hmem, moduleRow, Token.row_ofRow (by decide)] at hrow
  omega

/-- The type that declares a method has a row. -/
theorem exists_row_of_method (h : Renders a steps) {m : MethodDef} (hm : m ∈ a.methods) :
    ∃ path ∈ rowsOf steps, m.declaringType = tokenIn (rowsOf steps) path := by
  obtain ⟨i, hlt, hget⟩ := List.getElem_of_mem hm
  obtain ⟨p, hp, hbare⟩ := h.method_at (List.getElem?_eq_some_iff.mpr ⟨hlt, hget⟩)
  exact ⟨p.1, h.grounded.housed p (List.mem_of_getElem? hp), congrArg MethodDef.declaringType hbare⟩

theorem methods_of_renders (h : Renders a steps) :
    ∀ t ∈ a.types,
      t.methods = (a.methods.filter fun m => m.declaringType = t.token).map MethodDef.token := by
  intro t ht
  rcases (mem_types_iff h.rows).mp ht with rfl | ⟨path, hpath, rfl⟩
  · -- no method belongs to the module's own row
    symm
    rw [show moduleRow.methods = [] from rfl, List.map_eq_nil_iff, List.filter_eq_nil_iff]
    intro m hm heq
    obtain ⟨path, hpath, hdeclares⟩ := exists_row_of_method h hm
    have heq : m.declaringType = moduleRow.token := of_decide_eq_true heq
    exact token_ne_moduleRow h.rows hpath (hdeclares.symm.trans heq)
  · exact h.methodTokens_eq hpath

/-- The tokens of methods ascend. -/
theorem pairwise_row_tokens (h : Renders a steps) :
    (a.methods.map MethodDef.token).Pairwise fun x y => x.row < y.row := by
  rw [List.pairwise_iff_getElem]
  intro i j hi hj hij
  rw [List.length_map] at hi hj
  have hfit := h.methodsFit
  rw [List.getElem_map, List.getElem_map, h.token_at (List.getElem?_eq_getElem hi),
    h.token_at (List.getElem?_eq_getElem hj), Token.row_ofRow (by omega),
    Token.row_ofRow (by omega)]
  omega

theorem ascending_of_renders (h : Renders a steps) :
    ∀ t ∈ a.types, t.methods.Pairwise fun x y => x.row < y.row := by
  intro t ht
  rw [methods_of_renders h t ht]
  have hsub : ((a.methods.filter fun m => m.declaringType = t.token).map MethodDef.token).Sublist
      (a.methods.map MethodDef.token) := List.filter_sublist.map _
  exact (pairwise_row_tokens h).sublist hsub

theorem token_mem_methods_iff (h : Renders a steps) {t : TypeDef} {m : MethodDef}
    (ht : t ∈ a.types) (hm : m ∈ a.methods) :
    m.token ∈ t.methods ↔ m.declaringType = t.token := by
  rw [methods_of_renders h t ht, List.mem_map]
  constructor
  · rintro ⟨m', hm', heq⟩
    obtain ⟨hin, hdeclares⟩ := List.mem_filter.mp hm'
    have hsame : m' = m := List.inj_on_of_nodup_map h.nodup_tokens hin hm heq
    exact hsame ▸ of_decide_eq_true hdeclares
  · intro hdeclares
    exact ⟨m, List.mem_filter.mpr ⟨hm, decide_eq_true hdeclares⟩, rfl⟩

theorem housed_of_renders (h : Renders a steps) :
    ∀ m ∈ a.methods, ∃! t, t ∈ a.types ∧ m.token ∈ t.methods := by
  intro m hm
  obtain ⟨path, hpath, hdeclares⟩ := exists_row_of_method h hm
  have hrow : typeRow steps path ∈ a.types := (mem_types_iff h.rows).mpr (.inr ⟨path, hpath, rfl⟩)
  refine ⟨typeRow steps path, ⟨hrow, (token_mem_methods_iff h hrow hm).mpr hdeclares⟩, ?_⟩
  rintro t ⟨ht, hlists⟩
  have htoken := (token_mem_methods_iff h ht hm).mp hlists
  rcases (mem_types_iff h.rows).mp ht with rfl | ⟨other, hother, rfl⟩
  · exact absurd (hdeclares.symm.trans htoken) (token_ne_moduleRow h.rows hpath)
  · rw [tokenIn_inj h.fits hother hpath (htoken.symm.trans hdeclares)]

-- ========================================================= a whole file

/-- Every file that parses and compiles is laid out in its module as it is
written. -/
theorem layout_of_compile {source module : String} {tree : Tree} {options : CompileOptions}
    {a : Assembly} (hparse : (Run.outcome (Tree.parse source)).1 = .ok tree)
    (hcompile : (Run.outcome (compile module tree options)).1 = .ok a)
    (htypes : a.types.length < Token.rowLimit) (hmethods : a.methods.length < Token.rowLimit) :
    Layout tree.root a := by
  have hw := wellNamed_of_parse hparse
  obtain ⟨added, hadded, h⟩ := renders_of_compile hcompile htypes hmethods
  have hentered := entered_script hw hadded
  have hrows := rowsOf_script hw hadded
  constructor
  · exact h.numbered
  · rw [h.types]
    rfl
  · have hkeys := keys_of_renders h
    rwa [hentered, hrows] at hkeys
  · intro d hd
    have hmem : d.1 ∈ rowsOf (script tree.root ++ added) := by
      rw [mem_rowsOf, hentered]
      exact List.mem_map_of_mem hd
    have hfound := h.type?_tokenIn hmem
    rw [hrows] at hfound
    refine ⟨_, hfound, rfl, rfl, ?_, ?_, ?_⟩
    · rw [← hrows]
      rfl
    · rw [← hrows]
      rfl
    · rw [← hentered]
      rfl
  · exact opened_of_renders h
  · exact fun t ht => ⟨methods_of_renders h t ht, ascending_of_renders h t ht⟩
  · exact housed_of_renders h

/-- A file with nested, generic and partial types. -/
def nestedSource : String :=
  "namespace N \x7b partial class A<T> \x7b void M() \x7b \x7d\n"
    ++ "class B<U> \x7b int P \x7b get; set; \x7d \x7d \x7d interface I \x7b \x7d\n"
    ++ "partial class A<T> \x7b struct C \x7b \x7d void M(int n) \x7b \x7d \x7d \x7d"

/-- The file with nested types parses, compiles and is laid out as it is
written. -/
theorem layout_of_nestedSource : ∃ tree a,
    (Run.outcome (Tree.parse nestedSource)).1 = .ok tree
      ∧ (Run.outcome (compile "Nested" tree ⟨false⟩)).1 = .ok a
      ∧ a.types.length < Token.rowLimit ∧ a.methods.length < Token.rowLimit
      ∧ Layout tree.root a := by
  have hruns : compilesTo nestedSource "Nested" (fun _ _ => true) = true := by decide +kernel
  obtain ⟨tree, a, hparse, hcompile, htypes, hmethods, -⟩ := of_compilesTo hruns
  exact ⟨tree, a, hparse, hcompile, htypes, hmethods,
    layout_of_compile hparse hcompile htypes hmethods⟩

end ClrListing.Lowering
