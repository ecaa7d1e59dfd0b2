/-
Types are found again by their full names.

A full name flattens the path to a type: the namespace and the name of the
type at the top with a dot between them, then the names farther down, each
after a plus sign. It is taken apart by other rules: it is cut at the plus
signs, and its first piece at the last dot. That gives back the path since
names are made of the characters of identifiers, a backtick and digits, so
no name has a dot or a plus sign in it, and no namespace a plus sign
(`IsPlain`).

Going down the path, the module then has one type for each name, as no two
types stand in the same place under the same name. The walk up from a type
spells out its path, and needs no more of the module than the rows up to
that of the type, as they are named (`BeginsAs`).
-/
import ClrListing.Proofs.Assembly.Naming
import ClrListing.Proofs.Binding.Lookups
import ClrListing.Proofs.Text.Search

namespace ClrListing

open Assembly Lowering Metadata Source Syntax

-- ============================================================= finding

namespace Assembly

/-- A type in another is found in the type that the front of the full name
is that of. -/
theorem findByFullName?_inner (a : Assembly) (full : String) {name : String}
    (hname : '+' ∉ name.toList) :
    a.findByFullName? (full ++ "+" ++ name)
      = (a.findByFullName? full).bind fun t => a.nestedType? t.token name := by
  have hcut : Text.splitAll '+' (full ++ "+" ++ name).toList
      = Text.splitAll '+' full.toList ++ [name.toList] := by
    rw [String.toList_append, String.toList_append, List.append_assoc]
    exact Text.splitAll_append hname
  unfold findByFullName?
  rw [hcut]
  cases hpieces : Text.splitAll '+' full.toList with
  | nil => exact absurd hpieces Text.splitAll_ne_nil
  | cons top nested =>
    rw [List.cons_append]
    dsimp only
    rw [List.foldl_append, List.foldl_cons, List.foldl_nil, String.ofList_toList]

/-- A type at the top is found by its namespace and its name. -/
theorem findByFullName?_top (a : Assembly) {space name : String} (hspace : '+' ∉ space.toList)
    (hname : '+' ∉ name.toList) (hdot : '.' ∉ name.toList) :
    a.findByFullName? (Text.qualify space name) = a.findType? space name := by
  unfold Text.qualify
  by_cases hempty : space.isEmpty = true
  · rw [if_pos hempty]
    have hnone : space = "" := String.isEmpty_iff.mp hempty
    unfold findByFullName?
    rw [Text.splitAll_of_not_mem hname]
    dsimp only
    rw [Text.splitLast_of_not_mem hdot, Option.getD_none, List.foldl_nil, String.ofList_toList,
      hnone]
  · rw [if_neg hempty]
    have hchars : (space ++ "." ++ name).toList = space.toList ++ '.' :: name.toList := by
      rw [String.toList_append, String.toList_append, List.append_assoc]
      rfl
    have hplus : '+' ∉ (space ++ "." ++ name).toList := by
      rw [hchars, List.mem_append, List.mem_cons, not_or, not_or]
      exact ⟨hspace, by decide, hname⟩
    unfold findByFullName?
    rw [Text.splitAll_of_not_mem hplus]
    dsimp only
    rw [hchars, Text.splitLast_append hdot, Option.getD_some, List.foldl_nil,
      String.ofList_toList, String.ofList_toList]

end Assembly

namespace Lowering

-- ========================================================== full names

namespace TypePath

/-- The full name of the type at a path. -/
def fullName : TypePath → String
  | top space name => Text.qualify space name
  | inner outer name => outer.fullName ++ "+" ++ name

/-- Whether no name along a path has a separator in it, and the namespace
none that is put between names. -/
def IsPlain : TypePath → Prop
  | top space name => '+' ∉ space.toList ∧ '+' ∉ name.toList ∧ '.' ∉ name.toList
  | inner outer name => outer.IsPlain ∧ '+' ∉ name.toList

end TypePath

section Renders

variable {a : Assembly} {steps : List Step} {path : TypePath}

/-- The types of a module begin with those that steps spell out, as far as
rows are never changed. -/
structure BeginsAs (a : Assembly) (steps : List Step) : Prop where
  types : (typesIn steps).map headingOf <+: a.types.map headingOf
  grounded : Grounded steps
  fits : Fits (rowsOf steps)

theorem RendersTypes.beginsAs (h : RendersTypes a steps) : BeginsAs a steps :=
  ⟨h.types ▸ List.prefix_rfl, h.grounded, h.fits⟩

namespace BeginsAs

/-- The row of a type is found under its token, whatever has become of it
otherwise. -/
theorem type?_tokenIn (h : BeginsAs a steps) (hmem : path ∈ rowsOf steps) :
    ∃ t, a.type? (tokenIn (rowsOf steps) path) = some t
      ∧ headingOf t = headingOf (typeRow steps path) := by
  have hin : (tokenIn (rowsOf steps) path).isIn .typeDef = true := Token.isIn_ofRow _ _
  have hheading : ((typesIn steps).map headingOf)[(rowsOf steps).idxOf path + 2 - 1]?
      = some (headingOf (typeRow steps path)) := by
    rw [List.getElem?_map, getElem?_typesIn hmem, Option.map_some]
  obtain ⟨t, ht, heading⟩ : ∃ t, a.types[(rowsOf steps).idxOf path + 2 - 1]? = some t
      ∧ headingOf t = headingOf (typeRow steps path) := by
    obtain ⟨more, hmore⟩ := h.types
    rw [← Option.map_eq_some_iff, ← List.getElem?_map, ← hmore,
      List.getElem?_append_left (List.getElem?_eq_some_iff.mp hheading).1, hheading]
  refine ⟨t, ?_, heading⟩
  unfold Assembly.type? atRow?
  rwa [if_pos hin, row_tokenIn h.fits hmem, if_neg (by omega)]

/-- The walk up from a type spells out its path. -/
theorem exists_spells (h : BeginsAs a steps) (hmem : path ∈ rowsOf steps) :
    ∃ way, a.Spells way (tokenIn (rowsOf steps) path) path.fullName := by
  induction path with
  | top space name =>
    obtain ⟨t, ht, heading⟩ := h.type?_tokenIn hmem
    obtain ⟨-, hname, hspace, htop⟩ := headingOf_eq_iff.mp heading
    have hspells := Spells.top ht htop
    rw [hname, hspace] at hspells
    exact ⟨_, hspells⟩
  | inner outer name ih =>
    obtain ⟨t, ht, heading⟩ := h.type?_tokenIn hmem
    obtain ⟨-, hname, -, houter⟩ := headingOf_eq_iff.mp heading
    obtain ⟨way, hway⟩ := ih (h.grounded.rooted _ hmem outer rfl)
    have hspells := Spells.inner ht houter hway
    rw [hname] at hspells
    exact ⟨_, hspells⟩

end BeginsAs

theorem fullName_tokenIn (h : RendersTypes a steps) (hmem : path ∈ rowsOf steps) :
    a.fullName (tokenIn (rowsOf steps) path) = path.fullName := by
  obtain ⟨way, hspells⟩ := h.beginsAs.exists_spells hmem
  exact hspells.fullName_eq

/-- A plain full name leads down its path to the type. -/
theorem findByFullName?_fullName (h : RendersTypes a steps)
    (hnamed : ∀ path ∈ rowsOf steps, path.name ≠ "<Module>") (hmem : path ∈ rowsOf steps)
    (hplain : path.IsPlain) : a.findByFullName? path.fullName = some (typeRow steps path) := by
  induction path with
  | top space name =>
    obtain ⟨hspace, hname, hdot⟩ := hplain
    rw [TypePath.fullName, a.findByFullName?_top hspace hname hdot]
    exact Binding.findType?_top h hmem (hnamed _ hmem)
  | inner outer name ih =>
    obtain ⟨houter, hname⟩ := hplain
    rw [TypePath.fullName, a.findByFullName?_inner _ hname,
      ih (h.grounded.rooted _ hmem outer rfl) houter, Option.bind_some]
    exact Binding.nestedType?_inner h hmem

/-- The module's own row is found by its name. -/
theorem findByFullName?_moduleRow (h : RendersTypes a steps) :
    a.findByFullName? (a.fullName moduleRow.token) = some moduleRow := by
  have htype : a.type? moduleRow.token = some moduleRow := by
    unfold Assembly.type?
    rw [h.types]
    rfl
  have hname : a.fullName moduleRow.token = Text.qualify "" "<Module>" := by
    unfold Assembly.fullName Assembly.fullNameWithin
    rw [htype]
    rfl
  rw [hname, a.findByFullName?_top (by decide) (by decide) (by decide)]
  unfold Assembly.findType?
  rw [h.types, typesIn]
  rfl

/-- The rows of types have distinct tokens. -/
theorem nodup_typeTokens (h : RendersTypes a steps) : (a.types.map TypeDef.token).Nodup := by
  rw [h.types, typesIn, List.map_cons, List.map_map, List.nodup_cons]
  constructor
  · intro hmem
    obtain ⟨path, hpath, heq⟩ := List.mem_map.mp hmem
    exact token_ne_moduleRow h hpath heq
  · refine List.Nodup.map_on ?_ (nodup_rowsOf steps)
    intro p hp q hq heq
    exact tokenIn_inj h.fits hp hq heq

end Renders

-- ======================================================= declared names

/-- Names of the source with the number of type parameters are plain. -/
theorem not_mem_arityName {name : String} (h : IsName name) (arity : Nat) :
    '+' ∉ (Text.arityName name arity).toList ∧ '.' ∉ (Text.arityName name arity).toList := by
  obtain ⟨suffix, hchars, hplus, hdot⟩ := exists_arityName name arity
  rw [hchars, List.mem_append, List.mem_append, not_or, not_or]
  exact ⟨⟨h.not_mem (by decide), hplus⟩, ⟨h.no_dot, hdot⟩⟩

theorem not_mem_dottedName {name : String} (h : IsDottedName name) : '+' ∉ name.toList := by
  obtain ⟨names, -, hnames, rfl⟩ := h
  induction names with
  | nil =>
    rw [String.intercalate_nil]
    nofun
  | cons first rest ih =>
    have hfirst : '+' ∉ first.toList := (hnames first List.mem_cons_self).not_mem (by decide)
    have hrest := ih fun other hother => hnames other (List.mem_cons_of_mem _ hother)
    cases rest with
    | nil =>
      rwa [String.intercalate_singleton]
    | cons second rest =>
      rw [String.intercalate_cons_cons, String.toList_append, String.toList_append,
        List.mem_append, List.mem_append, not_or, not_or]
      exact ⟨⟨hfirst, by decide⟩, hrest⟩

theorem not_mem_qualify {space name : String} (hspace : '+' ∉ space.toList)
    (hname : '+' ∉ name.toList) : '+' ∉ (Text.qualify space name).toList := by
  unfold Text.qualify
  by_cases hempty : space.isEmpty = true
  · rwa [if_pos hempty]
  · rw [if_neg hempty, String.toList_append, String.toList_append, List.mem_append,
      List.mem_append, not_or, not_or]
    exact ⟨⟨hspace, by decide⟩, hname⟩

/-- The paths of declarations are plain. -/
theorem pathRule_isPlain : PathRule (fun space => '+' ∉ space.toList) TypePath.IsPlain where
  space _ _ hspace hname := not_mem_qualify hspace (not_mem_dottedName hname)
  top _ _ arity hspace hname := ⟨hspace, not_mem_arityName hname arity⟩
  inner _ _ arity houter hname := ⟨houter, (not_mem_arityName hname arity).1⟩

-- ======================================================== a whole file

/-- Every type of a file that parses and compiles, the module's own row
included, is the one that is found by its full name; so no two types have
one full name. -/
theorem found_by_fullName_of_compile {source module : String} {tree : Tree}
    {options : CompileOptions} {a : Assembly}
    (hparse : (Run.outcome (Tree.parse source)).1 = .ok tree)
    (hcompile : (Run.outcome (compile module tree options)).1 = .ok a)
    (htypes : a.types.length < Token.rowLimit) :
    (∀ t ∈ a.types, a.findByFullName? (a.fullName t.token) = some t)
      ∧ (a.types.map fun t => a.fullName t.token).Nodup := by
  have hw := wellNamed_of_parse hparse
  obtain ⟨added, hadded, h⟩ := rendersTypes_of_compile hcompile htypes
  have hdeclared : ∀ path ∈ rowsOf (script tree.root ++ added),
      path ∈ (declarations tree.root).map Prod.fst := by
    intro path hpath
    rwa [mem_rowsOf, entered_script hw hadded] at hpath
  have hfound : ∀ t ∈ a.types, a.findByFullName? (a.fullName t.token) = some t := by
    intro t ht
    rcases (mem_types_iff h).mp ht with rfl | ⟨path, hpath, rfl⟩
    · exact findByFullName?_moduleRow h
    · change a.findByFullName? (a.fullName (tokenIn (rowsOf _) path)) = _
      rw [fullName_tokenIn h hpath]
      refine findByFullName?_fullName h ?_ hpath ?_
      · exact fun other hother => name_ne_module hw other (hdeclared other hother)
      · exact pathRule_isPlain.of_declarations hw (by decide) path (hdeclared path hpath)
  refine ⟨hfound, ?_⟩
  have hrows : a.types.Nodup := (nodup_typeTokens h).of_map
  refine List.Nodup.map_on ?_ hrows
  intro t ht u hu heq
  have hsame := hfound t ht
  rw [heq, hfound u hu] at hsame
  exact (Option.some.inj hsame).symm

/-- A file with types of one name in different places and with different
numbers of type parameters. -/
def namesakeSource : String :=
  "namespace N.M \x7b class A<T> \x7b class A \x7b struct A<T, U> \x7b \x7d \x7d \x7d \x7d\n"
    ++ "partial class N \x7b enum M \x7b \x7d \x7d class A \x7b \x7d partial class N \x7b class A \x7b \x7d \x7d"

/-- The full names of the file with namesakes, and the types found by
them. -/
theorem found_by_fullName_of_namesakeSource : ∃ tree a,
    (Run.outcome (Tree.parse namesakeSource)).1 = .ok tree
      ∧ (Run.outcome (compile "Namesakes" tree ⟨false⟩)).1 = .ok a
      ∧ a.types.length < Token.rowLimit
      ∧ (a.types.map fun t => a.fullName t.token)
        = ["<Module>", "N.M.A`1", "N.M.A`1+A", "N.M.A`1+A+A`2", "N", "N+M", "A", "N+A"]
      ∧ (∀ t ∈ a.types, a.findByFullName? (a.fullName t.token) = some t)
      ∧ (a.types.map fun t => a.fullName t.token).Nodup := by
  have hruns : compilesTo namesakeSource "Namesakes" (fun _ a =>
      (a.types.map fun t => a.fullName t.token)
        = ["<Module>", "N.M.A`1", "N.M.A`1+A", "N.M.A`1+A+A`2", "N", "N+M", "A", "N+A"]) = true := by
    decide +kernel
  obtain ⟨tree, a, hparse, hcompile, htypes, -, hnames⟩ := of_compilesTo hruns
  obtain ⟨hfound, hdistinct⟩ := found_by_fullName_of_compile hparse hcompile htypes
  exact ⟨tree, a, hparse, hcompile, htypes, of_decide_eq_true hnames, hfound, hdistinct⟩

end Lowering

end ClrListing
