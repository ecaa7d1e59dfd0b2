/-
The types that a file declares, by the way to them.

# Paths

A declared type is known by its path: the namespace and the name of the
type at the top, and the names from there down to the type itself, each
with the number of its type parameters. Partial declarations of one type
have one path. `declarations` lists the type declarations of a file in
pre-order, each with its path, and the distinct paths in the order in
which they first occur are the rows that a compiled module has after the
row of the module itself.

# Rows

Given the list of distinct paths, `tokenIn` numbers a path by its place
and `keyIn` is what tells its row apart: the token of the type around it,
the namespace and the name. Both are stable when rows are added, and both
keep the rows apart as long as there are not too many.
-/
import ClrListing.Lowering.Compile
import ClrListing.Proofs.Elements
import ClrListing.Proofs.Metadata.Token

namespace ClrListing.Lowering

open Assembly Metadata Syntax

-- =============================================================== paths

/-- The way to a declared type. -/
inductive TypePath where
  /-- A type that stands in a namespace. -/
  | top (space name : String)
  /-- A type that stands in another. -/
  | inner (outer : TypePath) (name : String)
  deriving DecidableEq

namespace TypePath

/-- The name, with the number of type parameters. -/
def name : TypePath → String
  | .top _ name => name
  | .inner _ name => name

/-- The namespace, empty for a type in another. -/
def space : TypePath → String
  | .top space _ => space
  | .inner _ _ => ""

/-- The type around, if there is one. -/
def outer : TypePath → Option TypePath
  | .top _ _ => none
  | .inner outer _ => some outer

/-- The path of a declaration inside the type `outer`, or in the
namespace `space`. -/
def ofDecl (space : String) (outer : Option TypePath) (decl : TypeDecl) : TypePath :=
  match outer with
  | some path => .inner path (Text.arityName decl.name decl.arity)
  | none => .top space (Text.arityName decl.name decl.arity)

theorem outer_ofDecl (space : String) (outer : Option TypePath) (decl : TypeDecl) :
    (ofDecl space outer decl).outer = outer := by
  cases outer <;> rfl

theorem name_ofDecl (space : String) (outer : Option TypePath) (decl : TypeDecl) :
    (ofDecl space outer decl).name = Text.arityName decl.name decl.arity := by
  cases outer <;> rfl

theorem space_ofDecl (space : String) (outer : Option TypePath) (decl : TypeDecl) :
    (ofDecl space outer decl).space = if outer.isSome then "" else space := by
  cases outer <;> rfl

/-- The namespace, the type around and the name make up a path. -/
theorem ext_of_parts {p q : TypePath} (houter : p.outer = q.outer) (hspace : p.space = q.space)
    (hname : p.name = q.name) : p = q := by
  cases p with
  | top space name =>
    cases q with
    | top space' name' =>
      rw [show space = space' from hspace, show name = name' from hname]
    | inner outer' name' => cases houter
  | inner outer name =>
    cases q with
    | top space' name' => cases houter
    | inner outer' name' =>
      cases houter
      rw [show name = name' from hname]

end TypePath

-- ======================================================== declarations

mutual

/-- A type declaration and those inside it, in pre-order. -/
def declarationsOfType (space : String) (outer : Option TypePath) :
    TypeDecl → List (TypePath × TypeDecl)
  | ⟨kind, name, typeParams, modifiers, bases, members, enumerators, delegate, span⟩ =>
    let decl : TypeDecl :=
      ⟨kind, name, typeParams, modifiers, bases, members, enumerators, delegate, span⟩
    (.ofDecl space outer decl, decl) :: declarationsOfMembers (.ofDecl space outer decl) members

/-- The type declarations among the members of the type at a path. -/
def declarationsOfMembers (path : TypePath) : List Member → List (TypePath × TypeDecl)
  | [] => []
  | m :: rest => declarationsOfMember path m ++ declarationsOfMembers path rest

/-- The type declarations that a member is or holds. -/
def declarationsOfMember (path : TypePath) : Member → List (TypePath × TypeDecl)
  | .type decl => declarationsOfType "" (some path) decl
  | _ => []

end

mutual

/-- The type declarations in a namespace. -/
def declarationsOfSpace (space : String) : List NamespaceMember → List (TypePath × TypeDecl)
  | [] => []
  | m :: rest => declarationsOfSpaceMember space m ++ declarationsOfSpace space rest

/-- The type declarations that a member of a namespace is or holds. -/
def declarationsOfSpaceMember (space : String) :
    NamespaceMember → List (TypePath × TypeDecl)
  | .space ⟨name, _, _, members, _⟩ => declarationsOfSpace (Text.qualify space name) members
  | .type decl => declarationsOfType space none decl

end

/-- The type declarations of a file in pre-order, each with its path. -/
def declarations (unit : CompilationUnit) : List (TypePath × TypeDecl) :=
  declarationsOfSpace "" unit.members

-- ================================================================ rows

/-- The token of the type at a path; the first row is that of the module
itself. -/
def tokenIn (rows : List TypePath) (path : TypePath) : Token :=
  .ofRow .typeDef (rows.idxOf path + 2)

/-- What tells the type at a path apart. -/
def keyIn (rows : List TypePath) (path : TypePath) : TypeKey :=
  ⟨path.outer.map (tokenIn rows), path.space, path.name⟩

/-- Whether the types around the types of `rows` are in `rows`. -/
def Rooted (rows : List TypePath) : Prop :=
  ∀ path ∈ rows, ∀ outer, path.outer = some outer → outer ∈ rows

/-- Whether tokens can number `rows` and the module itself. -/
def Fits (rows : List TypePath) : Prop := rows.length + 1 < Token.rowLimit

variable {rows more : List TypePath} {path other : TypePath}

theorem tokenIn_append (h : path ∈ rows) : tokenIn (rows ++ more) path = tokenIn rows path := by
  unfold tokenIn
  rw [List.idxOf_append, if_pos h]

/-- A path that is added gets the next row. -/
theorem tokenIn_concat (h : path ∉ rows) :
    tokenIn (rows ++ [path]) path = Token.ofRow .typeDef (rows.length + 2) := by
  unfold tokenIn
  rw [List.idxOf_append, if_neg h, List.idxOf_cons_self, Nat.zero_add]

theorem row_tokenIn (hfits : Fits rows) (h : path ∈ rows) :
    (tokenIn rows path).row = rows.idxOf path + 2 := by
  have hlt := List.idxOf_lt_length_of_mem h
  unfold Fits at hfits
  exact Token.row_ofRow (by omega)

theorem tokenIn_inj (hfits : Fits rows) (hp : path ∈ rows) (hq : other ∈ rows)
    (heq : tokenIn rows path = tokenIn rows other) : path = other := by
  have hrow : rows.idxOf path + 2 = rows.idxOf other + 2 := by
    rw [← row_tokenIn hfits hp, heq, row_tokenIn hfits hq]
  have hidx : rows.idxOf path = rows.idxOf other := by omega
  have hget := List.getElem_idxOf (List.idxOf_lt_length_of_mem hp)
  rw [← hget]
  simp only [hidx]
  exact List.getElem_idxOf (List.idxOf_lt_length_of_mem hq)

theorem keyIn_append (hrooted : Rooted rows) (h : path ∈ rows) :
    keyIn (rows ++ more) path = keyIn rows path := by
  unfold keyIn
  cases ho : path.outer with
  | none => rfl
  | some outer => rw [Option.map_some, Option.map_some, tokenIn_append (hrooted path h outer ho)]

/-- A key belongs to one path, also if only the type around it has a row
yet. -/
theorem keyIn_inj (hfits : Fits rows) (hrooted : Rooted rows)
    (hp : ∀ outer, path.outer = some outer → outer ∈ rows) (hq : other ∈ rows)
    (heq : keyIn rows path = keyIn rows other) : path = other := by
  obtain ⟨houter, hspace, hname⟩ := TypeKey.mk.inj heq
  refine TypePath.ext_of_parts ?_ hspace hname
  cases ho : path.outer with
  | none =>
    cases ho' : other.outer with
    | none => rfl
    | some outer' => rw [ho, ho'] at houter; cases houter
  | some outer =>
    cases ho' : other.outer with
    | none => rw [ho, ho'] at houter; cases houter
    | some outer' =>
      rw [ho, ho', Option.map_some, Option.map_some, Option.some.injEq] at houter
      rw [tokenIn_inj hfits (hp outer ho) (hrooted other hq outer' ho') houter]

end ClrListing.Lowering
