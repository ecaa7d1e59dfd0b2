/-
What a file makes a compiler do, in order, and nothing of how it is done.

A script is a list of steps: a type declaration is entered, or a method is
pushed into a type. It follows from the declarations alone; no token, no
table and no complaint is in it. A method that stands for a declaration of
the forest carries that declaration as its source, so that the script also
says which methods the forest knows of.
-/
import ClrListing.Proofs.Lowering.Members
import ClrListing.Proofs.Lowering.Paths

namespace ClrListing.Lowering

open Assembly Metadata Source Syntax

-- ============================================================== scripts

/-- One thing that a file makes a compiler do. -/
inductive Step where
  /-- Enters the declaration of the type at a path. -/
  | enter (path : TypePath) (decl : TypeDecl)
  /-- Adds a method to the type at a path. -/
  | push (path : TypePath) (l : Lowered)

/-- The type declarations that steps enter. -/
def entered (steps : List Step) : List (TypePath × TypeDecl) :=
  steps.filterMap fun
    | .enter path decl => some (path, decl)
    | .push _ _ => none

/-- The methods that steps add, each with the path of its type. -/
def pushed (steps : List Step) : List (TypePath × Lowered) :=
  steps.filterMap fun
    | .enter _ _ => none
    | .push path l => some (path, l)

/-- The rows of the types that steps enter: their distinct paths. -/
def rowsOf (steps : List Step) : List TypePath := ((entered steps).map Prod.fst).eraseDups

/-- The type in which a declaration stands. -/
structure Around where
  path : TypePath
  surroundings : Surroundings
  /-- Whether the forest lists what is declared in it. -/
  listed : Bool

/-- The name for the reader of a declared type. -/
def displayIn (scope : Scope) (outer : Option Around) (name : String) : String :=
  match outer with
  | some b => b.surroundings.display ++ "." ++ name
  | none => Text.qualify scope.space name

/-- What the members of the type see that is declared at a place. -/
def aroundOf (scope : Scope) (outer : Option Around) (place : Nat) (decl : TypeDecl) : Around where
  path := .ofDecl scope.space (outer.map Around.path) decl
  surroundings :=
    ⟨decl.kind, decl.name, displayIn scope outer decl.name, scope.inType place decl.typeParams⟩
  listed := outer.all Around.listed && Declaration.isListedKind decl.kind

/-- Adds methods to a type, without their sources if what is in the type
is not listed. -/
def pushAll (b : Around) (ls : List Lowered) : List Step :=
  ls.map fun l => .push b.path (if b.listed then l else .unlisted l.method)

mutual

/-- The script of a type declaration at a place. -/
def scriptOfType (scope : Scope) (outer : Option Around) (place : Nat) : TypeDecl → List Step
  | ⟨kind, name, typeParams, modifiers, bases, members, enumerators, delegate, span⟩ =>
    let decl : TypeDecl :=
      ⟨kind, name, typeParams, modifiers, bases, members, enumerators, delegate, span⟩
    let inside := aroundOf scope outer place decl
    .enter inside.path decl :: match kind with
      | .delegateType => pushAll inside (delegateLowered inside.surroundings delegate)
      | .enumType => []
      | .classType | .structType | .interfaceType => scriptOfMembers inside (place + 1) members

/-- The script of the members of a type. -/
def scriptOfMembers (inside : Around) (place : Nat) : List Member → List Step
  | [] => []
  | m :: rest =>
    let here := scriptOfMember inside place m
    here ++ scriptOfMembers inside (place + (entered here).length) rest

/-- The script of a member of a type. -/
def scriptOfMember (inside : Around) (place : Nat) : Member → List Step
  | .type decl => scriptOfType inside.surroundings.scope (some inside) place decl
  | m => pushAll inside (memberLowered inside.surroundings m)

end

mutual

/-- The script of the members of a namespace. -/
def scriptOfSpace (scope : Scope) (place : Nat) : List NamespaceMember → List Step
  | [] => []
  | m :: rest =>
    let here := scriptOfSpaceMember scope place m
    here ++ scriptOfSpace scope (place + (entered here).length) rest

/-- The script of a member of a namespace. -/
def scriptOfSpaceMember (scope : Scope) (place : Nat) : NamespaceMember → List Step
  | .space ⟨name, _, usings, members, _⟩ =>
    scriptOfSpace ((scope.inSpace name).importing usings) place members
  | .type decl => scriptOfType scope none place decl

end

/-- The script of a file. -/
def script (unit : CompilationUnit) : List Step := scriptOfSpace (topScope unit) 0 unit.members

-- ============================================== concatenating scripts

variable {steps more : List Step} {path : TypePath} {decl : TypeDecl} {l : Lowered}

theorem entered_append : entered (steps ++ more) = entered steps ++ entered more :=
  List.filterMap_append

theorem pushed_append : pushed (steps ++ more) = pushed steps ++ pushed more :=
  List.filterMap_append

theorem entered_pushAll (b : Around) (ls : List Lowered) : entered (pushAll b ls) = [] := by
  unfold entered pushAll
  rw [List.filterMap_map]
  exact List.filterMap_eq_nil_iff.mpr fun _ _ => rfl

theorem pushed_pushAll (b : Around) (ls : List Lowered) :
    pushed (pushAll b ls)
      = ls.map fun l => (b.path, if b.listed then l else .unlisted l.method) := by
  unfold pushed pushAll
  rw [List.filterMap_map]
  exact congrFun List.filterMap_eq_map ls

theorem rowsOf_push : rowsOf (steps ++ [.push path l]) = rowsOf steps := by
  unfold rowsOf
  rw [entered_append]
  simp [entered]

theorem rowsOf_enter_again (h : path ∈ rowsOf steps) :
    rowsOf (steps ++ [.enter path decl]) = rowsOf steps := by
  unfold rowsOf at h ⊢
  rw [List.mem_eraseDups] at h
  rw [entered_append, List.map_append]
  exact Distinct.eraseDups_concat_of_mem h

theorem rowsOf_enter_fresh (h : path ∉ rowsOf steps) :
    rowsOf (steps ++ [.enter path decl]) = rowsOf steps ++ [path] := by
  unfold rowsOf at h ⊢
  rw [List.mem_eraseDups] at h
  rw [entered_append, List.map_append]
  exact Distinct.eraseDups_concat_of_not_mem h

theorem nodup_rowsOf (steps : List Step) : (rowsOf steps).Nodup :=
  Distinct.nodup_eraseDups _

/-- The rows stay at the front when steps follow. -/
theorem rowsOf_isPrefix (steps more : List Step) : rowsOf steps <+: rowsOf (steps ++ more) := by
  unfold rowsOf
  rw [entered_append, List.map_append]
  exact Distinct.eraseDups_isPrefix _ _

end ClrListing.Lowering
