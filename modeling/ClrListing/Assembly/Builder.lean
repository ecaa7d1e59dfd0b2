/-
Building a module row by row.

Types and methods are numbered in the order in which they are added. A
type is linked into its enclosing type and a method into its declaring
type when it is added; no other row changes.
-/
import ClrListing.Assembly.Basic

namespace ClrListing.Assembly

open Metadata

/-- A module under construction. -/
structure Builder where
  name : String
  types : List TypeDef
  methods : List MethodDef
  deriving DecidableEq, Repr, Inhabited

/-- What a change at one place of a list does not touch is as before. -/
theorem map_modify_of_same {α β : Type} {f : α → α} {g : α → β} (hsame : ∀ x, g (f x) = g x)
    (xs : List α) (i : Nat) : (xs.modify i f).map g = xs.map g := by
  refine List.ext_getElem? fun j => ?_
  rw [List.getElem?_map, List.getElem?_map, List.getElem?_modify]
  cases xs[j]? with
  | none => rfl
  | some x =>
    refine congrArg some ?_
    show g (if i = j then f x else x) = g x
    split
    · exact hsame x
    · rfl

namespace Builder

/-- The type at the row of a token, whatever table the token names. -/
def type? (b : Builder) (token : Token) : Option TypeDef := atRow? b.types token.row

/-- Changes the type at the row of a token. -/
def modifyType (b : Builder) (token : Token) (f : TypeDef → TypeDef) : Builder :=
  if token.row = 0 then b else { b with types := b.types.modify (token.row - 1) f }

/-- What a change does not touch is as before in all types. -/
theorem map_modifyType {β : Type} (b : Builder) (token : Token) {f : TypeDef → TypeDef}
    {g : TypeDef → β} (hsame : ∀ t, g (f t) = g t) :
    (b.modifyType token f).types.map g = b.types.map g := by
  unfold modifyType
  split
  · rfl
  · exact map_modify_of_same hsame _ _

/-- What a type is added with. -/
structure NewType where
  space : String
  name : String
  flags : FlagSet TypeFlag
  enclosing : Option Token
  /-- The names of all type parameters, those of enclosing types first. -/
  genericParams : List String
  deriving DecidableEq, Repr, Inhabited

/-- The token of the next type. -/
def nextType (b : Builder) : Token := .ofRow .typeDef (b.types.length + 1)

/-- The token of the next method. -/
def nextMethod (b : Builder) : Token := .ofRow .methodDef (b.methods.length + 1)

/-- Links a nested type into its enclosing type. -/
def linkNested (b : Builder) (enclosing : Option Token) (nested : Token) : Builder :=
  match enclosing with
  | some outer => b.modifyType outer fun t => { t with nested := t.nested ++ [nested] }
  | none => b

theorem map_linkNested {β : Type} (b : Builder) (enclosing : Option Token) (nested : Token)
    {g : TypeDef → β} (hsame : ∀ t tokens, g { t with nested := tokens } = g t) :
    (b.linkNested enclosing nested).types.map g = b.types.map g := by
  cases enclosing with
  | none => rfl
  | some outer => exact map_modifyType b outer fun t => hsame t _

/-- Adds a type; its token is the next one. -/
def addType (b : Builder) (t : NewType) : Builder :=
  let linked := b.linkNested t.enclosing b.nextType
  { linked with
    types := linked.types ++
      [⟨b.nextType, t.name, t.space, t.flags, t.enclosing, t.genericParams, [], [], false⟩] }

/-- Adds a method to a type; its token is the next one. -/
def addMethod (b : Builder) (declaring : Token) (m : MethodDef) : Builder :=
  let linked := b.modifyType declaring fun t => { t with methods := t.methods ++ [b.nextMethod] }
  { linked with
    methods := linked.methods ++ [{ m with token := b.nextMethod, declaringType := declaring }] }

/-- Notes that the compiler made up a type. -/
def markGenerated (b : Builder) (type : Token) : Builder :=
  b.modifyType type fun t => { t with isGenerated := true }

/-- A module with only the type that stands for the module itself. -/
def new (name : String) : Builder :=
  (Builder.mk name [] []).addType ⟨"", "<Module>", .empty, none, []⟩

/-- The finished module. -/
def build (b : Builder) : Assembly := ⟨b.name, b.types, b.methods⟩

end Builder

end ClrListing.Assembly
