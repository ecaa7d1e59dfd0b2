/-
Where the members of a file are read.

The members of a file that are no types were all given by one parser,
`plainMember`, somewhere along the way from the top: what is known of all
that it gives, of any cursor on the way, is known of every member of the
file (`every_of_parse`), however deep in types and namespaces it stands. So the lexemes that a member was read from can be read
once more, for what the tree does not keep.
-/
import ClrListing.Proofs.Source.Following
import ClrListing.Proofs.Syntax.WellNamed

namespace ClrListing.Syntax

open Source

-- ======================================================== every member

mutual

/-- Whether the members of a type that are no types, and those of the types
inside it, satisfy `P`. -/
def TypeDecl.Every (P : Member → Prop) : TypeDecl → Prop
  | ⟨_, _, _, _, _, members, _, _, _⟩ => EveryMember P members

def EveryMember (P : Member → Prop) : List Member → Prop
  | [] => True
  | m :: rest => m.Every P ∧ EveryMember P rest

def Member.Every (P : Member → Prop) : Member → Prop
  | .type decl => decl.Every P
  | .field f => P (.field f)
  | .constructor c => P (.constructor c)
  | .destructor d => P (.destructor d)
  | .method m => P (.method m)
  | .property p => P (.property p)
  | .indexer i => P (.indexer i)
  | .event e => P (.event e)
  | .operator o => P (.operator o)

end

mutual

/-- Whether the members of the types in a namespace do. -/
def NamespaceMember.Every (P : Member → Prop) : NamespaceMember → Prop
  | .space ⟨_, _, _, members, _⟩ => EverySpaceMember P members
  | .type decl => decl.Every P

def EverySpaceMember (P : Member → Prop) : List NamespaceMember → Prop
  | [] => True
  | m :: rest => m.Every P ∧ EverySpaceMember P rest

end

variable {P : Member → Prop}

theorem everyMember_iff {members : List Member} :
    EveryMember P members ↔ ∀ m ∈ members, m.Every P := by
  induction members with
  | nil => simp [EveryMember]
  | cons m rest ih => rw [EveryMember, ih, List.forall_mem_cons]

theorem everySpaceMember_iff {members : List NamespaceMember} :
    EverySpaceMember P members ↔ ∀ m ∈ members, m.Every P := by
  induction members with
  | nil => simp [EverySpaceMember]
  | cons m rest ih => rw [EverySpaceMember, ih, List.forall_mem_cons]

-- =================================================== members of a file

namespace Parser

variable {top : Cursor}

/-- Whether all that is read as a member that is no type satisfies `P`, and
is none. -/
def MembersAre (top : Cursor) (P : Member → Prop) : Prop :=
  ∀ from_ mods, Always top (plainMember from_ mods) (Member.Every P)

theorem treeRule_every (htop : top.Spelled) (h : MembersAre top P) :
    TreeRule top (TypeDecl.Every P) (Member.Every P) (NamespaceMember.Every P) where
  spelled := htop
  plain := h
  type := by
    rintro ⟨kind, name, typeParams, modifiers, bases, members, enumerators, delegate, span⟩ _ _
      hmembers
    rw [TypeDecl.Every]
    exact everyMember_iff.mpr hmembers
  nested decl h := by rwa [Member.Every]
  space := by
    rintro ⟨name, fileScoped, usings, members, span⟩ _ hmembers
    rw [NamespaceMember.Every]
    exact everySpaceMember_iff.mpr hmembers
  spaceType decl h := by rwa [NamespaceMember.Every]

end Parser

/-- What all members satisfy that are read somewhere in a file, the members
in its tree do. -/
theorem every_of_parse {source : String} {tree : Tree}
    (h : (Run.outcome (Tree.parse source)).1 = .ok tree) :
    ∃ ls, lexemes source = .ok ls ∧ ∀ P : Member → Prop,
      Parser.MembersAre (Cursor.top source ls) P → EverySpaceMember P tree.root.members := by
  obtain ⟨ls, c, hlexemes, _, hparsed⟩ := exists_cursor_of_parse h
  have hspelled : (Cursor.top source ls).Spelled := isSpelling_of_mem_lexemes hlexemes
  exact ⟨ls, hlexemes, fun P hmembers => everySpaceMember_iff.mpr
    ((Parser.treeRule_every hspelled hmembers).compilationUnit 0 _ c hparsed)⟩

end ClrListing.Syntax
