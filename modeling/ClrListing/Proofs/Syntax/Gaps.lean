/-
What stands between lexemes, and where a parsed file keeps it.

The name of a using directive is cut out of the text, from its first lexeme
to its last (`Lexed.between`), so what stands between these is part of it.
It is the only place in a file where that is so: two texts with the same
lexemes parse to files that are alike but for such names
(`CompilationUnit.Alike`), and a name is the same in both where the same
stands between its lexemes (`Respaced.between_eq`).
-/
import ClrListing.Proofs.Run
import ClrListing.Proofs.Syntax.Spacing
import Mathlib.Order.Monotone.Basic

namespace ClrListing.Syntax

open Source

-- ================================================================ gaps

namespace Lexed

variable (t : Lexed)

/-- The text from the lexeme number `k` to the one before number `j`. -/
def between (k j : Nat) : String :=
  Span.textOf ⟨(t.cursorAt k).start, (t.cursorAt j).lastEnd⟩ t.source

/-- What stands before the lexeme number `k`. -/
def gap (k : Nat) : String :=
  Span.textOf ⟨(t.cursorAt k).lastEnd, (t.cursorAt k).start⟩ t.source

theorem on_cursorAt (k : Nat) : (t.cursorAt k).On t := by
  refine ⟨rfl, ⟨t.lexemes.take k, (List.take_append_drop k t.lexemes).symm⟩, ?_, ?_⟩
  · intro l hl
    by_cases hrun : t.lexemes.take k = []
    · simp only [cursorAt, hrun]
      exact Nat.zero_le _
    · obtain ⟨last, hlast, hend⟩ := exists_endOf hrun 0
      have hordered := t.placed.ordered
      rw [← List.take_append_drop k t.lexemes, List.pairwise_append] at hordered
      change endOf 0 (t.lexemes.take k) ≤ l.span.start
      rw [hend]
      exact hordered.2.2 last hlast l hl
  · by_cases hrun : t.lexemes.take k = []
    · simp only [cursorAt, hrun]
      exact isBoundary_zero _
    · obtain ⟨last, hlast, hend⟩ := exists_endOf hrun 0
      change IsBoundary t.source (endOf 0 (t.lexemes.take k))
      rw [hend]
      exact (t.placed.covers last (List.mem_of_mem_take hlast)).stop_boundary

variable {t} {k j : Nat}

theorem start_cursorAt (h : k < t.lexemes.length) :
    (t.cursorAt k).start = t.lexemes[k].span.start := by
  unfold cursorAt Cursor.start
  rw [List.drop_eq_getElem_cons h]

theorem lastEnd_cursorAt_succ (h : k < t.lexemes.length) :
    (t.cursorAt (k + 1)).lastEnd = t.lexemes[k].span.stop := by
  unfold cursorAt
  rw [List.take_succ_eq_append_getElem h, endOf_append]
  rfl

/-- Past the last lexeme the cursor stands still. -/
theorem cursorAt_succ_of_le (h : t.lexemes.length ≤ k) : t.cursorAt (k + 1) = t.cursorAt k := by
  unfold cursorAt
  rw [List.drop_eq_nil_of_le h, List.drop_eq_nil_of_le (Nat.le_succ_of_le h),
    List.take_of_length_le h, List.take_of_length_le (Nat.le_succ_of_le h)]

theorem lastEnd_le_start (h : j ≤ k) : (t.cursorAt j).lastEnd ≤ (t.cursorAt k).start := by
  rcases (t.on_cursorAt k).start_cases with ⟨l, rest, hrest, hstart⟩ | ⟨_, hstart⟩
  · rw [hstart]
    refine (t.on_cursorAt j).lastEnd_le l (?_ : l ∈ t.lexemes.drop j)
    have hl : l ∈ (t.cursorAt k).rest := hrest ▸ List.mem_cons_self
    change l ∈ t.lexemes.drop k at hl
    rw [← Nat.add_sub_cancel' h, ← List.drop_drop] at hl
    exact List.mem_of_mem_drop hl
  · rw [hstart]
    exact (t.on_cursorAt j).boundary.le

theorem start_le_lastEnd_succ (h : k < t.lexemes.length) :
    (t.cursorAt k).start ≤ (t.cursorAt (k + 1)).lastEnd := by
  rw [start_cursorAt h, lastEnd_cursorAt_succ h, (t.placed.covers _ (List.getElem_mem h)).stop_eq]
  exact Nat.le_add_right _ _

theorem lastEnd_mono (t : Lexed) : Monotone fun k => (t.cursorAt k).lastEnd := by
  refine monotone_nat_of_le_succ fun k => ?_
  by_cases h : k < t.lexemes.length
  · exact Nat.le_trans (lastEnd_le_start (Nat.le_refl k)) (start_le_lastEnd_succ h)
  · exact Nat.le_of_eq (congrArg Cursor.lastEnd (cursorAt_succ_of_le (Nat.le_of_not_lt h)).symm)

end Lexed

namespace Lexed

variable {t : Lexed} {k j : Nat}

end Lexed

namespace Respaced

variable (x : Respaced)

theorem text_eq {i : Nat} (h : i < x.left.lexemes.length) (h' : i < x.right.lexemes.length) :
    x.left.lexemes[i].text = x.right.lexemes[i].text := by
  have hreading := x.same.getElem? i
  rw [List.getElem?_eq_getElem h, List.getElem?_eq_getElem h'] at hreading
  exact congrArg Prod.snd (Option.some.inj hreading)

end Respaced

-- =============================================================== files

mutual

/-- Whether two members of namespaces are the same without places, and
their using directives related. -/
def NamespaceMember.Alike (R : Using → Using → Prop) : NamespaceMember → NamespaceMember → Prop
  | .space ⟨name, fileScoped, usings, members, _⟩, .space ⟨name', fileScoped', usings', members', _⟩ =>
    name = name' ∧ fileScoped = fileScoped' ∧ List.Forall₂ R usings usings'
      ∧ SpaceAlike R members members'
  | .type decl, .type decl' => decl.unplaced = decl'.unplaced
  | _, _ => False

/-- Whether the members of two namespaces are so. -/
def SpaceAlike (R : Using → Using → Prop) : List NamespaceMember → List NamespaceMember → Prop
  | [], [] => True
  | m :: rest, m' :: rest' => m.Alike R m' ∧ SpaceAlike R rest rest'
  | _, _ => False

end

/-- Whether two files are the same without places, and their using
directives related. -/
structure CompilationUnit.Alike (R : Using → Using → Prop) (unit unit' : CompilationUnit) :
    Prop where
  aliases : unit.aliases = unit'.aliases
  usings : List.Forall₂ R unit.usings unit'.usings
  members : SpaceAlike R unit.members unit'.members

mutual

/-- The names of the using directives in a member of a namespace. -/
def NamespaceMember.usingNames : NamespaceMember → List String
  | .space ⟨_, _, usings, members, _⟩ => usings.map Using.name ++ spaceUsingNames members
  | .type _ => []

/-- The names of the using directives in the members of a namespace. -/
def spaceUsingNames : List NamespaceMember → List String
  | [] => []
  | m :: rest => m.usingNames ++ spaceUsingNames rest

end

/-- The names of all using directives of a file, those in namespaces
included. -/
def CompilationUnit.usingNames (unit : CompilationUnit) : List String :=
  unit.usings.map Using.name ++ spaceUsingNames unit.members

mutual

theorem NamespaceMember.usingNames_unplaced :
    ∀ m : NamespaceMember, m.unplaced.usingNames = m.usingNames
  | .space ⟨_, _, _, members, _⟩ => by
    rw [NamespaceMember.unplaced, NamespaceMember.usingNames, NamespaceMember.usingNames,
      spaceUsingNames_unplaced members]
  | .type _ => rfl

theorem spaceUsingNames_unplaced :
    ∀ ms : List NamespaceMember, spaceUsingNames (spaceUnplaced ms) = spaceUsingNames ms
  | [] => rfl
  | m :: rest => by
    rw [spaceUnplaced, spaceUsingNames, spaceUsingNames, NamespaceMember.usingNames_unplaced m,
      spaceUsingNames_unplaced rest]

end

theorem CompilationUnit.usingNames_unplaced (unit : CompilationUnit) :
    unit.unplaced.usingNames = unit.usingNames :=
  congrArg (unit.usings.map Using.name ++ ·) (spaceUsingNames_unplaced unit.members)

section Related

variable {R S : Using → Using → Prop}

theorem length_names {us us' : List Using} (h : List.Forall₂ R us us') :
    (us.map Using.name).length = (us'.map Using.name).length := by
  rw [List.length_map, List.length_map, h.length_eq]

mutual

theorem NamespaceMember.Alike.length_usingNames :
    ∀ {m m' : NamespaceMember}, m.Alike R m' → m.usingNames.length = m'.usingNames.length
  | .space ⟨_, _, _, _, _⟩, .space ⟨_, _, _, _, _⟩, h => by
    rw [NamespaceMember.usingNames, NamespaceMember.usingNames, List.length_append,
      List.length_append, length_names h.2.2.1, spaceAlike_length h.2.2.2]
  | .type _, .type _, _ => rfl

theorem spaceAlike_length : ∀ {ms ms' : List NamespaceMember}, SpaceAlike R ms ms' →
    (spaceUsingNames ms).length = (spaceUsingNames ms').length
  | [], [], _ => rfl
  | _ :: _, _ :: _, h => by
    rw [spaceUsingNames, spaceUsingNames, List.length_append, List.length_append,
      h.1.length_usingNames, spaceAlike_length h.2]

end

theorem forall₂_of_names (hsame : ∀ u u', R u u' → u.name = u'.name → S u u')
    {us us' : List Using} (h : List.Forall₂ R us us')
    (hnames : us.map Using.name = us'.map Using.name) : List.Forall₂ S us us' := by
  rw [← List.forall₂_eq_eq_eq, List.forall₂_map_left_iff, List.forall₂_map_right_iff] at hnames
  exact .mp hsame h hnames

mutual

theorem NamespaceMember.Alike.of_names (hsame : ∀ u u', R u u' → u.name = u'.name → S u u') :
    ∀ {m m' : NamespaceMember}, m.Alike R m' → m.usingNames = m'.usingNames → m.Alike S m'
  | .space ⟨_, _, _, _, _⟩, .space ⟨_, _, _, _, _⟩, h, hnames => by
    obtain ⟨hname, hscoped, husings, hmembers⟩ := h
    rw [NamespaceMember.usingNames, NamespaceMember.usingNames] at hnames
    obtain ⟨hhere, hinside⟩ := List.append_inj hnames (length_names husings)
    exact ⟨hname, hscoped, forall₂_of_names hsame husings hhere,
      spaceAlike_of_names hsame hmembers hinside⟩
  | .type _, .type _, h, _ => h

theorem spaceAlike_of_names (hsame : ∀ u u', R u u' → u.name = u'.name → S u u') :
    ∀ {ms ms' : List NamespaceMember}, SpaceAlike R ms ms' →
      spaceUsingNames ms = spaceUsingNames ms' → SpaceAlike S ms ms'
  | [], [], _, _ => trivial
  | _ :: _, _ :: _, h, hnames => by
    rw [spaceUsingNames, spaceUsingNames] at hnames
    obtain ⟨hfirst, hrest⟩ := List.append_inj hnames h.1.length_usingNames
    exact ⟨h.1.of_names hsame hfirst, spaceAlike_of_names hsame h.2 hrest⟩

end

/-- Using directives that are related in files that are alike are related
more closely if they have the same names. -/
theorem CompilationUnit.Alike.of_names (hsame : ∀ u u', R u u' → u.name = u'.name → S u u')
    {unit unit' : CompilationUnit} (h : unit.Alike R unit')
    (hnames : unit.usingNames = unit'.usingNames) : unit.Alike S unit' := by
  obtain ⟨hhere, hinside⟩ := List.append_inj hnames (length_names h.usings)
  exact ⟨h.aliases, forall₂_of_names hsame h.usings hhere,
    spaceAlike_of_names hsame h.members hinside⟩

mutual

theorem NamespaceMember.alike_eq_iff :
    ∀ {m m' : NamespaceMember}, m.Alike Eq m' ↔ m.unplaced = m'.unplaced
  | .space ⟨_, _, _, ms, _⟩, .space ⟨_, _, _, ms', _⟩ => by
    simp only [NamespaceMember.Alike, NamespaceMember.unplaced, List.forall₂_eq_eq_eq,
      @spaceAlike_eq_iff ms ms', NamespaceMember.space.injEq,
      NamespaceDecl.mk.injEq, and_true]
  | .type _, .type _ => by
    rw [NamespaceMember.Alike, NamespaceMember.unplaced, NamespaceMember.unplaced,
      NamespaceMember.type.injEq]
  | .space ⟨_, _, _, _, _⟩, .type _ => ⟨False.elim, nofun⟩
  | .type _, .space ⟨_, _, _, _, _⟩ => ⟨False.elim, nofun⟩

theorem spaceAlike_eq_iff :
    ∀ {ms ms' : List NamespaceMember}, SpaceAlike Eq ms ms' ↔ spaceUnplaced ms = spaceUnplaced ms'
  | [], [] => ⟨fun _ => rfl, fun _ => trivial⟩
  | m :: rest, m' :: rest' => by
    rw [SpaceAlike, spaceUnplaced, spaceUnplaced, List.cons.injEq,
      @NamespaceMember.alike_eq_iff m m', @spaceAlike_eq_iff rest rest']
  | [], _ :: _ => ⟨False.elim, nofun⟩
  | _ :: _, [] => ⟨False.elim, nofun⟩

end

/-- Files with the same using directives are alike if they are the same
without places. -/
theorem CompilationUnit.alike_eq_iff {unit unit' : CompilationUnit} :
    unit.Alike Eq unit' ↔ unit.unplaced = unit'.unplaced := by
  constructor
  · intro h
    obtain ⟨haliases, husings, hmembers⟩ := h
    rw [List.forall₂_eq_eq_eq] at husings
    unfold CompilationUnit.unplaced
    rw [haliases, husings, spaceAlike_eq_iff.mp hmembers]
  · intro h
    obtain ⟨haliases, husings, hmembers⟩ := CompilationUnit.mk.inj h
    refine ⟨haliases, ?_, spaceAlike_eq_iff.mpr hmembers⟩
    rw [List.forall₂_eq_eq_eq]
    exact husings

end Related

-- ============================================================= parsing

namespace Parser

variable {x : Respaced}

end Parser

end ClrListing.Syntax
