/-
What is true of the names in a parsed file.

Types, methods and properties are called what identifiers name, an
interface that is implemented explicitly is written as dotted segments,
namespaces are called by dotted names, and enums and delegates have no
members. `WellNamed` says so of a tree, and `wellNamed_of_parse` that the
parser gives no other trees. The only lexemes that matter are identifiers;
that the parser only moves forward keeps them as the scanner left them.

A file is read with one cursor, so whatever is in its tree was given by some
parser somewhere along the way from the top (`Always`). A property that
types, their members and namespaces hand up to what they stand in
(`TreeRule`) is known of a whole file if it is known of the members that
are no types.
-/
import ClrListing.Proofs.Run
import ClrListing.Proofs.Source.Spelling
import ClrListing.Proofs.Syntax.Advances
import ClrListing.Syntax.Tree

namespace ClrListing.Syntax

open Source

-- ========================================================= well named

/-- Whether an interface that may be written before a member's name is a
dotted name. -/
def NamesInterface (interface : Option TypeExpr) : Prop :=
  ∀ t, interface = some t →
    ∃ segments, t = .named none segments ∧ segments ≠ [] ∧ ∀ s ∈ segments, IsName s.name

/-- A name of one or more parts with dots between them. -/
def IsDottedName (name : String) : Prop :=
  ∃ names, names ≠ [] ∧ (∀ n ∈ names, IsName n) ∧ name = String.intercalate "." names

mutual

/-- Whether a type and what is inside it is called by names, and whether
nothing is inside what has no members. -/
def TypeDecl.WellNamed : TypeDecl → Prop
  | ⟨kind, name, _, _, _, members, _, _, _⟩ =>
    IsName name ∧ (kind = .enumType ∨ kind = .delegateType → members = [])
      ∧ AllWellNamed members

/-- Whether all members are well named. -/
def AllWellNamed : List Member → Prop
  | [] => True
  | m :: rest => m.WellNamed ∧ AllWellNamed rest

/-- Whether a member is well named. -/
def Member.WellNamed : Member → Prop
  | .type decl => decl.WellNamed
  | .method m => IsName m.name ∧ NamesInterface m.explicitInterface
  | .property p => IsName p.name ∧ NamesInterface p.explicitInterface
  | .indexer i => NamesInterface i.explicitInterface
  | .field _ | .constructor _ | .destructor _ | .event _ | .operator _ => True

end

mutual

/-- Whether a member of a namespace is well named. -/
def NamespaceMember.WellNamed : NamespaceMember → Prop
  | .space ⟨name, _, _, members, _⟩ => IsDottedName name ∧ SpaceWellNamed members
  | .type decl => decl.WellNamed

/-- Whether all members of a namespace are well named. -/
def SpaceWellNamed : List NamespaceMember → Prop
  | [] => True
  | m :: rest => m.WellNamed ∧ SpaceWellNamed rest

end

/-- Whether a file is well named. -/
def CompilationUnit.WellNamed (unit : CompilationUnit) : Prop := SpaceWellNamed unit.members

theorem allWellNamed_iff {members : List Member} :
    AllWellNamed members ↔ ∀ m ∈ members, m.WellNamed := by
  induction members with
  | nil => simp [AllWellNamed]
  | cons m rest ih => rw [AllWellNamed, ih, List.forall_mem_cons]

theorem spaceWellNamed_iff {members : List NamespaceMember} :
    SpaceWellNamed members ↔ ∀ m ∈ members, m.WellNamed := by
  induction members with
  | nil => simp [SpaceWellNamed]
  | cons m rest ih => rw [SpaceWellNamed, ih, List.forall_mem_cons]

theorem namesInterface_none : NamesInterface none := by
  intro t h
  cases h

-- ============================================================= cursors

/-- Whether the identifiers ahead are spelled like identifiers. -/
def Cursor.Spelled (c : Cursor) : Prop :=
  ∀ l ∈ c.rest, l.kind = .identifier → IsSpelling l.text

theorem Cursor.Spelled.next {c : Cursor} (h : c.Spelled) : c.next.Spelled := by
  intro l hl
  unfold Cursor.next at hl
  split at hl
  · next first rest heq =>
    split at hl
    · exact h l hl
    · exact h l (heq ▸ List.mem_cons_of_mem _ hl)
  · exact h l hl

theorem Cursor.Spelled.skip {c : Cursor} (h : c.Spelled) (n : Nat) : (c.skip n).Spelled := by
  induction n generalizing c with
  | zero => exact h
  | succ n ih => exact ih h.next

namespace Parser

-- =============================================== what a parser gives

/-- Whether all that a parser gives on the way from the top satisfies `P`. -/
def Always (top : Cursor) (p : Parser α) (P : α → Prop) : Prop :=
  ∀ n a c', p (top.skip n) = .ok (a, c') → P a

/-- Whether the item of a turn, if there is one, satisfies `P`. -/
def Turn.All (P : α → Prop) : Turn α → Prop
  | .item a => P a
  | .last a => P a
  | .done => True

/-- Whether a turn gives an item that satisfies `P`. -/
def Turn.Gives (P : α → Prop) : Turn α → Prop
  | .item a => P a
  | .last a => P a
  | .done => False

namespace Always

variable {top : Cursor} {p : Parser α} {f : α → Parser β} {P P' : α → Prop} {Q : β → Prop}

theorem mono (h : Always top p P) (himp : ∀ a, P a → P' a) : Always top p P' :=
  fun n a c' hok => himp a (h n a c' hok)

theorem pure {a : α} (h : P a) : Always top (pure a) P := by
  rintro n _ _ ⟨⟩
  exact h

theorem bind [Advances p] (hp : Always top p P) (hf : ∀ a, P a → Always top (f a) Q) :
    Always top (p >>= f) Q := by
  intro n b c' hok
  obtain ⟨a, d, hfirst, hrest⟩ := bind_eq_ok hok
  obtain ⟨m, rfl⟩ := Advances.forward hfirst
  rw [Cursor.skip_add] at hrest
  exact hf a (hp n a _ hfirst) _ b c' hrest

/-- A first part whose result does not matter. -/
theorem after [Advances p] (hf : ∀ a, Always top (f a) Q) : Always top (p >>= f) Q := by
  have htrue : Always top p fun _ => True := fun _ _ _ _ => trivial
  exact htrue.bind fun a _ => hf a

theorem ite {b : Prop} [Decidable b] {p q : Parser α} (hp : Always top p P)
    (hq : Always top q P) : Always top (if b then p else q) P := by
  split
  · exact hp
  · exact hq

theorem fail (code message : String) : Always top (fail code message : Parser α) P := by
  rintro n a c' ⟨⟩

theorem exhausted : Always top (exhausted : Parser α) P := by
  rintro n a c' ⟨⟩

theorem missing (k : LexemeKind) : Always top (missing k : Parser α) P := by
  unfold Parser.missing
  split <;> exact fail _ _

variable {turn : Parser (Turn α)} [Advances turn]

theorem collectWithin (h : Always top turn (Turn.All P)) (bound : Nat) :
    Always top (collectWithin turn bound) fun items => ∀ a ∈ items, P a := by
  induction bound with
  | zero => exact .exhausted
  | succ bound ih =>
    unfold Parser.collectWithin
    refine h.bind fun t ht => ?_
    cases t with
    | item a => exact ih.bind fun rest hrest => .pure (List.forall_mem_cons.mpr ⟨ht, hrest⟩)
    | last a => exact .pure (List.forall_mem_singleton.mpr ht)
    | done => exact .pure fun _ hmem => absurd hmem List.not_mem_nil

theorem collect (h : Always top turn (Turn.All P)) :
    Always top (collect turn) fun items => ∀ a ∈ items, P a :=
  .after fun _ => collectWithin h _

/-- A repetition whose every turn gives an item gives one at least. -/
theorem collect_some (h : Always top turn (Turn.Gives P)) :
    Always top (Parser.collect turn) fun items => items ≠ [] ∧ ∀ a ∈ items, P a := by
  have hall : Always top turn (Turn.All P) := h.mono fun t ht => by
    cases t with
    | item a => exact ht
    | last a => exact ht
    | done => trivial
  refine .after fun c => ?_
  unfold Parser.collectWithin
  refine h.bind fun t ht => ?_
  cases t with
  | item a =>
    exact (collectWithin hall _).bind fun rest hrest =>
      .pure ⟨List.cons_ne_nil _ _, List.forall_mem_cons.mpr ⟨ht, hrest⟩⟩
  | last a => exact .pure ⟨List.cons_ne_nil _ _, List.forall_mem_singleton.mpr ht⟩
  | done => exact ht.elim

theorem separated {item : Parser α} [Advances item] (h : Always top item P) :
    Always top (separated item) fun items => ∀ a ∈ items, P a :=
  collect (h.bind fun _ ha => .after fun _ => .ite (.pure ha) (.pure ha))

end Always

/-- Whether all that a parser gives, identifiers being spelled as they
should, satisfies `P`. -/
def Yields (p : Parser α) (P : α → Prop) : Prop :=
  ∀ (c c' : Cursor) (a : α), c.Spelled → p c = .ok (a, c') → P a

theorem yields_iff {p : Parser α} {P : α → Prop} :
    Yields p P ↔ ∀ top : Cursor, top.Spelled → Always top p P where
  mp h _ htop n a c' hok := h _ c' a (htop.skip n) hok
  mpr h c c' a hc hok := h c hc 0 a c' hok

theorem Always.of_yields {top : Cursor} (htop : top.Spelled) {p : Parser α} {P : α → Prop}
    (h : Yields p P) : Always top p P := yields_iff.mp h top htop

namespace Yields

variable {p : Parser α} {f : α → Parser β} {P : α → Prop} {Q : β → Prop}

theorem pure {a : α} (h : P a) : Yields (pure a : Parser α) P := yields_iff.mpr fun _ _ => .pure h

theorem bind [Advances p] (hp : Yields p P) (hf : ∀ a, P a → Yields (f a) Q) :
    Yields (p >>= f) Q :=
  yields_iff.mpr fun _ htop => (Always.of_yields htop hp).bind fun a ha => .of_yields htop (hf a ha)

/-- A first part whose result does not matter. -/
theorem after [Advances p] (hf : ∀ a, Yields (f a) Q) : Yields (p >>= f) Q :=
  yields_iff.mpr fun _ htop => .after fun a => .of_yields htop (hf a)

theorem ite {b : Prop} [Decidable b] {p q : Parser α} (hp : Yields p P) (hq : Yields q P) :
    Yields (if b then p else q) P :=
  yields_iff.mpr fun _ htop => .ite (.of_yields htop hp) (.of_yields htop hq)

theorem fail (code message : String) : Yields (fail code message : Parser α) P :=
  yields_iff.mpr fun _ _ => .fail code message

theorem missing (k : LexemeKind) : Yields (missing k : Parser α) P :=
  yields_iff.mpr fun _ _ => .missing k

/-- A repetition whose every turn gives an item gives one at least. -/
theorem collect_some {turn : Parser (Turn α)} [Advances turn] (h : Yields turn (Turn.Gives P)) :
    Yields (collect turn) fun items => items ≠ [] ∧ ∀ a ∈ items, P a :=
  yields_iff.mpr fun _ htop => .collect_some (.of_yields htop h)

end Yields

-- =============================================================== names

/-- The at sign before a name is not part of it. -/
theorem isName_nameOf {text : String} (h : IsSpelling text) : IsName (nameOf text) := by
  obtain ⟨name, hname, hspelled⟩ := h
  unfold nameOf
  rcases hspelled with rfl | hat
  · split
    · next rest heq => exact absurd (heq ▸ List.mem_cons_self) hname.no_at
    · exact hname
  · rw [hat]
    simp only []
    rw [String.ofList_toList]
    exact hname

theorem yields_identifier : Yields identifier IsName := by
  intro c c' name hc hok
  have hrun : identifier c = if decide (c.kindAt 0 = .identifier) then
      .ok (nameOf (c.textAt 0), c.next) else Parser.missing .identifier c := by
    show (if decide (c.kindAt 0 = .identifier) then _ else _ : Parser String) c = _
    split <;> rfl
  rw [hrun] at hok
  split at hok
  · next hkind =>
    cases hok
    cases hrest : c.rest with
    | nil =>
      have hend : c.kindAt 0 = .endOfText := by
        unfold Cursor.kindAt
        rw [hrest]
        rfl
      rw [hend] at hkind
      cases hkind
    | cons l rest =>
      have hl : c.kindAt 0 = l.kind ∧ c.textAt 0 = l.text := by
        unfold Cursor.kindAt Cursor.textAt
        rw [hrest]
        exact ⟨rfl, rfl⟩
      rw [hl.1] at hkind
      rw [hl.2]
      exact isName_nameOf (hc l (hrest ▸ List.mem_cons_self) (of_decide_eq_true hkind))
  · exact Yields.missing (P := IsName) .identifier c c' name hc hok

theorem yields_nameSegment (argument : Parser TypeExpr) [Advances argument] :
    Yields (nameSegment argument) fun s => IsName s.name := by
  unfold nameSegment
  refine yields_identifier.bind fun name hname => .after fun _ => .ite ?_ (.pure hname)
  exact .after fun _ => .pure hname

theorem yields_memberSegments :
    Yields memberSegments fun segments => segments ≠ [] ∧ ∀ s ∈ segments, IsName s.name := by
  unfold memberSegments
  refine Yields.collect_some ?_
  refine (yields_nameSegment typeExpr).bind fun s hs => .after fun _ => .after fun _ => ?_
  exact .ite (.after fun _ => .pure hs) (.pure hs)

theorem yields_qualifiedName : Yields qualifiedName IsDottedName := by
  have hturn : Yields (do
      let name ← identifier
      if ← eat .dot then return .item name else return .last name : Parser (Turn String))
      (Turn.Gives IsName) :=
    yields_identifier.bind fun name hname => .after fun _ => .ite (.pure hname) (.pure hname)
  unfold qualifiedName
  refine (Yields.collect_some hturn).bind fun names hnames => .pure ?_
  exact ⟨names, hnames.1, hnames.2, rfl⟩

-- ============================================================= members

section Members

variable (from_ : Nat) (mods : Modifiers) (type : TypeExpr)

theorem yields_indexerAfter {interface : Option TypeExpr} (h : NamesInterface interface) :
    Yields (indexerAfter from_ mods type interface) Member.WellNamed := by
  unfold indexerAfter
  refine .after fun _ => .after fun params => .after fun parts => .after fun span => .pure ?_
  rw [Member.WellNamed]
  exact h

theorem yields_methodAfter {interface : Option TypeExpr} {segment : NameSegment}
    (h : NamesInterface interface) (hname : IsName segment.name) :
    Yields (methodAfter from_ mods type interface segment) Member.WellNamed := by
  unfold methodAfter
  split
  · exact .fail _ _
  · refine .after fun params => .after fun _ => .after fun body => .after fun span => .pure ?_
    rw [Member.WellNamed]
    exact ⟨hname, h⟩

theorem yields_propertyAfter {interface : Option TypeExpr} {name : String}
    (h : NamesInterface interface) (hname : IsName name) :
    Yields (propertyAfter from_ mods type interface name) Member.WellNamed := by
  have hdone : ∀ accessors expression hasInitializer span,
      Yields (pure (.property ⟨mods, type, interface, name, accessors, expression,
        hasInitializer, span⟩) : Parser Member) Member.WellNamed := by
    intro accessors expression hasInitializer span
    refine .pure ?_
    rw [Member.WellNamed]
    exact ⟨hname, h⟩
  unfold propertyAfter
  dsimp only
  refine .after fun parts => ?_
  split
  · refine .after fun assigned => .ite ?_ (.after fun span => hdone _ _ _ _)
    exact .after fun _ => .after fun _ => .after fun span => hdone _ _ _ _
  · refine .after fun assigned => .ite ?_ (.after fun span => hdone _ _ _ _)
    exact .after fun _ => .after fun _ => .after fun span => hdone _ _ _ _

theorem yields_fieldAfter (name : String) :
    Yields (fieldAfter from_ mods type name) Member.WellNamed := by
  unfold fieldAfter
  refine .after fun vars => .after fun span => .pure ?_
  rw [Member.WellNamed]
  trivial

theorem namesInterface_interfaceOf {segments : List NameSegment}
    (h : ∀ s ∈ segments, IsName s.name) : NamesInterface (interfaceOf segments) := by
  intro t ht
  unfold interfaceOf at ht
  split at ht
  · cases ht
  · next hne =>
    cases ht
    exact ⟨segments, rfl, fun hnil => hne (by rw [hnil]; rfl), h⟩

theorem yields_namedMember {segments : List NameSegment}
    (h : segments ≠ [] ∧ ∀ s ∈ segments, IsName s.name) :
    Yields (namedMember from_ mods type segments) Member.WellNamed := by
  have hlast : IsName (segments.getLastD default).name := by
    rw [List.getLastD_eq_getLast?, List.getLast?_eq_some_getLast h.1, Option.getD_some]
    exact h.2 _ (List.getLast_mem h.1)
  have hinterface : NamesInterface (interfaceOf segments.dropLast) :=
    namesInterface_interfaceOf fun s hs => h.2 s ((List.dropLast_sublist segments).subset hs)
  unfold namedMember
  dsimp only
  refine .after fun k => ?_
  split
  · exact yields_methodAfter from_ mods type hinterface hlast
  · exact yields_propertyAfter from_ mods type hinterface hlast
  · exact yields_propertyAfter from_ mods type hinterface hlast
  · exact .ite (yields_fieldAfter from_ mods type _) (.missing _)
  · exact .ite (yields_fieldAfter from_ mods type _) (.missing _)
  · exact .ite (yields_fieldAfter from_ mods type _) (.missing _)
  · exact .ite (yields_fieldAfter from_ mods type _) (.missing _)
  · exact .missing _

theorem yields_operatorAfter (kind : OperatorKind) (returnType : TypeExpr) :
    Yields (operatorAfter from_ mods kind returnType) Member.WellNamed := by
  unfold operatorAfter
  refine .after fun params => .after fun body => .after fun span => .pure ?_
  rw [Member.WellNamed]
  trivial

theorem yields_typedMember : Yields (typedMember from_ mods type) Member.WellNamed := by
  unfold typedMember
  refine .after fun isOperator => .ite ?_ (.after fun isIndexer => .ite ?_ ?_)
  · unfold symbolOperator
    exact .after fun c => .after fun _ => yields_operatorAfter from_ mods _ type
  · exact yields_indexerAfter from_ mods type namesInterface_none
  · refine yields_memberSegments.bind fun segments hsegments => ?_
    refine .after fun _ => .after fun _ => .ite ?_ ?_
    · refine .after fun _ => yields_indexerAfter from_ mods type ?_
      rintro t ⟨⟩
      exact ⟨segments, rfl, hsegments⟩
    · exact yields_namedMember from_ mods type hsegments

theorem yields_plainMember : Yields (plainMember from_ mods) Member.WellNamed := by
  unfold plainMember
  refine .after fun k => ?_
  split
  · unfold destructor
    refine .after fun _ => .after fun name => .after fun _ => .after fun _ => .after fun body =>
      .after fun span => .pure ?_
    rw [Member.WellNamed]
    trivial
  · unfold event
    refine .after fun _ => .after fun type => .after fun names => .after fun block => .ite ?_ ?_
    · refine .after fun accessors => .after fun span => .pure ?_
      rw [Member.WellNamed]
      trivial
    · refine .after fun vars => .after fun span => .pure ?_
      rw [Member.WellNamed]
      trivial
  · unfold conversion
    exact .after fun _ => .after fun _ => .after fun type => yields_operatorAfter from_ mods _ type
  · unfold conversion
    exact .after fun _ => .after fun _ => .after fun type => yields_operatorAfter from_ mods _ type
  · refine .after fun next => .ite ?_ (.after fun type => yields_typedMember from_ mods type)
    unfold constructor
    refine .after fun name => .after fun params => .after fun target => .after fun body =>
      .after fun span => .pure ?_
    rw [Member.WellNamed]
    trivial
  · exact .after fun type => yields_typedMember from_ mods type
  · exact .after fun type => yields_typedMember from_ mods type
  · exact .after fun _ => .fail _ _

end Members

-- ============================================================== files

/-- How a property of what is read on the way from the top is handed up:
from the members that are no types to types, which are named, and from
members of namespaces, which are named, to the namespaces. -/
structure TreeRule (top : Cursor) (OfType : TypeDecl → Prop) (OfMember : Member → Prop)
    (OfSpaceMember : NamespaceMember → Prop) : Prop where
  spelled : top.Spelled
  plain : ∀ from_ mods, Always top (plainMember from_ mods) OfMember
  type : ∀ decl : TypeDecl, IsName decl.name →
    (decl.kind = .enumType ∨ decl.kind = .delegateType → decl.members = []) →
    (∀ m ∈ decl.members, OfMember m) → OfType decl
  nested : ∀ decl, OfType decl → OfMember (.type decl)
  space : ∀ decl : NamespaceDecl, IsDottedName decl.name →
    (∀ m ∈ decl.members, OfSpaceMember m) → OfSpaceMember (.space decl)
  spaceType : ∀ decl, OfType decl → OfSpaceMember (.type decl)

namespace TreeRule

variable {top : Cursor} {OfType : TypeDecl → Prop} {OfMember : Member → Prop}
variable {OfSpaceMember : NamespaceMember → Prop}

section Types

variable (from_ : Nat) (mods : Modifiers) {member : Parser Member} [Advances member]
variable {kind : TypeKind}

theorem name (rule : TreeRule top OfType OfMember OfSpaceMember) : Always top identifier IsName :=
  .of_yields rule.spelled yields_identifier

theorem delegateAfter (rule : TreeRule top OfType OfMember OfSpaceMember) :
    Always top (delegateAfter from_ mods) OfType := by
  unfold Parser.delegateAfter
  refine .after fun returnType => rule.name.bind fun name hname => ?_
  exact .after fun typeParams => .after fun params => .after fun _ => .after fun _ =>
    .after fun span => .pure (rule.type _ hname (fun _ => rfl) nofun)

theorem enumAfter (rule : TreeRule top OfType OfMember OfSpaceMember) :
    Always top (enumAfter from_ mods) OfType := by
  have hdone : ∀ {name : String} {bases : List TypeExpr}, IsName name → Always top (do
      let names ← enumerators
      let _ ← eat .semicolon
      return ⟨.enumType, name, [], mods, bases, [], names, none, ← spanFrom from_⟩) OfType := by
    intro name bases hname
    exact .after fun names => .after fun _ => .after fun span =>
      .pure (rule.type _ hname (fun _ => rfl) nofun)
  unfold Parser.enumAfter
  dsimp only
  refine rule.name.bind fun name hname => .after fun derived => .ite ?_ ?_
  · exact .after fun base => .after fun bases => hdone hname
  · exact .after fun bases => hdone hname

theorem classAfter (rule : TreeRule top OfType OfMember OfSpaceMember)
    (h : Always top member OfMember) (hkind : ¬ (kind = .enumType ∨ kind = .delegateType)) :
    Always top (classAfter member from_ mods kind) OfType := by
  have hturn : Always top (do
      if ← atKind .rbrace then
        return .done
      else if ← atKind .endOfText then
        missing .rbrace
      else
        return .item (← member) : Parser (Turn Member)) (Turn.All OfMember) := by
    refine .after fun closes => .ite (.pure trivial) (.after fun ends => .ite (.missing _) ?_)
    exact h.bind fun m hm => .pure hm
  have hdone : ∀ {name : String} {typeParams : List String} {bases : List TypeExpr},
      IsName name → Always top (do
        skipConstraints
        expect .lbrace
        let members ← collect do
          if ← atKind .rbrace then
            return .done
          else if ← atKind .endOfText then
            missing .rbrace
          else
            return .item (← member)
        expect .rbrace
        let _ ← eat .semicolon
        return ⟨kind, name, typeParams, mods, bases, members, [], none, ← spanFrom from_⟩)
        OfType := by
    intro name typeParams bases hname
    refine .after fun _ => .after fun _ => (Always.collect hturn).bind fun members hmembers => ?_
    exact .after fun _ => .after fun _ => .after fun span =>
      .pure (rule.type _ hname (fun h => absurd h hkind) hmembers)
  unfold Parser.classAfter
  dsimp only
  refine rule.name.bind fun name hname => .after fun typeParams => ?_
  refine .after fun derived => .ite ?_ ?_
  · exact .after fun bases => hdone hname
  · exact .after fun bases => hdone hname

theorem typeDeclOf (rule : TreeRule top OfType OfMember OfSpaceMember)
    (h : Always top member OfMember) : Always top (typeDeclOf member from_ mods kind) OfType := by
  unfold Parser.typeDeclOf
  refine .after fun _ => ?_
  cases kind with
  | delegateType => exact rule.delegateAfter from_ mods
  | enumType => exact rule.enumAfter from_ mods
  | classType => exact rule.classAfter from_ mods h (by simp)
  | structType => exact rule.classAfter from_ mods h (by simp)
  | interfaceType => exact rule.classAfter from_ mods h (by simp)

end Types

theorem memberWithin (rule : TreeRule top OfType OfMember OfSpaceMember) (bound : Nat) :
    Always top (memberWithin bound) OfMember := by
  induction bound with
  | zero =>
    unfold Parser.memberWithin
    exact .exhausted
  | succ bound ih =>
    unfold Parser.memberWithin
    refine .after fun _ => .after fun from_ => .after fun mods => .after fun k => ?_
    split
    · exact (rule.typeDeclOf from_ mods ih).bind fun decl hdecl => .pure (rule.nested decl hdecl)
    · exact rule.plain from_ mods

theorem declaration (rule : TreeRule top OfType OfMember OfSpaceMember) :
    Always top namespaceMember.declaration (Turn.All OfSpaceMember) := by
  unfold namespaceMember.declaration
  refine .after fun from_ => .after fun mods => .after fun k => ?_
  split
  · refine Always.bind (P := OfType) ?_ fun decl hdecl => .pure (rule.spaceType decl hdecl)
    unfold typeDecl
    exact .after fun c => rule.typeDeclOf from_ mods (rule.memberWithin _)
  · exact .fail _ _

theorem namespaceMember (rule : TreeRule top OfType OfMember OfSpaceMember)
    {members : Bool → Parser (List NamespaceMember)} [∀ inBlock, Advances (members inBlock)]
    (h : ∀ inBlock, Always top (members inBlock) fun ms => ∀ m ∈ ms, OfSpaceMember m)
    (inBlock : Bool) : Always top (namespaceMember members inBlock) (Turn.All OfSpaceMember) := by
  unfold Parser.namespaceMember
  refine .after fun _ => .after fun k => ?_
  split
  · exact .ite (.missing _) (.pure trivial)
  · exact .ite (.pure trivial) rule.declaration
  · refine .after fun from_ => .after fun _ => ?_
    refine (Always.of_yields rule.spelled yields_qualifiedName).bind fun name hname => ?_
    refine .after fun fileScoped => .ite ?_ ?_
    · exact .after fun usings => (h inBlock).bind fun inner hinner => .after fun span =>
        .pure (rule.space _ hname hinner)
    · refine .after fun _ => .after fun usings => (h true).bind fun inner hinner => ?_
      exact .after fun _ => .after fun _ => .after fun span => .pure (rule.space _ hname hinner)
  · exact rule.declaration

theorem namespaceMembersWithin (rule : TreeRule top OfType OfMember OfSpaceMember) (bound : Nat)
    (inBlock : Bool) :
    Always top (namespaceMembersWithin bound inBlock) fun ms => ∀ m ∈ ms, OfSpaceMember m := by
  induction bound generalizing inBlock with
  | zero =>
    unfold Parser.namespaceMembersWithin
    exact .exhausted
  | succ bound ih =>
    unfold Parser.namespaceMembersWithin
    exact .collect (rule.namespaceMember ih inBlock)

/-- All members of a file have the property. -/
theorem compilationUnit (rule : TreeRule top OfType OfMember OfSpaceMember) :
    Always top compilationUnit fun unit => ∀ m ∈ unit.members, OfSpaceMember m := by
  unfold Parser.compilationUnit namespaceMembers
  refine .after fun aliases => .after fun usings => ?_
  refine Always.bind (P := fun ms => ∀ m ∈ ms, OfSpaceMember m) (.after fun c => ?_)
    fun members hmembers => .pure hmembers
  exact rule.namespaceMembersWithin _ _

end TreeRule

theorem treeRule_wellNamed {top : Cursor} (htop : top.Spelled) :
    TreeRule top TypeDecl.WellNamed Member.WellNamed NamespaceMember.WellNamed where
  spelled := htop
  plain from_ mods := .of_yields htop (yields_plainMember from_ mods)
  type := by
    rintro ⟨kind, name, typeParams, modifiers, bases, members, enumerators, delegate, span⟩ hname
      hnone hmembers
    rw [TypeDecl.WellNamed]
    exact ⟨hname, hnone, allWellNamed_iff.mpr hmembers⟩
  nested decl h := by rwa [Member.WellNamed]
  space := by
    rintro ⟨name, fileScoped, usings, members, span⟩ hname hmembers
    rw [NamespaceMember.WellNamed]
    exact ⟨hname, spaceWellNamed_iff.mpr hmembers⟩
  spaceType decl h := by rwa [NamespaceMember.WellNamed]

end Parser

/-- What parsing a source does with its lexemes. -/
theorem exists_cursor_of_parse {source : String} {tree : Tree}
    (h : (Run.outcome (Tree.parse source)).1 = .ok tree) :
    ∃ ls c, lexemes source = .ok ls ∧ tree.source = source
      ∧ Parser.compilationUnit (Cursor.top source ls) = .ok (tree.root, c) := by
  rw [Run.outcome_eq] at h
  unfold Tree.parse at h
  cases hlexemes : lexemes source with
  | error complaints =>
    rw [hlexemes] at h
    cases h
  | ok ls =>
    rw [hlexemes] at h
    simp only [Run.upshot_bind, Run.upshot_debug] at h
    unfold Tree.ofLexemes at h
    cases hparsed : Parser.compilationUnit.run (Cursor.top source ls) with
    | error failure =>
      rw [hparsed] at h
      cases failure <;> cases h
    | ok r =>
      rw [hparsed] at h
      cases h
      exact ⟨ls, r.2, rfl, rfl, hparsed⟩

/-- A file that the parser accepts is well named. -/
theorem wellNamed_of_parse {source : String} {tree : Tree}
    (h : (Run.outcome (Tree.parse source)).1 = .ok tree) : tree.root.WellNamed := by
  obtain ⟨ls, c, hlexemes, _, hparsed⟩ := exists_cursor_of_parse h
  have hspelled : (Cursor.top source ls).Spelled := isSpelling_of_mem_lexemes hlexemes
  exact spaceWellNamed_iff.mpr ((Parser.treeRule_wellNamed hspelled).compilationUnit 0 _ c hparsed)

end ClrListing.Syntax
