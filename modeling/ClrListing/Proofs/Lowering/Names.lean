/-
The names under which compiled members are grouped.

A method's name may have an interface and a dot before it. The plain name
is what follows the last dot, so it is the member's own name if that has
no dot in it and if the interface does not start with one. The first holds
because members are called by names. The second needs the declared types:
an interface that a file declares is given by its name for the reader,
which starts with the first letter of a namespace or a type.
-/
import ClrListing.Lowering.Effect
import ClrListing.Proofs.Syntax.WellNamed

namespace ClrListing.Lowering

open Assembly Metadata Source Syntax Text

-- ============================================================== starts

/-- Whether a text starts with a character other than a dot. -/
def Opens (text : String) : Prop := ∃ c rest, text.toList = c :: rest ∧ c ≠ '.'

theorem Opens.append {text : String} (h : Opens text) (more : String) : Opens (text ++ more) := by
  obtain ⟨c, rest, htext, hc⟩ := h
  exact ⟨c, rest ++ more.toList, by rw [String.toList_append, htext, List.cons_append], hc⟩

theorem opens_of_isName {name : String} (h : IsName name) : Opens name := h.exists_cons

theorem opens_of_isDottedName {name : String} (h : IsDottedName name) : Opens name := by
  obtain ⟨names, hne, hnames, rfl⟩ := h
  cases names with
  | nil => exact absurd rfl hne
  | cons first rest =>
    have hfirst := opens_of_isName (hnames first List.mem_cons_self)
    cases rest with
    | nil =>
      rw [String.intercalate_singleton]
      exact hfirst
    | cons second rest =>
      rw [String.intercalate_cons_cons, String.append_assoc]
      exact hfirst.append _

/-- Whether a namespace has no name or starts with a character other than
a dot. -/
def SpaceOpens (space : String) : Prop := space = "" ∨ Opens space

theorem opens_qualify {space name : String} (hspace : SpaceOpens space) (hname : Opens name) :
    Opens (qualify space name) := by
  unfold qualify
  rcases hspace with rfl | hspace
  · exact hname
  · split
    · exact hname
    · rw [String.append_assoc]
      exact hspace.append _

-- ========================================================= plain names

theorem plainName_eq_self {name : String} (h : '.' ∉ name.toList) :
    MethodDef.plainName name = name := by
  unfold MethodDef.plainName
  split
  · next rest heq => exact absurd (heq ▸ List.mem_cons_self) h
  · have hnone : afterLast '.' name.toList = none := by
      unfold afterLast
      rw [if_neg (by simpa using h)]
    rw [hnone]
    rfl

/-- The plain name is what follows the interface and its dot. -/
theorem plainName_interface {interface name : String} (hinterface : Opens interface)
    (h : '.' ∉ name.toList) : MethodDef.plainName (interface ++ "." ++ name) = name := by
  obtain ⟨c, rest, hchars, hc⟩ := hinterface
  have hlist : (interface ++ "." ++ name).toList = c :: (rest ++ '.' :: name.toList) := by
    rw [String.toList_append, String.toList_append, hchars]
    simp
  have hafter : afterLast '.' (c :: (rest ++ '.' :: name.toList)) = some name.toList := by
    have hall : ∀ d ∈ name.toList.reverse, (d != '.') = true := by
      intro d hd
      rw [List.mem_reverse] at hd
      rw [bne_iff_ne]
      rintro rfl
      exact h hd
    unfold afterLast
    rw [if_pos (by simp), List.reverse_cons, List.reverse_append, List.reverse_cons,
      List.append_assoc, List.append_assoc, List.takeWhile_append_of_pos hall,
      List.singleton_append, List.takeWhile_cons_of_neg (by simp), List.append_nil,
      List.reverse_reverse]
  unfold MethodDef.plainName
  split
  · next rest' heq =>
    rw [hlist] at heq
    exact absurd (List.cons.inj heq).1 hc
  · rw [hlist, hafter, Option.map_some, Option.getD_some, String.ofList_toList]

-- ====================================================== declared types

/-- What two readings of the same declarations have in common, each in a
namespace, inside the type at a place or in none, and from a place on: it
holds of no types, of types with more behind them, and of a type with those
inside it. `Spaces` is what the namespaces have in common. -/
structure DeclaredRule (Spaces : String → String → Prop)
    (Common : Option Nat → Nat → List DeclaredType → Option Nat → Nat → List DeclaredType → Prop) :
    Prop where
  inSpace : ∀ {space space'} (name : String), Spaces space space' →
    Spaces (qualify space name) (qualify space' name)
  nil : ∀ outer place outer' place', Common outer place [] outer' place' []
  append : ∀ {outer place xs ys outer' place' xs' ys'}, Common outer place xs outer' place' xs' →
    Common outer (place + xs.length) ys outer' (place' + xs'.length) ys' →
    Common outer place (xs ++ ys) outer' place' (xs' ++ ys')
  cons : ∀ {space place inside space' place' inside'} (name : String) (arity : Nat)
    (kind : TypeKind) (outer outer' : Option Nat), Spaces space space' →
    Common (some place) (place + 1) inside (some place') (place' + 1) inside' →
    Common outer place (⟨space, name, arity, kind, outer⟩ :: inside)
      outer' place' (⟨space', name, arity, kind, outer'⟩ :: inside')

namespace DeclaredRule

variable {Spaces : String → String → Prop}
variable {Common :
  Option Nat → Nat → List DeclaredType → Option Nat → Nat → List DeclaredType → Prop}

mutual

theorem of_type (rule : DeclaredRule Spaces Common) (space space' : String)
    (hspaces : Spaces space space') :
    ∀ (decl : TypeDecl) (outer outer' : Option Nat) (place place' : Nat),
      Common outer place (declaredInType space outer place decl)
        outer' place' (declaredInType space' outer' place' decl)
  | ⟨kind, name, typeParams, _, _, members, _, _, _⟩, outer, outer', place, place' => by
    rw [declaredInType, declaredInType]
    exact rule.cons name typeParams.length kind outer outer' hspaces
      (rule.of_members space space' hspaces members place place' (place + 1) (place' + 1))

theorem of_members (rule : DeclaredRule Spaces Common) (space space' : String)
    (hspaces : Spaces space space') :
    ∀ (ms : List Member) (outer outer' place place' : Nat),
      Common (some outer) place (declaredInMembers space outer place ms)
        (some outer') place' (declaredInMembers space' outer' place' ms)
  | [], _, _, _, _ => by
    rw [declaredInMembers, declaredInMembers]
    exact rule.nil ..
  | m :: rest, outer, outer', place, place' => by
    rw [declaredInMembers, declaredInMembers]
    exact rule.append (rule.of_member space space' hspaces m outer outer' place place')
      (rule.of_members space space' hspaces rest outer outer' _ _)

theorem of_member (rule : DeclaredRule Spaces Common) (space space' : String)
    (hspaces : Spaces space space') :
    ∀ (m : Member) (outer outer' place place' : Nat),
      Common (some outer) place (declaredInMember space outer place m)
        (some outer') place' (declaredInMember space' outer' place' m)
  | .type decl, outer, outer', place, place' => by
    rw [declaredInMember, declaredInMember]
    exact rule.of_type space space' hspaces decl (some outer) (some outer') place place'
  | .field _, _, _, _, _ | .constructor _, _, _, _, _ | .destructor _, _, _, _, _
  | .method _, _, _, _, _ | .property _, _, _, _, _ | .indexer _, _, _, _, _
  | .event _, _, _, _, _ | .operator _, _, _, _, _ => rule.nil ..

end

mutual

theorem of_space (rule : DeclaredRule Spaces Common) :
    ∀ (ms : List NamespaceMember) (space space' : String) (place place' : Nat),
      Spaces space space' → Common none place (declaredInSpace space place ms)
        none place' (declaredInSpace space' place' ms)
  | [], _, _, _, _, _ => by
    rw [declaredInSpace, declaredInSpace]
    exact rule.nil ..
  | m :: rest, space, space', place, place', hspaces => by
    rw [declaredInSpace, declaredInSpace]
    exact rule.append (rule.of_spaceMember m space space' place place' hspaces)
      (rule.of_space rest space space' _ _ hspaces)

theorem of_spaceMember (rule : DeclaredRule Spaces Common) :
    ∀ (m : NamespaceMember) (space space' : String) (place place' : Nat),
      Spaces space space' → Common none place (declaredInSpaceMember space place m)
        none place' (declaredInSpaceMember space' place' m)
  | .space ⟨name, _, _, members, _⟩, _, _, place, place', hspaces => by
    rw [declaredInSpaceMember, declaredInSpaceMember]
    exact rule.of_space members _ _ place place' (rule.inSpace name hspaces)
  | .type decl, space, space', place, place', hspaces => by
    rw [declaredInSpaceMember, declaredInSpaceMember]
    exact rule.of_type space space' hspaces decl none none place place'

end

end DeclaredRule

/-- Whether the types of a list, from a place on, stand behind the types
around them. -/
def OutwardFrom (place : Nat) (types : List DeclaredType) : Prop :=
  ∀ (i : Nat) (t : DeclaredType) (outer : Nat), types[i]? = some t → t.enclosing = some outer →
    outer < place + i

theorem OutwardFrom.append {place : Nat} {xs ys : List DeclaredType} (hx : OutwardFrom place xs)
    (hy : OutwardFrom (place + xs.length) ys) : OutwardFrom place (xs ++ ys) := by
  intro i t outer ht houter
  rw [List.getElem?_append] at ht
  split at ht
  · exact hx i t outer ht houter
  · have hlt := hy _ t outer ht houter
    omega

theorem OutwardFrom.cons {place : Nat} {t : DeclaredType} {types : List DeclaredType}
    (houter : ∀ outer, t.enclosing = some outer → outer < place)
    (h : OutwardFrom (place + 1) types) : OutwardFrom place (t :: types) := by
  intro i u outer hu ho
  cases i with
  | zero =>
    cases hu
    exact houter outer ho
  | succ i =>
    have hlt := h i u outer hu ho
    omega

/-- What stands in a type from a place behind it on, stands behind the types
around it. -/
theorem outwardRule : DeclaredRule (fun _ _ => True) fun outer place types _ _ _ =>
    (∀ o, outer = some o → o < place) → OutwardFrom place types where
  inSpace _ _ := trivial
  nil _ _ _ _ _ := nofun
  append hx hy houter :=
    (hx houter).append (hy fun o ho => Nat.lt_of_lt_of_le (houter o ho) (Nat.le_add_right _ _))
  cons _ _ _ _ _ _ hin houter :=
    .cons houter (hin fun _ ho => Option.some.inj ho ▸ Nat.lt_succ_self _)

theorem outward_declaredInSpace (ms : List NamespaceMember) (space : String) (place : Nat) :
    OutwardFrom place (declaredInSpace space place ms) :=
  outwardRule.of_space ms space space place place trivial nofun

section Named

variable {Space : String → Prop}

mutual

/-- A well named type and those inside it have names, and they are in its
namespace. -/
theorem named_declaredInType {space : String} (hspace : Space space) :
    ∀ (decl : TypeDecl) (enclosing : Option Nat) (place : Nat), decl.WellNamed →
      ∀ t ∈ declaredInType space enclosing place decl, IsName t.name ∧ Space t.space
  | ⟨_, _, _, _, _, members, _, _, _⟩, enclosing, place, hw => by
    rw [TypeDecl.WellNamed] at hw
    rw [declaredInType]
    exact List.forall_mem_cons.mpr ⟨⟨hw.1, hspace⟩,
      named_declaredInMembers hspace members place (place + 1) hw.2.2⟩

theorem named_declaredInMembers {space : String} (hspace : Space space) :
    ∀ (members : List Member) (outer place : Nat), AllWellNamed members →
      ∀ t ∈ declaredInMembers space outer place members, IsName t.name ∧ Space t.space
  | [], _, _, _ => fun _ h => absurd h List.not_mem_nil
  | m :: rest, outer, place, hw => by
    rw [AllWellNamed] at hw
    rw [declaredInMembers]
    exact List.forall_mem_append.mpr ⟨named_declaredInMember hspace m outer place hw.1,
      named_declaredInMembers hspace rest outer _ hw.2⟩

theorem named_declaredInMember {space : String} (hspace : Space space) :
    ∀ (m : Member) (outer place : Nat), m.WellNamed →
      ∀ t ∈ declaredInMember space outer place m, IsName t.name ∧ Space t.space
  | .type decl, outer, place, hw => by
    rw [Member.WellNamed] at hw
    rw [declaredInMember]
    exact named_declaredInType hspace decl (some outer) place hw
  | .field _, _, _, _ | .constructor _, _, _, _ | .destructor _, _, _, _ | .method _, _, _, _
  | .property _, _, _, _ | .indexer _, _, _, _ | .event _, _, _, _ | .operator _, _, _, _ =>
    fun _ h => absurd h List.not_mem_nil

end

mutual

/-- All types of well named namespaces have names, and they are in
namespaces as these make them. -/
theorem named_declaredInSpace
    (hqualify : ∀ space name, Space space → IsDottedName name → Space (qualify space name)) :
    ∀ (members : List NamespaceMember) (space : String) (place : Nat), Space space →
      SpaceWellNamed members →
      ∀ t ∈ declaredInSpace space place members, IsName t.name ∧ Space t.space
  | [], _, _, _, _ => fun _ h => absurd h List.not_mem_nil
  | m :: rest, space, place, hspace, hw => by
    rw [SpaceWellNamed] at hw
    rw [declaredInSpace]
    exact List.forall_mem_append.mpr ⟨named_declaredInSpaceMember hqualify m space place hspace hw.1,
      named_declaredInSpace hqualify rest space _ hspace hw.2⟩

theorem named_declaredInSpaceMember
    (hqualify : ∀ space name, Space space → IsDottedName name → Space (qualify space name)) :
    ∀ (m : NamespaceMember) (space : String) (place : Nat), Space space → m.WellNamed →
      ∀ t ∈ declaredInSpaceMember space place m, IsName t.name ∧ Space t.space
  | .space ⟨name, _, _, members, _⟩, space, place, hspace, hw => by
    rw [NamespaceMember.WellNamed] at hw
    rw [declaredInSpaceMember]
    exact named_declaredInSpace hqualify members _ place (hqualify space name hspace hw.1) hw.2
  | .type decl, space, place, hspace, hw => by
    rw [NamespaceMember.WellNamed] at hw
    rw [declaredInSpaceMember]
    exact named_declaredInType hspace decl none place hw

end

end Named

/-- Whether the types that stand in a list from a place on have names that
start as they should and stand behind the types around them. -/
def NamedFrom (place : Nat) (types : List DeclaredType) : Prop :=
  ∀ (i : Nat) (t : DeclaredType), types[i]? = some t →
    IsName t.name ∧ SpaceOpens t.space ∧ ∀ outer, t.enclosing = some outer → outer < place + i

/-- Whether the types of a list do. -/
def TypesNamed (types : List DeclaredType) : Prop := NamedFrom 0 types

theorem spaceOpens_qualify {space name : String} (hspace : SpaceOpens space)
    (hname : IsDottedName name) : SpaceOpens (qualify space name) :=
  .inr (opens_qualify hspace (opens_of_isDottedName hname))

/-- The types that a well named file declares are named. -/
theorem typesNamed_declaredTypes {unit : CompilationUnit} (hw : unit.WellNamed) :
    TypesNamed (declaredTypes unit) := by
  intro i t ht
  have hqualify : ∀ space name, SpaceOpens space → IsDottedName name →
      SpaceOpens (qualify space name) := fun _ _ => spaceOpens_qualify
  obtain ⟨hname, hspace⟩ := named_declaredInSpace hqualify unit.members "" 0 (.inl rfl) hw t
    (List.mem_of_getElem? ht)
  exact ⟨hname, hspace, fun outer => outward_declaredInSpace unit.members "" 0 i t outer ht⟩

-- =================================================== names of nested types

/-- What the type at a place is called behind the at most `bound` types
around it: full names and names for the reader differ in what a type is
called by itself, and in what stands between a type and the one around it. -/
def nameThrough (own : DeclaredType → String) (between : String) (types : List DeclaredType) :
    (bound place : Nat) → String
  | 0, _ => ""
  | bound + 1, place =>
    match types[place]? with
    | none => ""
    | some t =>
      match t.enclosing with
      | some outer => nameThrough own between types bound outer ++ between ++ own t
      | none => qualify t.space (own t)

theorem Scope.fullNameWithin_eq_nameThrough (sc : Scope) (bound place : Nat) :
    sc.fullNameWithin bound place
      = nameThrough (fun t => arityName t.name t.arity) "+" sc.types bound place := by
  induction bound generalizing place with
  | zero => rfl
  | succ bound ih =>
    rw [fullNameWithin, nameThrough]
    cases sc.types[place]? with
    | none => rfl
    | some t =>
      dsimp only
      cases t.enclosing with
      | none => rfl
      | some outer => exact congrArg (· ++ "+" ++ arityName t.name t.arity) (ih outer)

theorem Scope.displayNameWithin_eq_nameThrough (sc : Scope) (bound place : Nat) :
    sc.displayNameWithin bound place
      = nameThrough DeclaredType.name "." sc.types bound place := by
  induction bound generalizing place with
  | zero => rfl
  | succ bound ih =>
    rw [displayNameWithin, nameThrough]
    cases sc.types[place]? with
    | none => rfl
    | some t =>
      dsimp only
      cases t.enclosing with
      | none => rfl
      | some outer => exact congrArg (· ++ "." ++ t.name) (ih outer)

-- ============================================================= look-up

/-- What two look-ups in turn find, one of them finds. -/
theorem orElse_eq_some {x y : Option α} {a : α} (h : (x <|> y) = some a) :
    x = some a ∨ y = some a := by
  cases x with
  | none => exact .inr h
  | some b => exact .inl h

namespace Scope

variable {sc : Scope} {segments : List NameSegment} {place : Nat}

theorem findTop?_lt {space : String} {segment : NameSegment}
    (h : sc.findTop? space segment = some place) : place < sc.types.length := by
  obtain ⟨hlt, -⟩ := List.findIdx?_eq_some_iff_getElem.mp h
  exact hlt

theorem findNested?_lt {outer : Nat} {segment : NameSegment}
    (h : sc.findNested? outer segment = some place) : place < sc.types.length := by
  obtain ⟨hlt, -⟩ := List.findIdx?_eq_some_iff_getElem.mp h
  exact hlt

theorem lookupSimple?_lt {segment : NameSegment} (h : sc.lookupSimple? segment = some place) :
    place < sc.types.length := by
  unfold lookupSimple? at h
  rcases orElse_eq_some h with h | h
  · obtain ⟨outer, -, hfound⟩ := List.exists_of_findSome?_eq_some h
    exact findNested?_lt hfound
  · rcases orElse_eq_some h with h | h
    · obtain ⟨space, -, hfound⟩ := List.exists_of_findSome?_eq_some h
      exact findTop?_lt hfound
    · obtain ⟨space, -, hfound⟩ := List.exists_of_findSome?_eq_some h
      exact findTop?_lt hfound

theorem lookupNested?_lt {found : Nat} (hfound : found < sc.types.length)
    (h : sc.lookupNested? found segments = some place) : place < sc.types.length := by
  induction segments generalizing found with
  | nil =>
    rw [lookupNested?] at h
    cases h
    exact hfound
  | cons segment rest ih =>
    rw [lookupNested?] at h
    obtain ⟨inner, hinner, hrest⟩ := Option.bind_eq_some_iff.mp h
    exact ih (findNested?_lt hinner) hrest

theorem lookupInSpace?_lt {k : Nat} (h : sc.lookupInSpace? segments k = some place) :
    place < sc.types.length := by
  unfold lookupInSpace? at h
  simp only [] at h
  split at h
  · cases h
  · obtain ⟨space, -, hspace⟩ := List.exists_of_findSome?_eq_some h
    obtain ⟨found, hfound, hrest⟩ := Option.bind_eq_some_iff.mp hspace
    exact lookupNested?_lt (findTop?_lt hfound) hrest

/-- What a name means is a declared type. -/
theorem lookup?_lt (h : sc.lookup? segments = some place) : place < sc.types.length := by
  unfold lookup? at h
  split at h
  · cases h
  · rcases orElse_eq_some h with h | h
    · obtain ⟨found, hfound, hrest⟩ := Option.bind_eq_some_iff.mp h
      exact lookupNested?_lt (lookupSimple?_lt hfound) hrest
    · obtain ⟨k, -, hk⟩ := List.exists_of_findSome?_eq_some h
      exact lookupInSpace?_lt hk

theorem opens_displayNameWithin (hnamed : TypesNamed sc.types) {bound : Nat}
    (hbound : place < bound) (hlt : place < sc.types.length) :
    Opens (sc.displayNameWithin bound place) := by
  induction bound generalizing place with
  | zero => omega
  | succ bound ih =>
    have hget := List.getElem?_eq_getElem hlt
    obtain ⟨hname, hspace, houter⟩ := hnamed place _ hget
    rw [displayNameWithin, hget]
    simp only []
    split
    · next outer ho =>
      have hbefore := houter outer ho
      rw [String.append_assoc]
      exact (ih (by omega) (by omega)).append _
    · exact opens_qualify hspace (opens_of_isName hname)

theorem opens_displaySegments (hne : segments ≠ []) (hnames : ∀ s ∈ segments, IsName s.name) :
    Opens (TypeExpr.displaySegments segments) := by
  have hsegment : ∀ s : NameSegment, IsName s.name → Opens (TypeExpr.displaySegment s) := by
    rintro ⟨name, args⟩ hname
    cases args with
    | nil =>
      rw [TypeExpr.displaySegment]
      exact opens_of_isName hname
    | cons arg args =>
      rw [TypeExpr.displaySegment, String.append_assoc, String.append_assoc]
      exact (opens_of_isName hname).append _
  cases segments with
  | nil => exact absurd rfl hne
  | cons first rest =>
    have hfirst := hsegment first (hnames first List.mem_cons_self)
    cases rest with
    | nil =>
      rw [TypeExpr.displaySegments]
      exact hfirst
    | cons second rest =>
      rw [TypeExpr.displaySegments, String.append_assoc]
      · exact hfirst.append _
      · simp

/-- The name of an explicitly implemented interface does not start with a
dot. -/
theorem opens_interfaceName (hnamed : TypesNamed sc.types) (hne : segments ≠ [])
    (hnames : ∀ s ∈ segments, IsName s.name) :
    Opens (sc.interfaceName (.named none segments)) := by
  unfold interfaceName
  simp only []
  split
  · next place hplace =>
    have hdisplay : Opens (sc.displayName place) :=
      opens_displayNameWithin hnamed (Nat.lt_succ_self _) (lookup?_lt hplace)
    split
    · exact hdisplay
    · rw [String.append_assoc, String.append_assoc]
      exact hdisplay.append _
  · rw [TypeExpr.display]
    exact opens_displaySegments hne hnames

end Scope

/-- Without the interface that may stand before it, a name is itself. -/
theorem plainName_interfaceStart {scope : Scope} (hnamed : TypesNamed scope.types)
    {interface : Option TypeExpr} (hinterface : NamesInterface interface) {name : String}
    (h : '.' ∉ name.toList) :
    MethodDef.plainName (interfaceStart scope interface ++ name) = name := by
  cases interface with
  | none =>
    unfold interfaceStart
    rw [String.empty_append]
    exact plainName_eq_self h
  | some t =>
    obtain ⟨segments, rfl, hne, hnames⟩ := hinterface t rfl
    exact plainName_interface (Scope.opens_interfaceName hnamed hne hnames) h

end ClrListing.Lowering
