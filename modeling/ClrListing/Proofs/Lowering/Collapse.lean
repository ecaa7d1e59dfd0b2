/-
Looking names up in two lists of declared types.

`Sends types types' c` says that the places of one list are sent to those
of another, so that types keep their names and stay inside the same types.
A name all of whose segments are found alike in both lists, wherever
look-up comes by (`FoundAlike`), means the same in both, and a type is
called the same if its names do (`typeName_sent`); the bare names of type
parameters are not looked up.

`Collapses types types' c p` says that moreover segments are found alike.
More than one place may be sent to `p`; of those, look-up finds the place
`p` alone. What is found inside any other type is sent to what is found
there. Inside the places that are sent to `p` that is a matter of the
segment (`FindsAlike`), and a name all of whose segments are found alike
is called the same in both lists (`spelledAlike_collapsed`).
-/
import ClrListing.Proofs.Lowering.Likeness
import ClrListing.Proofs.Lowering.Names

namespace ClrListing.Lowering

open Syntax Text

-- ============================================================ sending

/-- Whether what a segment names in a namespace of one list is sent to what
it names there in the other. -/
def TopAlike (types types' : List DeclaredType) (c : Nat → Nat) (segment : NameSegment) : Prop :=
  ∀ space, ((Scope.top types').findTop? space segment).map c
    = (Scope.top types).findTop? space segment

/-- Whether what a segment names inside a type of one list is sent to what
it names there in the other. -/
def FindsAlike (types types' : List DeclaredType) (c : Nat → Nat) (outer : Nat)
    (segment : NameSegment) : Prop :=
  ((Scope.top types').findNested? outer segment).map c
    = (Scope.top types).findNested? (c outer) segment

/-- Whether every type of a list stands behind the type around it. -/
def Outward (types : List DeclaredType) : Prop :=
  ∀ (q : Nat) (t : DeclaredType) (outer : Nat), types[q]? = some t → t.enclosing = some outer →
    outer < q

/-- Whether the places of a list of types are sent along `c` to places of
another, where types have the same names and are inside the same types. -/
structure Sends (types types' : List DeclaredType) (c : Nat → Nat) : Prop where
  entry : ∀ (q : Nat) (t : DeclaredType), types'[q]? = some t →
    types[c q]? = some { t with enclosing := t.enclosing.map c }
  outward : Outward types
  outward' : Outward types'

/-- Whether a list of types is another with places sent along `c`, where
only `p` stands for several. -/
structure Collapses (types types' : List DeclaredType) (c : Nat → Nat) (p : Nat) : Prop
    extends Sends types types' c where
  top : ∀ space segment, ((Scope.top types').findTop? space segment).map c
    = (Scope.top types).findTop? space segment
  nested : ∀ outer segment, c outer ≠ p → FindsAlike types types' c outer segment
  firstTop : ∀ space segment q, (Scope.top types').findTop? space segment = some q →
    c q = p → q = p
  firstNested : ∀ outer segment q, (Scope.top types').findNested? outer segment = some q →
    c q = p → q = p

/-- The scope with the types of the other list. -/
def Scope.collapsed (types : List DeclaredType) (c : Nat → Nat) (sc : Scope) : Scope :=
  { sc with types := types, enclosing := sc.enclosing.map c }

/-- Whether the type that is being read is one of the declared types. -/
def Scope.Valid (sc : Scope) : Prop := ∀ q, sc.enclosing = some q → q < sc.types.length

/-- Whether look-up may find the type at a place when it looks for a segment. -/
def Scope.Finds (sc : Scope) (segment : NameSegment) (q : Nat) : Prop :=
  (∃ space, sc.findTop? space segment = some q) ∨ ∃ outer, sc.findNested? outer segment = some q

/-- Whether what comes after a dot in a name is found alike in the types that
come before it. -/
def DotsFoundAlike (types : List DeclaredType) (c : Nat → Nat) (sc : Scope)
    (name : List NameSegment) : Prop :=
  ∀ segment next, [segment, next] <:+: name → ∀ q, sc.Finds segment q →
    FindsAlike types sc.types c q next

/-- Whether the segments of a name are found alike in a scope and in the
scope with the types of the other list, wherever look-up comes by. -/
structure FoundAlike (types : List DeclaredType) (c : Nat → Nat) (sc : Scope)
    (name : List NameSegment) : Prop where
  tops : ∀ segment ∈ name, TopAlike types sc.types c segment
  starts : ∀ segment ∈ name.head?, ∀ outer ∈ sc.enclosingTypes,
    FindsAlike types sc.types c outer segment
  dots : DotsFoundAlike types c sc name

/-- Whether what is named after a dot behind the name of the type at `p` is
found alike there. -/
def DotsAlike (types : List DeclaredType) (c : Nat → Nat) (p : Nat) (sc : Scope)
    (name : List NameSegment) : Prop :=
  ∀ segment next, [segment, next] <:+: name → ∀ t : DeclaredType, sc.types[p]? = some t →
    t.name = segment.name → t.arity = segment.args.length → FindsAlike types sc.types c p next

/-- Whether a name is bound alike in a scope and in the scope with the
types of the other list. -/
structure BoundAlike (types : List DeclaredType) (c : Nat → Nat) (p : Nat) (sc : Scope)
    (name : List NameSegment) : Prop where
  starts : ∀ segment ∈ name.head?, ∀ outer ∈ sc.enclosingTypes,
    FindsAlike types sc.types c outer segment
  dots : DotsAlike types c p sc name

variable {types : List DeclaredType} {c : Nat → Nat} {p : Nat} {sc : Scope}

theorem DotsFoundAlike.within {name inner : List NameSegment} (h : DotsFoundAlike types c sc name)
    (hin : inner <:+: name) : DotsFoundAlike types c sc inner :=
  fun segment next hpair => h segment next (hpair.trans hin)

theorem DotsAlike.within {name inner : List NameSegment} (h : DotsAlike types c p sc name)
    (hin : inner <:+: name) : DotsAlike types c p sc inner :=
  fun segment next hpair => h segment next (hpair.trans hin)

namespace Scope

theorem getElem?_lt {q : Nat} {t : DeclaredType} (h : sc.types[q]? = some t) :
    q < sc.types.length :=
  (List.getElem?_eq_some_iff.mp h).1

-- =========================================================== own names

theorem around_none (bound : Nat) : sc.around bound none = [] := by cases bound <;> rfl

/-- The types around a place are sent to the types around where it is
sent. -/
theorem around_collapsed (h : Sends types sc.types c) {bound bound' q : Nat}
    (hq : q < sc.types.length) (hbound : q < bound) (hbound' : c q < bound') :
    (sc.around bound (some q)).map c = (sc.collapsed types c).around bound' (some (c q)) := by
  induction bound generalizing bound' q with
  | zero => omega
  | succ bound ih =>
    obtain ⟨bound', rfl⟩ : ∃ b, bound' = b + 1 := ⟨bound' - 1, by omega⟩
    have hget := List.getElem?_eq_getElem hq
    have hsent := h.entry q _ hget
    rw [around, around, List.map_cons, hget, show (sc.collapsed types c).types = types from rfl,
      hsent]
    congr 1
    simp only [Option.bind_some]
    cases houter : sc.types[q].enclosing with
    | none => rw [Option.map_none, around_none, around_none, List.map_nil]
    | some outer =>
      have hlt := h.outward' q _ outer hget houter
      have hlt' := h.outward (c q) _ (c outer) hsent (by rw [houter]; rfl)
      exact ih (by omega) (by omega) (by omega)

theorem sent_lt (h : Sends types sc.types c) {q : Nat} (hq : q < sc.types.length) :
    c q < types.length :=
  (List.getElem?_eq_some_iff.mp (h.entry q _ (List.getElem?_eq_getElem hq))).1

theorem enclosingTypes_collapsed (h : Sends types sc.types c) (hvalid : sc.Valid) :
    sc.enclosingTypes.map c = (sc.collapsed types c).enclosingTypes := by
  unfold enclosingTypes
  cases hin : sc.enclosing with
  | none =>
    have hin' : (sc.collapsed types c).enclosing = none := by
      rw [collapsed, hin]
      rfl
    rw [hin', around_none, around_none, List.map_nil]
  | some q =>
    have hq := hvalid q hin
    have hin' : (sc.collapsed types c).enclosing = some (c q) := by
      rw [collapsed, hin]
      rfl
    rw [hin']
    exact around_collapsed h hq (by omega) (Nat.lt_succ_of_lt (sent_lt h hq))

/-- A type is called through the types around it as where it is sent, if
what it is called by itself does not depend on them. -/
theorem nameThrough_sent {own : DeclaredType → String} {between : String}
    (h : Sends types sc.types c)
    (hown : ∀ (t : DeclaredType) (outer : Option Nat), own { t with enclosing := outer } = own t)
    {bound bound' q : Nat} (hq : q < sc.types.length) (hbound : q < bound)
    (hbound' : c q < bound') :
    nameThrough own between types bound' (c q) = nameThrough own between sc.types bound q := by
  induction bound generalizing bound' q with
  | zero => omega
  | succ bound ih =>
    obtain ⟨bound', rfl⟩ : ∃ b, bound' = b + 1 := ⟨bound' - 1, by omega⟩
    have hget := List.getElem?_eq_getElem hq
    have hsent := h.entry q _ hget
    rw [nameThrough, nameThrough, hget, hsent]
    simp only [hown]
    cases houter : sc.types[q].enclosing with
    | none => rfl
    | some outer =>
      have hlt := h.outward' q _ outer hget houter
      have hlt' := h.outward (c q) _ (c outer) hsent (by rw [houter]; rfl)
      simp only [Option.map_some]
      rw [ih (by omega) (by omega) (by omega)]

theorem fullNameWithin_collapsed (h : Sends types sc.types c) {bound bound' q : Nat}
    (hq : q < sc.types.length) (hbound : q < bound) (hbound' : c q < bound') :
    (sc.collapsed types c).fullNameWithin bound' (c q) = sc.fullNameWithin bound q := by
  rw [fullNameWithin_eq_nameThrough, fullNameWithin_eq_nameThrough]
  exact nameThrough_sent h (fun _ _ => rfl) hq hbound hbound'

theorem displayNameWithin_collapsed (h : Sends types sc.types c) {bound bound' q : Nat}
    (hq : q < sc.types.length) (hbound : q < bound) (hbound' : c q < bound') :
    (sc.collapsed types c).displayNameWithin bound' (c q) = sc.displayNameWithin bound q := by
  rw [displayNameWithin_eq_nameThrough, displayNameWithin_eq_nameThrough]
  exact nameThrough_sent h (fun _ _ => rfl) hq hbound hbound'

-- ============================================================= look-up

theorem exists_of_finds {segment : NameSegment} {q : Nat} (h : sc.Finds segment q) :
    ∃ t, sc.types[q]? = some t ∧ t.name = segment.name ∧ t.arity = segment.args.length := by
  rcases h with ⟨space, hq⟩ | ⟨outer, hq⟩
  all_goals
    obtain ⟨hlt, hmatch, -⟩ := List.findIdx?_eq_some_iff_getElem.mp hq
    simp only [Bool.and_eq_true, decide_eq_true_eq] at hmatch
    exact ⟨_, List.getElem?_eq_getElem hlt, hmatch.1.2, hmatch.2⟩

theorem finds_of_lookupSimple? {segment : NameSegment} {q : Nat}
    (hq : sc.lookupSimple? segment = some q) : sc.Finds segment q := by
  unfold lookupSimple? at hq
  rcases orElse_eq_some hq with hq | hq
  · obtain ⟨outer, -, hfound⟩ := List.exists_of_findSome?_eq_some hq
    exact .inr ⟨outer, hfound⟩
  · rcases orElse_eq_some hq with hq | hq
    · obtain ⟨space, -, hfound⟩ := List.exists_of_findSome?_eq_some hq
      exact .inl ⟨space, hfound⟩
    · obtain ⟨space, -, hfound⟩ := List.exists_of_findSome?_eq_some hq
      exact .inl ⟨space, hfound⟩

theorem map_orElse (x y : Option Nat) (f : Nat → Nat) :
    (x <|> y).map f = (x.map f <|> y.map f) := by
  cases x <;> rfl

/-- What is found first among items is sent to what is found first, if
what is found at each of them is. -/
theorem findSome?_sent {items : List α} {found found' : α → Option Nat}
    (h : ∀ a ∈ items, (found a).map c = found' a) :
    (items.findSome? found).map c = items.findSome? found' := by
  induction items with
  | nil => rfl
  | cons a rest ih =>
    have ha := h a List.mem_cons_self
    have hrest := ih fun b hb => h b (List.mem_cons_of_mem _ hb)
    rw [List.findSome?_cons, List.findSome?_cons, ← ha]
    cases found a with
    | none => exact hrest
    | some q => rfl

theorem lookupSimple?_sent (h : Sends types sc.types c) (hvalid : sc.Valid)
    {segment : NameSegment} (htop : TopAlike types sc.types c segment)
    (hstarts : ∀ outer ∈ sc.enclosingTypes, FindsAlike types sc.types c outer segment) :
    (sc.lookupSimple? segment).map c = (sc.collapsed types c).lookupSimple? segment := by
  have htops : ∀ spaces : List String,
      (spaces.findSome? fun space => sc.findTop? space segment).map c
        = spaces.findSome? fun space => (sc.collapsed types c).findTop? space segment :=
    fun spaces => findSome?_sent fun space _ => htop space
  have hnested : (sc.enclosingTypes.findSome? fun outer => sc.findNested? outer segment).map c
      = sc.enclosingTypes.findSome? fun outer =>
          (sc.collapsed types c).findNested? (c outer) segment :=
    findSome?_sent hstarts
  unfold lookupSimple?
  rw [map_orElse, map_orElse, htops, htops, hnested, ← enclosingTypes_collapsed h hvalid,
    List.findSome?_map]
  rfl

/-- What dotted segments name inside a type is sent to what they name
inside the type where it is sent. -/
theorem lookupNested?_sent {rest : List NameSegment} {segment : NameSegment} {q : Nat}
    (hq : sc.Finds segment q) (hdots : DotsFoundAlike types c sc (segment :: rest)) :
    (sc.lookupNested? q rest).map c = (sc.collapsed types c).lookupNested? (c q) rest := by
  induction rest generalizing segment q with
  | nil => rfl
  | cons next rest ih =>
    have hfind : (sc.findNested? q next).map c
        = (sc.collapsed types c).findNested? (c q) next :=
      hdots segment next ⟨[], rest, rfl⟩ q hq
    rw [lookupNested?, lookupNested?, ← hfind]
    cases hnext : sc.findNested? q next with
    | none => rfl
    | some inner =>
      exact ih (.inr ⟨q, hnext⟩)
        (hdots.within (List.suffix_cons segment (next :: rest)).isInfix)

theorem lookupInSpace?_sent {segments : List NameSegment}
    (htops : ∀ segment ∈ segments, TopAlike types sc.types c segment)
    (hdots : DotsFoundAlike types c sc segments) (k : Nat) :
    (sc.lookupInSpace? segments k).map c = (sc.collapsed types c).lookupInSpace? segments k := by
  unfold lookupInSpace?
  simp only []
  cases hdrop : segments.drop k with
  | nil => rfl
  | cons top nested =>
    have hmem : top ∈ segments := List.mem_of_mem_drop (hdrop ▸ List.mem_cons_self)
    refine findSome?_sent fun space _ => ?_
    have htop : (sc.findTop? _ top).map c = (sc.collapsed types c).findTop? _ top :=
      htops top hmem (qualify space (String.intercalate "." ((segments.take k).map NameSegment.name)))
    rw [← htop]
    cases hfound : sc.findTop? (qualify space
        (String.intercalate "." ((segments.take k).map NameSegment.name))) top with
    | none => rfl
    | some q =>
      refine lookupNested?_sent (.inl ⟨_, hfound⟩) (hdots.within ?_)
      rw [← hdrop]
      exact (List.drop_suffix k segments).isInfix

/-- What a name that is found alike means is sent to what it means in the
other scope. -/
theorem lookup?_sent (h : Sends types sc.types c) (hvalid : sc.Valid)
    {name : List NameSegment} (hb : FoundAlike types c sc name) :
    (sc.lookup? name).map c = (sc.collapsed types c).lookup? name := by
  cases name with
  | nil => rfl
  | cons first rest =>
    have hsimple := lookupSimple?_sent h hvalid (hb.tops first List.mem_cons_self)
      (hb.starts first rfl)
    have hspaces : ((List.range rest.length).findSome? fun k =>
          sc.lookupInSpace? (first :: rest) (k + 1)).map c
        = (List.range rest.length).findSome? fun k =>
          (sc.collapsed types c).lookupInSpace? (first :: rest) (k + 1) :=
      findSome?_sent fun k _ => lookupInSpace?_sent hb.tops hb.dots (k + 1)
    unfold lookup?
    simp only []
    rw [map_orElse, hspaces, ← hsimple]
    congr 1
    cases hfound : sc.lookupSimple? first with
    | none => rfl
    | some q => exact lookupNested?_sent (finds_of_lookupSimple? hfound) hb.dots

-- ======================================================== written names

theorem baseName_sent (h : Sends types sc.types c) (hvalid : sc.Valid)
    {name : List NameSegment} (hb : FoundAlike types c sc name) :
    (sc.collapsed types c).baseName name = sc.baseName name := by
  unfold baseName
  rw [← lookup?_sent h hvalid hb]
  cases hfound : sc.lookup? name with
  | none => rfl
  | some q => exact fullNameWithin_collapsed h (lookup?_lt hfound) (by omega) (by omega)

/-- Whether a name means a value type; an alias that it starts from does not
matter. -/
def NamesValueType (sc : Scope) (name : List NameSegment) : Bool :=
  sc.isValueType (.named none name)

theorem namesValueType_sent (h : Sends types sc.types c) (hvalid : sc.Valid)
    {name : List NameSegment} (hb : FoundAlike types c sc name) :
    (sc.collapsed types c).NamesValueType name = sc.NamesValueType name := by
  unfold NamesValueType isValueType
  simp only []
  rw [← lookup?_sent h hvalid hb]
  cases hfound : sc.lookup? name with
  | none => rfl
  | some q =>
    have hget := List.getElem?_eq_getElem (lookup?_lt hfound)
    have hsent : (sc.collapsed types c).types[c q]? = _ := h.entry q _ hget
    simp only [Option.map_some, Option.bind_some, hget, hsent]

/-- Before a question mark, only a name depends on what it means. -/
theorem typeName_nullable {sc' : Scope} {inner : TypeExpr}
    (hname : sc'.typeName inner = sc.typeName inner)
    (hvalue : ∀ root name, inner = .named root name →
      sc'.NamesValueType name = sc.NamesValueType name) :
    sc'.typeName (.nullable inner) = sc.typeName (.nullable inner) := by
  have hsame : sc'.isValueType inner = sc.isValueType inner := by
    cases inner with
    | named root name => exact hvalue root name rfl
    | predefined _ | array _ _ | nullable _ | pointer _ | tuple _ => rfl
  rw [typeName, typeName, hname, hsame]

mutual

/-- A type is called the same if its names are found alike, those of type
parameters apart, and those before a question mark mean value types in both
scopes or in none. -/
theorem typeName_sent (h : Sends types sc.types c) (hvalid : sc.Valid) :
    ∀ t : TypeExpr,
      (∀ name ∈ t.names, sc.typeParameter? name = none → FoundAlike types c sc name) →
      (∀ name ∈ t.nullableNames,
        (sc.collapsed types c).NamesValueType name = sc.NamesValueType name) →
      (sc.collapsed types c).typeName t = sc.typeName t
  | .predefined keyword, _, _ => by rw [typeName, typeName]
  | .named root segments, hb, hn => by
    rw [TypeExpr.names] at hb
    rw [TypeExpr.nullableNames] at hn
    have hargs := segmentArguments_sent h hvalid segments
      (fun name hname => hb name (List.mem_cons_of_mem _ hname)) hn
    have hparameter : (sc.collapsed types c).typeParameter? segments
        = sc.typeParameter? segments := rfl
    rw [typeName, typeName, hparameter, hargs]
    cases hparam : sc.typeParameter? segments with
    | some name => rfl
    | none =>
      simp only []
      rw [baseName_sent h hvalid (hb segments List.mem_cons_self hparam)]
  | .array element rank, hb, hn => by
    rw [TypeExpr.nullableNames] at hn
    rw [typeName, typeName, typeName_sent h hvalid element hb hn]
  | .nullable inner, hb, hn => by
    cases inner with
    | named root segments =>
      rw [TypeExpr.nullableNames, List.forall_mem_cons] at hn
      refine typeName_nullable (typeName_sent h hvalid (.named root segments) hb hn.2) ?_
      rintro _ _ ⟨⟩
      exact hn.1
    | predefined _ | array _ _ | nullable _ | pointer _ | tuple _ =>
      exact typeName_nullable (typeName_sent h hvalid _ hb hn) nofun
  | .pointer inner, hb, hn => by
    rw [TypeExpr.nullableNames] at hn
    rw [typeName, typeName, typeName_sent h hvalid inner hb hn]
  | .tuple elements, hb, hn => by
    rw [TypeExpr.nullableNames] at hn
    rw [typeName, typeName, typeNames_sent h hvalid elements hb hn]

theorem typeNames_sent (h : Sends types sc.types c) (hvalid : sc.Valid) :
    ∀ ts : List TypeExpr,
      (∀ name ∈ TypeExpr.allNames ts, sc.typeParameter? name = none →
        FoundAlike types c sc name) →
      (∀ name ∈ TypeExpr.allNullableNames ts,
        (sc.collapsed types c).NamesValueType name = sc.NamesValueType name) →
      (sc.collapsed types c).typeNames ts = sc.typeNames ts
  | [], _, _ => by rw [typeNames, typeNames]
  | t :: rest, hb, hn => by
    rw [TypeExpr.allNames, List.forall_mem_append] at hb
    rw [TypeExpr.allNullableNames, List.forall_mem_append] at hn
    rw [typeNames, typeNames, typeName_sent h hvalid t hb.1 hn.1,
      typeNames_sent h hvalid rest hb.2 hn.2]

theorem segmentArguments_sent (h : Sends types sc.types c) (hvalid : sc.Valid) :
    ∀ segments : List NameSegment,
      (∀ name ∈ TypeExpr.argumentNames segments, sc.typeParameter? name = none →
        FoundAlike types c sc name) →
      (∀ name ∈ TypeExpr.nullableArgumentNames segments,
        (sc.collapsed types c).NamesValueType name = sc.NamesValueType name) →
      (sc.collapsed types c).segmentArguments segments = sc.segmentArguments segments
  | [], _, _ => by rw [segmentArguments, segmentArguments]
  | ⟨_, args⟩ :: rest, hb, hn => by
    rw [TypeExpr.argumentNames, List.forall_mem_append] at hb
    rw [TypeExpr.nullableArgumentNames, List.forall_mem_append] at hn
    rw [segmentArguments, segmentArguments, typeNames_sent h hvalid args hb.1 hn.1,
      segmentArguments_sent h hvalid rest hb.2 hn.2]

end

theorem interfaceName_sent (h : Sends types sc.types c) (hvalid : sc.Valid) {t : TypeExpr}
    (hb : ∀ name ∈ t.names, FoundAlike types c sc name) :
    (sc.collapsed types c).interfaceName t = sc.interfaceName t := by
  cases t with
  | named root segments =>
    rw [TypeExpr.names, List.forall_mem_cons] at hb
    have hargs := segmentArguments_sent h hvalid segments (fun name hname _ => hb.2 name hname)
      fun name hname => namesValueType_sent h hvalid
        (hb.2 name (TypeExpr.nullableArgumentNames_subset segments hname))
    unfold interfaceName
    simp only []
    rw [← lookup?_sent h hvalid hb.1, hargs]
    cases hfound : sc.lookup? segments with
    | none => rfl
    | some q =>
      have hdisplay : (sc.collapsed types c).displayName (c q) = sc.displayName q :=
        displayNameWithin_collapsed h (lookup?_lt hfound) (by omega) (by omega)
      simp only [Option.map_some, hdisplay]
  | predefined keyword => rfl
  | array element rank => rfl
  | nullable inner => rfl
  | pointer inner => rfl
  | tuple elements => rfl

-- ============================================================ collapse

/-- In lists that collapse, a name that is bound alike is found alike. -/
theorem foundAlike_collapsed (h : Collapses types sc.types c p) {name : List NameSegment}
    (hb : BoundAlike types c p sc name) : FoundAlike types c sc name where
  tops := fun segment _ space => h.top space segment
  starts := hb.starts
  dots := by
    intro segment next hpair q hq
    by_cases hp : c q = p
    · have hfirst : q = p := by
        rcases hq with ⟨space, hq⟩ | ⟨outer, hq⟩
        · exact h.firstTop space segment q hq hp
        · exact h.firstNested outer segment q hq hp
      obtain ⟨t, ht, hname, harity⟩ := exists_of_finds hq
      subst hfirst
      exact hb.dots segment next hpair t ht hname harity
    · exact h.nested q next hp

/-- A type whose names are bound alike is called the same. -/
theorem spelledAlike_collapsed (h : Collapses types sc.types c p) (hvalid : sc.Valid)
    {t : TypeExpr} (hb : ∀ name ∈ t.names, BoundAlike types c p sc name) :
    SpelledAlike (sc.collapsed types c) sc t where
  typeName := typeName_sent h.toSends hvalid t
    (fun name hname _ => foundAlike_collapsed h (hb name hname))
    fun name hname => namesValueType_sent h.toSends hvalid
      (foundAlike_collapsed h (hb name (TypeExpr.nullableNames_subset t hname)))
  interfaceName := interfaceName_sent h.toSends hvalid
    fun name hname => foundAlike_collapsed h (hb name hname)

end Scope

end ClrListing.Lowering
