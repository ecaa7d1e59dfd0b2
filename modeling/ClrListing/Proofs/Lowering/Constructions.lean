/-
What can be told from the name of an interface.

The arguments in the name of a constructed interface are full names with
commas between them, and full names have commas themselves, though only in
brackets (`Closed`): of generic types, tuples and arrays. So the first comma
outside brackets ends the first argument, and the list of arguments can be
told from the text (`join_inj`). Then the names of an interface with different
arguments are different (`interfaceName_ne`), and they stay so with the name
of a member behind them, which has no dot in it. An angle bracket stands in
the name of an interface if and only if it has arguments, so the name without
them is another one (`interfaceName_bare_eq_iff`).
-/
import ClrListing.Proofs.Lowering.Names
import ClrListing.Proofs.Syntax.Identifiers
import ClrListing.Proofs.Text.Search

namespace ClrListing.Lowering

open Assembly Source Syntax Text Text.OneByOne

-- ============================================================= brackets

/-- How deep in brackets the end of a text is, if its start is at a depth;
nowhere if a bracket closes nothing or a comma is outside brackets. -/
def depthBehind : Nat → List Char → Option Nat
  | depth, [] => some depth
  | depth, c :: s =>
    if c = '[' then depthBehind (depth + 1) s
    else if c = ']' then if depth = 0 then none else depthBehind (depth - 1) s
    else if c = ',' ∧ depth = 0 then none
    else depthBehind depth s

theorem depthBehind_append (depth : Nat) (s t : List Char) :
    depthBehind depth (s ++ t) = (depthBehind depth s).bind fun d => depthBehind d t := by
  induction s generalizing depth with
  | nil => rfl
  | cons c s ih =>
    rw [List.cons_append, depthBehind, depthBehind]
    split_ifs <;> simp [ih]

/-- Deeper, a text ends as much deeper. -/
theorem depthBehind_add {depth stop : Nat} {s : List Char} (h : depthBehind depth s = some stop)
    (more : Nat) : depthBehind (depth + more) s = some (stop + more) := by
  induction s generalizing depth with
  | nil =>
    cases h
    rfl
  | cons c s ih =>
    rw [depthBehind] at h ⊢
    by_cases hopen : c = '['
    · rw [if_pos hopen] at h ⊢
      rw [Nat.add_right_comm]
      exact ih h
    rw [if_neg hopen] at h ⊢
    by_cases hclose : c = ']'
    · rw [if_pos hclose] at h ⊢
      by_cases hzero : depth = 0
      · rw [if_pos hzero] at h
        cases h
      rw [if_neg hzero] at h
      rw [if_neg (by omega), Nat.sub_add_comm (Nat.pos_of_ne_zero hzero)]
      exact ih h
    rw [if_neg hclose] at h ⊢
    by_cases hcomma : c = ',' ∧ depth = 0
    · rw [if_pos hcomma] at h
      cases h
    rw [if_neg hcomma] at h
    rw [if_neg fun hsame => hcomma ⟨hsame.1, Nat.eq_zero_of_add_eq_zero_right hsame.2⟩]
    exact ih h

/-- Whether brackets close in a text and commas stand in them. -/
def Closed (text : String) : Prop := depthBehind 0 text.toList = some 0

instance (text : String) : Decidable (Closed text) := inferInstanceAs (Decidable (_ = _))

namespace Closed

variable {text text' : String}

theorem append (h : Closed text) (h' : Closed text') : Closed (text ++ text') := by
  rw [Closed, String.toList_append, depthBehind_append, h]
  exact h'

/-- At any depth, a closed text leads back to it. -/
theorem depth_eq (h : Closed text) (depth : Nat) : depthBehind depth text.toList = some depth := by
  have hadd := depthBehind_add h depth
  rwa [Nat.zero_add] at hadd

/-- In brackets, texts with commas between them. -/
theorem brackets {texts : List String} (h : ∀ text ∈ texts, Closed text) :
    Closed ("[" ++ String.intercalate "," texts ++ "]") := by
  have hjoined : depthBehind 1 (String.intercalate "," texts).toList = some 1 := by
    induction texts with
    | nil => rfl
    | cons first rest ih =>
      rw [List.forall_mem_cons] at h
      cases rest with
      | nil =>
        rw [String.intercalate_singleton]
        exact h.1.depth_eq 1
      | cons second rest =>
        rw [String.intercalate_cons_cons, String.toList_append, String.toList_append,
          depthBehind_append, depthBehind_append, h.1.depth_eq]
        exact ih h.2
  rw [Closed, String.toList_append, String.toList_append, depthBehind_append, depthBehind_append]
  show (Option.bind (depthBehind 1 _) _) = _
  rw [hjoined]
  rfl

end Closed

/-- Where a closed text ends is told by the comma behind it, or by the end. -/
theorem append_inj_of_closed {s s' r r' : List Char} (hs : depthBehind 0 s = some 0)
    (hs' : depthBehind 0 s' = some 0) (hr : ∀ c ∈ r.head?, c = ',') (hr' : ∀ c ∈ r'.head?, c = ',')
    (h : s ++ r = s' ++ r') : s = s' ∧ r = r' := by
  have hlonger : ∀ {s r more : List Char}, depthBehind 0 s = some 0 →
      depthBehind 0 (s ++ more) = some 0 → (∀ c ∈ (more ++ r).head?, c = ',') → more = [] := by
    intro s r more hs hmore hcomma
    cases more with
    | nil => rfl
    | cons c more =>
      obtain rfl := hcomma c rfl
      rw [depthBehind_append, hs] at hmore
      cases hmore
  rcases List.append_eq_append_iff.mp h with ⟨more, rfl, rfl⟩ | ⟨more, rfl, rfl⟩
  · obtain rfl := hlonger hs hs' hr
    simp
  · obtain rfl := hlonger hs' hs hr'
    simp

/-- What is joined of closed texts tells them, if there are some. -/
theorem join_inj {texts texts' : List String} (h : ∀ text ∈ texts, Closed text)
    (h' : ∀ text ∈ texts', Closed text) (hne : texts ≠ []) (hne' : texts' ≠ [])
    (hjoin : String.intercalate "," texts = String.intercalate "," texts') : texts = texts' := by
  have hcons : ∀ first rest, ∃ r, (String.intercalate "," (first :: rest)).toList = first.toList ++ r
      ∧ (∀ c ∈ r.head?, c = ',') ∧ (rest = [] ∧ r = []
        ∨ rest ≠ [] ∧ r = ',' :: (String.intercalate "," rest).toList) := by
    intro first rest
    cases rest with
    | nil => exact ⟨[], by rw [String.intercalate_singleton, List.append_nil], nofun, .inl ⟨rfl, rfl⟩⟩
    | cons second rest =>
      refine ⟨_, ?_, ?_, .inr ⟨List.cons_ne_nil _ _, rfl⟩⟩
      · rw [String.intercalate_cons_cons, String.toList_append, String.toList_append,
          List.append_assoc]
        rfl
      · rintro c ⟨⟩
        rfl
  induction texts generalizing texts' with
  | nil => exact absurd rfl hne
  | cons first rest ih =>
    obtain ⟨first', rest', rfl⟩ := List.exists_cons_of_ne_nil hne'
    rw [List.forall_mem_cons] at h h'
    obtain ⟨r, hr, hhead, hrest⟩ := hcons first rest
    obtain ⟨r', hr', hhead', hrest'⟩ := hcons first' rest'
    have heq := congrArg String.toList hjoin
    rw [hr, hr'] at heq
    obtain ⟨hfirst, hbehind⟩ := append_inj_of_closed h.1 h'.1 hhead hhead' heq
    rw [String.toList_inj.mp hfirst]
    congr 1
    rcases hrest with ⟨rfl, rfl⟩ | ⟨hne, rfl⟩
    · rcases hrest' with ⟨rfl, -⟩ | ⟨-, rfl⟩
      · rfl
      · cases hbehind
    · rcases hrest' with ⟨-, rfl⟩ | ⟨hne', rfl⟩
      · cases hbehind
      · exact ih h.2 h'.2 hne hne' (String.toList_inj.mp (List.cons.inj hbehind).2)

-- ========================================================= plain texts

/-- Whether no brackets and commas stand in a text. -/
def IsUnbracketed (text : String) : Prop := ∀ c ∈ ['[', ']', ',', '<'], c ∉ text.toList

instance (text : String) : Decidable (IsUnbracketed text) :=
  inferInstanceAs (Decidable (∀ c ∈ ['[', ']', ',', '<'], c ∉ text.toList))

namespace IsUnbracketed

variable {text text' : String}

theorem closed (h : IsUnbracketed text) : Closed text := by
  have hchars : ∀ s : List Char, (∀ c ∈ ['[', ']', ',', '<'], c ∉ s) → depthBehind 0 s = some 0 := by
    intro s hs
    induction s with
    | nil => rfl
    | cons c s ih =>
      have hne : ∀ d ∈ ['[', ']', ',', '<'], c ≠ d :=
        fun d hd hc => hs d hd (hc ▸ List.mem_cons_self)
      rw [depthBehind, if_neg (hne '[' (by decide)), if_neg (hne ']' (by decide)),
        if_neg fun hcomma => hne ',' (by decide) hcomma.1]
      exact ih fun d hd hmem => hs d hd (List.mem_cons_of_mem _ hmem)
  exact hchars _ h

theorem append (h : IsUnbracketed text) (h' : IsUnbracketed text') : IsUnbracketed (text ++ text') := by
  intro c hc
  rw [String.toList_append, List.mem_append, not_or]
  exact ⟨h c hc, h' c hc⟩

theorem of_isName (h : IsName text) : IsUnbracketed text :=
  fun c hc => h.not_mem ((by decide : ∀ c ∈ ['[', ']', ',', '<'], isIdentifierPart c = false) c hc)

theorem intercalate {separator : String} {texts : List String} (hseparator : IsUnbracketed separator)
    (h : ∀ text ∈ texts, IsUnbracketed text) :
    IsUnbracketed (String.intercalate separator texts) := by
  induction texts with
  | nil => exact (by decide : ∀ c ∈ ['[', ']', ',', '<'], c ∉ "".toList)
  | cons first rest ih =>
    rw [List.forall_mem_cons] at h
    cases rest with
    | nil =>
      rw [String.intercalate_singleton]
      exact h.1
    | cons second rest =>
      rw [String.intercalate_cons_cons]
      exact (h.1.append hseparator).append (ih h.2)

theorem repr (n : Nat) : IsUnbracketed n.repr := fun c hc =>
  Text.not_mem_repr n ((by decide : ∀ c ∈ ['[', ']', ',', '<'], c.isDigit = false) c hc)

theorem arityName (h : IsUnbracketed text) (arity : Nat) : IsUnbracketed (Text.arityName text arity) := by
  unfold Text.arityName
  split
  · exact h
  · exact (h.append (by decide)).append (.repr arity)

theorem qualify (h : IsUnbracketed text) (h' : IsUnbracketed text') :
    IsUnbracketed (Text.qualify text text') := by
  unfold Text.qualify
  split
  · exact h'
  · exact (h.append (by decide)).append h'

theorem of_isDottedName (h : IsDottedName text) : IsUnbracketed text := by
  obtain ⟨names, -, hnames, rfl⟩ := h
  exact .intercalate (by decide) fun name hname => .of_isName (hnames name hname)

end IsUnbracketed

-- ====================================================== declared types

/-- Whether brackets and commas stand in no name of a list of types. -/
def TypesUnbracketed (types : List DeclaredType) : Prop :=
  ∀ t ∈ types, IsUnbracketed t.name ∧ IsUnbracketed t.space

theorem typesUnbracketed_declaredTypes {unit : CompilationUnit} (hw : unit.WellNamed) :
    TypesUnbracketed (declaredTypes unit) := by
  have hqualify : ∀ space name, IsUnbracketed space → IsDottedName name →
      IsUnbracketed (qualify space name) :=
    fun _ _ hspace hname => hspace.qualify (.of_isDottedName hname)
  intro t ht
  obtain ⟨hname, hspace⟩ :=
    named_declaredInSpace hqualify unit.members "" 0 (by decide) hw t ht
  exact ⟨.of_isName hname, hspace⟩

-- ========================================================== full names

namespace Scope

variable {sc sc' : Scope}

theorem unbracketed_nameThrough {own : DeclaredType → String} {between : String}
    {types : List DeclaredType} (h : TypesUnbracketed types) (hbetween : IsUnbracketed between)
    (hown : ∀ t : DeclaredType, IsUnbracketed t.name → IsUnbracketed (own t))
    (bound place : Nat) : IsUnbracketed (nameThrough own between types bound place) := by
  induction bound generalizing place with
  | zero => exact (by decide : IsUnbracketed "")
  | succ bound ih =>
    unfold nameThrough
    split
    · decide
    · next t ht =>
      obtain ⟨hname, hspace⟩ := h t (List.mem_of_getElem? ht)
      split
      · exact ((ih _).append hbetween).append (hown t hname)
      · exact hspace.qualify (hown t hname)

theorem unbracketed_fullName (h : TypesUnbracketed sc.types) (place : Nat) :
    IsUnbracketed (sc.fullName place) := by
  rw [fullName, fullNameWithin_eq_nameThrough]
  exact unbracketed_nameThrough h (by decide) (fun t hname => hname.arityName t.arity) _ _

theorem unbracketed_displayName (h : TypesUnbracketed sc.types) (place : Nat) :
    IsUnbracketed (sc.displayName place) := by
  rw [displayName, displayNameWithin_eq_nameThrough]
  exact unbracketed_nameThrough h (by decide) (fun _ hname => hname) _ _

theorem unbracketed_baseName (h : TypesUnbracketed sc.types) {segments : List NameSegment}
    (hsegments : TypeExpr.SegmentsClean segments) : IsUnbracketed (sc.baseName segments) := by
  unfold baseName
  split
  · exact unbracketed_fullName h _
  · refine .intercalate (by decide) fun text htext => ?_
    obtain ⟨⟨name, args⟩, hmem, rfl⟩ := List.mem_map.mp htext
    have hclean := TypeExpr.segmentsClean_iff.mp hsegments _ hmem
    rw [TypeExpr.SegmentClean] at hclean
    exact (IsUnbracketed.of_isName hclean.1).arityName _

theorem closed_withArguments {base : String} {args : List String} (hbase : IsUnbracketed base)
    (hargs : ∀ arg ∈ args, Closed arg) : Closed (withArguments base args) := by
  unfold withArguments
  split
  · exact hbase.closed
  · have happ := hbase.closed.append (Closed.brackets hargs)
    rwa [← String.append_assoc, ← String.append_assoc] at happ

theorem closed_tupleName (elements : List String) (h : ∀ text ∈ elements, Closed text) :
    Closed (tupleName elements) := by
  have htuple : ∀ args : List String, (∀ arg ∈ args, Closed arg) →
      Closed (tupleName.tuple args) := by
    intro args hargs
    have hbase : IsUnbracketed ("System.ValueTuple`" ++ args.length.repr) :=
      .append (by decide) (.repr _)
    have happ := hbase.closed.append (Closed.brackets hargs)
    rwa [← String.append_assoc, ← String.append_assoc] at happ
  induction elements using tupleName.induct with
  | case1 elements hlong ih =>
    rw [tupleName, if_pos hlong]
    refine htuple _ (List.forall_mem_append.mpr ⟨fun text htext => h text (List.mem_of_mem_take htext), ?_⟩)
    rw [List.forall_mem_singleton]
    exact ih fun text htext => h text (List.mem_of_mem_drop htext)
  | case2 elements hshort =>
    rw [tupleName, if_neg hshort]
    exact htuple elements h

theorem closed_keyword : ∀ keyword ∈ predefinedKeywords,
    Closed ((keywordFullName? keyword).getD keyword) := by
  decide +kernel

mutual

/-- Brackets close in the full name of a type, and commas stand in them. -/
theorem closed_typeName (h : TypesUnbracketed sc.types) :
    ∀ t : TypeExpr, t.Clean → Closed (sc.typeName t)
  | .predefined keyword, ht => by
    rw [TypeExpr.Clean] at ht
    rw [typeName]
    exact closed_keyword keyword ht
  | .named root segments, ht => by
    rw [TypeExpr.Clean] at ht
    rw [typeName]
    split
    · next name hname =>
      unfold typeParameter? at hname
      split at hname
      · split at hname
        · cases hname
          rw [TypeExpr.SegmentsClean, TypeExpr.SegmentClean] at ht
          exact (IsUnbracketed.of_isName ht.1.1).closed
        · cases hname
      · cases hname
    · exact closed_withArguments (unbracketed_baseName h ht) (closed_segmentArguments h segments ht)
  | .array element rank, ht => by
    rw [TypeExpr.Clean] at ht
    have hcommas : Closed ("[" ++ rankCommas rank ++ "]") := by
      have hdepth : ∀ n, depthBehind 1 (List.replicate n ',') = some 1 := by
        intro n
        induction n with
        | zero => rfl
        | succ n ih => exact ih
      rw [Closed, rankCommas, String.toList_append, String.toList_append, depthBehind_append,
        depthBehind_append]
      show (Option.bind (depthBehind 1 (String.ofList (List.replicate (rank - 1) ',')).toList) _) = _
      rw [String.toList_ofList, hdepth]
      rfl
    have happ := (closed_typeName h element ht).append hcommas
    rw [typeName]
    rwa [← String.append_assoc, ← String.append_assoc] at happ
  | .nullable inner, ht => by
    rw [TypeExpr.Clean] at ht
    have hinner := closed_typeName h inner ht
    rw [typeName]
    split
    · have hall : ∀ text ∈ [sc.typeName inner], Closed text :=
        List.forall_mem_singleton.mpr hinner
      have hbrackets := Closed.brackets hall
      rw [String.intercalate_singleton] at hbrackets
      have happ := (by decide : Closed "System.Nullable`1").append hbrackets
      rwa [← String.append_assoc, ← String.append_assoc] at happ
    · exact hinner
  | .pointer inner, ht => by
    rw [TypeExpr.Clean] at ht
    rw [typeName]
    exact (closed_typeName h inner ht).append (by decide)
  | .tuple elements, ht => by
    rw [TypeExpr.Clean] at ht
    rw [typeName]
    exact closed_tupleName _ (closed_typeNames h elements ht)

theorem closed_typeNames (h : TypesUnbracketed sc.types) :
    ∀ types : List TypeExpr, TypeExpr.AllClean types →
      ∀ name ∈ sc.typeNames types, Closed name
  | [], _ => by
    rw [typeNames]
    exact fun _ h => absurd h List.not_mem_nil
  | t :: rest, ht => by
    rw [TypeExpr.AllClean] at ht
    rw [typeNames]
    exact List.forall_mem_cons.mpr ⟨closed_typeName h t ht.1, closed_typeNames h rest ht.2⟩

theorem closed_segmentArguments (h : TypesUnbracketed sc.types) :
    ∀ segments : List NameSegment, TypeExpr.SegmentsClean segments →
      ∀ name ∈ sc.segmentArguments segments, Closed name
  | [], _ => by
    rw [segmentArguments]
    exact fun _ h => absurd h List.not_mem_nil
  | ⟨name, args⟩ :: rest, ht => by
    rw [TypeExpr.SegmentsClean, TypeExpr.SegmentClean] at ht
    rw [segmentArguments]
    exact List.forall_mem_append.mpr ⟨closed_typeNames h args ht.1.2,
      closed_segmentArguments h rest ht.2⟩

end

-- ===================================================== interface names

theorem segmentArguments_eq_nil_iff {segments : List NameSegment} :
    sc.segmentArguments segments = [] ↔ ∀ segment ∈ segments, segment.args = [] := by
  have hnames : ∀ types : List TypeExpr, sc.typeNames types = [] ↔ types = [] := by
    intro types
    cases types with
    | nil => simp [typeNames]
    | cons t rest => simp [typeNames]
  induction segments with
  | nil => simp [segmentArguments]
  | cons segment rest ih =>
    obtain ⟨name, args⟩ := segment
    rw [segmentArguments, List.append_eq_nil_iff, hnames, List.forall_mem_cons]
    exact and_congr_right' ih

/-- Dotted names without type arguments, as they are spelled. -/
theorem unbracketed_displaySegments {segments : List NameSegment}
    (hclean : TypeExpr.SegmentsClean segments) (hbare : ∀ segment ∈ segments, segment.args = []) :
    IsUnbracketed (TypeExpr.displaySegments segments) := by
  induction segments with
  | nil =>
    rw [TypeExpr.displaySegments]
    decide
  | cons first rest ih =>
    obtain ⟨name, args⟩ := first
    rw [TypeExpr.SegmentsClean, TypeExpr.SegmentClean] at hclean
    obtain ⟨rfl, hrest⟩ := List.forall_mem_cons.mp hbare
    have hname := IsUnbracketed.of_isName hclean.1.1
    cases rest with
    | nil =>
      rw [TypeExpr.displaySegments, TypeExpr.displaySegment]
      exact hname
    | cons second rest =>
      rw [TypeExpr.displaySegments, TypeExpr.displaySegment]
      · exact (hname.append (by decide)).append (ih hclean.2 hrest)
      · simp

theorem lt_mem_displaySegments {segments : List NameSegment} {segment : NameSegment}
    (hmem : segment ∈ segments) (hargs : segment.args ≠ []) :
    '<' ∈ (TypeExpr.displaySegments segments).toList := by
  have hsegment : '<' ∈ (TypeExpr.displaySegment segment).toList := by
    obtain ⟨name, args⟩ := segment
    obtain ⟨arg, args, rfl⟩ := List.exists_cons_of_ne_nil hargs
    rw [TypeExpr.displaySegment]
    simp
  induction segments with
  | nil => cases hmem
  | cons first rest ih =>
    cases rest with
    | nil =>
      obtain rfl := List.mem_singleton.mp hmem
      rwa [TypeExpr.displaySegments]
    | cons second rest =>
      rw [TypeExpr.displaySegments, String.toList_append, String.toList_append]
      · rcases List.mem_cons.mp hmem with rfl | hmem
        · exact List.mem_append_left _ (List.mem_append_left _ hsegment)
        · exact List.mem_append_right _ (ih hmem)
      · simp

/-- An angle bracket stands in the name of an interface if and only if it has
type arguments. -/
theorem lt_mem_interfaceName_iff (h : TypesUnbracketed sc.types) {segments : List NameSegment}
    (hclean : TypeExpr.SegmentsClean segments) :
    '<' ∈ (sc.interfaceName (.named none segments)).toList
      ↔ ∃ segment ∈ segments, segment.args ≠ [] := by
  have hplain : ∀ {text : String}, IsUnbracketed text → '<' ∉ text.toList :=
    fun htext => htext '<' (by decide)
  unfold interfaceName
  dsimp only
  split
  · next place hplace =>
    by_cases hargs : sc.segmentArguments segments = []
    · rw [hargs, List.isEmpty_nil, if_pos rfl]
      rw [segmentArguments_eq_nil_iff] at hargs
      refine iff_of_false (hplain (unbracketed_displayName h place)) ?_
      rintro ⟨segment, hmem, hsome⟩
      exact hsome (hargs segment hmem)
    · rw [if_neg (by rwa [List.isEmpty_iff])]
      rw [segmentArguments_eq_nil_iff] at hargs
      refine iff_of_true (by simp) ?_
      push Not at hargs
      exact hargs
  · rw [TypeExpr.display]
    by_cases hargs : ∀ segment ∈ segments, segment.args = []
    · refine iff_of_false (hplain (unbracketed_displaySegments hclean hargs)) ?_
      rintro ⟨segment, hmem, hsome⟩
      exact hsome (hargs segment hmem)
    · push Not at hargs
      obtain ⟨segment, hmem, hsome⟩ := hargs
      exact iff_of_true (lt_mem_displaySegments hmem hsome) ⟨segment, hmem, hsome⟩

/-- Without its type arguments, an interface has another name, if it has some. -/
theorem interfaceName_bare_eq_iff (h : TypesUnbracketed sc.types) {segments : List NameSegment}
    (hclean : TypeExpr.SegmentsClean segments) :
    sc.interfaceName (TypeExpr.named none segments).bare = sc.interfaceName (.named none segments)
      ↔ (TypeExpr.named none segments).bare = .named none segments := by
  have hbare : (TypeExpr.named none segments).Clean := by
    rwa [TypeExpr.Clean]
  replace hbare := hbare.bare
  rw [TypeExpr.bare, TypeExpr.Clean] at hbare
  rw [TypeExpr.bare]
  refine ⟨fun heq => ?_, congrArg _⟩
  congr 1
  refine (List.map_congr_left fun segment hmem => ?_).trans (List.map_id _)
  by_contra hargs
  have hlt := (lt_mem_interfaceName_iff h hclean).mpr
    ⟨segment, hmem, fun hnone => hargs (by obtain ⟨name, args⟩ := segment; cases hnone; rfl)⟩
  rw [← heq, lt_mem_interfaceName_iff h hbare] at hlt
  obtain ⟨_, hmem, hsome⟩ := hlt
  obtain ⟨_, -, rfl⟩ := List.mem_map.mp hmem
  exact hsome rfl

/-- What a type with its arguments stands for in a scope. -/
inductive Construction where
  /-- The type at a place, with arguments of full names. -/
  | declared (place : Nat) (args : List String)
  /-- A type that is not declared, as it is spelled. -/
  | undeclared (spelling : String)

/-- The construction that a type stands for. -/
def construction (sc : Scope) (t : TypeExpr) : Construction :=
  match t with
  | .named _ segments =>
    match sc.lookup? segments with
    | some place => .declared place (sc.segmentArguments segments)
    | none => .undeclared t.display
  | _ => .undeclared t.display

/-- Whether two constructions are of one type, as far as it is known. -/
def Construction.OfOneType : Construction → Construction → Prop
  | .declared place _, .declared place' _ => place = place'
  | .undeclared _, .undeclared _ => True
  | _, _ => False

theorem displayName_congr (htypes : sc'.types = sc.types) (place : Nat) :
    sc'.displayName place = sc.displayName place := by
  rw [displayName, displayName, displayNameWithin_eq_nameThrough,
    displayNameWithin_eq_nameThrough, htypes]

/-- Different constructions of one type have different names. -/
theorem interfaceName_ne (htypes : sc'.types = sc.types) (h : TypesUnbracketed sc.types)
    {segments segments' : List NameSegment} (hclean : TypeExpr.SegmentsClean segments)
    (hclean' : TypeExpr.SegmentsClean segments')
    (hof : (sc.construction (.named none segments)).OfOneType
      (sc'.construction (.named none segments')))
    (hne : sc.construction (.named none segments) ≠ sc'.construction (.named none segments')) :
    sc.interfaceName (.named none segments) ≠ sc'.interfaceName (.named none segments') := by
  intro heq
  have hlt := lt_mem_interfaceName_iff h hclean
  rw [heq, lt_mem_interfaceName_iff (htypes ▸ h) hclean'] at hlt
  have hnil : sc.segmentArguments segments = [] ↔ sc'.segmentArguments segments' = [] := by
    rw [segmentArguments_eq_nil_iff, segmentArguments_eq_nil_iff]
    simpa only [not_exists, not_and, not_not] using (not_congr hlt).symm
  have hnone : ∀ {sc : Scope} {segments}, sc.lookup? segments = none →
      sc.interfaceName (.named none segments) = (TypeExpr.named none segments).display := by
    intro sc segments hplace
    rw [interfaceName, hplace]
  unfold construction at hof hne
  dsimp only at hof hne
  cases hplace : sc.lookup? segments with
  | none =>
    rw [hplace] at hof hne
    cases hplace' : sc'.lookup? segments' with
    | none =>
      rw [hplace'] at hne
      rw [hnone hplace, hnone hplace'] at heq
      exact hne (congrArg _ heq)
    | some place' =>
      rw [hplace'] at hof
      exact hof
  | some place =>
    rw [hplace] at hof hne
    cases hplace' : sc'.lookup? segments' with
    | none =>
      rw [hplace'] at hof
      exact hof
    | some place' =>
      rw [hplace'] at hof hne
      obtain rfl : place = place' := hof
      refine hne (congrArg (Construction.declared place) ?_)
      rw [interfaceName, interfaceName, hplace, hplace'] at heq
      dsimp only at heq
      by_cases hargs : sc.segmentArguments segments = []
      · rw [hargs, hnil.mp hargs]
      have hargs' := mt hnil.mpr hargs
      rw [if_neg (by rwa [List.isEmpty_iff]), if_neg (by rwa [List.isEmpty_iff]),
        displayName_congr htypes, String.append_assoc, String.append_assoc, String.append_assoc,
        String.append_assoc] at heq
      have hchars := congrArg String.toList heq
      simp only [String.toList_append, List.append_cancel_left_eq, List.append_cancel_right_eq,
        String.toList_inj] at hchars
      exact join_inj (closed_segmentArguments h segments hclean)
        (closed_segmentArguments (htypes ▸ h) segments' hclean') hargs hargs' hchars

end Scope

end ClrListing.Lowering
