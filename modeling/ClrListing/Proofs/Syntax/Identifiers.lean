/-
The names that the types in a file are made of.

In a type that is read, keywords are keywords for types and all other names
are what identifiers name (`TypeExpr.Clean`), inside it as well. So none of
the characters that tell the parts of a type apart stands in a name, in the
interface before the name of a member either (`clean_of_writtenBefore`).
-/
import ClrListing.Proofs.Syntax.Interfaces

namespace ClrListing.Source

/-- What is measured as a keyword for a type is one. -/
theorem Rule.mem_predefinedKeywords {text rest : List Char}
    (h : Rule (text ++ rest) ⟨.lexeme .predefined, text.length⟩) :
    String.ofList text ∈ predefinedKeywords := by
  have hkeyword : ∀ word, wordKind word = .predefined → word ∈ predefinedKeywords := by
    have hall : ∀ entry ∈ keywords, entry.2 = .predefined → entry.1 ∈ predefinedKeywords := by
      decide
    intro word hword
    unfold wordKind at hword
    cases hfound : keywords.lookup word with
    | none =>
      rw [hfound] at hword
      cases hword
    | some kind =>
      rw [hfound] at hword
      obtain ⟨before, after, hsplit, -⟩ := List.lookup_eq_some_iff.mp hfound
      exact hall (word, kind) (by rw [hsplit]; simp) hword
  have hmeasured : ∀ opened, measureWord opened (text ++ rest) = ⟨.lexeme .predefined, text.length⟩ →
      String.ofList text ∈ predefinedKeywords := by
    intro opened hmeasure
    obtain ⟨hkind, hlength⟩ := Measure.mk.inj hmeasure
    rw [hlength, List.take_left] at hkind
    exact hkeyword _ (PieceKind.lexeme.inj hkind)
  obtain ⟨c, inner, -, ⟨-, hmeasure⟩ | ⟨-, hmeasure⟩⟩ := h.word_cases (by decide)
  · exact hmeasured 1 hmeasure
  · exact hmeasured 2 hmeasure

theorem Cuts.mem_predefinedKeywords {offset : Nat} {s : List Char} {ls : List Lexeme}
    (h : Cuts offset s ls) : ∀ l ∈ ls, l.kind = .predefined → l.text ∈ predefinedKeywords := by
  induction h with
  | done => exact fun _ hl => absurd hl List.not_mem_nil
  | trivia _ _ _ ih => exact ih
  | lexeme _ hrule _ ih =>
    refine List.forall_mem_cons.mpr ⟨?_, ih⟩
    rintro rfl
    exact hrule.mem_predefinedKeywords

/-- The keywords for types among the lexemes of a text are spelled like
them. -/
theorem mem_predefinedKeywords_of_mem_lexemes {source : String} {ls : List Lexeme}
    (h : lexemes source = .ok ls) :
    ∀ l ∈ ls, l.kind = .predefined → l.text ∈ predefinedKeywords := by
  obtain ⟨tokens, hcuts, rfl⟩ := lexemes_eq_ok_iff.mp h
  refine List.forall_mem_append.mpr ⟨hcuts.mem_predefinedKeywords, ?_⟩
  rw [List.forall_mem_singleton]
  exact fun hkind => by cases hkind

end ClrListing.Source

namespace ClrListing.Syntax

open Source

-- ========================================================= clean types

namespace TypeExpr

mutual

/-- Whether a type is made of keywords for types and of names. -/
def Clean : TypeExpr → Prop
  | .predefined keyword => keyword ∈ predefinedKeywords
  | .named _ segments => SegmentsClean segments
  | .array element _ => element.Clean
  | .nullable inner => inner.Clean
  | .pointer inner => inner.Clean
  | .tuple elements => AllClean elements

def SegmentsClean : List NameSegment → Prop
  | [] => True
  | segment :: rest => SegmentClean segment ∧ SegmentsClean rest

def SegmentClean : NameSegment → Prop
  | ⟨name, args⟩ => IsName name ∧ AllClean args

def AllClean : List TypeExpr → Prop
  | [] => True
  | t :: rest => t.Clean ∧ AllClean rest

end

theorem segmentsClean_iff {segments : List NameSegment} :
    SegmentsClean segments ↔ ∀ segment ∈ segments, SegmentClean segment := by
  induction segments with
  | nil => simp [SegmentsClean]
  | cons segment rest ih => rw [SegmentsClean, ih, List.forall_mem_cons]

theorem allClean_iff {types : List TypeExpr} : AllClean types ↔ ∀ t ∈ types, t.Clean := by
  induction types with
  | nil => simp [AllClean]
  | cons t rest ih => rw [AllClean, ih, List.forall_mem_cons]

theorem Clean.suffixes {base : TypeExpr} (h : base.Clean) (suffixes : List TypeSuffix) :
    (suffixes.foldl TypeSuffix.apply base).Clean := by
  induction suffixes generalizing base with
  | nil => exact h
  | cons suffix rest ih =>
    refine ih ?_
    cases suffix <;> rw [TypeSuffix.apply, Clean] <;> exact h

theorem Clean.bare {t : TypeExpr} (h : t.Clean) : t.bare.Clean := by
  cases t with
  | named root segments =>
    rw [Clean, segmentsClean_iff] at h
    rw [TypeExpr.bare, Clean, segmentsClean_iff]
    intro segment hsegment
    obtain ⟨⟨name, args⟩, hmem, rfl⟩ := List.mem_map.mp hsegment
    have hclean := h _ hmem
    rw [SegmentClean] at hclean
    rw [NameSegment.bare, SegmentClean, AllClean]
    exact ⟨hclean.1, trivial⟩
  | _ => exact h

end TypeExpr

-- ============================================================== reading

/-- Whether identifiers and keywords for types ahead are spelled like such. -/
structure Cursor.Worded (c : Cursor) : Prop where
  spelled : c.Spelled
  keywords : ∀ l ∈ c.rest, l.kind = .predefined → l.text ∈ predefinedKeywords

theorem worded_of_lexemes {source : String} {ls : List Lexeme} (h : lexemes source = .ok ls) :
    (Cursor.top source ls).Worded :=
  ⟨isSpelling_of_mem_lexemes h, mem_predefinedKeywords_of_mem_lexemes h⟩

namespace Parser

variable {top : Cursor}

/-- The text of a keyword for a type. -/
theorem text_mem_predefinedKeywords (htop : top.Worded) {n : Nat}
    (hkind : (top.skip n).kindAt 0 = .predefined) : (top.skip n).textAt 0 ∈ predefinedKeywords := by
  obtain ⟨l, rest, hrest, hl⟩ := Cursor.kindAt_zero hkind (by decide)
  obtain ⟨run, hpast⟩ := top.past_skip n
  have hmem : l ∈ top.rest := by
    rw [hpast.rest, hrest]
    simp
  rw [Cursor.textAt, hrest]
  exact htop.keywords l hmem hl

variable {argument : Parser TypeExpr} [Advances argument]

theorem always_nameSegment (htop : top.Worded) (h : Always top argument TypeExpr.Clean) :
    Always top (nameSegment argument) TypeExpr.SegmentClean := by
  unfold nameSegment typeArgumentsOf
  refine (Always.of_yields htop.spelled yields_identifier).bind fun name hname => ?_
  refine .after fun opens => .ite ?_ (.pure ?_)
  · refine Always.bind (P := fun args => ∀ t ∈ args, t.Clean) ?_ fun args hargs => .pure ?_
    · exact .after fun _ => (Always.separated h).bind fun args hargs => .after fun _ => .pure hargs
    · rw [TypeExpr.SegmentClean, TypeExpr.allClean_iff]
      exact ⟨hname, hargs⟩
  · rw [TypeExpr.SegmentClean, TypeExpr.AllClean]
    exact ⟨hname, trivial⟩

theorem always_typeExprWithin (htop : top.Worded) (bound : Nat) (inHeader : Bool) :
    Always top (typeExprWithin bound inHeader) TypeExpr.Clean := by
  induction bound generalizing inHeader with
  | zero => exact .exhausted
  | succ bound ih =>
    have hsuffixes : ∀ {base : TypeExpr}, base.Clean → Always top (do
        let suffixes ← collect typeSuffix
        return suffixes.foldl TypeSuffix.apply base) TypeExpr.Clean :=
      fun hbase => .after fun suffixes => .pure (hbase.suffixes suffixes)
    unfold typeExprWithin
    intro n t c' h
    obtain ⟨k, d, hkind, h⟩ := bind_eq_ok h
    cases hkind
    split at h
    · next hkind =>
      obtain ⟨keyword, d, htext, h⟩ := bind_eq_ok h
      cases htext
      have hbase : (TypeExpr.predefined ((top.skip n).textAt 0)).Clean := by
        rw [TypeExpr.Clean]
        exact text_mem_predefinedKeywords htop hkind
      exact Always.after (fun _ => hsuffixes hbase) n t c' h
    · have helement : Always top (do
          let element ← typeExprWithin bound false
          let _ ← eat .identifier
          return element) TypeExpr.Clean :=
        (ih false).bind fun element helement => .after fun _ => .pure helement
      refine Always.after (fun _ => (Always.separated helement).bind fun elements helements =>
        .after fun _ => hsuffixes ?_) n t c' h
      rw [TypeExpr.Clean, TypeExpr.allClean_iff]
      exact helements
    · have hturn : Always top (do
          let segment ← nameSegment (typeExprWithin bound false)
          let dotted := (← atKind .dot) && (← kindAt 1) = .identifier
          if dotted && (!inHeader || continuesTypeName (← get).rest) then
            advance
            return .item segment
          else
            return .last segment : Parser (Turn NameSegment)) (Turn.All TypeExpr.SegmentClean) := by
        refine (always_nameSegment htop (ih false)).bind fun segment hsegment => ?_
        exact .after fun _ => .after fun _ => .after fun _ => .ite (.after fun _ => .pure hsegment)
          (.pure hsegment)
      refine Always.after (fun root => (Always.collect hturn).bind fun segments hsegments =>
        hsuffixes ?_) n t c' h
      rw [TypeExpr.Clean, TypeExpr.segmentsClean_iff]
      exact hsegments
    · cases h

theorem always_typeExpr (htop : top.Worded) (inHeader : Bool) :
    Always top (typeExprIn inHeader) TypeExpr.Clean :=
  .after fun _ => always_typeExprWithin htop _ inHeader

instance : Advances argumentTurn := by unfold argumentTurn; infer_instance
instance : Advances argumentLists := by unfold argumentLists; infer_instance
instance : Advances fullSegment := by unfold fullSegment; infer_instance
instance : Advances fullTurn := by unfold fullTurn; infer_instance
instance : Advances fullSegments := by unfold fullSegments; infer_instance

theorem always_fullSegment (htop : top.Worded) :
    Always top fullSegment TypeExpr.SegmentClean := by
  have harguments : Always top typeArguments fun args => ∀ t ∈ args, t.Clean := by
    unfold typeArguments typeArgumentsOf
    exact .after fun _ => (Always.separated (always_typeExpr htop false)).bind fun args hargs =>
      .after fun _ => .pure hargs
  have hlists : Always top argumentLists fun lists => ∀ list ∈ lists, ∀ t ∈ list, t.Clean := by
    refine Always.collect (.after fun opens => .ite ?_ (.pure trivial))
    exact harguments.bind fun args hargs => .pure hargs
  unfold fullSegment
  refine (Always.of_yields htop.spelled yields_identifier).bind fun name hname => ?_
  refine hlists.bind fun lists hlists => .pure ?_
  rw [TypeExpr.SegmentClean, TypeExpr.allClean_iff]
  refine ⟨hname, fun t ht => ?_⟩
  obtain ⟨list, hlist, ht⟩ := List.mem_flatten.mp ht
  exact hlists list hlist t ht

/-- The interface that is written before the name of a member is a dotted name,
made of names. -/
theorem always_writtenInterface (htop : top.Worded) :
    Always top writtenInterface fun I => ∀ t, I = some t →
      ∃ segments, t = .named none segments ∧ TypeExpr.SegmentsClean segments := by
  have hturn : Always top fullTurn (Turn.All TypeExpr.SegmentClean) :=
    (always_fullSegment htop).bind fun segment hsegment => .after fun _ => .after fun _ =>
      .ite (.after fun _ => .pure hsegment) (.pure hsegment)
  unfold writtenInterface interfaceBehindType fullSegments
  refine .after fun _ => .after fun _ => .after fun _ => .after fun _ => .ite (.pure nofun) ?_
  refine (Always.collect hturn).bind fun segments hsegments => .after fun _ => .ite ?_ ?_
  · refine .pure ?_
    rintro _ ⟨⟩
    exact ⟨segments, rfl, TypeExpr.segmentsClean_iff.mpr hsegments⟩
  · refine .pure fun t ht => ?_
    unfold interfaceOf at ht
    split at ht
    · cases ht
    · cases ht
      exact ⟨_, rfl, TypeExpr.segmentsClean_iff.mpr fun segment hsegment =>
        hsegments segment ((List.dropLast_sublist segments).subset hsegment)⟩

theorem clean_of_writtenBefore (htop : top.Worded) {m : Member} {t : TypeExpr}
    (h : WrittenBefore top m (some t)) :
    ∃ segments, t = .named none segments ∧ TypeExpr.SegmentsClean segments := by
  obtain ⟨n, _, _, _, d, -, hwritten⟩ := h
  exact always_writtenInterface htop n _ d hwritten t rfl

end Parser

end ClrListing.Syntax
