/-
Arrays of arrays, as source and as signatures name them.

Array specifiers stand behind their element type in source, the outermost
array first: `int[][,]` is an array of arrays with two dimensions. Metadata
writes an array before its elements, and a name made from it ends with the
outermost one. The parser takes each specifier that it meets for an array of
all in front of it (`TypeExpr.arrays`), so that what it reads first is inside;
a name made from that has the specifiers as they are written, while a name
made from a signature (`TypeSig.arrays`) has them the other way round.
Specifiers can be told from the text that they make, so the two names are the
same exactly if the ranks are the same from both ends.

What the parser makes of specifiers is said both ways: every element type
that can be written, followed by specifiers, is read as arrays of it, and
every type that is read anywhere is an element type with the specifiers that
the lexemes read for it end with.
-/
import ClrListing.Proofs.Lowering.Compiled
import ClrListing.Proofs.Syntax.Reread
import ClrListing.Metadata.Signature

namespace ClrListing.Syntax

open Source

-- =========================================================== specifiers

/-- The array specifiers of some ranks, one behind the other. -/
def specifiers : List Nat → String
  | [] => ""
  | rank :: ranks => "[" ++ rankCommas rank ++ "]" ++ specifiers ranks

theorem specifiers_append (ranks more : List Nat) :
    specifiers (ranks ++ more) = specifiers ranks ++ specifiers more := by
  induction ranks with
  | nil => rw [List.nil_append, specifiers, String.empty_append]
  | cons rank ranks ih =>
    rw [List.cons_append, specifiers, specifiers, ih]
    simp only [String.append_assoc]

theorem toList_specifiers_cons (rank : Nat) (ranks : List Nat) :
    (specifiers (rank :: ranks)).toList
      = '[' :: (List.replicate (rank - 1) ',' ++ ']' :: (specifiers ranks).toList) := by
  rw [specifiers, rankCommas]
  simp only [String.toList_append, String.toList_ofList, List.append_assoc]
  rfl

/-- Commas end where a bracket closes them. -/
theorem commas_append_inj {m n : Nat} {s t : List Char}
    (h : List.replicate m ',' ++ ']' :: s = List.replicate n ',' ++ ']' :: t) : m = n ∧ s = t := by
  induction m generalizing n with
  | zero =>
    cases n with
    | zero => exact ⟨rfl, (List.cons.inj h).2⟩
    | succ n => simp [List.replicate_succ] at h
  | succ m ih =>
    cases n with
    | zero => simp [List.replicate_succ] at h
    | succ n =>
      rw [List.replicate_succ, List.replicate_succ] at h
      obtain ⟨hmn, hst⟩ := ih (List.cons.inj h).2
      exact ⟨congrArg Nat.succ hmn, hst⟩

/-- Ranks can be told from the specifiers that they make. -/
theorem specifiers_inj {ranks ranks' : List Nat} (hranks : ∀ rank ∈ ranks, 1 ≤ rank)
    (hranks' : ∀ rank ∈ ranks', 1 ≤ rank) (h : specifiers ranks = specifiers ranks') :
    ranks = ranks' := by
  replace h := congrArg String.toList h
  induction ranks generalizing ranks' with
  | nil =>
    cases ranks' with
    | nil => rfl
    | cons rank' ranks' => rw [toList_specifiers_cons] at h; cases h
  | cons rank ranks ih =>
    cases ranks' with
    | nil => rw [toList_specifiers_cons] at h; cases h
    | cons rank' ranks' =>
      rw [List.forall_mem_cons] at hranks hranks'
      rw [toList_specifiers_cons, toList_specifiers_cons] at h
      obtain ⟨hrank, hrest⟩ := commas_append_inj (List.cons.inj h).2
      have hsame : rank = rank' := by
        have := hranks.1
        have := hranks'.1
        omega
      rw [hsame, ih hranks.2 hranks'.2 hrest]

namespace TypeExpr

/-- Whether a type is an array. -/
def IsArray : TypeExpr → Prop
  | .array _ _ => True
  | _ => False

/-- The arrays that the parser makes of an element type and the specifiers
behind it. -/
def arrays (element : TypeExpr) (ranks : List Nat) : TypeExpr := ranks.foldl .array element

theorem arrays_append_singleton (element : TypeExpr) (ranks : List Nat) (rank : Nat) :
    element.arrays (ranks ++ [rank]) = .array (element.arrays ranks) rank := by
  rw [arrays, List.foldl_append]
  rfl

theorem writable_arrays {element : TypeExpr} {ranks : List Nat} (h : element.Writable)
    (hranks : ∀ rank ∈ ranks, 1 ≤ rank) : (element.arrays ranks).Writable := by
  induction ranks using List.reverseRecOn with
  | nil => exact h
  | append_singleton ranks rank ih =>
    rw [List.forall_mem_append, List.forall_mem_singleton] at hranks
    rw [arrays_append_singleton, Writable]
    exact ⟨ih hranks.1, hranks.2⟩

theorem unescaped_arrays (element : TypeExpr) (ranks : List Nat) :
    (element.arrays ranks).unescaped = element.unescaped.arrays ranks := by
  induction ranks using List.reverseRecOn with
  | nil => rfl
  | append_singleton ranks rank ih =>
    rw [arrays_append_singleton, arrays_append_singleton, unescaped, ih]

/-- The lexemes that the specifiers of some ranks are written with. -/
def specifiersWritten (ranks : List Nat) : List (LexemeKind × String) :=
  ranks.flatMap fun rank => Parser.suffixWritten (.array rank)

theorem written_arrays (element : TypeExpr) (ranks : List Nat) :
    (element.arrays ranks).written = element.written ++ specifiersWritten ranks := by
  induction ranks using List.reverseRecOn with
  | nil => exact (List.append_nil _).symm
  | append_singleton ranks rank ih =>
    rw [arrays_append_singleton, written, ih, specifiersWritten, specifiersWritten,
      List.flatMap_append, List.flatMap_singleton, List.append_assoc]
    rfl

end TypeExpr

-- ============================================================== reading

namespace Parser

open TypeExpr

/-- An element type that can be written is read, with specifiers behind it,
as arrays of it. -/
theorem takes_arrays {element : TypeExpr} {ranks : List Nat} (h : element.Writable)
    (hranks : ∀ rank ∈ ranks, 1 ≤ rank) {back : List (LexemeKind × String)}
    (hback : kindIn back 0 ∈ closers) :
    Takes typeExpr (element.written ++ specifiersWritten ranks ++ back)
      (element.unescaped.arrays ranks) back := by
  rw [← written_arrays, ← unescaped_arrays]
  refine .get fun c hc => (splitsUp _ (writable_arrays h hranks)).reads ?_ back hback
  have hlength := congrArg List.length hc
  rw [Cursor.readings, List.length_map, List.length_append] at hlength
  rw [hlength]
  omega

/-- The kinds of the lexemes ahead. -/
def kindsAhead (c : Cursor) : List LexemeKind := c.rest.map Lexeme.kind

/-- With `before` read already, what a parser gives and all that is read then
satisfy `Q`. -/
def Spends (before : List LexemeKind) (p : Parser α) (c : Cursor)
    (Q : α → List LexemeKind → Prop) : Prop :=
  ∀ a c', p c = .ok (a, c') → ∃ run, Q a (before ++ run) ∧ kindsAhead c = run ++ kindsAhead c'

namespace Spends

variable {before : List LexemeKind} {p : Parser α} {f : α → Parser β} {c : Cursor}
  {P : α → List LexemeKind → Prop} {Q : β → List LexemeKind → Prop}

theorem pure {a : α} (h : P a before) : Spends before (pure a) c P := by
  rintro _ _ ⟨⟩
  exact ⟨[], by rwa [List.append_nil], rfl⟩

theorem bind (hp : Spends before p c P) (hf : ∀ a run c', P a run → Spends run (f a) c' Q) :
    Spends before (p >>= f) c Q := by
  intro b c' h
  obtain ⟨a, d, hfirst, hsecond⟩ := bind_eq_ok h
  obtain ⟨run, hrun, hkinds⟩ := hp a d hfirst
  obtain ⟨more, hmore, hkinds'⟩ := hf a _ d hrun b c' hsecond
  refine ⟨run ++ more, by rwa [← List.append_assoc], ?_⟩
  rw [hkinds, hkinds', List.append_assoc]

/-- A first part of which nothing matters. -/
theorem after [Advances p] (hf : ∀ a run c', Spends run (f a) c' Q) :
    Spends before (p >>= f) c Q := by
  have hp : Spends before p c fun _ _ => True := by
    intro a c' hp
    obtain ⟨run, hpast⟩ := exists_past hp
    refine ⟨run.map Lexeme.kind, trivial, ?_⟩
    rw [kindsAhead, hpast.rest, List.map_append]
    rfl
  exact hp.bind fun a run c' _ => hf a run c'

/-- What is read before stays in front. -/
theorem behind (h : Spends [] p c P) :
    Spends before p c fun a run => ∃ last, P a last ∧ run = before ++ last := by
  intro a c' hp
  obtain ⟨run, hrun, hkinds⟩ := h a c' hp
  exact ⟨run, ⟨run, hrun, rfl⟩, hkinds⟩

theorem kindAt (place : Nat) {f : LexemeKind → Parser β}
    (h : Spends before (f (c.kindAt place)) c Q) : Spends before (Parser.kindAt place >>= f) c Q :=
  h

theorem advance {k : LexemeKind} (hkind : c.kindAt 0 = k) (hk : k ≠ .endOfText) :
    Spends before Parser.advance c fun _ run => run = before ++ [k] := by
  rintro _ _ ⟨⟩
  obtain ⟨l, rest, hrest, hl⟩ := Cursor.kindAt_zero hkind hk
  have hnext := (Cursor.past_next_of_cons hrest (hl ▸ hk)).2
  refine ⟨[k], rfl, ?_⟩
  rw [kindsAhead, kindsAhead, hnext, hrest, List.map_cons, hl]
  rfl

theorem expect {k : LexemeKind} (hk : k ≠ .endOfText) :
    Spends before (Parser.expect k) c fun _ run => run = before ++ [k] := by
  intro _ c' h
  obtain ⟨l, hl, hpast⟩ := past_of_expect hk h
  refine ⟨[k], rfl, ?_⟩
  rw [kindsAhead, kindsAhead, hpast.rest, List.map_append, List.map_singleton, hl]

theorem eat {k : LexemeKind} (hk : k ≠ .endOfText) : Spends before (Parser.eat k) c
    fun found run => run = if found then before ++ [k] else before := by
  have hcases : Spends before (if decide (c.kindAt 0 = k) then do Parser.advance; return true
      else return false) c fun found run => run = if found then before ++ [k] else before := by
    split
    · next hkind => exact (advance (of_decide_eq_true hkind) hk).bind fun _ _ _ h => pure h
    · exact pure rfl
  exact fun a c' h => hcases a c' h

/-- What one turn gives, and the kinds of the lexemes that it goes past. -/
def OfTurn (good : α → Prop) (kinds : α → List LexemeKind) :
    Turn α → List LexemeKind → Prop
  | .item a, run | .last a, run => good a ∧ run = kinds a
  | .done, run => run = []

/-- Where each turn goes past the lexemes of its item, all of them together go
past the lexemes of all items. -/
theorem collect {turn : Parser (Turn α)} {good : α → Prop} {kinds : α → List LexemeKind}
    (hturn : ∀ c, Spends [] turn c (OfTurn good kinds)) :
    Spends [] (Parser.collect turn) c fun items run =>
      (∀ a ∈ items, good a) ∧ run = items.flatMap kinds := by
  have hwithin : ∀ bound c, Spends [] (collectWithin turn bound) c fun items run =>
      (∀ a ∈ items, good a) ∧ run = items.flatMap kinds := by
    intro bound
    induction bound with
    | zero => exact fun _ _ _ h => by cases h
    | succ bound ih =>
      intro c
      refine (hturn c).bind fun t run d ht => ?_
      cases t with
      | item a =>
        obtain ⟨hgood, rfl⟩ := ht
        refine (ih d).behind.bind fun rest _ _ hrest => pure ?_
        obtain ⟨_, ⟨hall, rfl⟩, rfl⟩ := hrest
        exact ⟨List.forall_mem_cons.mpr ⟨hgood, hall⟩, rfl⟩
      | last a =>
        obtain ⟨hgood, rfl⟩ := ht
        exact pure ⟨List.forall_mem_singleton.mpr hgood, (List.flatMap_singleton ..).symm⟩
      | done => exact pure ⟨fun _ h => absurd h List.not_mem_nil, ht⟩
  exact hwithin _ c

end Spends

/-- The kinds of the lexemes that a suffix is read from. -/
def suffixKinds : TypeSuffix → List LexemeKind
  | .nullable => [.question]
  | .pointer => [.star]
  | .array rank => .lbracket :: (List.replicate (rank - 1) .comma ++ [.rbracket])

/-- The kinds of the lexemes that the specifiers of some ranks are read from. -/
def specifierKinds (ranks : List Nat) : List LexemeKind :=
  ranks.flatMap fun rank => suffixKinds (.array rank)

/-- Whether a suffix makes an array, if it makes one, of one dimension at
least. -/
def HasRank : TypeSuffix → Prop
  | .array rank => 1 ≤ rank
  | _ => True

theorem spends_suffix (c : Cursor) :
    Spends [] typeSuffix c (Spends.OfTurn HasRank suffixKinds) := by
  refine Spends.kindAt 0 ?_
  split
  · next hkind => exact (Spends.advance hkind (by decide)).bind fun _ _ _ h => .pure ⟨trivial, h⟩
  · next hkind => exact (Spends.advance hkind (by decide)).bind fun _ _ _ h => .pure ⟨trivial, h⟩
  · next hkind =>
    refine Spends.kindAt 1 ?_
    split
    · refine (Spends.advance hkind (by decide)).bind fun _ opened d hopened => ?_
      have hcommas : Spends [] (collect (do
          if ← eat .comma then return .item () else return .done : Parser (Turn Unit))) d
          fun commas run => (∀ a ∈ commas, True) ∧ run = commas.flatMap fun _ => [.comma] := by
        refine Spends.collect fun c => (Spends.eat (by decide)).bind fun found run _ h => ?_
        cases found
        · exact Spends.pure h
        · exact Spends.pure ⟨trivial, h⟩
      refine hcommas.behind.bind fun commas _ _ hinside => ?_
      refine (Spends.expect (by decide)).bind fun _ run _ hrun => Spends.pure ?_
      obtain ⟨_, ⟨-, rfl⟩, rfl⟩ := hinside
      refine ⟨Nat.le_add_left .., ?_⟩
      rw [hrun, hopened, ← List.map_eq_flatMap, List.map_const']
      rfl
    · exact Spends.pure rfl
  · exact Spends.pure rfl

/-- Suffixes behind a type end with the specifiers of arrays. -/
theorem exists_arrays {base : TypeExpr} (hbase : ¬ base.IsArray) {suffixes : List TypeSuffix}
    (hranks : ∀ suffix ∈ suffixes, HasRank suffix) :
    ∃ (element : TypeExpr) (ranks : List Nat) (front : List LexemeKind),
      ¬ element.IsArray ∧ (∀ rank ∈ ranks, 1 ≤ rank)
        ∧ suffixes.foldl TypeSuffix.apply base = element.arrays ranks
        ∧ suffixes.flatMap suffixKinds = front ++ specifierKinds ranks := by
  induction suffixes using List.reverseRecOn with
  | nil => exact ⟨base, [], [], hbase, fun _ h => absurd h List.not_mem_nil, rfl, rfl⟩
  | append_singleton suffixes suffix ih =>
    rw [List.forall_mem_append, List.forall_mem_singleton] at hranks
    rw [List.foldl_append, List.flatMap_append, List.flatMap_singleton]
    cases suffix with
    | array rank =>
      obtain ⟨element, ranks, front, helement, hpositive, happlied, hkinds⟩ := ih hranks.1
      refine ⟨element, ranks ++ [rank], front, helement, ?_, ?_, ?_⟩
      · rw [List.forall_mem_append, List.forall_mem_singleton]
        exact ⟨hpositive, hranks.2⟩
      · rw [arrays_append_singleton, ← happlied]
        rfl
      · rw [hkinds, specifierKinds, specifierKinds, List.flatMap_append, List.flatMap_singleton,
          List.append_assoc]
    | _ =>
      refine ⟨_, [], suffixes.flatMap suffixKinds ++ suffixKinds _, ?_,
        fun _ h => absurd h List.not_mem_nil, rfl, (List.append_nil _).symm⟩
      exact id

/-- Whether a type is an element type, no array itself, in the arrays whose
specifiers are the last lexemes that were read. -/
def EndsIn (t : TypeExpr) (run : List LexemeKind) : Prop :=
  ∃ (element : TypeExpr) (ranks : List Nat) (front : List LexemeKind),
    ¬ element.IsArray ∧ (∀ rank ∈ ranks, 1 ≤ rank) ∧ t = element.arrays ranks
      ∧ run = front ++ specifierKinds ranks

theorem spends_suffixes {before : List LexemeKind} {base : TypeExpr} (hbase : ¬ base.IsArray)
    (c : Cursor) :
    Spends before (do
      let suffixes ← collect typeSuffix
      return suffixes.foldl TypeSuffix.apply base) c EndsIn := by
  refine (Spends.collect spends_suffix).behind.bind fun suffixes run _ hrun => Spends.pure ?_
  obtain ⟨_, ⟨hranks, rfl⟩, rfl⟩ := hrun
  obtain ⟨element, ranks, front, helement, hpositive, happlied, hkinds⟩ :=
    exists_arrays hbase hranks
  exact ⟨element, ranks, before ++ front, helement, hpositive, happlied,
    by rw [hkinds, List.append_assoc]⟩

theorem spends_type (bound : Nat) (inHeader : Bool) (c : Cursor) :
    Spends [] (typeExprWithin bound inHeader) c EndsIn := by
  cases bound with
  | zero => exact fun _ _ h => by cases h
  | succ bound =>
    unfold typeExprWithin
    refine Spends.kindAt 0 ?_
    split
    · exact .after fun _ _ _ => .after fun _ _ _ => spends_suffixes id _
    · exact .after fun _ _ _ => .after fun _ _ _ => .after fun _ _ _ => spends_suffixes id _
    · exact .after fun _ _ _ => .after fun _ _ _ => spends_suffixes id _
    · exact fun _ _ h => by cases h

end Parser

end ClrListing.Syntax

namespace ClrListing.Metadata.TypeSig

open Syntax

/-- The signature of an array: a vector if it has one dimension. -/
def arrayOf (element : TypeSig) : Nat → TypeSig
  | 1 => .vector element
  | rank => .array element rank

/-- The signature of arrays of an element type, the outermost first. -/
def arrays (element : TypeSig) (ranks : List Nat) : TypeSig :=
  ranks.foldr (fun rank inner => inner.arrayOf rank) element

theorem name_arrayOf (context : NameContext) (element : TypeSig) (rank : Nat) :
    (element.arrayOf rank).name context = element.name context ++ specifiers [rank] := by
  unfold arrayOf
  split
  · rw [name]
    rfl
  · rw [name]
    simp only [specifiers, rankCommas, String.append_empty, String.append_assoc]

theorem name_arrays (context : NameContext) (element : TypeSig) (ranks : List Nat) :
    (element.arrays ranks).name context = element.name context ++ specifiers ranks.reverse := by
  induction ranks with
  | nil => exact String.append_empty.symm
  | cons rank ranks ih =>
    have houter : element.arrays (rank :: ranks) = (element.arrays ranks).arrayOf rank := rfl
    rw [houter, name_arrayOf, ih, List.reverse_cons, specifiers_append, String.append_assoc]

end ClrListing.Metadata.TypeSig

namespace ClrListing.Lowering

open Source Syntax Metadata Assembly

-- ================================================================ names

namespace Scope

theorem typeName_arrays (sc : Scope) (element : TypeExpr) (ranks : List Nat) :
    sc.typeName (element.arrays ranks) = sc.typeName element ++ specifiers ranks := by
  induction ranks using List.reverseRecOn with
  | nil => exact (String.append_empty).symm
  | append_singleton ranks rank ih =>
    rw [TypeExpr.arrays_append_singleton, typeName, ih, specifiers_append]
    simp only [specifiers, String.append_empty, String.append_assoc]

/-- How arrays of an element type are named as source and as a signature, the
element type being named alike. -/
structure NamesArrays (sc : Scope) (context : NameContext) (element : TypeExpr) (ranks : List Nat)
    (sig : TypeSig) : Prop where
  /-- Source has the specifiers as they are written. -/
  source : sc.typeName (element.arrays ranks) = sc.typeName element ++ specifiers ranks
  /-- A signature has them the other way round. -/
  signature : (sig.arrays ranks).name context = sc.typeName element ++ specifiers ranks.reverse
  alike_iff : sc.typeName (element.arrays ranks) = (sig.arrays ranks).name context
    ↔ ranks.reverse = ranks

theorem namesArrays (sc : Scope) (context : NameContext) {element : TypeExpr} {ranks : List Nat}
    {sig : TypeSig} (hranks : ∀ rank ∈ ranks, 1 ≤ rank)
    (hsig : sig.name context = sc.typeName element) : sc.NamesArrays context element ranks sig := by
  have hsource := sc.typeName_arrays element ranks
  have hsignature := sig.name_arrays context ranks
  rw [hsig] at hsignature
  refine ⟨hsource, hsignature, ?_⟩
  rw [hsource, hsignature, String.append_right_inj]
  refine ⟨fun h => (specifiers_inj hranks ?_ h).symm, fun h => by rw [h]⟩
  exact fun rank h => hranks rank (List.mem_reverse.mp h)

end Scope

/-- Source and signatures name arrays alike if the ranks are the same from both
ends, and otherwise not. An element type and the specifiers behind it, with
whatever between their lexemes, are read as arrays whose name has the
specifiers in this order; every type that is read is an element type, no array
itself, with the specifiers that its lexemes end with; and the signature of an
array whose outermost specifier is the first one names them from the last to
the first. -/
theorem arrays_named_alike_iff (sc : Scope) (context : NameContext) :
    (∀ (element : TypeExpr) (ranks : List Nat) (sig : TypeSig) (c : Cursor)
        (back : List (LexemeKind × String)),
      element.Writable → (∀ rank ∈ ranks, 1 ≤ rank) →
      sig.name context = sc.typeName element.unescaped →
      c.readings = element.written ++ TypeExpr.specifiersWritten ranks ++ back →
      kindIn back 0 ∈ Parser.closers →
      (∃ c', Parser.typeExpr c = .ok (element.unescaped.arrays ranks, c') ∧ c'.readings = back)
        ∧ sc.NamesArrays context element.unescaped ranks sig)
    ∧ ∀ (inHeader : Bool) (c c' : Cursor) (t : TypeExpr),
      Parser.typeExprIn inHeader c = .ok (t, c') →
      ∃ (element : TypeExpr) (ranks : List Nat) (front : List LexemeKind),
        ¬ element.IsArray ∧ (∀ rank ∈ ranks, 1 ≤ rank) ∧ t = element.arrays ranks
          ∧ Parser.kindsAhead c = front ++ Parser.specifierKinds ranks ++ Parser.kindsAhead c'
          ∧ ∀ sig : TypeSig, sig.name context = sc.typeName element →
            sc.NamesArrays context element ranks sig := by
  constructor
  · intro element ranks sig c back helement hranks hsig hwritten hback
    exact ⟨Parser.takes_arrays helement hranks hback c hwritten, sc.namesArrays context hranks hsig⟩
  · intro inHeader c c' t hparse
    obtain ⟨run, ⟨element, ranks, front, helement, hranks, rfl, hrun⟩, hkinds⟩ :=
      Parser.spends_type _ inHeader c t c' hparse
    refine ⟨element, ranks, front, helement, hranks, rfl, ?_, fun sig hsig =>
      sc.namesArrays context hranks hsig⟩
    rw [hkinds, ← hrun, List.nil_append]

/-- A context without any names. -/
def bareContext : NameContext := ⟨fun _ => "", [], []⟩

/-- The ranks 2, 1, 2 are the same from both ends. -/
theorem arrays_named_alike_symmetric :
    (∃ ls c, lexemes "int[,][][,]" = .ok ls
      ∧ Parser.typeExpr (Cursor.top "int[,][][,]" ls)
        = .ok ((TypeExpr.predefined "int").arrays [2, 1, 2], c)
      ∧ c.readings = [(.endOfText, "")]
      ∧ ∃ (element : TypeExpr) (ranks : List Nat) (front : List LexemeKind), ¬ element.IsArray
        ∧ (TypeExpr.predefined "int").arrays [2, 1, 2] = element.arrays ranks
        ∧ Parser.kindsAhead (Cursor.top "int[,][][,]" ls)
          = front ++ Parser.specifierKinds ranks ++ Parser.kindsAhead c)
    ∧ (Scope.top []).typeName ((TypeExpr.predefined "int").arrays [2, 1, 2])
      = ((TypeSig.primitive .int32).arrays [2, 1, 2]).name bareContext := by
  have halike := arrays_named_alike_iff (Scope.top []) bareContext
  have hwritable : (TypeExpr.predefined "int").Writable := by
    rw [TypeExpr.Writable]
    decide
  have hranks : ∀ rank ∈ [2, 1, 2], 1 ≤ rank := by decide
  have hdisplay : ((TypeExpr.predefined "int").arrays [2, 1, 2]).display = "int[,][][,]" := by
    decide +kernel
  have hspells := TypeExpr.spells_display _ (TypeExpr.writable_arrays hwritable hranks)
  have hreads := hspells.composes [] [] (fun _ hc => by cases hc) .nil
  rw [List.append_nil, List.append_nil] at hreads
  obtain ⟨ls, hok, hls⟩ := hreads.lexemes_ok
  rw [String.ofList_toList, hdisplay] at hok
  rw [TypeExpr.written_arrays] at hls
  obtain ⟨⟨c, hparse, hc⟩, hnames⟩ := halike.1 (.predefined "int") [2, 1, 2] (.primitive .int32)
    (Cursor.top "int[,][][,]" ls) [(.endOfText, "")] hwritable hranks (by decide +kernel) hls
    (by decide)
  obtain ⟨element, ranks, front, helement, -, harrays, hkinds, -⟩ := halike.2 false _ c _ hparse
  exact ⟨⟨ls, c, hok, hparse, hc, element, ranks, front, helement, harrays, hkinds⟩,
    hnames.alike_iff.mpr rfl⟩

def mixedSource : String := "class C \x7b void M(int[][,] a) \x7b \x7d \x7d"

/-- The signature of a method with an array of arrays with two dimensions. -/
def mixedBlob : List UInt8 := [0x20, 0x01, 0x01, 0x1d, 0x14, 0x08, 0x02, 0x00, 0x00]

/-- An array of arrays with two dimensions is named `System.Int32[,][]` by its
signature, but `System.Int32[][,]` by source. -/
theorem mixed_arrays_named_apart :
    (∃ tree a, (Run.outcome (Tree.parse mixedSource)).1 = .ok tree
      ∧ (Run.outcome (compile "Mixed" tree ⟨false⟩)).1 = .ok a
      ∧ a.methods.flatMap (fun m => m.signature.params) = ["System.Int32[][,]"])
    ∧ ((TypeSig.primitive .int32).arrays [1, 2]).name bareContext = "System.Int32[,][]"
    ∧ (Signature.ofBytes mixedBlob).map (fun sig => (sig.named bareContext).params)
      = .ok ["System.Int32[,][]"] := by
  refine ⟨?_, by decide +kernel, by decide +kernel⟩
  have hruns : compilesTo mixedSource "Mixed" (fun _ a =>
      decide (a.methods.flatMap (fun m => m.signature.params) = ["System.Int32[][,]"])) = true := by
    decide +kernel
  obtain ⟨tree, a, hparse, hcompile, -, -, hcheck⟩ := of_compilesTo hruns
  exact ⟨tree, a, hparse, hcompile, of_decide_eq_true hcheck⟩

end ClrListing.Lowering
