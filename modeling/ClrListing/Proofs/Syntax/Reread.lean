/-
Types that are written and read again.

A parser takes the lexemes of a type (`Parser.Takes`) if it gives the type
and ends before those behind them, wherever they stand in a text. A type
is built with its last suffix outside, while the parser reads what has no
suffixes first and then all of them in turns; so a type is split
(`Parser.Splits`) into a type without suffixes, written in front, and its
suffixes from the inside out. The types inside it are written with fewer
lexemes, and that is what the bound on the nesting of types needs.

An identifier may start with `@`, which lets it be a keyword, and the
parser drops that. So what is read again is the type with the names that
its identifiers stand for.
-/
import ClrListing.Proofs.Syntax.Runs
import ClrListing.Proofs.Syntax.Written
import ClrListing.Syntax.Parser.TypeExpr

namespace ClrListing.Syntax

open Source

-- ================================================================ names

namespace TypeExpr

mutual

/-- A type with the names that its identifiers stand for. -/
def unescaped : TypeExpr → TypeExpr
  | .predefined keyword => .predefined keyword
  | .named root segments => .named (root.map Parser.nameOf) (unescapedSegments segments)
  | .array element rank => .array element.unescaped rank
  | .nullable inner => .nullable inner.unescaped
  | .pointer inner => .pointer inner.unescaped
  | .tuple elements => .tuple (unescapedAll elements)

def unescapedSegments : List NameSegment → List NameSegment
  | [] => []
  | segment :: rest => unescapedSegment segment :: unescapedSegments rest

def unescapedSegment : NameSegment → NameSegment
  | ⟨name, args⟩ => ⟨Parser.nameOf name, unescapedAll args⟩

def unescapedAll : List TypeExpr → List TypeExpr
  | [] => []
  | t :: rest => t.unescaped :: unescapedAll rest

end

end TypeExpr

/-- The spelling of an identifier starts with `@`. -/
def IsMarked (name : String) : Prop := name.toList.head? = some '@'

theorem nameOf_eq_self {name : String} (h : ¬ IsMarked name) : Parser.nameOf name = name := by
  rw [Parser.nameOf]
  split
  · next rest hname => exact absurd (by rw [IsMarked, hname]; rfl) h
  · rfl

namespace TypeExpr

mutual

/-- The identifiers that a type is written with. -/
def identifiers : TypeExpr → List String
  | .predefined _ => []
  | .named root segments => root.toList ++ segmentIdentifiers segments
  | .array element _ => element.identifiers
  | .nullable inner => inner.identifiers
  | .pointer inner => inner.identifiers
  | .tuple elements => allIdentifiers elements

def segmentIdentifiers : List NameSegment → List String
  | [] => []
  | ⟨name, args⟩ :: rest => name :: (allIdentifiers args ++ segmentIdentifiers rest)

def allIdentifiers : List TypeExpr → List String
  | [] => []
  | t :: rest => t.identifiers ++ allIdentifiers rest

end

mutual

/-- Identifiers without `@` are the names that they stand for. -/
theorem unescaped_eq_self : ∀ t : TypeExpr, (∀ name ∈ t.identifiers, ¬ IsMarked name) →
    t.unescaped = t
  | .predefined keyword, _ => by rw [unescaped]
  | .named root segments, h => by
    rw [identifiers, List.forall_mem_append] at h
    rw [unescaped, unescapedSegments_eq_self segments h.2]
    cases root with
    | none => rfl
    | some root => rw [Option.map_some, nameOf_eq_self (h.1 root List.mem_cons_self)]
  | .array element rank, h => by
    rw [identifiers] at h
    rw [unescaped, unescaped_eq_self element h]
  | .nullable inner, h => by
    rw [identifiers] at h
    rw [unescaped, unescaped_eq_self inner h]
  | .pointer inner, h => by
    rw [identifiers] at h
    rw [unescaped, unescaped_eq_self inner h]
  | .tuple elements, h => by
    rw [identifiers] at h
    rw [unescaped, unescapedAll_eq_self elements h]

theorem unescapedSegments_eq_self : ∀ segments : List NameSegment,
    (∀ name ∈ segmentIdentifiers segments, ¬ IsMarked name) → unescapedSegments segments = segments
  | [], _ => by rw [unescapedSegments]
  | ⟨name, args⟩ :: rest, h => by
    rw [segmentIdentifiers, List.forall_mem_cons, List.forall_mem_append] at h
    rw [unescapedSegments, unescapedSegment, nameOf_eq_self h.1, unescapedAll_eq_self args h.2.1,
      unescapedSegments_eq_self rest h.2.2]

theorem unescapedAll_eq_self : ∀ types : List TypeExpr,
    (∀ name ∈ allIdentifiers types, ¬ IsMarked name) → unescapedAll types = types
  | [], _ => by rw [unescapedAll]
  | t :: rest, h => by
    rw [allIdentifiers, List.forall_mem_append] at h
    rw [unescapedAll, unescaped_eq_self t h.1, unescapedAll_eq_self rest h.2]

end

end TypeExpr

-- ============================================================= reading

/-- The kinds and texts of the lexemes ahead. -/
def Cursor.readings (c : Cursor) : List (LexemeKind × String) :=
  c.rest.map fun l => (l.kind, l.text)

/-- The kind of a lexeme ahead. -/
def kindIn (ahead : List (LexemeKind × String)) (k : Nat) : LexemeKind :=
  (ahead[k]?.map Prod.fst).getD .endOfText

@[simp] theorem kindIn_zero (k : LexemeKind) (word : String) (rest : List (LexemeKind × String)) :
    kindIn ((k, word) :: rest) 0 = k := rfl

@[simp] theorem kindIn_succ (r : LexemeKind × String) (rest : List (LexemeKind × String))
    (place : Nat) : kindIn (r :: rest) (place + 1) = kindIn rest place := rfl

namespace Parser

/-- Whether a parser, before certain lexemes, gives a value and ends before
others. -/
def Takes (p : Parser α) (before : List (LexemeKind × String)) (a : α)
    (after : List (LexemeKind × String)) : Prop :=
  ∀ c : Cursor, c.readings = before → ∃ c', p c = .ok (a, c') ∧ c'.readings = after

namespace Takes

variable {p : Parser α} {f : α → Parser β} {a : α} {b : β}
variable {before middle after rest : List (LexemeKind × String)} {k : LexemeKind} {word : String}

theorem pure : Takes (pure a) before a before := fun c hc => ⟨c, rfl, hc⟩

theorem bind (hp : Takes p before a middle) (hf : Takes (f a) middle b after) :
    Takes (p >>= f) before b after := by
  intro c hc
  obtain ⟨c', hfirst, hc'⟩ := hp c hc
  obtain ⟨c'', hsecond, hc''⟩ := hf c' hc'
  refine ⟨c'', ?_, hc''⟩
  show (p c >>= fun r => f r.1 r.2) = _
  rw [hfirst]
  exact hsecond

/-- What is computed from the lexemes ahead. -/
theorem get {f : Cursor → Parser β} (hf : ∀ c : Cursor, c.readings = before →
    Takes (f c) before b after) : Takes (get >>= f) before b after :=
  fun c hc => hf c hc c hc

theorem kindAt (place : Nat) :
    Takes (Parser.kindAt place) before (kindIn before place) before := by
  intro c hc
  refine ⟨c, ?_, hc⟩
  show Except.ok (c.kindAt place, c) = _
  rw [Cursor.kindAt, kindIn, ← hc, Cursor.readings, List.getElem?_map, Option.map_map]
  rfl

theorem kind : Takes Parser.kind before (kindIn before 0) before := kindAt 0

theorem text : Takes Parser.text ((k, word) :: rest) word ((k, word) :: rest) := by
  intro c hc
  obtain ⟨l, ls, hrest, hl, -⟩ := List.map_eq_cons_iff.mp hc
  refine ⟨c, ?_, hc⟩
  show Except.ok (c.textAt 0, c) = _
  rw [Cursor.textAt, hrest]
  exact congrArg (fun r => Except.ok (r.2, c)) hl

theorem advance (hk : k ≠ .endOfText) : Takes Parser.advance ((k, word) :: rest) () rest := by
  intro c hc
  obtain ⟨l, ls, hrest, hl, hls⟩ := List.map_eq_cons_iff.mp hc
  obtain ⟨hkind, -⟩ := Prod.mk.inj hl
  refine ⟨c.next, rfl, ?_⟩
  rw [Cursor.next, hrest]
  dsimp only
  rw [if_neg (hkind ▸ hk)]
  exact hls

theorem atKind : Takes (Parser.atKind k) before (decide (kindIn before 0 = k)) before :=
  kind.bind pure

/-- Where the next lexeme is of the kind that is asked for. -/
theorem here {q : Parser α} (hk : kindIn before 0 = k) (hp : Takes p before a after) :
    Takes (Parser.atKind k >>= fun found => if found = true then p else q) before a after := by
  refine atKind.bind ?_
  rw [if_pos (decide_eq_true hk)]
  exact hp

/-- Where it is not. -/
theorem elsewhere {q : Parser α} (hk : kindIn before 0 ≠ k) (hq : Takes q before a after) :
    Takes (Parser.atKind k >>= fun found => if found = true then p else q) before a after := by
  refine atKind.bind ?_
  rw [if_neg (by simpa using hk)]
  exact hq

theorem eat (hk : k ≠ .endOfText) : Takes (Parser.eat k) ((k, word) :: rest) true rest :=
  here rfl ((advance hk).bind pure)

theorem eat_other (hk : kindIn before 0 ≠ k) : Takes (Parser.eat k) before false before :=
  elsewhere hk pure

theorem expect (hk : k ≠ .endOfText) : Takes (Parser.expect k) ((k, word) :: rest) () rest :=
  here rfl (advance hk)

theorem identifier :
    Takes Parser.identifier ((.identifier, word) :: rest) (nameOf word) rest :=
  here rfl (text.bind ((advance (by decide)).bind pure))

end Takes

/-- The items of a repeated turn, each but the last with a lexeme at least. -/
inductive Turns (turn : Parser (Turn α)) : List (LexemeKind × String) → List α →
    List (LexemeKind × String) → Prop where
  | done {before after : List (LexemeKind × String)} : Takes turn before .done after →
    Turns turn before [] after
  | last {before after : List (LexemeKind × String)} {a : α} : Takes turn before (.last a) after →
    Turns turn before [a] after
  | item {before middle after : List (LexemeKind × String)} {a : α} {as : List α} :
    Takes turn before (.item a) middle → middle.length < before.length →
    Turns turn middle as after → Turns turn before (a :: as) after

theorem Turns.takes {turn : Parser (Turn α)} {before after : List (LexemeKind × String)}
    {as : List α} (h : Turns turn before as after) : Takes (collect turn) before as after := by
  have hwithin : ∀ bound, before.length < bound →
      Takes (collectWithin turn bound) before as after := by
    induction h with
    | done hturn =>
      intro bound hbound
      obtain ⟨bound, rfl⟩ := Nat.exists_eq_add_one_of_ne_zero (Nat.ne_zero_of_lt hbound)
      exact hturn.bind .pure
    | last hturn =>
      intro bound hbound
      obtain ⟨bound, rfl⟩ := Nat.exists_eq_add_one_of_ne_zero (Nat.ne_zero_of_lt hbound)
      exact hturn.bind .pure
    | item hturn hless _ ih =>
      intro bound hbound
      obtain ⟨bound, rfl⟩ := Nat.exists_eq_add_one_of_ne_zero (Nat.ne_zero_of_lt hbound)
      exact hturn.bind ((ih bound (by omega)).bind .pure)
  refine .get fun c hc => hwithin _ ?_
  rw [← hc, Cursor.readings, List.length_map]
  exact Nat.lt_succ_self _

-- ============================================================ suffixes

/-- The lexemes that a suffix is written with. -/
def suffixWritten : TypeSuffix → List (LexemeKind × String)
  | .nullable => [(.question, "?")]
  | .pointer => [(.star, "*")]
  | .array rank =>
    (.lbracket, "[") :: (List.replicate (rank - 1) (.comma, ",") ++ [(.rbracket, "]")])

/-- What may stand behind a type that is read again. -/
def closers : List LexemeKind := [.comma, .gt, .rparen, .endOfText]

/-- What may stand behind a type without its suffixes. -/
def enders : List LexemeKind := closers ++ [.question, .star, .lbracket]

variable {rest : List (LexemeKind × String)}

/-- The commas between the brackets of an array. -/
theorem turns_commas (n : Nat) (hrest : kindIn rest 0 ≠ .comma) :
    Turns (do if ← eat .comma then return .item () else return .done : Parser (Turn Unit))
      (List.replicate n (.comma, ",") ++ rest) (List.replicate n ()) rest := by
  induction n with
  | zero =>
    refine .done ((Takes.eat_other hrest).bind ?_)
    exact .pure
  | succ n ih =>
    refine .item ((Takes.eat (by decide)).bind ?_) (Nat.lt_succ_self _) ih
    exact .pure

theorem takes_suffix {suffix : TypeSuffix} (hrank : ∀ rank, suffix = .array rank → 1 ≤ rank) :
    Takes typeSuffix (suffixWritten suffix ++ rest) (.item suffix) rest := by
  cases suffix with
  | nullable => exact Takes.kind.bind ((Takes.advance (by decide)).bind .pure)
  | pointer => exact Takes.kind.bind ((Takes.advance (by decide)).bind .pure)
  | array rank =>
    have hone := hrank rank rfl
    have hlength : (List.replicate (rank - 1) ()).length + 1 = rank := by
      rw [List.length_replicate, Nat.sub_add_cancel hone]
    show Takes typeSuffix ((.lbracket, "[") :: (List.replicate (rank - 1) (.comma, ",")
      ++ [(.rbracket, "]")] ++ rest)) _ _
    rw [List.append_assoc]
    refine Takes.kind.bind ((Takes.kindAt 1).bind ?_)
    have hnext : kindIn ((.lbracket, "[") :: (List.replicate (rank - 1) (.comma, ",")
        ++ ([(.rbracket, "]")] ++ rest))) 1 ∈ [LexemeKind.rbracket, .comma] := by
      cases rank - 1 <;> simp [List.replicate_succ]
    rw [if_pos (by rw [Bool.or_eq_true, decide_eq_true_eq, decide_eq_true_eq]; simpa using hnext)]
    refine (Takes.advance (by decide)).bind ((turns_commas _ (by simp)).takes.bind ?_)
    refine (Takes.expect (by decide)).bind ?_
    rw [hlength]
    exact .pure

theorem takes_noSuffix (hrest : kindIn rest 0 ∈ closers) : Takes typeSuffix rest .done rest := by
  refine Takes.kind.bind ?_
  generalize kindIn rest 0 = k at hrest
  simp only [closers, List.mem_cons, List.not_mem_nil, or_false] at hrest
  rcases hrest with rfl | rfl | rfl | rfl <;> exact .pure

theorem turns_suffixes {suffixes : List TypeSuffix}
    (hrank : ∀ rank, .array rank ∈ suffixes → 1 ≤ rank) (hrest : kindIn rest 0 ∈ closers) :
    Turns typeSuffix (suffixes.flatMap suffixWritten ++ rest) suffixes rest := by
  induction suffixes with
  | nil => exact .done (takes_noSuffix hrest)
  | cons suffix suffixes ih =>
    rw [List.flatMap_cons, List.append_assoc]
    refine .item (takes_suffix fun rank h => hrank rank (h ▸ List.mem_cons_self)) ?_
      (ih fun rank h => hrank rank (List.mem_cons_of_mem _ h))
    have hpos : 0 < (suffixWritten suffix).length := by cases suffix <;> simp [suffixWritten]
    simp only [List.length_append]
    omega

-- =============================================== types without suffixes

/-- One turn of a dotted name that goes on as far as it can. -/
def segmentTurn (argument : Parser TypeExpr) : Parser (Turn NameSegment) := do
  let segment ← nameSegment argument
  let dotted := (← atKind .dot) && (← kindAt 1) = .identifier
  if dotted && (!false || continuesTypeName (← get).rest) then
    advance
    return .item segment
  else
    return .last segment

/-- An element of a tuple, with or without a name. -/
def tupleElement (argument : Parser TypeExpr) : Parser TypeExpr := do
  let element ← argument
  let _ ← eat .identifier
  return element

/-- A type without its suffixes, the types inside it read by `argument`. -/
def typeBase (argument : Parser TypeExpr) : Parser TypeExpr := do
  match ← kind with
  | .predefined =>
    let keyword ← text
    advance
    return TypeExpr.predefined keyword
  | .lparen =>
    advance
    let elements ← separated (tupleElement argument)
    expect .rparen
    return TypeExpr.tuple elements
  | .identifier =>
    let root ← typeAlias
    let segments ← collect (segmentTurn argument)
    return TypeExpr.named root segments
  | _ => fail "CS1031" "Type expected"

theorem typeExprWithin_succ (bound : Nat) : typeExprWithin (bound + 1) false = (do
    let base ← typeBase (typeExprWithin bound false)
    let suffixes ← collect typeSuffix
    return suffixes.foldl TypeSuffix.apply base) := by
  rw [typeExprWithin, typeBase, bind_assoc]
  congr 1
  funext k
  cases k <;> simp only [bind_assoc, pure_bind] <;> rfl

/-- Whether a parser reads a type again. -/
def Reads (argument : Parser TypeExpr) (t : TypeExpr) : Prop :=
  ∀ back : List (LexemeKind × String), kindIn back 0 ∈ closers →
    Takes argument (t.written ++ back) t.unescaped back

theorem Reads.tupleElement {argument : Parser TypeExpr} {t : TypeExpr} (h : Reads argument t) :
    Reads (tupleElement argument) t := by
  intro back hback
  refine (h back hback).bind ((Takes.eat_other ?_).bind .pure)
  intro hkind
  rw [hkind] at hback
  revert hback
  decide

/-- Types with commas between them. -/
theorem takes_separated (rest : List (LexemeKind × String)) {item : Parser TypeExpr}
    {types : List TypeExpr} (hne : types ≠ []) (hitems : ∀ t ∈ types, Reads item t)
    (hrest : kindIn rest 0 ∈ [LexemeKind.gt, .rparen]) :
    Takes (separated item) (TypeExpr.writtenAll types ++ rest) (TypeExpr.unescapedAll types)
      rest := by
  have hclosers : ∀ k ∈ [LexemeKind.gt, .rparen], k ∈ closers ∧ k ≠ .comma := by decide
  obtain ⟨hcloser, hcomma⟩ := hclosers _ hrest
  refine Turns.takes ?_
  induction types with
  | nil => exact absurd rfl hne
  | cons t types ih =>
    rw [List.forall_mem_cons] at hitems
    rw [TypeExpr.unescapedAll]
    cases types with
    | nil =>
      rw [TypeExpr.writtenAll]
      refine .last ((hitems.1 rest hcloser).bind ((Takes.eat_other hcomma).bind ?_))
      exact .pure
    | cons next types =>
      rw [TypeExpr.writtenAll, List.append_assoc]
      · refine .item ((hitems.1 _ (by simp [closers])).bind ((Takes.eat (by decide)).bind ?_)) ?_
          (ih (List.cons_ne_nil _ _) hitems.2)
        · exact .pure
        · simp only [List.cons_append, List.length_append, List.length_cons]
          omega
      · simp

/-- What may stand behind a segment that is read again. -/
def segmentEnders : List LexemeKind := .dot :: enders

/-- A segment of a name. -/
theorem takes_segment {argument : Parser TypeExpr} {segment : NameSegment}
    (hargs : ∀ t ∈ segment.args, Reads argument t) (hrest : kindIn rest 0 ∈ segmentEnders) :
    Takes (nameSegment argument) (TypeExpr.writtenSegment segment ++ rest)
      (TypeExpr.unescapedSegment segment) rest := by
  obtain ⟨name, args⟩ := segment
  rw [TypeExpr.unescapedSegment]
  cases args with
  | nil =>
    have hlt : ∀ k ∈ segmentEnders, k ≠ .lt := by decide
    rw [TypeExpr.writtenSegment]
    exact Takes.identifier.bind (.elsewhere (hlt _ hrest) .pure)
  | cons arg args =>
    have hall := takes_separated ((.gt, ">") :: rest) (List.cons_ne_nil arg args) hargs
      (by simp)
    rw [TypeExpr.writtenSegment, List.cons_append, List.cons_append, List.append_assoc]
    refine Takes.identifier.bind (.here rfl (Takes.bind ?_ .pure))
    exact (Takes.expect (by decide)).bind (hall.bind ((Takes.expect (by decide)).bind .pure))

/-- A segment starts with an identifier, and `<` or what is behind the
segment follows that. -/
theorem writtenSegment_append (segment : NameSegment) (rest : List (LexemeKind × String)) : ∃ more,
    TypeExpr.writtenSegment segment ++ rest = (.identifier, segment.name) :: more
      ∧ (kindIn more 0 = .lt ∨ more = rest) := by
  obtain ⟨name, args⟩ := segment
  cases args with
  | nil => exact ⟨rest, by rw [TypeExpr.writtenSegment]; rfl, .inr rfl⟩
  | cons arg args => exact ⟨_, by rw [TypeExpr.writtenSegment]; rfl, .inl rfl⟩

/-- A name starts with an identifier, and no `::` follows that. -/
theorem writtenSegments_append {segments : List NameSegment} (hne : segments ≠ [])
    (hrest : kindIn rest 0 ∈ enders) : ∃ name more,
    TypeExpr.writtenSegments segments ++ rest = (.identifier, name) :: more
      ∧ kindIn more 0 ≠ .doubleColon := by
  have henders : ∀ k ∈ enders, k ≠ .doubleColon := by decide
  match segments with
  | [] => exact absurd rfl hne
  | [segment] =>
    obtain ⟨more, hcons, hmore⟩ := writtenSegment_append segment rest
    refine ⟨segment.name, more, by rw [TypeExpr.writtenSegments, hcons], ?_⟩
    rcases hmore with hlt | rfl
    · rw [hlt]
      decide
    · exact henders _ hrest
  | segment :: next :: segments =>
    obtain ⟨more, hcons, hmore⟩ := writtenSegment_append segment
      ((.dot, ".") :: (TypeExpr.writtenSegments (next :: segments) ++ rest))
    refine ⟨segment.name, more, ?_, ?_⟩
    · rw [TypeExpr.writtenSegments, List.append_assoc]
      · exact hcons
      · simp
    · rcases hmore with hlt | rfl
      · rw [hlt]
        decide
      · rw [kindIn_zero]
        decide

/-- The segments of a name. -/
theorem takes_segments {argument : Parser TypeExpr} {segments : List NameSegment}
    (hne : segments ≠ []) (hargs : ∀ segment ∈ segments, ∀ t ∈ segment.args, Reads argument t)
    (hrest : kindIn rest 0 ∈ enders) :
    Takes (collect (segmentTurn argument)) (TypeExpr.writtenSegments segments ++ rest)
      (TypeExpr.unescapedSegments segments) rest := by
  refine Turns.takes ?_
  induction segments with
  | nil => exact absurd rfl hne
  | cons segment segments ih =>
    rw [List.forall_mem_cons] at hargs
    rw [TypeExpr.unescapedSegments]
    cases segments with
    | nil =>
      rw [TypeExpr.writtenSegments]
      refine .last ((takes_segment hargs.1 (List.mem_cons_of_mem _ hrest)).bind ?_)
      refine Takes.atKind.bind ((Takes.kindAt 1).bind (.get fun c _ => ?_))
      have hdot : ∀ k ∈ enders, decide (k = .dot) = false := by decide
      rw [hdot _ hrest]
      exact .pure
    | cons next segments =>
      have hnext := ih (List.cons_ne_nil _ _) hargs.2
      obtain ⟨name, more, hcons, -⟩ := writtenSegments_append (List.cons_ne_nil next segments) hrest
      rw [TypeExpr.writtenSegments, List.append_assoc]
      · refine .item ((takes_segment hargs.1 List.mem_cons_self).bind ?_) ?_ hnext
        · refine Takes.atKind.bind ((Takes.kindAt 1).bind (.get fun c _ => ?_))
          rw [List.cons_append, hcons]
          exact (Takes.advance (by decide)).bind .pure
        · simp only [List.cons_append, List.length_append, List.length_cons]
          omega
      · simp

-- ==================================================== types in two parts

/-- A type is a type without suffixes, written in front, and suffixes behind
that; what is in front is read again where the types inside are. -/
structure Splits (t base : TypeExpr) (front : List (LexemeKind × String))
    (suffixes : List TypeSuffix) : Prop where
  written : t.written = front ++ suffixes.flatMap suffixWritten
  applied : suffixes.foldl TypeSuffix.apply base = t.unescaped
  ranks : ∀ rank, .array rank ∈ suffixes → 1 ≤ rank
  reads : ∀ bound, t.written.length ≤ bound → ∀ back, kindIn back 0 ∈ enders →
    Takes (typeBase (typeExprWithin bound false)) (front ++ back) base back

namespace Splits

variable {t t' base : TypeExpr} {front : List (LexemeKind × String)} {suffixes : List TypeSuffix}

/-- A type without suffixes. -/
theorem ofBase (h : ∀ bound, t.written.length ≤ bound → ∀ back, kindIn back 0 ∈ enders →
    Takes (typeBase (typeExprWithin bound false)) (t.written ++ back) t.unescaped back) :
    Splits t t.unescaped t.written [] where
  written := (List.append_nil _).symm
  applied := rfl
  ranks _ h := absurd h List.not_mem_nil
  reads := h

/-- A type with one suffix more. -/
theorem snoc (h : Splits t base front suffixes) (suffix : TypeSuffix)
    (hrank : ∀ rank, suffix = .array rank → 1 ≤ rank)
    (hwritten : t'.written = t.written ++ suffixWritten suffix)
    (happlied : t'.unescaped = suffix.apply t.unescaped) :
    Splits t' base front (suffixes ++ [suffix]) where
  written := by
    rw [hwritten, h.written, List.flatMap_append, List.flatMap_singleton, List.append_assoc]
  applied := by
    rw [happlied, List.foldl_append, h.applied]
    rfl
  ranks rank hmem := by
    rcases List.mem_append.mp hmem with hmem | hmem
    · exact h.ranks rank hmem
    · exact hrank rank (List.mem_singleton.mp hmem).symm
  reads bound hbound := h.reads bound (by
    rw [hwritten, List.length_append] at hbound
    omega)

theorem reads_type (h : Splits t base front suffixes) {bound : Nat}
    (hbound : t.written.length < bound) : Reads (typeExprWithin bound false) t := by
  obtain ⟨bound, rfl⟩ := Nat.exists_eq_add_one_of_ne_zero (Nat.ne_zero_of_lt hbound)
  intro back hback
  rw [typeExprWithin_succ, h.written, List.append_assoc, ← h.applied]
  refine (h.reads bound (Nat.le_of_lt_succ hbound) _ ?_).bind
    ((turns_suffixes h.ranks hback).takes.bind .pure)
  cases suffixes with
  | nil => exact List.mem_append_left _ hback
  | cons suffix suffixes =>
    have hsuffixes : ∀ k ∈ [LexemeKind.question, .star, .lbracket], k ∈ enders := by decide
    cases suffix <;> exact hsuffixes _ (by simp [suffixWritten])

end Splits

/-- A type that splits somehow. -/
def SplitsUp (t : TypeExpr) : Prop := ∃ base front suffixes, Splits t base front suffixes

namespace SplitsUp

variable {t t' : TypeExpr} {bound : Nat}

theorem snoc (h : SplitsUp t) (suffix : TypeSuffix)
    (hrank : ∀ rank, suffix = .array rank → 1 ≤ rank)
    (hwritten : t'.written = t.written ++ suffixWritten suffix)
    (happlied : t'.unescaped = suffix.apply t.unescaped) : SplitsUp t' := by
  obtain ⟨base, front, suffixes, hsplits⟩ := h
  exact ⟨base, front, _, hsplits.snoc suffix hrank hwritten happlied⟩

theorem reads (h : SplitsUp t) (hbound : t.written.length < bound) :
    Reads (typeExprWithin bound false) t := by
  obtain ⟨base, front, suffixes, hsplits⟩ := h
  exact hsplits.reads_type hbound

end SplitsUp

open TypeExpr

/-- Each of some types takes at most as many lexemes as all of them. -/
theorem length_written_le {t : TypeExpr} {types : List TypeExpr} (ht : t ∈ types) :
    t.written.length ≤ (writtenAll types).length := by
  induction types with
  | nil => exact absurd ht List.not_mem_nil
  | cons first types ih =>
    cases types with
    | nil =>
      rw [List.mem_singleton.mp ht, writtenAll]
    | cons next types =>
      rw [writtenAll, List.length_append, List.length_cons]
      · rcases List.mem_cons.mp ht with rfl | ht
        · omega
        · have := ih ht
          omega
      · simp

theorem length_written_lt {t : TypeExpr} {segments : List NameSegment} {segment : NameSegment}
    (hsegment : segment ∈ segments) (ht : t ∈ segment.args) :
    t.written.length < (writtenSegments segments).length := by
  have hin : t.written.length < (writtenSegment segment).length := by
    obtain ⟨name, args⟩ := segment
    have hle : t.written.length ≤ (writtenAll args).length := length_written_le ht
    cases args with
    | nil => exact absurd ht List.not_mem_nil
    | cons arg args =>
      simp only [writtenSegment, List.length_cons, List.length_append]
      omega
  induction segments with
  | nil => exact absurd hsegment List.not_mem_nil
  | cons first segments ih =>
    cases segments with
    | nil => rwa [writtenSegments, ← List.mem_singleton.mp hsegment]
    | cons next segments =>
      rw [writtenSegments, List.length_append, List.length_cons]
      · rcases List.mem_cons.mp hsegment with rfl | hsegment
        · omega
        · have := ih hsegment
          omega
      · simp

/-- The type arguments of a name are read again. -/
theorem reads_args {segments : List NameSegment} {bound : Nat}
    (h : ∀ segment ∈ segments, ∀ t ∈ segment.args, SplitsUp t)
    (hbound : (writtenSegments segments).length ≤ bound) :
    ∀ segment ∈ segments, ∀ t ∈ segment.args, Reads (typeExprWithin bound false) t :=
  fun segment hsegment t ht =>
    (h segment hsegment t ht).reads (Nat.lt_of_lt_of_le (length_written_lt hsegment ht) hbound)

mutual

/-- A type that can be written splits so. -/
theorem splitsUp : ∀ t : TypeExpr, t.Writable → SplitsUp t
  | .predefined keyword, _ => by
    refine ⟨_, _, _, .ofBase fun bound _ back _ => ?_⟩
    rw [written, unescaped]
    exact Takes.kind.bind (Takes.text.bind ((Takes.advance (by decide)).bind .pure))
  | .named none segments, h => by
    rw [Writable] at h
    refine ⟨_, _, _, .ofBase fun bound hbound back hback => ?_⟩
    rw [written] at hbound ⊢
    rw [unescaped]
    -- the parser looks past the first identifier for an alias
    have hargs := reads_args (splitsUp_segments segments h.2.2) hbound
    have hsegments := takes_segments h.2.1 hargs hback
    obtain ⟨name, more, hcons, hmore⟩ := writtenSegments_append h.2.1 hback
    rw [hcons] at hsegments ⊢
    refine Takes.kind.bind (Takes.bind ?_ (hsegments.bind .pure))
    refine (Takes.kindAt 1).bind ?_
    rw [kindIn_succ, if_neg hmore]
    exact .pure
  | .named (some root) segments, h => by
    rw [Writable] at h
    refine ⟨_, _, _, .ofBase fun bound hbound back hback => ?_⟩
    rw [written, List.length_cons, List.length_cons] at hbound
    rw [written, unescaped]
    have hargs := reads_args (splitsUp_segments segments h.2.2)
      (Nat.le_trans (Nat.le_add_right _ 2) hbound)
    refine Takes.kind.bind (Takes.bind ?_ ((takes_segments h.2.1 hargs hback).bind .pure))
    exact (Takes.kindAt 1).bind (Takes.identifier.bind ((Takes.advance (by decide)).bind .pure))
  | .array element rank, h => by
    rw [Writable] at h
    refine (splitsUp element h.1).snoc (.array rank) ?_ ?_ ?_
    · rintro _ ⟨⟩
      exact h.2
    · rw [written, suffixWritten]
    · rw [unescaped, TypeSuffix.apply]
  | .nullable inner, h => by
    rw [Writable] at h
    refine (splitsUp inner h.1).snoc .nullable nofun ?_ ?_
    · rw [written, suffixWritten]
    · rw [unescaped, TypeSuffix.apply]
  | .pointer inner, h => by
    rw [Writable] at h
    refine (splitsUp inner h).snoc .pointer nofun ?_ ?_
    · rw [written, suffixWritten]
    · rw [unescaped, TypeSuffix.apply]
  | .tuple elements, h => by
    rw [Writable] at h
    refine ⟨_, _, _, .ofBase fun bound hbound back hback => ?_⟩
    rw [written, List.length_cons, List.length_append] at hbound
    rw [written, unescaped]
    have helements : ∀ t ∈ elements, Reads (tupleElement (typeExprWithin bound false)) t := by
      intro t ht
      have hle := length_written_le ht
      exact ((splitsUp_all elements h.2 t ht).reads (by omega)).tupleElement
    have hall := takes_separated ((.rparen, ")") :: back) h.1 helements (by simp)
    rw [List.cons_append, List.append_assoc]
    exact Takes.kind.bind ((Takes.advance (by decide)).bind
      (hall.bind ((Takes.expect (by decide)).bind .pure)))

theorem splitsUp_segments : ∀ segments : List NameSegment, SegmentsWritable segments →
    ∀ segment ∈ segments, ∀ t ∈ segment.args, SplitsUp t
  | [], _ => fun _ h => absurd h List.not_mem_nil
  | segment :: segments, h => by
    rw [SegmentsWritable] at h
    rw [List.forall_mem_cons]
    exact ⟨splitsUp_segment segment h.1, splitsUp_segments segments h.2⟩

theorem splitsUp_segment : ∀ segment : NameSegment, SegmentWritable segment →
    ∀ t ∈ segment.args, SplitsUp t
  | ⟨_, args⟩, h => by
    rw [SegmentWritable] at h
    exact splitsUp_all args h.2

theorem splitsUp_all : ∀ types : List TypeExpr, AllWritable types → ∀ t ∈ types, SplitsUp t
  | [], _ => fun _ h => absurd h List.not_mem_nil
  | t :: types, h => by
    rw [AllWritable] at h
    rw [List.forall_mem_cons]
    exact ⟨splitsUp t h.1, splitsUp_all types h.2⟩

end

end Parser

-- ========================================================= the round trip

/-- A type that can be written is read again: the text that it is written
as is accepted, and what the parser reads of its lexemes is the type with
the names that its identifiers stand for, up to the end of the text. That
is the type itself, if none of its identifiers starts with `@`. -/
theorem typeExpr_display (t : TypeExpr) (h : t.Writable) :
    ∃ ls c, lexemes t.display = .ok ls
      ∧ Parser.typeExpr (Cursor.top t.display ls) = .ok (t.unescaped, c)
      ∧ c.rest = [endLexeme t.display]
      ∧ ((∀ name ∈ t.identifiers, ¬ IsMarked name) → t.unescaped = t) := by
  have hreads := (t.spells_display h).composes [] [] (fun _ hc => by cases hc) .nil
  rw [List.append_nil, List.append_nil] at hreads
  obtain ⟨ls, hok, hls⟩ := hreads.lexemes_ok
  rw [String.ofList_toList] at hok
  have htakes : Parser.Takes Parser.typeExpr (t.written ++ [(.endOfText, "")]) t.unescaped
      [(.endOfText, "")] := by
    refine .get fun c hc => (Parser.splitsUp t h).reads ?_ _ (by decide)
    have hlength := congrArg List.length hc
    rw [Cursor.readings, List.length_map, List.length_append] at hlength
    rw [hlength]
    omega
  obtain ⟨c, hparse, hc⟩ := htakes (Cursor.top t.display ls) hls
  refine ⟨ls, c, hok, hparse, ?_, t.unescaped_eq_self⟩
  -- one lexeme is left, so it is the last of the text
  obtain ⟨run, hpast⟩ := Parser.exists_past hparse
  obtain ⟨l, hl, -⟩ := List.map_eq_singleton_iff.mp hc
  obtain ⟨tokens, -, htokens⟩ := lexemes_eq_ok_iff.mp hok
  have hrest : run ++ [l] = tokens ++ [endLexeme t.display] := by
    rw [← hl, ← hpast.rest, ← htokens]
    rfl
  rw [hl, (List.append_inj' hrest rfl).2]

/-- Brackets of every kind at once. -/
theorem typeExpr_display_nested :
    ∃ ls c, lexemes "global::A.Map<int?[,], (B, C*[])>?" = .ok ls
      ∧ Parser.typeExpr (Cursor.top "global::A.Map<int?[,], (B, C*[])>?" ls)
        = .ok (.nullable (.named (some "global") [⟨"A", []⟩, ⟨"Map",
          [.array (.nullable (.predefined "int")) 2,
            .tuple [.named none [⟨"B", []⟩], .array (.pointer (.named none [⟨"C", []⟩])) 1]]⟩]), c)
      ∧ c.rest = [endLexeme "global::A.Map<int?[,], (B, C*[])>?"] := by
  have hwritable : TypeExpr.Writable (.nullable (.named (some "global") [⟨"A", []⟩, ⟨"Map",
      [.array (.nullable (.predefined "int")) 2,
        .tuple [.named none [⟨"B", []⟩], .array (.pointer (.named none [⟨"C", []⟩])) 1]]⟩])) := by
    have hidentifiers : ∀ name ∈ ["global", "A", "Map", "B", "C"], IsIdentifier name := by
      decide +kernel
    have hkeyword : "int" ∈ predefinedKeywords := by decide
    simpa [TypeExpr.Writable, TypeExpr.SegmentsWritable, TypeExpr.SegmentWritable,
      TypeExpr.AllWritable, TypeExpr.IsNullable, hkeyword] using hidentifiers
  have hdisplay : TypeExpr.display (.nullable (.named (some "global") [⟨"A", []⟩, ⟨"Map",
      [.array (.nullable (.predefined "int")) 2,
        .tuple [.named none [⟨"B", []⟩], .array (.pointer (.named none [⟨"C", []⟩])) 1]]⟩]))
      = "global::A.Map<int?[,], (B, C*[])>?" := by
    decide +kernel
  obtain ⟨ls, c, hok, hparse, hrest, hself⟩ := typeExpr_display _ hwritable
  rw [hdisplay] at hok hparse hrest
  rw [hself (by simp [TypeExpr.identifiers, TypeExpr.segmentIdentifiers, TypeExpr.allIdentifiers,
    IsMarked])] at hparse
  exact ⟨ls, c, hok, hparse, hrest⟩

/-- A name that starts with `@` is not read again as it is. -/
theorem typeExpr_display_marked :
    (TypeExpr.named none [⟨"@x", []⟩]).Writable
      ∧ ¬ ∃ ls c, lexemes (TypeExpr.named none [⟨"@x", []⟩]).display = .ok ls
        ∧ Parser.typeExpr (Cursor.top (TypeExpr.named none [⟨"@x", []⟩]).display ls)
          = .ok (.named none [⟨"@x", []⟩], c)
        ∧ c.rest = [endLexeme (TypeExpr.named none [⟨"@x", []⟩]).display] := by
  have hidentifier : IsIdentifier "@x" := by decide +kernel
  have hdisplay : (TypeExpr.named none [⟨"@x", []⟩]).display = "@x" := by decide +kernel
  refine ⟨?_, ?_⟩
  · simp [TypeExpr.Writable, TypeExpr.SegmentsWritable, TypeExpr.SegmentWritable,
      TypeExpr.AllWritable, hidentifier]
  · rintro ⟨ls, c, hok, hparse, -⟩
    rw [hdisplay] at hok hparse
    cases hidentifier.symm.trans hok
    have hplain : Parser.typeExpr (Cursor.top "@x"
        [⟨.identifier, "@x", ⟨0, "@x".utf8ByteSize⟩⟩, endLexeme "@x"])
        = .ok (.named none [⟨"x", []⟩], ⟨"@x", [endLexeme "@x"], 2⟩) := rfl
    rw [hplain] at hparse
    simp at hparse

end ClrListing.Syntax
