/-
Two texts with the same lexemes, read side by side.

What stands between the lexemes of a text, blanks, comments and
directives, is no lexeme itself, so two texts that differ only there have
the same lexemes in other places (`Respaced`). A parser that sees lexemes
alone goes the same way in both: it stops before the same lexeme, gives
what the other gives, or fails with the same code (`Alongside`). `Uniform`
says so of parsers whose results hold no places; like `Advances` it is a
class, with instances that follow how parsers are put together. What the
other parsers give is the same once places are forgotten.
-/
import ClrListing.Proofs.Syntax.Parts
import ClrListing.Proofs.Syntax.Runs
import Mathlib.Data.List.Forall2

namespace ClrListing.Syntax

open Source

-- ============================================================= readings

/-- Lexemes that are the same, but for where they stand. -/
inductive SameReadings : List Lexeme → List Lexeme → Prop where
  | nil : SameReadings [] []
  | cons {l l' : Lexeme} {ls ls' : List Lexeme} (hkind : l.kind = l'.kind)
    (htext : l.text = l'.text) (h : SameReadings ls ls') : SameReadings (l :: ls) (l' :: ls')

/-- What a lexeme is and how it is written, wherever it stands. -/
def reading (l : Lexeme) : LexemeKind × String := (l.kind, l.text)

namespace SameReadings

variable {ls ls' : List Lexeme}

theorem of_map (h : ls.map reading = ls'.map reading) : SameReadings ls ls' := by
  induction ls generalizing ls' with
  | nil =>
    rw [List.map_nil, eq_comm, List.map_eq_nil_iff] at h
    rw [h]
    exact .nil
  | cons l ls ih =>
    obtain ⟨l', rest, rfl, hl, hrest⟩ := List.map_eq_cons_iff.mp h.symm
    obtain ⟨hkind, htext⟩ := Prod.mk.inj hl
    exact .cons hkind.symm htext.symm (ih hrest.symm)

theorem length_eq (h : SameReadings ls ls') : ls.length = ls'.length := by
  induction h with
  | nil => rfl
  | cons _ _ _ ih => rw [List.length_cons, List.length_cons, ih]

theorem drop (h : SameReadings ls ls') (k : Nat) : SameReadings (ls.drop k) (ls'.drop k) := by
  induction h generalizing k with
  | nil => simpa using .nil
  | cons hkind htext h ih =>
    cases k with
    | zero => exact .cons hkind htext h
    | succ k => exact ih k

/-- The lexemes at one number are both missing, or the same. -/
theorem getElem? (h : SameReadings ls ls') (k : Nat) :
    ls[k]?.map reading = ls'[k]?.map reading := by
  induction h generalizing k with
  | nil => rfl
  | cons hkind htext _ ih =>
    cases k with
    | zero => exact congrArg some (Prod.ext hkind htext)
    | succ k => exact ih k

end SameReadings

/-- Two texts with the same lexemes, but for where they stand. -/
structure Respaced where
  left : Lexed
  right : Lexed
  same : SameReadings left.lexemes right.lexemes

namespace Lexed

/-- The cursor before the lexeme number `k`. -/
def cursorAt (t : Lexed) (k : Nat) : Cursor :=
  ⟨t.source, t.lexemes.drop k, endOf 0 (t.lexemes.take k)⟩

theorem kindAt_cursorAt (t : Lexed) (k j : Nat) :
    (t.cursorAt k).kindAt j = (t.lexemes[k + j]?.map Lexeme.kind).getD .endOfText := by
  unfold cursorAt Cursor.kindAt
  rw [List.getElem?_drop]

/-- A cursor that stands before a lexeme other than the end moves on to
the next. -/
theorem next_cursorAt (t : Lexed) (k : Nat) :
    (t.cursorAt k).next
      = t.cursorAt (if (t.cursorAt k).kindAt 0 = .endOfText then k else k + 1) := by
  rw [kindAt_cursorAt, Nat.add_zero]
  cases h : t.lexemes[k]? with
  | none =>
    have hdrop : t.lexemes.drop k = [] :=
      List.drop_eq_nil_of_le (List.getElem?_eq_none_iff.mp h)
    have hend : ((none : Option Lexeme).map Lexeme.kind).getD .endOfText = .endOfText := rfl
    rw [if_pos hend]
    unfold cursorAt Cursor.next
    simp only [hdrop]
  | some l =>
    obtain ⟨hlt, hl⟩ := List.getElem?_eq_some_iff.mp h
    have hdrop : t.lexemes.drop k = l :: t.lexemes.drop (k + 1) := by
      rw [List.drop_eq_getElem_cons hlt, hl]
    have htake : t.lexemes.take (k + 1) = t.lexemes.take k ++ [l] := by
      rw [List.take_add_one, h]
      rfl
    unfold Cursor.next
    simp only [Option.map_some, Option.getD_some]
    split
    · next m rest hrest =>
      cases hdrop.symm.trans hrest
      split
      · rfl
      · unfold cursorAt
        rw [htake, endOf_append]
        rfl
    · next hrest => cases hdrop.symm.trans hrest

end Lexed

namespace Respaced

/-- Whether two cursors stand before the same lexeme, each in its text. -/
def Beside (x : Respaced) (c c' : Cursor) : Prop :=
  ∃ k, c = x.left.cursorAt k ∧ c' = x.right.cursorAt k

namespace Beside

variable {x : Respaced} {c c' : Cursor}

theorem rest (h : x.Beside c c') : SameReadings c.rest c'.rest := by
  obtain ⟨k, rfl, rfl⟩ := h
  exact x.same.drop k

theorem kindAt (h : x.Beside c c') (k : Nat) : c.kindAt k = c'.kindAt k := by
  have hreading := congrArg (Option.map Prod.fst) (h.rest.getElem? k)
  rw [Option.map_map, Option.map_map] at hreading
  exact congrArg (Option.getD · .endOfText) hreading

theorem textAt (h : x.Beside c c') (k : Nat) : c.textAt k = c'.textAt k := by
  have hreading := congrArg (Option.map Prod.snd) (h.rest.getElem? k)
  rw [Option.map_map, Option.map_map] at hreading
  exact congrArg (Option.getD · "") hreading

theorem next (h : x.Beside c c') : x.Beside c.next c'.next := by
  have hkind := h.kindAt 0
  obtain ⟨k, rfl, rfl⟩ := h
  rw [Lexed.next_cursorAt, Lexed.next_cursorAt, hkind]
  exact ⟨_, rfl, rfl⟩

theorem skip (h : x.Beside c c') (n : Nat) : x.Beside (c.skip n) (c'.skip n) := by
  induction n generalizing c c' with
  | zero => exact h
  | succ n ih => exact ih h.next

end Beside

end Respaced

-- ============================================================ measuring

section Measures

variable {ls ls' : List Lexeme} (h : SameReadings ls ls')
include h

theorem SameReadings.balancedLength? (opening closing : LexemeKind) (depth : Nat) :
    balancedLength? opening closing depth ls = balancedLength? opening closing depth ls' := by
  induction h generalizing depth with
  | nil => rfl
  | cons hkind _ _ ih =>
    unfold Syntax.balancedLength?
    simp only [hkind, ih]

theorem SameReadings.typeArgumentsLength? (depth : Nat) :
    typeArgumentsLength? depth ls = typeArgumentsLength? depth ls' := by
  induction h generalizing depth with
  | nil => rfl
  | cons hkind _ _ ih =>
    unfold Syntax.typeArgumentsLength?
    simp only [hkind, ih]

theorem SameReadings.scanUntil (stops : List LexemeKind) (inside depth : Nat) :
    scanUntil stops inside depth ls = scanUntil stops inside depth ls' := by
  induction h generalizing inside depth with
  | nil => simp only [Syntax.scanUntil]
  | cons hkind _ hrest ih =>
    cases inside with
    | zero =>
      unfold Syntax.scanUntil
      simp only [hkind, ih, hrest.typeArgumentsLength?]
    | succ inside =>
      unfold Syntax.scanUntil
      simp only [ih]

theorem SameReadings.constraintsLength? (depth : Nat) :
    constraintsLength? depth ls = constraintsLength? depth ls' := by
  induction h generalizing depth with
  | nil => rfl
  | cons hkind _ _ ih =>
    unfold Syntax.constraintsLength?
    simp only [hkind, ih]

theorem SameReadings.memberFollows : memberFollows ls = memberFollows ls' := by
  cases h with
  | nil => rfl
  | @cons l l' rest rest' hkind _ hrest =>
    have hhead : rest.head?.map Lexeme.kind = rest'.head?.map Lexeme.kind := by
      cases hrest with
      | nil => rfl
      | cons hkind _ _ => exact congrArg some hkind
    simp only [Syntax.memberFollows, hkind, hhead]

theorem SameReadings.afterAngles? (depth : Nat) :
    Syntax.afterAngles? depth ls = none ∧ Syntax.afterAngles? depth ls' = none
      ∨ ∃ rest rest', Syntax.afterAngles? depth ls = some rest
        ∧ Syntax.afterAngles? depth ls' = some rest' ∧ SameReadings rest rest' := by
  induction h generalizing depth with
  | nil => exact .inl ⟨rfl, rfl⟩
  | @cons l l' rest rest' hkind _ hrest ih =>
    simp only [Syntax.afterAngles?, hkind]
    split
    · exact ih _
    · split
      · exact .inr ⟨rest, rest', rfl, rfl, hrest⟩
      · exact ih _
    · exact .inl ⟨rfl, rfl⟩
    · exact .inl ⟨rfl, rfl⟩
    · exact .inl ⟨rfl, rfl⟩
    · exact ih _

theorem SameReadings.continuesTypeName : continuesTypeName ls = continuesTypeName ls' := by
  have hdrop := h.drop 2
  unfold Syntax.continuesTypeName
  generalize ls.drop 2 = ahead at hdrop
  generalize ls'.drop 2 = ahead' at hdrop
  cases hdrop with
  | nil => rfl
  | @cons l l' rest rest' hkind htext hrest =>
    simp only [hkind, (hrest.cons hkind htext).memberFollows]
    rcases hrest.afterAngles? 1 with ⟨hleft, hright⟩ | ⟨_, _, hleft, hright, hafter⟩
    · rw [hleft, hright]
    · rw [hleft, hright]
      simp only [hafter.memberFollows]

theorem SameReadings.operatorSpelling (spelling : String) :
    Parser.operatorSpelling spelling ls = Parser.operatorSpelling spelling ls' := by
  induction h generalizing spelling with
  | nil => rfl
  | cons hkind htext _ ih =>
    unfold Parser.operatorSpelling
    simp only [hkind, htext, ih]

end Measures

-- ============================================================ side by side

/-- The code of the complaint that a failure is. -/
def Failure.code? : Failure → Option String
  | .complaint d => some d.code
  | .exhausted => none

/-- Whether two outcomes are related results, or failures with one
code. -/
def Agree (R : α → β → Prop) : Except Failure α → Except Failure β → Prop
  | .ok a, .ok b => R a b
  | .error e, .error e' => e.code? = e'.code?
  | _, _ => False

namespace Parser

/-- Whether two parsers, each in its text, go the same way from one lexeme
on and give related results. -/
def Alongside (x : Respaced) (R : α → β → Prop) (p : Parser α) (q : Parser β) : Prop :=
  ∀ c c', x.Beside c c' → Agree (fun r r' => R r.1 r'.1 ∧ x.Beside r.2 r'.2) (p c) (q c')

namespace Alongside

variable {x : Respaced} {R : α → α → Prop} {S : β → β → Prop}
variable {p q : Parser α} {f g : α → Parser β}

theorem pure {a b : α} (h : R a b) : Alongside x R (pure a) (pure b) :=
  fun _ _ hbeside => ⟨h, hbeside⟩

theorem bind (hp : Alongside x R p q) (hf : ∀ a b, R a b → Alongside x S (f a) (g b)) :
    Alongside x S (p >>= f) (q >>= g) := by
  intro c c' hbeside
  have hrun : (p >>= f) c = (p c >>= fun r => f r.1 r.2) := rfl
  have hrun' : (q >>= g) c' = (q c' >>= fun r => g r.1 r.2) := rfl
  have hfirst := hp c c' hbeside
  rw [hrun, hrun']
  cases hpc : p c with
  | error e =>
    cases hqc : q c' with
    | error e' =>
      rw [hpc, hqc] at hfirst
      exact hfirst
    | ok r' =>
      rw [hpc, hqc] at hfirst
      exact hfirst.elim
  | ok r =>
    cases hqc : q c' with
    | error e' =>
      rw [hpc, hqc] at hfirst
      exact hfirst.elim
    | ok r' =>
      rw [hpc, hqc] at hfirst
      exact hf r.1 r'.1 hfirst.1 r.2 r'.2 hfirst.2

theorem mono {R' : α → α → Prop} (h : Alongside x R p q) (himp : ∀ a b, R a b → R' a b) :
    Alongside x R' p q := by
  intro c c' hbeside
  have hrun := h c c' hbeside
  revert hrun
  cases p c <;> cases q c'
  · exact id
  · exact id
  · exact id
  · exact fun hrun => ⟨himp _ _ hrun.1, hrun.2⟩

/-- What is the same is the same. -/
theorem ite {b : Prop} [Decidable b] {p' q' : Parser α} (hp : Alongside x R p q)
    (hq : Alongside x R p' q') : Alongside x R (if b then p else p') (if b then q else q') := by
  split
  · exact hp
  · exact hq

theorem fail (code message message' : String) :
    Alongside x R (fail code message) (fail code message') :=
  fun _ _ _ => rfl

theorem exhausted : Alongside x R exhausted exhausted := fun _ _ _ => rfl

theorem missing (k : LexemeKind) : Alongside x R (missing k) (missing k) := by
  unfold Parser.missing
  split <;> exact fail _ _ _

end Alongside

/-- A parser that gives the same in texts with the same lexemes. -/
class Uniform (p : Parser α) : Prop where
  alongside : ∀ x : Respaced, Alongside x Eq p p

-- a parser with many parts makes a large instance
set_option synthInstance.maxSize 1024

/-- After a part that gives the same in both texts. -/
theorem Alongside.after {x : Respaced} {S : β → β → Prop} {p : Parser α} [Uniform p]
    {f g : α → Parser β} (hf : ∀ a, Alongside x S (f a) (g a)) :
    Alongside x S (p >>= f) (p >>= g) :=
  (Uniform.alongside x).bind fun a _ hab => hab ▸ hf a

/-- After a part whose result does not matter. -/
theorem Alongside.past {x : Respaced} {S : β → β → Prop} {p : Parser α}
    (hp : Alongside x (fun _ _ => True) p p) {q q' : Parser β} (hq : Alongside x S q q') :
    Alongside x S (p >>= fun _ => q) (p >>= fun _ => q') :=
  hp.bind fun _ _ _ => hq

/-- What looks ahead does so beside the same lexeme. -/
theorem Alongside.get {x : Respaced} {S : β → β → Prop} {f g : Cursor → Parser β}
    (hf : ∀ c c', x.Beside c c' → Alongside x S (f c) (g c')) :
    Alongside x S (get >>= f) (get >>= g) :=
  fun c c' hbeside => hf c c' hbeside c c' hbeside

namespace Uniform

instance (a : α) : Uniform (pure a : Parser α) where
  alongside _ := .pure rfl

instance (p : Parser α) (f : α → Parser β) [Uniform p] [∀ a, Uniform (f a)] :
    Uniform (p >>= f) where
  alongside x := .after fun _ => alongside x

/-- For the ends of a sequence that instances cannot see, such as those of
a match. -/
theorem after {p : Parser α} {f : α → Parser β} [Uniform p] (h : ∀ a, Uniform (f a)) :
    Uniform (p >>= f) := inferInstance

theorem past {p : Parser α} {q : Parser β}
    (hp : ∀ x, Alongside x (fun _ _ => True) p p) [Uniform q] : Uniform (p >>= fun _ => q) where
  alongside x := (hp x).past (alongside x)

instance (b : Prop) [Decidable b] (p q : Parser α) [Uniform p] [Uniform q] :
    Uniform (if b then p else q) := by
  split <;> infer_instance

instance (code message : String) : Uniform (fail code message : Parser α) where
  alongside _ := .fail _ _ _

instance : Uniform (exhausted : Parser α) where
  alongside _ := .exhausted

instance : Uniform advance where
  alongside _ _ _ hbeside := ⟨rfl, hbeside.next⟩

instance (n : Nat) : Uniform (advanceBy n) where
  alongside _ _ _ hbeside := ⟨rfl, hbeside.skip n⟩

-- ========================================================= single steps

instance (k : Nat) : Uniform (kindAt k) where
  alongside _ _ _ hbeside := ⟨hbeside.kindAt k, hbeside⟩

instance : Uniform text where
  alongside _ _ _ hbeside := ⟨hbeside.textAt 0, hbeside⟩

instance : Uniform kind := by unfold kind; infer_instance
instance (k : LexemeKind) : Uniform (atKind k) := by unfold atKind; infer_instance
instance (word : String) : Uniform (atWord word) := by unfold atWord; infer_instance
instance (k : LexemeKind) : Uniform (eat k) := by unfold eat; infer_instance

instance (k : LexemeKind) : Uniform (missing k : Parser α) where
  alongside _ := .missing k

instance (k : LexemeKind) : Uniform (expect k) := by unfold expect; infer_instance
instance : Uniform identifier := by unfold identifier; infer_instance

-- ========================================================== repetition

instance (turn : Parser (Turn α)) [Uniform turn] (bound : Nat) :
    Uniform (collectWithin turn bound) := by
  induction bound with
  | zero => unfold collectWithin; infer_instance
  | succ bound ih =>
    unfold collectWithin
    refine .after fun t => ?_
    cases t <;> infer_instance

instance (turn : Parser (Turn α)) [Uniform turn] : Uniform (collect turn) where
  alongside x := by
    unfold collect
    refine .get fun c c' hbeside => ?_
    rw [hbeside.rest.length_eq]
    exact alongside x

instance (item : Parser α) [Uniform item] : Uniform (separated item) := by
  unfold separated; infer_instance

-- ============================================================ skipping

instance : Uniform toEnd where
  alongside x := by
    unfold toEnd
    refine .get fun c c' hbeside => ?_
    rw [hbeside.rest.length_eq]
    exact alongside x

instance (stops : List LexemeKind) : Uniform (skipUntil stops) where
  alongside x := by
    unfold skipUntil
    refine .get fun c c' hbeside => ?_
    rw [hbeside.rest.scanUntil]
    refine .after fun _ => ?_
    split <;> exact alongside x

end Uniform

/-- Where the next lexeme starts, in each text. -/
theorem Alongside.start (x : Respaced) :
    Alongside x (fun from_ from' =>
      ∃ k, from_ = (x.left.cursorAt k).start ∧ from' = (x.right.cursorAt k).start) start start := by
  intro c c' hbeside
  obtain ⟨k, hc, hc'⟩ := id hbeside
  exact ⟨⟨k, by rw [hc], by rw [hc']⟩, hbeside⟩

/-- Spans end behind the same lexeme, in each text. -/
theorem Alongside.spanFrom (x : Respaced) (from_ from' : Nat) :
    Alongside x (fun span span' => span.start = from_ ∧ span'.start = from'
      ∧ ∃ k, span.stop = (x.left.cursorAt k).lastEnd ∧ span'.stop = (x.right.cursorAt k).lastEnd)
      (spanFrom from_) (spanFrom from') := by
  intro c c' hbeside
  obtain ⟨k, hc, hc'⟩ := id hbeside
  exact ⟨⟨rfl, rfl, k, by rw [hc], by rw [hc']⟩, hbeside⟩

/-- Brackets are skipped alike; where they stand does not matter. -/
theorem Alongside.skipBalanced (x : Respaced) (opening closing : LexemeKind) :
    Alongside x (fun _ _ => True) (skipBalanced opening closing)
      (skipBalanced opening closing) := by
  unfold Parser.skipBalanced
  refine .bind (.start x) fun a b _ => .after fun _ => .get fun c c' hbeside => ?_
  rw [hbeside.rest.balancedLength?]
  split
  · exact .after fun _ => (Alongside.spanFrom x a b).mono fun _ _ _ => trivial
  · exact .after fun _ => .missing _

namespace Uniform

instance (opening closing : LexemeKind) (p : Parser α) [Uniform p] :
    Uniform (skipBalanced opening closing >>= fun _ => p) where
  alongside x := .past (.skipBalanced x opening closing) (alongside x)

instance : Uniform skipAttributes := by unfold skipAttributes; infer_instance

instance : Uniform skipConstraints := by
  have hclauses : Uniform (get >>= fun c => match constraintsLength? 0 c.rest with
      | some n => advanceBy n
      | none => do
        toEnd
        fail "CS1514" "\x7b expected" : Parser Unit) :=
    ⟨fun x => .get fun c c' hbeside => by
      rw [hbeside.rest.constraintsLength?]
      split <;> exact alongside x⟩
  unfold skipConstraints
  refine .after fun w => ?_
  split
  · exact hclauses
  · infer_instance

-- ============================================================== types

instance : Uniform typeSuffix := by
  unfold typeSuffix
  refine .after fun k => ?_
  split <;> infer_instance

instance (argument : Parser TypeExpr) [Uniform argument] :
    Uniform (typeArgumentsOf argument) := by
  unfold typeArgumentsOf; infer_instance

instance (argument : Parser TypeExpr) [Uniform argument] : Uniform (nameSegment argument) := by
  unfold nameSegment; infer_instance

instance : Uniform typeAlias := by unfold typeAlias; infer_instance

instance (bound : Nat) (inHeader : Bool) : Uniform (typeExprWithin bound inHeader) := by
  induction bound generalizing inHeader with
  | zero => unfold typeExprWithin; infer_instance
  | succ bound ih =>
    -- whether a dotted name goes on is seen in the lexemes ahead
    have hsegment : Uniform (do
        let segment ← nameSegment (typeExprWithin bound false)
        let dotted := (← atKind .dot) && (← kindAt 1) = .identifier
        if dotted && (!inHeader || continuesTypeName (← get).rest) then
          advance
          return .item segment
        else
          return .last segment : Parser (Turn NameSegment)) := by
      refine .after fun segment => .after fun dot => .after fun follows => ⟨fun x => ?_⟩
      refine .get fun c c' hbeside => ?_
      rw [hbeside.rest.continuesTypeName]
      exact alongside x
    unfold typeExprWithin
    refine .after fun k => ?_
    split <;> infer_instance

instance (inHeader : Bool) : Uniform (typeExprIn inHeader) where
  alongside x := by
    unfold typeExprIn
    refine .get fun c c' hbeside => ?_
    rw [hbeside.rest.length_eq]
    exact alongside x

instance : Uniform typeExpr := by unfold typeExpr; infer_instance
instance : Uniform headerType := by unfold headerType; infer_instance
instance : Uniform typeArguments := by unfold typeArguments; infer_instance

-- ============================================================= members

instance : Uniform modifierHere := by
  unfold modifierHere
  refine .after fun spelling => .after fun k => ?_
  split <;> infer_instance

instance : Uniform modifiers := by
  have hturn : Uniform (do
      match ← modifierHere with
      | some set => do
        advance
        return .item set
      | none => return .done : Parser (Turn Modifiers)) := by
    refine .after fun found => ?_
    split <;> infer_instance
  unfold modifiers
  infer_instance

instance : Uniform passingHere := by
  unfold passingHere
  refine .after fun k => ?_
  split
  · refine .after fun spelling => ?_
    split <;> infer_instance
  · infer_instance
  · infer_instance

instance (word : String) : Uniform (eatModifier word) := by unfold eatModifier; infer_instance

instance (closing : LexemeKind) : Uniform (parameter closing) := by
  unfold parameter; dsimp only; infer_instance

instance (opening closing : LexemeKind) : Uniform (parameters opening closing) := by
  unfold parameters; infer_instance

instance : Uniform typeParameter := by unfold typeParameter; dsimp only; infer_instance
instance : Uniform typeParameters := by unfold typeParameters; infer_instance

instance (name : String) : Uniform (variableAfter name) := by
  unfold variableAfter
  dsimp only
  infer_instance

instance (first : String) : Uniform (declarators first) := by unfold declarators; infer_instance

instance : Uniform chaining := by
  unfold chaining
  refine .after fun colon => ?_
  split
  · refine .after fun k => ?_
    split <;> infer_instance
  · infer_instance

instance : Uniform eventSegment := by unfold eventSegment; infer_instance
instance : Uniform memberSegments := by unfold memberSegments; infer_instance
instance : Uniform enumerators := by unfold enumerators; dsimp only; infer_instance
instance : Uniform qualifiedName := by unfold qualifiedName; infer_instance

instance : Uniform aliases := by
  have hturn : Uniform (do
      if (← kind) = .kwExtern && (← kindAt 1) = .identifier && (← get).textAt 1 = "alias" then
        advance
        advance
        let name ← identifier
        expect .semicolon
        return .item name
      else
        return .done : Parser (Turn String)) := by
    refine .after fun k => .after fun follows => ⟨fun x => .get fun c c' hbeside => ?_⟩
    rw [hbeside.textAt]
    exact alongside x
  unfold aliases
  infer_instance

end Uniform

end Parser

end ClrListing.Syntax
