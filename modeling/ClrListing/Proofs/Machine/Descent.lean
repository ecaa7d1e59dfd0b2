/-
Parsing by places.

The parser holds the lexemes of a text, of which the last is its end, and the
place of the next one. It comes to a fault where it would go past the last
lexeme, where the depth of a scan would fall below zero, where a turn of a
loop goes past no lexeme but another turn follows it, where a level of a
recursion begins at the place where the level above it began, and where there
are more turns or levels than there are lexemes. What only looks ahead looks
at lexemes that are there. Only `advance` changes the place.

The parser of cursors measures what it skips and bounds what it repeats, so
that it cannot but end. `Accords` says that the parser of places does the same
from every place on: it gives the same and stops before the same lexeme, or
complains of the same, and never faults. It also says for which results a
lexeme must have been gone past: for a turn of a loop, those that another turn
follows (`GoesOn`); for an item of a loop, and for what reaches a level further
down, all (`Always`); for what only looks ahead or may be absent, none
(`Never`). This follows from the parts of a parser, and instances find most of
it.
-/
import ClrListing.Proofs.Machine.Word
import ClrListing.Proofs.Syntax.Runs

namespace ClrListing.Machine

open Source Syntax

-- ============================================================== places

/-- The lexemes of a text, the last of which is its end. -/
structure Tokens where
  source : String
  lexemes : List Lexeme
  ended : lexemes.getLast?.map Lexeme.kind = some .endOfText

/-- A parser that knows the place of the next lexeme. -/
abbrev Descent := ReaderT Tokens (StateT Nat Machine)

namespace Descent

variable {α β σ : Type}

/-- What is computed where the parser stands. -/
def compute (x : Machine α) : Descent α := fun _ place => do return (← x, place)

/-- Stops at a step that cannot be carried out. -/
def halt (f : Fault) : Descent α := compute (fault f)

/-- The place of the next lexeme. -/
def place : Descent Nat := fun _ place => pure (place, place)

/-- The lexeme `k` places ahead. -/
def peek (k : Nat) : Descent Lexeme := fun t place => do return (← index t.lexemes (place + k), place)

/-- The next lexeme. -/
def here : Descent Lexeme := peek 0

/-- The kind of the lexeme `k` places ahead; the end goes on. -/
def kindAt (k : Nat) : Descent LexemeKind := fun t place =>
  pure ((t.lexemes[place + k]?.map Lexeme.kind).getD .endOfText, place)

/-- The spelling of the lexeme `k` places ahead. -/
def textAt (k : Nat) : Descent String := fun t place =>
  pure ((t.lexemes[place + k]?.map Lexeme.text).getD "", place)

/-- The kind of the next lexeme. -/
def kind : Descent LexemeKind := kindAt 0

/-- The spelling of the next lexeme. -/
def text : Descent String := do return (← here).text

/-- Where the next lexeme starts. -/
def start : Descent Nat := do return (← here).span.start

/-- Where the last lexeme behind ends, zero at the top. -/
def lastEnd : Descent Nat := fun t place =>
  pure ((((checkedSub place 1).bind fun i => t.lexemes[i]?).map fun l => l.span.stop).getD 0, place)

/-- The span from `start` to the end of the last lexeme behind. -/
def spanFrom (start : Nat) : Descent Span := do return ⟨start, ← lastEnd⟩

/-- Goes past the next lexeme, unless that is the end. -/
def advance : Descent Unit := fun t place => do
  let l ← index t.lexemes place
  if l.kind = .endOfText then return ((), place)
  else if place + 1 < t.lexemes.length then return ((), place + 1)
  else fault .outOfRange

/-- Stops with a complaint about the next lexeme. -/
def fail (code message : String) : Descent α := fun t place => do
  let l ← index t.lexemes place
  Machine.fail (.syntaxErrors [(Diagnostic.error code message).located
    (Location.ofOffset t.source l.span.start)])

/-- Whether the next lexeme is a `k`. -/
def atKind (k : LexemeKind) : Descent Bool := do return (← kind) = k

/-- Whether the next lexeme is the identifier `word`. -/
def atWord (word : String) : Descent Bool := do
  return (← kind) = .identifier && (← text) = word

/-- Goes past the next lexeme if it is a `k`; says whether it was. -/
def eat (k : LexemeKind) : Descent Bool := do
  if ← atKind k then
    advance
    return true
  else
    return false

/-- Stops because a `k` is missing. -/
def missing (k : LexemeKind) : Descent α :=
  match k with
  | .semicolon => fail "CS1002" "; expected"
  | .rbrace => fail "CS1513" "\x7d expected"
  | .lbrace => fail "CS1514" "\x7b expected"
  | .rparen => fail "CS1026" ") expected"
  | .identifier => fail "CS1001" "Identifier expected"
  | _ => fail "CS1003" ("Syntax error, '" ++ Parser.describe k ++ "' expected")

/-- Goes past the next lexeme, which must be a `k`. -/
def expect (k : LexemeKind) : Descent Unit := do
  if ← atKind k then advance else missing k

/-- An identifier. -/
def identifier : Descent String := do
  if ← atKind .identifier then
    let spelling ← text
    advance
    return Parser.nameOf spelling
  else
    missing .identifier

-- ============================================================ turns

/-- Repeats a step on a state until it gives a result, for at most so many
turns. A turn that another one follows has to go past a lexeme. -/
def loop (step : σ → Descent (σ ⊕ α)) : (turns : Nat) → σ → Descent α
  | 0, _ => halt .endless
  | turns + 1, s => do
    let from_ ← place
    match ← step s with
    | .inl s => if from_ < (← place) then loop step turns s else halt .endless
    | .inr a => return a

/-- Repeats a step for at most as many turns as there are lexemes. -/
def repeated (step : σ → Descent (σ ⊕ α)) (s : σ) : Descent α := do
  loop step (← read).lexemes.length s

/-- A turn behind some items. -/
def collecting (turn : Descent (Parser.Turn α)) (items : List α) :
    Descent (List α ⊕ List α) := do
  match ← turn with
  | .item a => return .inl (items ++ [a])
  | .last a => return .inr (items ++ [a])
  | .done => return .inr items

/-- The items of a repeated turn. -/
def collect (turn : Descent (Parser.Turn α)) : Descent (List α) := repeated (collecting turn) []

/-- One or more items with commas between them. -/
def separated (item : Descent α) : Descent (List α) :=
  collect do
    let a ← item
    if ← eat .comma then return .item a else return .last a

/-- Goes a level down from a level that began at a place. -/
def below (from_ : Nat) (p : Descent α) : Descent α := do
  if from_ < (← place) then p else halt .endless

variable {t : Tokens} {k k' : Nat}

theorem bind_eq {d : Descent α} {f : α → Descent β} {a : α} (h : d t k = .ok (a, k')) :
    (d >>= f) t k = f a t k' := by
  have hrun : (d >>= f) t k = d t k >>= fun r => f r.1 t r.2 := rfl
  rw [hrun, h]
  rfl

theorem read_bind {f : Tokens → Descent α} : (read >>= f) t k = f t t k := rfl

theorem peek_eq {j : Nat} {l : Lexeme} (hl : t.lexemes[k + j]? = some l) :
    peek j t k = .ok (l, k) := by
  unfold peek
  rw [index_eq hl]
  rfl

theorem text_eq {l : Lexeme} (hl : t.lexemes[k]? = some l) : text t k = .ok (l.text, k) :=
  bind_eq (peek_eq hl)

theorem start_eq {l : Lexeme} (hl : t.lexemes[k]? = some l) : start t k = .ok (l.span.start, k) :=
  bind_eq (peek_eq hl)

end Descent

-- =========================================================== following

namespace Tokens

variable (t : Tokens) {k : Nat}

/-- The cursor before the lexeme at a place. -/
def cursorAt (k : Nat) : Syntax.Cursor :=
  ⟨t.source, t.lexemes.drop k, endOf 0 (t.lexemes.take k)⟩

theorem length_pos : 0 < t.lexemes.length := by
  refine List.length_pos_iff.mpr fun hnil => ?_
  have hended := t.ended
  rw [hnil] at hended
  cases hended

theorem length_le_rest (k : Nat) : t.lexemes.length ≤ (t.cursorAt k).rest.length + 1 + k := by
  show _ ≤ (t.lexemes.drop k).length + 1 + k
  rw [List.length_drop]
  omega

theorem kindAt_cursorAt (k j : Nat) :
    (t.cursorAt k).kindAt j = (t.lexemes[k + j]?.map Lexeme.kind).getD .endOfText := by
  rw [cursorAt, Cursor.kindAt, List.getElem?_drop]

theorem textAt_cursorAt (k j : Nat) :
    (t.cursorAt k).textAt j = (t.lexemes[k + j]?.map Lexeme.text).getD "" := by
  rw [cursorAt, Cursor.textAt, List.getElem?_drop]

theorem exists_lexeme {k : Nat} (hk : k < t.lexemes.length) : ∃ l, t.lexemes[k]? = some l :=
  ⟨t.lexemes[k], List.getElem?_eq_getElem hk⟩

theorem rest_cursorAt {l : Lexeme} (hl : t.lexemes[k]? = some l) :
    (t.cursorAt k).rest = l :: (t.cursorAt (k + 1)).rest := by
  obtain ⟨hk, rfl⟩ := List.getElem?_eq_some_iff.mp hl
  exact List.drop_eq_getElem_cons hk

/-- Behind a lexeme there is another one, unless it is the end. -/
theorem succ_lt {l : Lexeme} (hl : t.lexemes[k]? = some l) (hkind : l.kind ≠ .endOfText) :
    k + 1 < t.lexemes.length := by
  obtain ⟨hk, rfl⟩ := List.getElem?_eq_some_iff.mp hl
  refine Nat.lt_of_not_le fun hlast => ?_
  have hended := t.ended
  rw [List.getLast?_eq_getElem?, show t.lexemes.length - 1 = k by omega,
    List.getElem?_eq_getElem hk] at hended
  exact hkind (Option.some.inj hended)

theorem kindAt_zero {l : Lexeme} (hl : t.lexemes[k]? = some l) :
    (t.cursorAt k).kindAt 0 = l.kind := by
  rw [kindAt_cursorAt, Nat.add_zero, hl]
  rfl

/-- What a kind other than that of the end is found of is there. -/
theorem exists_of_kindAt {j : Nat} {kind : LexemeKind} (h : (t.cursorAt k).kindAt j = kind)
    (hkind : kind ≠ .endOfText) : ∃ l, t.lexemes[k + j]? = some l ∧ l.kind = kind := by
  rw [kindAt_cursorAt] at h
  cases hl : t.lexemes[k + j]? with
  | none =>
    rw [hl] at h
    exact absurd h.symm hkind
  | some l =>
    rw [hl] at h
    exact ⟨l, rfl, h⟩

/-- At a place there is a lexeme of a kind. -/
def At (k : Nat) (kind : LexemeKind) : Prop := ∃ l, t.lexemes[k]? = some l ∧ l.kind = kind

/-- A cursor past so many lexemes is before the lexeme so many places on. -/
theorem eq_cursorAt_of_past {c : Syntax.Cursor} {run : List Lexeme}
    (h : (t.cursorAt k).Past run c) : c = t.cursorAt (k + run.length) := by
  have hdrop : t.lexemes.drop k = run ++ c.rest := h.rest
  have hrest : c.rest = t.lexemes.drop (k + run.length) := by
    rw [← List.drop_drop, hdrop, List.drop_left]
  have htake : t.lexemes.take (k + run.length) = t.lexemes.take k ++ run := by
    rw [List.take_add, hdrop, List.take_left]
  have hend : c.lastEnd = endOf 0 (t.lexemes.take (k + run.length)) := by
    rw [h.lastEnd, htake, endOf_append]
    rfl
  obtain ⟨source, rest, lastEnd⟩ := c
  obtain rfl : source = t.source := h.source
  obtain rfl := hrest
  obtain rfl := hend
  rfl

/-- Behind a lexeme other than the end, the cursor is before the next one. -/
theorem next_cursorAt {l : Lexeme} (hl : t.lexemes[k]? = some l) (hkind : l.kind ≠ .endOfText) :
    (t.cursorAt k).next = t.cursorAt (k + 1) :=
  t.eq_cursorAt_of_past (Cursor.past_next_of_cons (t.rest_cursorAt hl) hkind).1

theorem next_cursorAt_end {l : Lexeme} (hl : t.lexemes[k]? = some l) (hkind : l.kind = .endOfText) :
    (t.cursorAt k).next = t.cursorAt k := by
  rw [Cursor.next, t.rest_cursorAt hl]
  exact if_pos hkind

/-- Both parsers fail with the same complaint, whatever they were to give. -/
theorem complaint_of_fail (hk : k < t.lexemes.length) (code message : String) :
    ∃ d, (∀ {α : Type}, (Descent.fail code message : Descent α) t k
        = .error (.error (.syntaxErrors [d])))
      ∧ ∀ {β : Type}, (Parser.fail code message : Parser β) (t.cursorAt k)
        = .error (.complaint d) := by
  obtain ⟨l, hl⟩ := t.exists_lexeme hk
  have hstart : (t.cursorAt k).start = l.span.start := by
    rw [Cursor.start, t.rest_cursorAt hl]
  refine ⟨(Diagnostic.error code message).located (Location.ofOffset t.source l.span.start),
    fun {α} => ?_, fun {β} => ?_⟩
  · unfold Descent.fail
    rw [index_eq hl]
    rfl
  · unfold Parser.fail
    rw [hstart]
    rfl

theorem complaint_of_missing (hk : k < t.lexemes.length) (kind : LexemeKind) :
    ∃ d, (∀ {α : Type}, (Descent.missing kind : Descent α) t k
        = .error (.error (.syntaxErrors [d])))
      ∧ ∀ {β : Type}, (Parser.missing kind : Parser β) (t.cursorAt k)
        = .error (.complaint d) := by
  unfold Descent.missing Parser.missing
  cases kind <;> exact t.complaint_of_fail hk _ _

end Tokens

theorem get_bind {f : Syntax.Cursor → Parser α} (c : Syntax.Cursor) : (get >>= f) c = f c c := rfl

/-- What the parser of cursors gives, the parser of places gives from a place
on, and what it ends with is before a lexeme at or behind that place. -/
inductive Ran (t : Tokens) (k : Nat) (Q : α → Nat → Prop) :
    Except Failure (α × Syntax.Cursor) → Machine (α × Nat) → Prop
  | ok {a : α} {stop : Nat} (hle : k ≤ stop) (hlt : stop < t.lexemes.length) (h : Q a stop) :
    Ran t k Q (.ok (a, t.cursorAt stop)) (.ok (a, stop))
  | complaint (d : Diagnostic) :
    Ran t k Q (.error (.complaint d)) (.error (.error (.syntaxErrors [d])))

theorem Ran.mono {t : Tokens} {k k' : Nat} {Q Q' : α → Nat → Prop}
    {x : Except Failure (α × Syntax.Cursor)} {y : Machine (α × Nat)} (h : Ran t k' Q x y)
    (hle : k ≤ k') (himp : ∀ a stop, k' ≤ stop → Q a stop → Q' a stop) : Ran t k Q' x y := by
  cases h with
  | ok hle' hlt h => exact .ok (Nat.le_trans hle hle') hlt (himp _ _ hle' h)
  | complaint d => exact .complaint d

/-- Whether parsers go the same way from a place on. -/
def Tracks (t : Tokens) (k : Nat) (d : Descent α) (p : Parser α) (Q : α → Nat → Prop) : Prop :=
  Ran t k Q (p (t.cursorAt k)) (d t k)

namespace Tracks

variable {t : Tokens} {k : Nat} {d : Descent α} {p : Parser α} {f : α → Descent β}
  {g : α → Parser β} {Q Q' : α → Nat → Prop} {R : β → Nat → Prop}

theorem pure {a : α} (hk : k < t.lexemes.length) (h : Q a k) :
    Tracks t k (pure a) (pure a) Q :=
  .ok (Nat.le_refl k) hk h

theorem mono (h : Tracks t k d p Q) (himp : ∀ a stop, k ≤ stop → Q a stop → Q' a stop) :
    Tracks t k d p Q' :=
  Ran.mono h (Nat.le_refl k) himp

theorem bind (h : Tracks t k d p Q)
    (hf : ∀ a stop, k ≤ stop → stop < t.lexemes.length → Q a stop →
      Tracks t stop (f a) (g a) R) : Tracks t k (d >>= f) (p >>= g) R := by
  have hrun : (d >>= f) t k = (d t k >>= fun r => f r.1 t r.2) := rfl
  have hrun' : (p >>= g) (t.cursorAt k) = (p (t.cursorAt k) >>= fun r => g r.1 r.2) := rfl
  unfold Tracks at h ⊢
  rw [hrun, hrun']
  generalize p (t.cursorAt k) = x, d t k = y at h ⊢
  cases h with
  | complaint e => exact .complaint e
  | ok hle hlt h => exact Ran.mono (hf _ _ hle hlt h) hle fun _ _ _ => id

theorem ite {b : Prop} [Decidable b] {d' : Descent α} {p' : Parser α} (h : b → Tracks t k d p Q)
    (h' : ¬ b → Tracks t k d' p' Q) :
    Tracks t k (if b then d else d') (if b then p else p') Q := by
  split
  · next hb => exact h hb
  · next hb => exact h' hb

theorem fail (hk : k < t.lexemes.length) (code message : String) :
    Tracks t k (Descent.fail code message) (Parser.fail code message) Q := by
  obtain ⟨d, hd, hp⟩ := t.complaint_of_fail hk code message
  unfold Tracks
  rw [hd, hp]
  exact .complaint d

theorem missing (hk : k < t.lexemes.length) (kind : LexemeKind) :
    Tracks t k (Descent.missing kind) (Parser.missing kind) Q := by
  obtain ⟨d, hd, hp⟩ := t.complaint_of_missing hk kind
  unfold Tracks
  rw [hd, hp]
  exact .complaint d

/-- What looks ahead and stays where it is. -/
theorem look {a : α} (hk : k < t.lexemes.length) (hd : d t k = .ok (a, k))
    (hp : p (t.cursorAt k) = .ok (a, t.cursorAt k)) (h : Q a k) : Tracks t k d p Q := by
  unfold Tracks
  rw [hd, hp]
  exact .ok (Nat.le_refl k) hk h

/-- What depends on what is ahead. -/
theorem after_look {a : α} (hd : d t k = .ok (a, k))
    (hp : p (t.cursorAt k) = .ok (a, t.cursorAt k)) (h : Tracks t k (f a) (g a) R) :
    Tracks t k (d >>= f) (p >>= g) R := by
  have hrun : (p >>= g) (t.cursorAt k) = (p (t.cursorAt k) >>= fun r => g r.1 r.2) := rfl
  unfold Tracks
  rw [Descent.bind_eq hd, hrun, hp]
  exact h

theorem kindAt_eq (t : Tokens) (k j : Nat) :
    Descent.kindAt j t k = .ok ((t.cursorAt k).kindAt j, k) := by
  rw [t.kindAt_cursorAt]
  rfl

theorem text_eq {l : Lexeme} (hl : t.lexemes[k]? = some l) :
    Parser.text (t.cursorAt k) = .ok (l.text, t.cursorAt k) := by
  show Except.ok ((t.cursorAt k).textAt 0, t.cursorAt k) = _
  rw [t.textAt_cursorAt, Nat.add_zero, hl]
  rfl

theorem start_eq {l : Lexeme} (hl : t.lexemes[k]? = some l) :
    Parser.start (t.cursorAt k) = .ok (l.span.start, t.cursorAt k) := by
  show Except.ok ((t.cursorAt k).start, t.cursorAt k) = _
  rw [Cursor.start, t.rest_cursorAt hl]

/-- What is found out about the next lexeme. -/
theorem kind {f : LexemeKind → Descent β} {g : LexemeKind → Parser β} {l : Lexeme}
    (hl : t.lexemes[k]? = some l) (h : Tracks t k (f l.kind) (g l.kind) R) :
    Tracks t k (Descent.kind >>= f) (Parser.kind >>= g) R := by
  rw [← t.kindAt_zero hl] at h
  exact after_look (kindAt_eq t k 0) rfl h

theorem text {f : String → Descent β} {g : String → Parser β} {l : Lexeme}
    (hl : t.lexemes[k]? = some l) (h : Tracks t k (f l.text) (g l.text) R) :
    Tracks t k (Descent.text >>= f) (Parser.text >>= g) R :=
  after_look (Descent.text_eq hl) (text_eq hl) h

theorem atKind {kind : LexemeKind} {f : Bool → Descent β} {g : Bool → Parser β} {l : Lexeme}
    (hl : t.lexemes[k]? = some l)
    (h : Tracks t k (f (decide (l.kind = kind))) (g (decide (l.kind = kind))) R) :
    Tracks t k (Descent.atKind kind >>= f) (Parser.atKind kind >>= g) R :=
  Tracks.kind (f := fun k => f (decide (k = kind))) (g := fun k => g (decide (k = kind))) hl h

theorem atKind_eq (t : Tokens) (k : Nat) (kind : LexemeKind) :
    Descent.atKind kind t k = .ok (decide ((t.cursorAt k).kindAt 0 = kind), k) :=
  Descent.bind_eq (kindAt_eq t k 0)

theorem atWord_eq {l : Lexeme} (hl : t.lexemes[k]? = some l) (word : String) :
    Descent.atWord word t k = .ok (decide (l.kind = .identifier) && decide (l.text = word), k)
      ∧ Parser.atWord word (t.cursorAt k)
        = .ok (decide (l.kind = .identifier) && decide (l.text = word), t.cursorAt k) := by
  rw [← t.kindAt_zero hl]
  constructor
  · exact (Descent.bind_eq (kindAt_eq t k 0)).trans (Descent.bind_eq (Descent.text_eq hl))
  · show (Parser.text (t.cursorAt k) >>= fun s =>
      .ok (decide ((t.cursorAt k).kindAt 0 = .identifier) && decide (s.1 = word), s.2)) = _
    rw [text_eq hl]
    rfl

theorem advance_eq {l : Lexeme} (hl : t.lexemes[k]? = some l) (hkind : l.kind ≠ .endOfText) :
    Descent.advance t k = .ok ((), k + 1) := by
  unfold Descent.advance
  rw [index_eq hl]
  show (if _ then _ else if _ then _ else _) = _
  rw [if_neg hkind, if_pos (t.succ_lt hl hkind)]
  rfl

/-- A lexeme other than the end is gone past. -/
theorem advance {l : Lexeme} (hl : t.lexemes[k]? = some l) (hkind : l.kind ≠ .endOfText) :
    Tracks t k Descent.advance Parser.advance fun _ stop => stop = k + 1 := by
  unfold Tracks
  rw [advance_eq hl hkind]
  show Ran t k _ (.ok ((), (t.cursorAt k).next)) _
  rw [t.next_cursorAt hl hkind]
  exact .ok (Nat.le_succ k) (t.succ_lt hl hkind) rfl

end Tracks

/-- Whether parsers go the same way from every place on that is not before
`n`, and go past a lexeme if they give what they must do so for. -/
class Accords (t : Tokens) (n : Nat) (must : α → Prop) (d : Descent α) (p : Parser α) :
    Prop where
  tracks : ∀ k, n ≤ k → k < t.lexemes.length → Tracks t k d p fun a stop => must a → k < stop

/-- No result demands that a lexeme was gone past. -/
abbrev Never : α → Prop := fun _ => False

/-- Every result demands it. -/
abbrev Always : α → Prop := fun _ => True

/-- Whether another turn follows. -/
def GoesOn : Parser.Turn α → Prop
  | .item _ => True
  | _ => False

/-- Whether a lexeme that is of a kind is not the end. -/
class NotEnd (k : LexemeKind) : Prop where
  ne : k ≠ .endOfText

instance : NotEnd .identifier := ⟨by decide⟩
instance : NotEnd .lbracket := ⟨by decide⟩
instance : NotEnd .lbrace := ⟨by decide⟩
instance : NotEnd .lparen := ⟨by decide⟩
instance : NotEnd .lt := ⟨by decide⟩
instance : NotEnd .arrow := ⟨by decide⟩
instance : NotEnd .comma := ⟨by decide⟩
instance : NotEnd .rbrace := ⟨by decide⟩
instance : NotEnd .dot := ⟨by decide⟩
instance : NotEnd .kwUsing := ⟨by decide⟩
instance : NotEnd .kwThis := ⟨by decide⟩
instance : NotEnd .kwOperator := ⟨by decide⟩
instance : NotEnd .semicolon := ⟨by decide⟩

namespace Accords

-- a parser with many parts makes a large instance
set_option synthInstance.maxSize 1024

section Laws

variable {t : Tokens} {n : Nat} {must : α → Prop} {d : Descent α} {p : Parser α}
  {f : α → Descent β} {g : α → Parser β} {must' : β → Prop}

/-- What must go past a lexeme need not do so. -/
theorem still (h : Accords t n must d p) : Accords t n Never d p where
  tracks k hn hk := (h.tracks k hn hk).mono fun _ _ _ _ hfalse => hfalse.elim

theorem mono {must₀ : α → Prop} (h : Accords t n must d p) (himp : ∀ a, must₀ a → must a) :
    Accords t n must₀ d p where
  tracks k hn hk := (h.tracks k hn hk).mono fun a _ _ hmust hmust₀ => hmust (himp a hmust₀)

theorem later {n' : Nat} (h : Accords t n must d p) (hle : n ≤ n') : Accords t n' must d p where
  tracks k hn hk := h.tracks k (Nat.le_trans hle hn) hk

/-- In sequence, where the first part goes past a lexeme. -/
theorem bind_past (h : Accords t n Always d p) (hf : ∀ a, Accords t n Never (f a) (g a)) :
    Accords t n must' (d >>= f) (p >>= g) where
  tracks k hn hk := (h.tracks k hn hk).bind fun a stop hle hlt hpast =>
    ((hf a).tracks stop (Nat.le_trans hn hle) hlt).mono fun _ _ hle' _ _ =>
      Nat.lt_of_lt_of_le (hpast trivial) hle'

/-- In sequence, where the rest goes past a lexeme if that must be. -/
theorem after (h : Accords t n Never d p) (hf : ∀ a, Accords t n must' (f a) (g a)) :
    Accords t n must' (d >>= f) (p >>= g) where
  tracks k hn hk := (h.tracks k hn hk).bind fun a stop hle hlt _ =>
    ((hf a).tracks stop (Nat.le_trans hn hle) hlt).mono fun _ _ _ hmust hb =>
      Nat.lt_of_le_of_lt hle (hmust hb)

/-- In sequence, where the first part goes past a lexeme if it gives what it
must do so for, and the rest does otherwise. -/
theorem bind (h : Accords t n must d p) (hpast : ∀ a, must a → Accords t n Never (f a) (g a))
    (hstill : ∀ a, ¬ must a → Accords t n must' (f a) (g a)) :
    Accords t n must' (d >>= f) (p >>= g) where
  tracks k hn hk := (h.tracks k hn hk).bind fun a stop hle hlt hmust => by
    by_cases ha : must a
    · exact ((hpast a ha).tracks stop (Nat.le_trans hn hle) hlt).mono fun _ _ hle' _ _ =>
        Nat.lt_of_lt_of_le (hmust ha) hle'
    · exact ((hstill a ha).tracks stop (Nat.le_trans hn hle) hlt).mono fun _ _ _ hb hb' =>
        Nat.lt_of_le_of_lt hle (hb hb')

/-- In sequence, where the rest begins behind the first lexeme. -/
theorem bind_later (h : Accords t n Always d p)
    (hf : ∀ a k, n < k → Accords t k Never (f a) (g a)) :
    Accords t n must' (d >>= f) (p >>= g) where
  tracks k hn hk := (h.tracks k hn hk).bind fun a stop _ hlt hpast =>
    ((hf a stop (Nat.lt_of_le_of_lt hn (hpast trivial))).tracks stop (Nat.le_refl _) hlt).mono
      fun _ _ hle' _ _ => Nat.lt_of_lt_of_le (hpast trivial) hle'

end Laws

variable {t : Tokens} {n : Nat} {must : α → Prop}

-- ========================================================= single steps

instance (a : α) : Accords t n Never (pure a) (pure a) where
  tracks _ _ hk := .pure hk False.elim

instance (a : α) : Accords t n GoesOn (pure (.last a)) (pure (.last a)) where
  tracks _ _ hk := .pure hk False.elim

instance : Accords t n GoesOn (pure (.done : Parser.Turn α)) (pure .done) where
  tracks _ _ hk := .pure hk False.elim

instance (priority := low) (d : Descent α) (p : Parser α) [h : Accords t n Always d p] :
    Accords t n Never d p := h.still

instance (priority := low) (d : Descent (Parser.Turn α)) (p : Parser (Parser.Turn α))
    [h : Accords t n Always d p] : Accords t n GoesOn d p := h.mono fun _ _ => trivial

instance (d : Descent α) (p : Parser α) (f : α → Descent β) (g : α → Parser β)
    (must' : β → Prop) [hd : Accords t n Never d p] [hf : ∀ a, Accords t n must' (f a) (g a)] :
    Accords t n must' (d >>= f) (p >>= g) := hd.after hf

instance (d : Descent α) (p : Parser α) (f : α → Descent β) (g : α → Parser β)
    (must' : β → Prop) [hd : Accords t n Always d p] [hf : ∀ a, Accords t n Never (f a) (g a)] :
    Accords t n must' (d >>= f) (p >>= g) := hd.bind_past hf

theorem ite {b : Prop} [Decidable b] {d d' : Descent α} {p p' : Parser α}
    (h : Accords t n must d p) (h' : Accords t n must d' p') :
    Accords t n must (if b then d else d') (if b then p else p') where
  tracks k hn hk := .ite (fun _ => h.tracks k hn hk) fun _ => h'.tracks k hn hk

instance (b : Prop) [Decidable b] (d d' : Descent α) (p p' : Parser α)
    [h : Accords t n must d p] [h' : Accords t n must d' p'] :
    Accords t n must (if b then d else d') (if b then p else p') := h.ite h'

instance (code message : String) :
    Accords t n must (Descent.fail code message) (Parser.fail code message) where
  tracks _ _ hk := .fail hk code message

instance (k : LexemeKind) : Accords t n must (Descent.missing k) (Parser.missing k) where
  tracks _ _ hk := .missing hk k

instance (j : Nat) : Accords t n Never (Descent.kindAt j) (Parser.kindAt j) where
  tracks k _ hk := .look hk (Tracks.kindAt_eq t k j) rfl False.elim

instance : Accords t n Never Descent.kind Parser.kind :=
  inferInstanceAs (Accords t n Never (Descent.kindAt 0) (Parser.kindAt 0))

instance (j : Nat) : Accords t n Never (Descent.textAt j) (do return (← get).textAt j) where
  tracks k _ hk := by
    refine .look (a := (t.cursorAt k).textAt j) hk ?_ rfl False.elim
    rw [t.textAt_cursorAt]
    rfl

instance : Accords t n Never Descent.text Parser.text where
  tracks k _ hk := by
    obtain ⟨l, hl⟩ := t.exists_lexeme hk
    exact .look hk (Descent.text_eq hl) (Tracks.text_eq hl) False.elim

instance : Accords t n Never Descent.start Parser.start where
  tracks k _ hk := by
    obtain ⟨l, hl⟩ := t.exists_lexeme hk
    exact .look hk (Descent.start_eq hl) (Tracks.start_eq hl) False.elim

instance : Accords t n Never Descent.lastEnd Parser.lastEnd where
  tracks k _ hk := by
    refine .look (a := (t.cursorAt k).lastEnd) hk ?_ rfl False.elim
    cases k with
    | zero => rfl
    | succ k =>
      have hlt := Nat.lt_of_succ_lt hk
      unfold Descent.lastEnd Tokens.cursorAt
      rw [checkedSub_eq (Nat.succ_pos k), Nat.succ_sub_one, Option.bind_some,
        List.getElem?_eq_getElem hlt, List.take_add_one, List.getElem?_eq_getElem hlt,
        endOf_append]
      rfl

instance (from_ : Nat) : Accords t n Never (Descent.spanFrom from_) (Parser.spanFrom from_) := by
  unfold Descent.spanFrom Parser.spanFrom; infer_instance

instance (k : LexemeKind) : Accords t n Never (Descent.atKind k) (Parser.atKind k) := by
  unfold Descent.atKind Parser.atKind; infer_instance

instance (word : String) : Accords t n Never (Descent.atWord word) (Parser.atWord word) := by
  unfold Descent.atWord Parser.atWord; infer_instance

instance : Accords t n Never Descent.advance Parser.advance where
  tracks k _ hk := by
    obtain ⟨l, hl⟩ := t.exists_lexeme hk
    by_cases hkind : l.kind = .endOfText
    · unfold Tracks Descent.advance
      rw [index_eq hl]
      show Ran t k _ (.ok ((), (t.cursorAt k).next)) (if _ then _ else _)
      rw [if_pos hkind, t.next_cursorAt_end hl hkind]
      exact .ok (Nat.le_refl k) hk False.elim
    · exact (Tracks.advance hl hkind).mono fun _ _ _ _ => False.elim

instance (k : LexemeKind) : Accords t n Never (Descent.eat k) (Parser.eat k) := by
  unfold Descent.eat Parser.eat; infer_instance

instance (k : LexemeKind) : Accords t n Never (Descent.expect k) (Parser.expect k) := by
  unfold Descent.expect Parser.expect; infer_instance

/-- At a lexeme of a kind that is not the end, something goes past it. -/
theorem of_atKind {kind : LexemeKind} [hkind : NotEnd kind] {d d' : Descent α} {p p' : Parser α}
    (h : ∀ k (l : Lexeme), t.lexemes[k]? = some l → l.kind ≠ .endOfText →
      Tracks t k d p fun _ stop => k < stop) (h' : Accords t n must d' p') :
    Accords t n must (do if ← Descent.atKind kind then d else d')
      (do if ← Parser.atKind kind then p else p') where
  tracks k hn hk := by
    obtain ⟨l, hl⟩ := t.exists_lexeme hk
    refine Tracks.atKind hl (.ite (fun hsame => ?_) fun _ => h'.tracks k hn hk)
    exact (h k l hl (of_decide_eq_true hsame ▸ hkind.ne)).mono fun _ _ _ hpast _ => hpast

/-- What is eaten is gone past. -/
theorem eat (k : LexemeKind) [NotEnd k] :
    Accords t n (· = true) (Descent.eat k) (Parser.eat k) := by
  unfold Descent.eat Parser.eat
  refine of_atKind (fun k l hl hkind => ?_) ⟨fun _ _ hk => .pure hk nofun⟩
  exact (Tracks.advance hl hkind).bind fun _ stop _ hlt hstop => .pure hlt (by omega)

/-- What depends on whether something is eaten. -/
theorem of_eat {k : LexemeKind} [NotEnd k] {d d' : Descent α} {p p' : Parser α}
    (h : Accords t n Never d p) (h' : Accords t n must d' p') :
    Accords t n must (Descent.eat k >>= fun b => if b then d else d')
      (Parser.eat k >>= fun b => if b then p else p') := by
  refine (eat k).bind (fun b hb => ?_) fun b hb => ?_
  · rw [hb]
    exact h
  · rw [(Bool.not_eq_true b).mp hb]
    exact h'

instance (k : LexemeKind) [NotEnd k] (d d' : Descent α) (p p' : Parser α)
    [h : Accords t n Never d p] [h' : Accords t n must d' p'] :
    Accords t n must (Descent.eat k >>= fun b => if b then d else d')
      (Parser.eat k >>= fun b => if b then p else p') := of_eat h h'

instance (k : LexemeKind) [NotEnd k] :
    Accords t n Always (Descent.expect k) (Parser.expect k) :=
  of_atKind (fun k l hl hkind => (Tracks.advance hl hkind).mono fun _ _ _ hstop => by omega)
    inferInstance

instance : Accords t n Always Descent.identifier Parser.identifier := by
  unfold Descent.identifier Parser.identifier
  refine of_atKind (fun k l hl hkind => .text hl ?_) inferInstance
  exact (Tracks.advance hl hkind).bind fun _ stop _ hlt hstop => .pure hlt (by omega)

/-- What depends on the kind of the next lexeme. -/
theorem of_kind {f : LexemeKind → Descent α} {g : LexemeKind → Parser α}
    (h : ∀ k kind, n ≤ k → t.At k kind →
      Tracks t k (f kind) (g kind) fun a stop => must a → k < stop) :
    Accords t n must (Descent.kind >>= f) (Parser.kind >>= g) where
  tracks k hn hk := by
    obtain ⟨l, hl⟩ := t.exists_lexeme hk
    exact Tracks.kind hl (h k l.kind hn ⟨l, hl, rfl⟩)

/-- What begins behind a lexeme goes past that. -/
theorem past {k : Nat} {kind : LexemeKind} {d : Unit → Descent α} {p : Unit → Parser α}
    (hat : t.At k kind) (hkind : kind ≠ .endOfText)
    (h : Accords t (k + 1) Never (d ()) (p ())) :
    Tracks t k (Descent.advance >>= d) (Parser.advance >>= p) fun a stop => must a → k < stop := by
  obtain ⟨l, hl, rfl⟩ := hat
  refine (Tracks.advance hl hkind).bind fun _ stop hle hlt hstop => ?_
  subst hstop
  exact (h.tracks (k + 1) (Nat.le_refl _) hlt).mono fun _ _ hle _ _ => hle

/-- What begins at a lexeme. -/
theorem tracks_at {k : Nat} {kind : LexemeKind} {d : Descent α} {p : Parser α}
    (h : Accords t n must d p) (hn : n ≤ k) (hat : t.At k kind) :
    Tracks t k d p fun a stop => must a → k < stop := by
  obtain ⟨l, hl, -⟩ := hat
  exact h.tracks k hn (List.getElem?_eq_some_iff.mp hl).1

/-- What depends on the place where it begins. -/
theorem of_place {f : Nat → Descent α} {p : Parser α}
    (h : ∀ k, n ≤ k → Accords t k must (f k) p) :
    Accords t n must (Descent.place >>= f) p where
  tracks k hn hk := (h k hn).tracks k (Nat.le_refl k) hk

/-- A level that begins further on. -/
theorem below {from_ : Nat} {d : Descent α} {p : Parser α} (h : Accords t n must d p)
    (hfrom : from_ < n) : Accords t n must (Descent.below from_ d) p where
  tracks k hn hk := by
    have hpast : from_ < k := Nat.lt_of_lt_of_le hfrom hn
    unfold Tracks Descent.below
    show Ran t k _ _ ((if from_ < k then d else _ : Descent α) t k)
    rw [if_pos hpast]
    exact h.tracks k hn hk

/-- Behind the last lexeme nothing begins. -/
theorem beyond {d : Descent α} {p : Parser α} (h : t.lexemes.length ≤ n) :
    Accords t n must d p where
  tracks k hn hk := by omega

end Accords

-- =============================================================== loops

/-- What a turn comes to: another one follows further on, or the loop ends as
it has to. -/
inductive Turned (t : Tokens) (k : Nat) (again : σ → Nat → Prop)
    (ends : Machine (α × Nat) → Prop) : Machine ((σ ⊕ α) × Nat) → Prop
  | again {s : σ} {stop : Nat} (hpast : k < stop) (hlt : stop < t.lexemes.length)
    (h : again s stop) : Turned t k again ends (.ok (.inl s, stop))
  | result {a : α} {stop : Nat} (h : ends (.ok (a, stop))) :
    Turned t k again ends (.ok (.inr a, stop))
  | error {e : Stop} (h : ends (.error e)) : Turned t k again ends (.error e)

namespace Turned

variable {t : Tokens} {k place : Nat} {again : σ → Nat → Prop} {ends : Machine (α × Nat) → Prop}
  {l : Lexeme}

theorem ite {b : Prop} [Decidable b] {d d' : Descent (σ ⊕ α)}
    (h : b → Turned t k again ends (d t place)) (h' : ¬ b → Turned t k again ends (d' t place)) :
    Turned t k again ends ((if b then d else d') t place) := by
  split
  · next hb => exact h hb
  · next hb => exact h' hb

/-- After a step that gives something and comes to a place. -/
theorem after {d : Descent β} {f : β → Descent (σ ⊕ α)} {b : β} {place' : Nat}
    (hd : d t place = .ok (b, place')) (h : Turned t k again ends (f b t place')) :
    Turned t k again ends ((d >>= f) t place) := by
  rw [Descent.bind_eq hd]
  exact h

theorem kind {f : LexemeKind → Descent (σ ⊕ α)} (hl : t.lexemes[place]? = some l)
    (h : Turned t k again ends (f l.kind t place)) :
    Turned t k again ends ((Descent.kind >>= f) t place) := by
  rw [← t.kindAt_zero hl] at h
  exact after (Tracks.kindAt_eq t place 0) h

theorem text {f : String → Descent (σ ⊕ α)} (hl : t.lexemes[place]? = some l)
    (h : Turned t k again ends (f l.text t place)) :
    Turned t k again ends ((Descent.text >>= f) t place) :=
  after (Descent.text_eq hl) h

/-- Past a lexeme other than the end. -/
theorem advance {f : Unit → Descent (σ ⊕ α)} (hl : t.lexemes[place]? = some l)
    (hkind : l.kind ≠ .endOfText) (h : Turned t k again ends (f () t (place + 1))) :
    Turned t k again ends ((Descent.advance >>= f) t place) :=
  after (Tracks.advance_eq hl hkind) h

theorem compute {x : Machine β} {f : β → Descent (σ ⊕ α)} {b : β} (hx : x = Except.ok b)
    (h : Turned t k again ends (f b t place)) :
    Turned t k again ends ((Descent.compute x >>= f) t place) := by
  subst hx
  exact h

/-- What a turn gives, where the loop has to end with the same. -/
theorem tracks {d : Descent α} {p : Parser α} {Q R : α → Nat → Prop} {place : Nat}
    (h : Tracks t place d p Q) (hle : k ≤ place) (hR : ∀ a stop, place ≤ stop → Q a stop → R a stop) :
    Turned (σ := σ) t k again (Ran t k R (p (t.cursorAt place)))
      ((d >>= fun a => pure (.inr a)) t place) := by
  have hrun : (d >>= fun a => pure (.inr a) : Descent (σ ⊕ α)) t place = d t place >>= fun r =>
    .ok (.inr r.1, r.2) := rfl
  rw [hrun]
  unfold Tracks at h
  generalize p (t.cursorAt place) = x, d t place = y at h ⊢
  cases h with
  | complaint d => exact .error (.complaint d)
  | ok hle' hlt h => exact .result (.ok (Nat.le_trans hle hle') hlt (hR _ _ hle' h))

end Turned

/-- A loop whose turns all go past a lexeme, up to the last one, ends as it
has to, with no more turns than there are lexemes. -/
theorem loop_rule {t : Tokens} {step : σ → Descent (σ ⊕ α)} (inv : σ → Nat → Prop)
    (ends : σ → Nat → Machine (α × Nat) → Prop)
    (h : ∀ s k, inv s k → k < t.lexemes.length →
      Turned t k (fun s' stop => inv s' stop ∧ ∀ r, ends s' stop r → ends s k r) (ends s k)
        (step s t k))
    {turns : Nat} {s : σ} {k : Nat} (hinv : inv s k) (hk : k < t.lexemes.length)
    (hturns : t.lexemes.length ≤ turns + k) : ends s k (Descent.loop step turns s t k) := by
  induction turns generalizing s k with
  | zero => omega
  | succ turns ih =>
    have hturn := h s k hinv hk
    have hrun : Descent.loop step (turns + 1) s t k = (step s t k >>= fun
        | (.inl s, stop) => (if k < stop then Descent.loop step turns s else Descent.halt .endless)
          t stop
        | (.inr a, stop) => .ok (a, stop)) := by
      show (step s t k >>= _) = _
      congr 1
      funext r
      obtain ⟨s | a, stop⟩ := r <;> rfl
    rw [hrun]
    generalize step s t k = r at hturn ⊢
    cases hturn with
    | again hpast hlt hagain =>
      show ends s k ((if _ then _ else _ : Descent _) t _)
      rw [if_pos hpast]
      exact hagain.2 _ (ih hagain.1 hlt (by omega))
    | result hend => exact hend
    | error hend => exact hend

theorem repeated_rule {t : Tokens} (step : σ → Descent (σ ⊕ α)) (inv : σ → Nat → Prop)
    (ends : σ → Nat → Machine (α × Nat) → Prop)
    (h : ∀ s k, inv s k → k < t.lexemes.length →
      Turned t k (fun s' stop => inv s' stop ∧ ∀ r, ends s' stop r → ends s k r) (ends s k)
        (step s t k))
    {s : σ} {k : Nat} (hinv : inv s k) (hk : k < t.lexemes.length) :
    ends s k (Descent.repeated step s t k) :=
  loop_rule inv ends h hinv hk (Nat.le_add_right _ _)

/-- A turn that stays where it is, and promises another one, is a fault. -/
example : Descent.repeated (fun () => (return .inl () : Descent (Unit ⊕ Unit))) ()
    ⟨";", [⟨.semicolon, ";", ⟨0, 1⟩⟩, ⟨.endOfText, "", ⟨1, 1⟩⟩], rfl⟩ 0
      = .error (.fault .endless) := by
  rfl

/-- Items, and those of at most `bound` turns behind them. -/
def gather (turn : Parser (Parser.Turn α)) (bound : Nat) (items : List α) : Parser (List α) := do
  return items ++ (← Parser.collectWithin turn bound)

theorem gather_nil (turn : Parser (Parser.Turn α)) (bound : Nat) :
    gather turn bound [] = Parser.collectWithin turn bound := by
  funext c
  show (Parser.collectWithin turn bound c >>= fun r => .ok ([] ++ r.1, r.2)) = _
  cases Parser.collectWithin turn bound c <;> rfl

theorem gather_succ (turn : Parser (Parser.Turn α)) (bound : Nat) (items : List α)
    (c : Syntax.Cursor) : gather turn (bound + 1) items c = turn c >>= fun
      | (.item a, c) => gather turn bound (items ++ [a]) c
      | (.last a, c) => .ok (items ++ [a], c)
      | (.done, c) => .ok (items, c) := by
  show ((turn c >>= fun r => _) >>= fun r => _) = _
  cases turn c with
  | error e => rfl
  | ok r =>
    obtain ⟨a | a | _, c⟩ := r
    · show ((Parser.collectWithin turn bound c >>= fun r => .ok (a :: r.1, r.2)) >>= fun r =>
        .ok (items ++ r.1, r.2)) = (Parser.collectWithin turn bound c >>= fun r =>
          .ok ((items ++ [a]) ++ r.1, r.2))
      cases Parser.collectWithin turn bound c with
      | error e => rfl
      | ok r =>
        show Except.ok (items ++ a :: r.1, r.2) = Except.ok ((items ++ [a]) ++ r.1, r.2)
        rw [List.append_cons]
    · rfl
    · show Except.ok (items ++ [], c) = Except.ok (items, c)
      rw [List.append_nil]

theorem collecting_eq (turn : Descent (Parser.Turn α)) (items : List α) (t : Tokens) (k : Nat) :
    Descent.collecting turn items t k = turn t k >>= fun
      | (.item a, stop) => .ok (.inl (items ++ [a]), stop)
      | (.last a, stop) => .ok (.inr (items ++ [a]), stop)
      | (.done, stop) => .ok (.inr items, stop) := by
  show (turn t k >>= _) = _
  congr 1
  funext r
  obtain ⟨a | a | _, stop⟩ := r <;> rfl

namespace Accords

variable {t : Tokens} {n : Nat}

/-- The items of a turn that goes past a lexeme if another one follows. -/
theorem tracks_collect {turn : Descent (Parser.Turn α)} {turn' : Parser (Parser.Turn α)}
    {must : Parser.Turn α → Prop} (h : Accords t n must turn turn')
    (hitem : ∀ a, must (.item a)) {k : Nat} (hn : n ≤ k) (hk : k < t.lexemes.length) :
    Tracks t k (Descent.collect turn) (Parser.collect turn')
      fun _ stop => (∀ r, must r) → k < stop := by
  have hloop := repeated_rule (Descent.collecting turn) (fun _ k => n ≤ k)
    (fun items k r => ∀ bound, t.lexemes.length ≤ bound + k →
      Ran t k (fun _ stop => (∀ r, must r) → k < stop) (gather turn' bound items (t.cursorAt k)) r)
    (fun items k hn hk => ?_) (s := []) hn hk
  · have hran := hloop _ (t.length_le_rest k)
    rwa [gather_nil] at hran
  · have hturn := h.tracks k hn hk
    unfold Tracks at hturn
    rw [collecting_eq]
    -- the bound that is left is not zero, for there is a lexeme
    have hends : ∀ r, (∀ bound, t.lexemes.length ≤ bound + 1 + k →
        Ran t k (fun _ stop => (∀ r, must r) → k < stop)
          (gather turn' (bound + 1) items (t.cursorAt k)) r) →
        ∀ bound, t.lexemes.length ≤ bound + k →
          Ran t k (fun _ stop => (∀ r, must r) → k < stop)
            (gather turn' bound items (t.cursorAt k)) r := by
      intro r hr bound hbound
      cases bound with
      | zero => omega
      | succ bound => exact hr bound hbound
    simp only [gather_succ] at hends
    generalize turn' (t.cursorAt k) = x, turn t k = y at hturn hends ⊢
    cases hturn with
    | complaint d => exact .error (hends _ fun bound _ => .complaint d)
    | @ok r stop hle hlt hmust =>
      cases r with
      | item a =>
        have hpast := hmust (hitem a)
        refine .again hpast hlt ⟨Nat.le_trans hn hle, fun r hr => hends r fun bound hbound => ?_⟩
        exact Ran.mono (hr bound (by omega)) hle fun _ _ hle' _ _ => Nat.lt_of_lt_of_le hpast hle'
      | last a => exact .result (hends _ fun bound _ => .ok hle hlt fun hall => hmust (hall _))
      | done => exact .result (hends _ fun bound _ => .ok hle hlt fun hall => hmust (hall _))

theorem collect {turn : Descent (Parser.Turn α)} {turn' : Parser (Parser.Turn α)}
    (h : Accords t n GoesOn turn turn') :
    Accords t n Never (Descent.collect turn) (Parser.collect turn') where
  tracks _ hn hk := (tracks_collect h (fun _ => trivial) hn hk).mono fun _ _ _ _ => False.elim

instance (turn : Descent (Parser.Turn α)) (turn' : Parser (Parser.Turn α))
    [h : Accords t n GoesOn turn turn'] :
    Accords t n Never (Descent.collect turn) (Parser.collect turn') := h.collect

instance (turn : Descent (Parser.Turn α)) (turn' : Parser (Parser.Turn α))
    [h : Accords t n Always turn turn'] :
    Accords t n Always (Descent.collect turn) (Parser.collect turn') where
  tracks _ hn hk := (tracks_collect h (fun _ => trivial) hn hk).mono
    fun _ _ _ hpast _ => hpast fun _ => trivial

instance (item : Descent α) (item' : Parser α) [h : Accords t n Always item item'] :
    Accords t n Always (Descent.separated item) (Parser.separated item') := by
  unfold Descent.separated Parser.separated; infer_instance

end Accords

end ClrListing.Machine
