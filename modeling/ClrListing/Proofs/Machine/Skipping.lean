/-
Scans of the parser of places.

The parser of cursors measures a run of lexemes before it goes past it; the
parser of places goes on until it comes to what ends the run, and counts the
brackets that are open. A scan that the turns of a loop follow lexeme by
lexeme gives the same as the measure, for the measure says how one lexeme
changes it. The two scans that only look ahead end at a lexeme that is there,
and what they count never falls below zero.
-/
import ClrListing.Proofs.Machine.Descent
import ClrListing.Syntax.Parser.Member

namespace ClrListing.Machine

open Source Syntax

namespace Descent

-- ============================================================ brackets

/-- One lexeme of a run of brackets, of which so many are open. -/
def balancedTurn (opening closing : LexemeKind) (from_ depth : Nat) : Descent (Nat ⊕ Span) := do
  let k ← kind
  if k = .endOfText then
    missing closing
  else if k = opening then
    advance
    return .inl (depth + 1)
  else if k = closing then
    let depth ← compute (sub depth 1)
    advance
    if depth = 0 then return .inr (← spanFrom from_) else return .inl depth
  else
    advance
    return .inl depth

/-- Goes past a balanced run of brackets; gives the bytes it covers. -/
def skipBalanced (opening closing : LexemeKind) : Descent Span := do
  let from_ ← start
  expect opening
  repeated (balancedTurn opening closing from_) 1

/-- Goes past attributes. -/
def skipAttributes : Descent Unit := do
  let _ ← collect (α := Unit) do
    if ← atKind .lbracket then
      let _ ← skipBalanced .lbracket .rbracket
      return .item ()
    else
      return .done
  return ()

-- ============================================================== angles

/-- One lexeme of what may be type arguments from a place on: so many angle
brackets are open before the lexeme that is so many places ahead. Only what is
`inside` may stand between them. -/
def anglesTurn (inside : LexemeKind → Bool) (t : Tokens) (place : Nat) :
    Nat × Nat → Machine (Nat × Nat ⊕ Option Nat) := fun (depth, offset) => do
  let l ← index t.lexemes (place + offset)
  if l.kind = .lt then
    return .inl (depth + 1, offset + 1)
  else if l.kind = .gt then
    let depth ← sub depth 1
    if depth = 0 then return .inr (some (offset + 1)) else return .inl (depth, offset + 1)
  else if inside l.kind then
    return .inl (depth, offset + 1)
  else
    return .inr none

/-- If the lexeme so many places ahead opens type arguments, the place behind
the one that closes them, as many places ahead. -/
def behindAngles (inside : LexemeKind → Bool) (offset : Nat) : Descent (Option Nat) :=
  fun t place => do
    return (← Machine.loop (anglesTurn inside t place) t.lexemes.length (0, offset), place)

-- ========================================================= expressions

/-- If the next lexeme opens type arguments, how many lexemes lead up to and
include the one that closes them. -/
def typeArgumentsLength : Descent (Option Nat) := behindAngles isTypeShaped 0

/-- One lexeme of so many. -/
def advanceTurn : Nat → Descent (Nat ⊕ Unit)
  | 0 => return .inr ()
  | left + 1 => do
    advance
    return .inl left

/-- Goes past the next `n` lexemes. -/
def advanceBy (n : Nat) : Descent Unit := repeated advanceTurn n

/-- Goes past type arguments, or past the lexeme that opens none. -/
def skipAngles : Descent Unit := do
  match ← typeArgumentsLength with
  | some n => advanceBy n
  | none => advance

/-- One lexeme, or type arguments, of an expression in which so many brackets
are open. -/
def expressionTurn (stops : List LexemeKind) (depth : Nat) : Descent (Nat ⊕ Unit) := do
  let k ← kind
  if depth = 0 && stops.contains k then
    return .inr ()
  else if k = .endOfText then
    missing (stops.headD .semicolon)
  else if k = .lt then
    skipAngles
    return .inl depth
  else if isOpening k then
    advance
    return .inl (depth + 1)
  else if isClosing k then
    if depth = 0 then
      fail "CS1519" ("Invalid token '" ++ (← text) ++ "' in expression")
    else
      let depth ← compute (sub depth 1)
      advance
      return .inl depth
  else
    advance
    return .inl depth

/-- Goes up to the first of `stops` outside brackets. -/
def skipUntil (stops : List LexemeKind) : Descent Unit := repeated (expressionTurn stops) 0

-- ========================================================= constraints

/-- One lexeme of a constraint clause in which so many parentheses are open;
in the end, whether another clause follows. -/
def constraintTurn (depth : Nat) : Descent (Nat ⊕ Bool) := do
  let k ← kind
  if k = .endOfText then
    fail "CS1514" "\x7b expected"
  else if k = .lparen then
    advance
    return .inl (depth + 1)
  else if k = .rparen then
    advance
    return .inl (depth - 1)
  else if depth = 0 && (k = .lbrace || k = .semicolon || k = .arrow) then
    return .inr false
  else if depth = 0 && k = .identifier && (← text) = "where" then
    return .inr true
  else
    advance
    return .inl depth

/-- One constraint clause, if one is next. -/
def constraintsTurn : Unit → Descent (Unit ⊕ Unit) := fun () => do
  if ← atWord "where" then
    advance
    if ← repeated constraintTurn 0 then return .inl () else return .inr ()
  else
    return .inr ()

/-- Goes past constraint clauses. -/
def skipConstraints : Descent Unit := repeated constraintsTurn ()

-- =============================================================== names

/-- A lexeme at which a member does not end before its name does. -/
def staysInName : LexemeKind → Bool
  | .endOfText | .semicolon | .lbrace => false
  | _ => true

/-- How many places ahead it goes on behind a dot and a name, and behind the
type arguments of that if it has some; nowhere if the member ends before they
do. -/
def behindName : Descent (Option Nat) := do
  if (← peek 2).kind = .lt then behindAngles staysInName 2 else return some 2

/-- Whether what is so many places ahead belongs to a member. -/
def memberFollowsAt (offset : Nat) : Descent Bool := do
  let k ← kindAt offset
  let memberFollows := k = .lparen || k = .lbrace || k = .arrow || k = .semicolon
    || k = .assign || k = .comma
  let indexerFollows := k = .dot && (← kindAt (offset + 1)) = .kwThis
  return memberFollows || indexerFollows

/-- Whether a dotted name goes on as a type past the dot and identifier that
are next. -/
def continuesTypeName : Descent Bool := do
  match ← behindName with
  | none => return false
  | some offset => return !(← memberFollowsAt offset)

/-- Whether a dotted name goes on past the dot that may be next. -/
def goesOn (inHeader : Bool) : Descent Bool := do
  if (← atKind .dot) && (← kindAt 1) = .identifier then
    if inHeader then continuesTypeName else return true
  else
    return false

/-- One lexeme of the spelling of an operator. -/
def operatorTurn (spelling : String) : Descent (String ⊕ String) := do
  let k ← kind
  if k = .lparen || k = .endOfText || 4 ≤ spelling.utf8ByteSize then
    return .inr spelling
  else
    let more ← text
    advance
    return .inl (spelling ++ more)

/-- The spelling of an operator, past which it goes. -/
def operatorSpelling : Descent String := repeated operatorTurn ""

end Descent

variable {α σ : Type} {t : Tokens} {n k : Nat} {l : Lexeme}

-- ============================================================= measures

/-- A turn of a scan: it changes its state as one lexeme changes what is left
to do, or ends as that does. -/
def Scans (t : Tokens) (k : Nat) (inv : σ → Prop) (left : σ → Parser α) (s : σ) :
    Machine ((σ ⊕ α) × Nat) → Prop :=
  Turned t k (fun s' stop => inv s' ∧ left s (t.cursorAt k) = left s' (t.cursorAt stop))
    (Ran t k (fun _ _ => True) (left s (t.cursorAt k)))

/-- A scan does what is left to do. -/
theorem accords_repeated {step : σ → Descent (σ ⊕ α)} (inv : σ → Prop) (left : σ → Parser α)
    (h : ∀ s k l, inv s → t.lexemes[k]? = some l → Scans t k inv left s (step s t k)) {s : σ}
    (hs : inv s) : Accords t n Never (Descent.repeated step s) (left s) where
  tracks k _ hk := by
    refine Ran.mono ?_ (Nat.le_refl k) fun _ _ _ (_ : True) => False.elim
    refine repeated_rule step (fun s _ => inv s)
      (fun s k => Ran t k (fun _ _ => True) (left s (t.cursorAt k))) (fun s k hs hk => ?_) hs hk
    obtain ⟨l, hl⟩ := t.exists_lexeme hk
    have hturn := h s k l hs hl
    unfold Scans at hturn
    generalize step s t k = r at hturn ⊢
    cases hturn with
    | again hpast hlt hagain =>
      refine .again hpast hlt ⟨hagain.1, fun r hr => ?_⟩
      rw [hagain.2]
      exact Ran.mono hr (Nat.le_of_lt hpast) fun _ _ _ => id
    | result hend => exact .result hend
    | error hend => exact .error hend

namespace Scans

variable {inv : σ → Prop} {left : σ → Parser α} {s s' : σ}

/-- A turn that goes past a lexeme. -/
theorem next (hl : t.lexemes[k]? = some l) (hkind : l.kind ≠ .endOfText) (hinv : inv s')
    (hleft : left s (t.cursorAt k) = left s' (t.cursorAt (k + 1))) :
    Scans t k inv left s ((do Descent.advance; return .inl s' : Descent (σ ⊕ α)) t k) :=
  Turned.advance hl hkind (.again (Nat.lt_succ_self k) (t.succ_lt hl hkind) ⟨hinv, hleft⟩)

/-- A turn that ends the scan. -/
theorem stop {d : Descent α} {p : Parser α} {Q : α → Nat → Prop} {place : Nat}
    (h : Tracks t place d p Q) (hle : k ≤ place)
    (hleft : left s (t.cursorAt k) = p (t.cursorAt place)) :
    Scans t k inv left s ((d >>= fun a => pure (.inr a)) t place) := by
  unfold Scans
  rw [hleft]
  exact Turned.tracks h hle fun _ _ _ _ => trivial

theorem done {a : α} (hk : k < t.lexemes.length)
    (hleft : left s (t.cursorAt k) = .ok (a, t.cursorAt k)) :
    Scans t k inv left s ((pure (.inr a) : Descent (σ ⊕ α)) t k) :=
  .result (by rw [hleft]; exact .ok (Nat.le_refl k) hk trivial)

theorem fail (hk : k < t.lexemes.length) {code message : String}
    (hleft : left s (t.cursorAt k) = Parser.fail code message (t.cursorAt k)) :
    Scans t k inv left s (Descent.fail code message t k) := by
  obtain ⟨d, hd, hp⟩ := t.complaint_of_fail hk code message
  unfold Scans
  rw [hleft, hd, hp]
  exact .error (.complaint d)

theorem missing (hk : k < t.lexemes.length) {kind : LexemeKind}
    (hleft : left s (t.cursorAt k) = Parser.missing kind (t.cursorAt k)) :
    Scans t k inv left s (Descent.missing kind t k) := by
  obtain ⟨d, hd, hp⟩ := t.complaint_of_missing hk kind
  unfold Scans
  rw [hleft, hd, hp]
  exact .error (.complaint d)

end Scans

/-- Goes past so many lexemes and on from there, or to the end if it is not
known how many. -/
def skipOver (measured : Option Nat) (found lost : Parser α) : Parser α :=
  match measured with
  | some n => do Parser.advanceBy n; found
  | none => do Parser.toEnd; lost

theorem skipOver_next (hl : t.lexemes[k]? = some l) (hkind : l.kind ≠ .endOfText)
    (measured : Option Nat) (found lost : Parser α) :
    skipOver (measured.map (· + 1)) found lost (t.cursorAt k)
      = skipOver measured found lost (t.cursorAt (k + 1)) := by
  have hnext := t.next_cursorAt hl hkind
  cases measured with
  | none =>
    show lost ((t.cursorAt k).skip (t.cursorAt k).rest.length) = lost _
    rw [t.rest_cursorAt hl, List.length_cons, Cursor.skip, hnext]
  | some n =>
    show found ((t.cursorAt k).skip (n + 1)) = found _
    rw [Cursor.skip, hnext]

theorem skipOver_end (hl : t.lexemes[k]? = some l) (hkind : l.kind = .endOfText)
    (found lost : Parser α) : skipOver none found lost (t.cursorAt k) = lost (t.cursorAt k) := by
  have hskip : ∀ n, (t.cursorAt k).skip n = t.cursorAt k := by
    intro n
    induction n with
    | zero => rfl
    | succ n ih => rw [Cursor.skip, t.next_cursorAt_end hl hkind, ih]
  exact congrArg lost (hskip _)

-- ============================================================= brackets

/-- What is left of a run of brackets, of which so many are open. -/
def balancedRest (opening closing : LexemeKind) (from_ depth : Nat) : Parser Span := fun c =>
  skipOver (balancedLength? opening closing depth c.rest) (Parser.spanFrom from_)
    (Parser.missing closing) c

theorem balancedTurn_scans {opening closing : LexemeKind} {from_ depth : Nat} (hdepth : 1 ≤ depth)
    (hl : t.lexemes[k]? = some l) :
    Scans t k (1 ≤ ·) (balancedRest opening closing from_) depth
      (Descent.balancedTurn opening closing from_ depth t k) := by
  have hk := (List.getElem?_eq_some_iff.mp hl).1
  unfold Descent.balancedTurn
  refine Turned.kind hl (Turned.ite (fun hend => ?_) fun hend => ?_)
  · refine Scans.missing hk ?_
    unfold balancedRest
    rw [t.rest_cursorAt hl, balancedLength?, if_pos hend, skipOver_end hl hend]
  have hskip (measured : Option Nat)
      (h : balancedLength? opening closing depth (t.cursorAt k).rest = measured.map (· + 1)) :
      balancedRest opening closing from_ depth (t.cursorAt k)
        = skipOver measured (Parser.spanFrom from_) (Parser.missing closing)
          (t.cursorAt (k + 1)) := by
    unfold balancedRest
    rw [h, skipOver_next hl hend]
  rw [t.rest_cursorAt hl, balancedLength?, if_neg hend] at hskip
  refine Turned.ite (fun hopening => ?_) fun hopening => Turned.ite (fun hclosing => ?_)
    fun hclosing => ?_
  · rw [if_pos hopening] at hskip
    exact Scans.next hl hend (Nat.le_succ_of_le hdepth) (hskip _ rfl)
  · rw [if_neg hopening, if_pos hclosing] at hskip
    refine Turned.compute (sub_eq hdepth) (Turned.advance hl hend ?_)
    have hlt := t.succ_lt hl hend
    refine Turned.ite (fun hzero => ?_) fun hopen => ?_
    · refine Scans.stop ((inferInstance : Accords t 0 Never (Descent.spanFrom from_)
        (Parser.spanFrom from_)).tracks (k + 1) (Nat.zero_le _) hlt) (Nat.le_succ k) ?_
      rw [if_pos (by omega)] at hskip
      exact hskip (some 0) rfl
    · rw [if_neg (by omega)] at hskip
      exact .again (Nat.lt_succ_self k) hlt ⟨Nat.pos_of_ne_zero hopen, hskip _ rfl⟩
  · rw [if_neg hopening, if_neg hclosing] at hskip
    exact Scans.next hl hend hdepth (hskip _ rfl)

instance (opening closing : LexemeKind) [NotEnd opening] :
    Accords t n Always (Descent.skipBalanced opening closing)
      (Parser.skipBalanced opening closing) := by
  have hloop (n from_ : Nat) : Accords t n Never
      (Descent.repeated (Descent.balancedTurn opening closing from_) 1)
      (balancedRest opening closing from_ 1) :=
    accords_repeated (1 ≤ ·) _ (fun _ _ _ => balancedTurn_scans) (Nat.le_refl 1)
  have hparser : Parser.skipBalanced opening closing = (do
      let from_ ← Parser.start
      Parser.expect opening
      balancedRest opening closing from_ 1) := rfl
  rw [hparser]
  unfold Descent.skipBalanced
  infer_instance

instance : Accords t n Never Descent.skipAttributes Parser.skipAttributes := by
  unfold Descent.skipAttributes Parser.skipAttributes; infer_instance

-- =============================================================== angles

/-- How many lexemes lead up to and include the one that closes so many open
angle brackets, if only what is `inside` stands between them. -/
def anglesLength? (inside : LexemeKind → Bool) : (depth : Nat) → List Lexeme → Option Nat
  | _, [] => none
  | depth, l :: rest =>
    if l.kind = .lt then (anglesLength? inside (depth + 1) rest).map (· + 1)
    else if l.kind = .gt then
      if depth ≤ 1 then some 1 else (anglesLength? inside (depth - 1) rest).map (· + 1)
    else if inside l.kind then (anglesLength? inside depth rest).map (· + 1)
    else none

theorem typeArgumentsLength?_eq (depth : Nat) (ls : List Lexeme) :
    typeArgumentsLength? depth ls = anglesLength? isTypeShaped depth ls := by
  induction ls generalizing depth with
  | nil => rfl
  | cons l ls ih => simp only [typeArgumentsLength?, anglesLength?, ih]

theorem afterAngles?_eq (depth : Nat) (ls : List Lexeme) :
    afterAngles? depth ls = (anglesLength? Descent.staysInName depth ls).map ls.drop := by
  induction ls generalizing depth with
  | nil => rfl
  | cons l ls ih =>
    have hdrop (length : Option Nat) :
        (length.map (· + 1)).map (l :: ls).drop = length.map ls.drop := by
      cases length <;> rfl
    simp only [afterAngles?, anglesLength?, ih]
    cases l.kind
    case gt =>
      show (if _ then _ else _) = Option.map _ (if _ then _ else _)
      split
      · rfl
      · exact (hdrop _).symm
    all_goals simp [Descent.staysInName, hdrop]

/-- It goes past lexemes that are there, none of which is the end. -/
theorem exists_run_of_anglesLength? {inside : LexemeKind → Bool} (hend : inside .endOfText = false)
    {depth length : Nat} {ls : List Lexeme} (h : anglesLength? inside depth ls = some length) :
    ∃ run rest, ls = run ++ rest ∧ run.length = length ∧ ∀ l ∈ run, l.kind ≠ .endOfText := by
  induction ls generalizing depth length with
  | nil => nomatch h
  | cons l ls ih =>
    have hnext {depth : Nat} (hkind : l.kind ≠ .endOfText)
        (h : (anglesLength? inside depth ls).map (· + 1) = some length) :
        ∃ run rest, l :: ls = run ++ rest ∧ run.length = length
          ∧ ∀ l ∈ run, l.kind ≠ .endOfText := by
      obtain ⟨length, hlength, rfl⟩ := Option.map_eq_some_iff.mp h
      obtain ⟨run, rest, rfl, rfl, hkinds⟩ := ih hlength
      exact ⟨l :: run, rest, rfl, rfl, List.forall_mem_cons.mpr ⟨hkind, hkinds⟩⟩
    unfold anglesLength? at h
    split at h
    · next hlt => exact hnext (by rw [hlt]; decide) h
    · split at h
      · next hgt =>
        have hkind : l.kind ≠ .endOfText := by rw [hgt]; decide
        split at h
        · obtain rfl := Option.some.inj h
          exact ⟨[l], ls, rfl, rfl, List.forall_mem_singleton.mpr hkind⟩
        · exact hnext hkind h
      · split at h
        · next hinside => exact hnext (fun hkind => by rw [hkind, hend] at hinside; cases hinside) h
        · cases h

/-- Where a bracket is open, its depth can fall. -/
theorem anglesTurn_eq {inside : LexemeKind → Bool} {place depth offset : Nat}
    (hdepth : 1 ≤ depth) (hl : t.lexemes[place + offset]? = some l) :
    Descent.anglesTurn inside t place (depth, offset)
      = if l.kind = .lt then .ok (.inl (depth + 1, offset + 1))
        else if l.kind = .gt then
          (if depth - 1 = 0 then .ok (.inr (some (offset + 1)))
            else .ok (.inl (depth - 1, offset + 1)))
        else if inside l.kind then .ok (.inl (depth, offset + 1))
        else .ok (.inr none) := by
  show (index t.lexemes (place + offset) >>= fun l => _) = _
  rw [index_eq hl]
  show (if _ then _ else if _ then sub depth 1 >>= _ else _) = _
  rw [sub_eq hdepth]
  rfl

theorem loop_anglesTurn {inside : LexemeKind → Bool} (hend : inside .endOfText = false)
    {place fuel : Nat} {depth offset : Nat} (hdepth : 1 ≤ depth)
    (hlt : place + offset < t.lexemes.length) (hfuel : t.lexemes.length ≤ fuel + (place + offset)) :
    Machine.loop (Descent.anglesTurn inside t place) fuel (depth, offset)
      = .ok ((anglesLength? inside depth (t.cursorAt (place + offset)).rest).map (· + offset)) := by
  induction fuel generalizing depth offset with
  | zero => omega
  | succ fuel ih =>
    obtain ⟨l, hl⟩ := t.exists_lexeme hlt
    have hnext {depth' : Nat} (hdepth' : 1 ≤ depth') (hkind : l.kind ≠ .endOfText) :
        Machine.loop (Descent.anglesTurn inside t place) fuel (depth', offset + 1)
          = .ok (((anglesLength? inside depth' (t.cursorAt (place + offset + 1)).rest).map
            (· + 1)).map (· + offset)) := by
      have hlt' : place + (offset + 1) < t.lexemes.length := t.succ_lt hl hkind
      rw [ih hdepth' hlt' (by omega), Option.map_map]
      congr 2
      funext length
      show length + (offset + 1) = length + 1 + offset
      omega
    rw [Machine.loop_succ, anglesTurn_eq hdepth hl, t.rest_cursorAt hl, anglesLength?]
    split
    · next hlt => exact hnext (Nat.le_succ_of_le hdepth) (by rw [hlt]; decide)
    · split
      · next hgt =>
        have hkind : l.kind ≠ .endOfText := by rw [hgt]; decide
        split
        · next hlast =>
          rw [if_pos (by omega), Nat.add_comm offset 1]
          rfl
        · next hopen =>
          rw [if_neg (by omega)]
          exact hnext (Nat.pos_of_ne_zero hopen) hkind
      · split
        · next hinside =>
          exact hnext hdepth fun hkind => by rw [hkind, hend] at hinside; cases hinside
        · rfl

/-- What the scan gives at a lexeme that opens type arguments. -/
theorem behindAngles_eq {inside : LexemeKind → Bool} (hend : inside .endOfText = false)
    {offset : Nat} (hl : t.lexemes[k + offset]? = some l) (hkind : l.kind = .lt) :
    Descent.behindAngles inside offset t k
      = .ok ((anglesLength? inside 1 (t.cursorAt (k + (offset + 1))).rest).map
        (· + (offset + 1)), k) := by
  have hlt : k + (offset + 1) < t.lexemes.length := t.succ_lt hl (by rw [hkind]; decide)
  obtain ⟨fuel, hfuel⟩ := Nat.exists_eq_add_one_of_ne_zero (Nat.ne_zero_of_lt hlt)
  have hturn : Descent.anglesTurn inside t k (0, offset) = .ok (.inl (1, offset + 1)) := by
    show (index t.lexemes (k + offset) >>= fun l => _) = _
    rw [index_eq hl]
    exact if_pos hkind
  have hloop := loop_anglesTurn hend (Nat.le_refl 1) hlt
    (show _ ≤ fuel + (k + (offset + 1)) by omega)
  show (Machine.loop (Descent.anglesTurn inside t k) t.lexemes.length (0, offset) >>= fun length =>
    .ok (length, k)) = _
  rw [hfuel, Machine.loop_succ, hturn]
  show (Machine.loop (Descent.anglesTurn inside t k) fuel (1, offset + 1) >>= _) = _
  rw [hloop]
  rfl

/-- Elsewhere the depth of the scan would fall below zero. -/
example : Descent.behindAngles isTypeShaped 0
    ⟨">", [⟨.gt, ">", ⟨0, 1⟩⟩, ⟨.endOfText, "", ⟨1, 1⟩⟩], rfl⟩ 0 = .error (.fault .underflow) := by
  rfl

-- ================================================================= runs

theorem past_cons {run : List Lexeme} {c : Syntax.Cursor} (h : (t.cursorAt k).Past (l :: run) c) :
    t.lexemes[k]? = some l ∧ l.kind ≠ .endOfText ∧ (t.cursorAt (k + 1)).Past run c := by
  have hdrop : t.lexemes.drop k = l :: (run ++ c.rest) := h.rest
  have hl : t.lexemes[k]? = some l := by
    rw [← Nat.add_zero k, ← List.getElem?_drop, hdrop]
    rfl
  obtain ⟨hkind, hkinds⟩ := List.forall_mem_cons.mp h.kinds
  have hpast := (Cursor.past_next_of_cons (t.rest_cursorAt hl) hkind).1
  have hnext := t.next_cursorAt hl hkind
  refine ⟨hl, hkind, h.source, ?_, ?_, hkinds⟩
  · exact (List.cons.inj ((t.rest_cursorAt hl).symm.trans hdrop)).2
  · rw [← hnext, hpast.lastEnd]
    exact h.lastEnd

/-- Behind a run without the end there is another lexeme. -/
theorem lt_of_past {run : List Lexeme} {c : Syntax.Cursor} (h : (t.cursorAt k).Past run c)
    (hk : k < t.lexemes.length) : k + run.length < t.lexemes.length := by
  induction run generalizing k with
  | nil => exact hk
  | cons l run ih =>
    obtain ⟨hl, hkind, hpast⟩ := past_cons h
    have hlt := ih hpast (t.succ_lt hl hkind)
    rw [List.length_cons]
    omega

theorem advanceBy_eq {run : List Lexeme} {c : Syntax.Cursor} (h : (t.cursorAt k).Past run c)
    (hk : k < t.lexemes.length) :
    Descent.advanceBy run.length t k = .ok ((), k + run.length) := by
  refine repeated_rule Descent.advanceTurn
    (fun left k => ∃ run c, (t.cursorAt k).Past run c ∧ run.length = left)
    (fun left k r => r = .ok ((), k + left)) (fun left k hleft hk => ?_) ⟨run, c, h, rfl⟩ hk
  obtain ⟨run, c, hpast, rfl⟩ := hleft
  cases run with
  | nil => exact .result rfl
  | cons l run =>
    obtain ⟨hl, hkind, hnext⟩ := past_cons hpast
    refine Turned.advance hl hkind (.again (Nat.lt_succ_self k) (t.succ_lt hl hkind)
      ⟨⟨run, c, hnext, rfl⟩, fun r hr => ?_⟩)
    rw [hr, List.length_cons]
    congr 2
    omega

theorem skip_of_past {run : List Lexeme} {c : Syntax.Cursor} (h : (t.cursorAt k).Past run c) :
    (t.cursorAt k).skip run.length = t.cursorAt (k + run.length) :=
  t.eq_cursorAt_of_past (Cursor.past_skip_length h.kinds h.rest)

/-- At a lexeme that opens an angle bracket, it goes past that and past what is
measured inside type arguments. -/
theorem skipAngles_eq (hl : t.lexemes[k]? = some l) (hkind : l.kind = .lt) :
    ∃ run, (t.cursorAt k).Past (l :: run) (t.cursorAt (k + (run.length + 1)))
      ∧ Descent.skipAngles t k = .ok ((), k + (run.length + 1))
      ∧ run.length = (typeArgumentsLength? 1 (t.cursorAt (k + 1)).rest).getD 0 := by
  have hend : l.kind ≠ .endOfText := by rw [hkind]; decide
  have hpast := (Cursor.past_next_of_cons (t.rest_cursorAt hl) hend).1
  rw [t.next_cursorAt hl hend] at hpast
  have hlength : Descent.typeArgumentsLength t k = _ := behindAngles_eq rfl hl hkind
  rw [← typeArgumentsLength?_eq] at hlength
  cases hmeasured : typeArgumentsLength? 1 (t.cursorAt (k + 1)).rest with
  | none =>
    rw [hmeasured] at hlength
    exact ⟨[], hpast, (Descent.bind_eq hlength).trans (Tracks.advance_eq hl hend), rfl⟩
  | some length =>
    rw [hmeasured] at hlength
    rw [typeArgumentsLength?_eq] at hmeasured
    obtain ⟨run, rest, hrest, rfl, hkinds⟩ := exists_run_of_anglesLength? rfl hmeasured
    have hrun := hpast.trans (Cursor.past_skip_length hkinds hrest)
    rw [t.eq_cursorAt_of_past hrun] at hrun
    have hk := (List.getElem?_eq_some_iff.mp hl).1
    exact ⟨run, hrun, (Descent.bind_eq hlength).trans (advanceBy_eq hrun hk), rfl⟩

-- ========================================================== expressions

/-- What is left of an expression of which so many lexemes are measured. -/
def expressionMeasured (stops : List LexemeKind) (measured : Nat × ScanEnd) : Parser Unit := do
  Parser.advanceBy measured.1
  match measured.2 with
  | .found => return ()
  | .endOfText => Parser.missing (stops.headD .semicolon)
  | .unmatched => Parser.fail "CS1519" ("Invalid token '" ++ (← Parser.text) ++ "' in expression")

/-- What is left of an expression in which so many brackets are open. -/
def expressionRest (stops : List LexemeKind) (depth : Nat) : Parser Unit := fun c =>
  expressionMeasured stops (scanUntil stops 0 depth c.rest) c

theorem expressionMeasured_past {run : List Lexeme} {c : Syntax.Cursor}
    (h : (t.cursorAt k).Past run c) (stops : List LexemeKind) (n : Nat) (e : ScanEnd) :
    expressionMeasured stops (n + run.length, e) (t.cursorAt k)
      = expressionMeasured stops (n, e) (t.cursorAt (k + run.length)) := by
  have hskip : (t.cursorAt k).skip (n + run.length) = (t.cursorAt (k + run.length)).skip n := by
    rw [Nat.add_comm, ← Cursor.skip_add, skip_of_past h]
  unfold expressionMeasured
  exact congrArg (fun c => (match e with
    | .found => pure ()
    | .endOfText => Parser.missing (stops.headD .semicolon)
    | .unmatched => do
      Parser.fail "CS1519" ("Invalid token '" ++ (← Parser.text) ++ "' in expression") :
    Parser Unit) c) hskip

/-- What is inside type arguments is gone past. -/
theorem scanUntil_inside (stops : List LexemeKind) (depth : Nat) (run rest : List Lexeme) :
    scanUntil stops run.length depth (run ++ rest)
      = ((scanUntil stops 0 depth rest).1 + run.length, (scanUntil stops 0 depth rest).2) := by
  induction run with
  | nil => rfl
  | cons l run ih =>
    rw [List.length_cons, List.cons_append, scanUntil, ih]
    rfl

/-- Type arguments that are gone past leave of an expression what is behind them. -/
theorem expressionRest_angles {run : List Lexeme} {stops : List LexemeKind} {depth : Nat}
    (hl : t.lexemes[k]? = some l) (hlt : l.kind = .lt)
    (hstop : ¬(depth = 0 && stops.contains l.kind) = true)
    (hrun : (t.cursorAt k).Past (l :: run) (t.cursorAt (k + (run.length + 1))))
    (hinside : run.length = (typeArgumentsLength? 1 (t.cursorAt (k + 1)).rest).getD 0) :
    expressionRest stops depth (t.cursorAt k)
      = expressionRest stops depth (t.cursorAt (k + (run.length + 1))) := by
  have hend : l.kind ≠ .endOfText := by rw [hlt]; decide
  have hrest : (t.cursorAt (k + 1)).rest = run ++ (t.cursorAt (k + (run.length + 1))).rest :=
    (List.cons.inj ((t.rest_cursorAt hl).symm.trans hrun.rest)).2
  unfold expressionRest
  rw [t.rest_cursorAt hl, scanUntil, if_neg hstop, if_neg hend, if_pos hlt, ← hinside, hrest]
  show expressionMeasured stops ((scanUntil stops run.length depth (run ++ _)).1 + 1,
    (scanUntil stops run.length depth (run ++ _)).2) (t.cursorAt k) = _
  rw [scanUntil_inside]
  exact expressionMeasured_past hrun stops _ _

theorem expressionTurn_scans {stops : List LexemeKind} {depth : Nat}
    (hl : t.lexemes[k]? = some l) :
    Scans t k (fun _ => True) (expressionRest stops) depth
      (Descent.expressionTurn stops depth t k) := by
  have hk := (List.getElem?_eq_some_iff.mp hl).1
  have hmeasured (measured : Nat × ScanEnd)
      (h : scanUntil stops 0 depth (t.cursorAt k).rest = measured) :
      expressionRest stops depth (t.cursorAt k) = expressionMeasured stops measured (t.cursorAt k) := by
    unfold expressionRest
    rw [h]
  rw [t.rest_cursorAt hl, scanUntil] at hmeasured
  unfold Descent.expressionTurn
  refine Turned.kind hl (Turned.ite (fun hstop => ?_) fun hstop => ?_)
  · rw [if_pos hstop] at hmeasured
    exact Scans.done hk (hmeasured _ rfl)
  rw [if_neg hstop] at hmeasured
  refine Turned.ite (fun hend => ?_) fun hend => ?_
  · rw [if_pos hend] at hmeasured
    exact Scans.missing hk (hmeasured _ rfl)
  rw [if_neg hend] at hmeasured
  have hpast := (Cursor.past_next_of_cons (t.rest_cursorAt hl) hend).1
  refine Turned.ite (fun hlt => ?_) fun hlt => ?_
  · obtain ⟨run, hrun, hskip, hinside⟩ := skipAngles_eq hl hlt
    refine Turned.after hskip (.again ?_ (lt_of_past hrun hk) ⟨trivial, ?_⟩)
    · exact Nat.lt_add_of_pos_right (Nat.succ_pos _)
    · exact expressionRest_angles hl hlt hstop hrun hinside
  rw [if_neg hlt] at hmeasured
  refine Turned.ite (fun hopening => ?_) fun hopening => ?_
  · rw [if_pos hopening] at hmeasured
    exact Scans.next hl hend trivial ((hmeasured _ rfl).trans (expressionMeasured_past hpast ..))
  rw [if_neg hopening] at hmeasured
  refine Turned.ite (fun hclosing => ?_) fun hclosing => ?_
  · rw [if_pos hclosing] at hmeasured
    refine Turned.ite (fun hzero => ?_) fun hopen => ?_
    · rw [if_pos hzero] at hmeasured
      refine Turned.text hl (Scans.fail hk ((hmeasured _ rfl).trans ?_))
      show (Parser.text (t.cursorAt k) >>= fun r => Parser.fail "CS1519"
        ("Invalid token '" ++ r.1 ++ "' in expression") r.2) = _
      rw [Tracks.text_eq hl]
      rfl
    · rw [if_neg hopen] at hmeasured
      refine Turned.compute (sub_eq (Nat.pos_of_ne_zero hopen)) ?_
      exact Scans.next hl hend trivial ((hmeasured _ rfl).trans (expressionMeasured_past hpast ..))
  · rw [if_neg hclosing] at hmeasured
    exact Scans.next hl hend trivial ((hmeasured _ rfl).trans (expressionMeasured_past hpast ..))

instance (stops : List LexemeKind) :
    Accords t n Never (Descent.skipUntil stops) (Parser.skipUntil stops) :=
  accords_repeated (fun _ => True) (expressionRest stops) (fun _ _ _ _ => expressionTurn_scans)
    trivial

-- ============================================================ operators

/-- What is left of the spelling of an operator, and the spelling. -/
def operatorRest (spelling : String) : Parser String := fun c =>
  (do
    Parser.advanceBy (Parser.operatorSpelling spelling c.rest).2
    return (Parser.operatorSpelling spelling c.rest).1 : Parser String) c

theorem operatorTurn_scans {spelling : String} (hl : t.lexemes[k]? = some l) :
    Scans t k (fun _ => True) operatorRest spelling (Descent.operatorTurn spelling t k) := by
  have hk := (List.getElem?_eq_some_iff.mp hl).1
  have hmeasured (measured : String × Nat)
      (h : Parser.operatorSpelling spelling (t.cursorAt k).rest = measured) :
      operatorRest spelling (t.cursorAt k) = .ok (measured.1, (t.cursorAt k).skip measured.2) := by
    subst h
    rfl
  rw [t.rest_cursorAt hl, Parser.operatorSpelling] at hmeasured
  unfold Descent.operatorTurn
  refine Turned.kind hl (Turned.ite (fun hstop => ?_) fun hstop => ?_)
  · rw [if_pos hstop] at hmeasured
    exact Scans.done hk (hmeasured _ rfl)
  · rw [if_neg hstop] at hmeasured
    have hend : l.kind ≠ .endOfText := fun hend => hstop (by rw [hend]; rfl)
    refine Turned.text hl (Scans.next hl hend trivial ((hmeasured _ rfl).trans ?_))
    show _ = Except.ok ((Parser.operatorSpelling (spelling ++ l.text) (t.cursorAt (k + 1)).rest).1,
      (t.cursorAt (k + 1)).skip _)
    rw [← t.next_cursorAt hl hend]
    rfl

instance : Accords t n Never Descent.operatorSpelling (operatorRest "") :=
  accords_repeated (fun _ => True) operatorRest (fun _ _ _ _ => operatorTurn_scans) trivial

-- ========================================================== constraints

/-- What is left of constraint clauses, in which so many parentheses are
open. -/
def constraintRest (depth : Nat) : Parser Unit := fun c =>
  skipOver (constraintsLength? depth c.rest) (pure ()) (Parser.fail "CS1514" "\x7b expected") c

/-- What one clause comes to: what is left there is what was left before. -/
inductive Clause (t : Tokens) (k depth : Nat) : Machine (Bool × Nat) → Prop
  | last {stop : Nat} (hle : k ≤ stop) (hlt : stop < t.lexemes.length)
    (h : constraintRest depth (t.cursorAt k) = .ok ((), t.cursorAt stop)) :
    Clause t k depth (.ok (false, stop))
  | more {stop : Nat} {l : Lexeme} (hle : k ≤ stop) (hl : t.lexemes[stop]? = some l)
    (hword : l.kind = .identifier ∧ l.text = "where")
    (h : constraintRest depth (t.cursorAt k) = constraintRest 0 (t.cursorAt stop)) :
    Clause t k depth (.ok (true, stop))
  | complaint {d : Diagnostic}
    (h : constraintRest depth (t.cursorAt k) = .error (.complaint d)) :
    Clause t k depth (.error (.error (.syntaxErrors [d])))

theorem Clause.before {depth depth' stop : Nat} {r : Machine (Bool × Nat)}
    (h : Clause t stop depth' r) (hle : k ≤ stop)
    (hrest : constraintRest depth (t.cursorAt k) = constraintRest depth' (t.cursorAt stop)) :
    Clause t k depth r := by
  cases h with
  | last hle' hlt h => exact .last (Nat.le_trans hle hle') hlt (hrest.trans h)
  | more hle' hl hword h => exact .more (Nat.le_trans hle hle') hl hword (hrest.trans h)
  | complaint h => exact .complaint (hrest.trans h)

/-- A turn that goes past a lexeme of the clause. -/
theorem Clause.next {depth depth' : Nat} (hl : t.lexemes[k]? = some l)
    (hkind : l.kind ≠ .endOfText)
    (h : constraintRest depth (t.cursorAt k)
      = skipOver ((constraintsLength? depth' (t.cursorAt (k + 1)).rest).map (· + 1)) (pure ())
        (Parser.fail "CS1514" "\x7b expected") (t.cursorAt k)) :
    Turned t k (fun depth' stop => True ∧ ∀ r, Clause t stop depth' r → Clause t k depth r)
      (Clause t k depth)
      ((do Descent.advance; return .inl depth' : Descent (Nat ⊕ Bool)) t k) :=
  Turned.advance hl hkind (.again (Nat.lt_succ_self k) (t.succ_lt hl hkind)
    ⟨trivial, fun _ hr => hr.before (Nat.le_succ k) (h.trans (skipOver_next hl hkind _ _ _))⟩)

theorem clause_of_repeated {depth : Nat} (hk : k < t.lexemes.length) :
    Clause t k depth (Descent.repeated Descent.constraintTurn depth t k) := by
  refine repeated_rule Descent.constraintTurn (fun _ _ => True) (fun depth k => Clause t k depth)
    (fun depth k _ hk => ?_) trivial hk
  obtain ⟨l, hl⟩ := t.exists_lexeme hk
  have hskip (measured : Option Nat)
      (h : constraintsLength? depth (t.cursorAt k).rest = measured) :
      constraintRest depth (t.cursorAt k) = skipOver measured (pure ())
        (Parser.fail "CS1514" "\x7b expected") (t.cursorAt k) := by
    subst h
    rfl
  rw [t.rest_cursorAt hl, constraintsLength?] at hskip
  unfold Descent.constraintTurn
  refine Turned.kind hl (Turned.ite (fun hend => ?_) fun hend => ?_)
  · obtain ⟨d, hd, hp⟩ := t.complaint_of_fail hk "CS1514" "\x7b expected"
    rw [if_pos hend] at hskip
    rw [hd]
    exact .error (.complaint ((hskip _ rfl).trans ((skipOver_end hl hend _ _).trans hp)))
  rw [if_neg hend] at hskip
  refine Turned.ite (fun hopening => ?_) fun hopening => Turned.ite (fun hclosing => ?_)
    fun hclosing => Turned.ite (fun hlast => ?_) fun hlast => Turned.text hl
      (Turned.ite (fun hword => ?_) fun hword => ?_)
  · rw [if_pos hopening] at hskip
    exact Clause.next hl hend (hskip _ rfl)
  · rw [if_neg hopening, if_pos hclosing] at hskip
    exact Clause.next hl hend (hskip _ rfl)
  · rw [if_neg hopening, if_neg hclosing, if_pos hlast] at hskip
    exact .result (.last (Nat.le_refl k) hk (hskip _ rfl))
  · simp only [Bool.and_eq_true, decide_eq_true_eq] at hword
    obtain ⟨⟨rfl, hword⟩, htext⟩ := hword
    exact .result (.more (Nat.le_refl k) hl ⟨hword, htext⟩ rfl)
  · rw [if_neg hopening, if_neg hclosing, if_neg hlast] at hskip
    exact Clause.next hl hend (hskip _ rfl)

/-- What is left of constraint clauses, if one is next. -/
def constraintsRest : Unit → Parser Unit := fun () => do
  if ← Parser.atWord "where" then constraintRest 0 else return ()

theorem constraintsRest_eq (hl : t.lexemes[k]? = some l) :
    constraintsRest () (t.cursorAt k)
      = if decide (l.kind = .identifier) && decide (l.text = "where") then
          constraintRest 0 (t.cursorAt k)
        else .ok ((), t.cursorAt k) := by
  show (Parser.atWord "where" (t.cursorAt k) >>= fun r =>
    (if r.1 then constraintRest 0 else pure () : Parser Unit) r.2) = _
  rw [(Tracks.atWord_eq hl "where").2]
  exact apply_ite (fun p : Parser Unit => p (t.cursorAt k)) _ _ _

theorem constraintsTurn_scans (hl : t.lexemes[k]? = some l) :
    Scans t k (fun _ => True) constraintsRest () (Descent.constraintsTurn () t k) := by
  have hrest := constraintsRest_eq hl
  unfold Descent.constraintsTurn
  refine Turned.after (Tracks.atWord_eq hl "where").1 (Turned.ite (fun hword => ?_) fun hword => ?_)
  · rw [if_pos hword] at hrest
    simp only [Bool.and_eq_true, decide_eq_true_eq] at hword
    have hend : l.kind ≠ .endOfText := by rw [hword.1]; decide
    have hlt := t.succ_lt hl hend
    have hnext : constraintRest 0 (t.cursorAt k) = constraintRest 0 (t.cursorAt (k + 1)) := by
      refine Eq.trans ?_ (skipOver_next hl hend _ _ _)
      unfold constraintRest
      rw [t.rest_cursorAt hl, constraintsLength?, hword.1]
      rfl
    rw [hnext] at hrest
    refine Turned.advance hl hend ?_
    have hclause : Clause t (k + 1) 0 _ := clause_of_repeated hlt
    show Turned t k _ _ (Descent.repeated Descent.constraintTurn 0 t (k + 1) >>= fun r =>
      (if r.1 then pure (.inl ()) else pure (.inr ()) : Descent (Unit ⊕ Unit)) t r.2)
    generalize Descent.repeated Descent.constraintTurn 0 t (k + 1) = r at hclause ⊢
    cases hclause with
    | last hle hlt' h =>
      rw [hrest, h]
      exact .result (.ok (Nat.le_of_lt hle) hlt' trivial)
    | more hle hl' hword' h =>
      have hrest' := constraintsRest_eq hl'
      rw [if_pos (by rw [hword'.1, hword'.2]; rfl)] at hrest'
      exact .again hle (List.getElem?_eq_some_iff.mp hl').1
        ⟨trivial, hrest.trans (h.trans hrest'.symm)⟩
    | complaint h =>
      rw [hrest, h]
      exact .error (.complaint _)
  · rw [if_neg hword] at hrest
    exact Scans.done (List.getElem?_eq_some_iff.mp hl).1 hrest

-- ================================================================ names

theorem memberFollows_eq (c : Syntax.Cursor) :
    memberFollows c.rest = ((c.kindAt 0 = .lparen || c.kindAt 0 = .lbrace || c.kindAt 0 = .arrow
      || c.kindAt 0 = .semicolon || c.kindAt 0 = .assign || c.kindAt 0 = .comma)
      || c.kindAt 0 = .dot && c.kindAt 1 = .kwThis) := by
  unfold Cursor.kindAt
  cases c.rest with
  | nil => rfl
  | cons l rest =>
    show _ = ((l.kind = .lparen || l.kind = .lbrace || l.kind = .arrow || l.kind = .semicolon
      || l.kind = .assign || l.kind = .comma) || l.kind = .dot
        && (rest[0]?.map Lexeme.kind).getD .endOfText = .kwThis)
    rw [memberFollows]
    cases l.kind
    case dot =>
      cases rest with
      | nil => rfl
      | cons m rest => exact decide_eq_decide.mpr Option.some_inj
    all_goals rfl

theorem memberFollowsAt_eq (k offset : Nat) :
    Descent.memberFollowsAt offset t k
      = .ok (memberFollows (t.cursorAt (k + offset)).rest, k) := by
  have hkind (j : Nat) : (t.cursorAt (k + offset)).kindAt j = (t.cursorAt k).kindAt (offset + j) := by
    rw [t.kindAt_cursorAt, t.kindAt_cursorAt, Nat.add_assoc]
  rw [memberFollows_eq, hkind, hkind]
  exact (Descent.bind_eq (Tracks.kindAt_eq t k offset)).trans
    (Descent.bind_eq (Tracks.kindAt_eq t k (offset + 1)))

/-- Whether a dotted name goes on, where a dot and an identifier are next. -/
theorem continuesTypeName_eq {l l' : Lexeme} (hl : t.lexemes[k]? = some l)
    (hl' : t.lexemes[k + 1]? = some l') (hkind : l'.kind = .identifier) :
    Descent.continuesTypeName t k = .ok (continuesTypeName (t.cursorAt k).rest, k) := by
  obtain ⟨m, hm⟩ : ∃ m, t.lexemes[k + 2]? = some m :=
    t.exists_lexeme (t.succ_lt hl' (by rw [hkind]; decide))
  have hahead : (t.cursorAt k).rest = l :: l' :: m :: (t.cursorAt (k + 3)).rest := by
    rw [t.rest_cursorAt hl, t.rest_cursorAt hl', t.rest_cursorAt hm]
  have hbehind : Descent.behindName t k = if m.kind = .lt then
      .ok ((anglesLength? Descent.staysInName 1 (t.cursorAt (k + 3)).rest).map (· + 3), k)
      else .ok (some 2, k) := by
    refine (Descent.bind_eq (Descent.peek_eq hm)).trans ?_
    split
    · next hlt => exact behindAngles_eq rfl hm hlt
    · rfl
  unfold Descent.continuesTypeName
  rw [hahead]
  show _ = Except.ok ((if m.kind = .lt then _ else _), k)
  split
  · next hlt =>
    rw [if_pos hlt] at hbehind
    rw [Descent.bind_eq hbehind, afterAngles?_eq]
    cases anglesLength? Descent.staysInName 1 (t.cursorAt (k + 3)).rest with
    | none => rfl
    | some length =>
      have hdrop : (t.cursorAt (k + 3)).rest.drop length = (t.cursorAt (k + (length + 3))).rest := by
        show (t.lexemes.drop (k + 3)).drop length = t.lexemes.drop (k + (length + 3))
        rw [List.drop_drop]
        congr 1
        omega
      show _ = Except.ok (!memberFollows ((t.cursorAt (k + 3)).rest.drop length), k)
      rw [hdrop]
      exact Descent.bind_eq (memberFollowsAt_eq k (length + 3))
  · next hlt =>
    rw [if_neg hlt] at hbehind
    rw [Descent.bind_eq hbehind, ← t.rest_cursorAt hm]
    exact Descent.bind_eq (memberFollowsAt_eq k 2)

instance (inHeader : Bool) : Accords t n Never (Descent.goesOn inHeader) (do
    let dotted := (← Parser.atKind .dot) && (← Parser.kindAt 1) = .identifier
    return dotted && (!inHeader || continuesTypeName (← get).rest)) where
  tracks k _ hk := by
    refine .look hk ?_ rfl False.elim
    refine (Descent.bind_eq (Tracks.atKind_eq t k .dot)).trans
      ((Descent.bind_eq (Tracks.kindAt_eq t k 1)).trans ?_)
    by_cases hdotted : ((t.cursorAt k).kindAt 0 = .dot && (t.cursorAt k).kindAt 1 = .identifier)
    · rw [if_pos hdotted]
      simp only [Bool.and_eq_true, decide_eq_true_eq] at hdotted
      obtain ⟨l, hl, -⟩ := t.exists_of_kindAt hdotted.1 (by decide)
      obtain ⟨l', hl', hkind⟩ := t.exists_of_kindAt hdotted.2 (by decide)
      rw [hdotted.1, hdotted.2]
      cases inHeader with
      | false => rfl
      | true => exact continuesTypeName_eq hl hl' hkind
    · rw [if_neg hdotted, (Bool.not_eq_true _).mp hdotted]
      rfl

instance : Accords t n Never Descent.skipConstraints Parser.skipConstraints :=
  accords_repeated (fun _ => True) constraintsRest (fun _ _ _ _ => constraintsTurn_scans) trivial

end ClrListing.Machine
