/-
Reading on a machine.

A machine holds all the bytes and moves a place in them, where a reader
holds the bytes that are left. A cursor follows a reader if, at every
place, it gives what the reader gives on the bytes from there on, fails as
the reader fails, and never faults (`Follows`). Cursors that follow
readers do so in sequence, so the law about a whole format follows the
format. It also tells how far the place moves at least, which is why a
loop over a cursor that moves ends, whatever number of turns it is told
to take.
-/
import ClrListing.Proofs.Machine.Word
import ClrListing.Proofs.Metadata.Values

namespace ClrListing.Machine

open Metadata

/-- A step of a machine on bytes, at a place that it moves. -/
abbrev Cursor := ReaderT (List UInt8) (StateT Nat Machine)

variable {α β : Type} {data : List UInt8}

namespace Cursor

-- ============================================================= cursors

/-- What is computed without reading. -/
def compute (x : Machine α) : Cursor α := fun _ place => do return (← x, place)

/-- Stops because something is wrong with what was read. -/
def fail (e : Error) : Cursor α := compute (Machine.fail e)

/-- What a cursor gives at the start of bytes. -/
def value (c : Cursor α) (data : List UInt8) : Machine α := do return (← c data 0).1

/-- The next number of so many bytes. -/
def number (size : Nat) : Cursor Nat := fun data place =>
  match checkedAdd 64 place size with
  | none => Machine.fail .outOfBounds
  | some stop =>
    if data.length < stop then Machine.fail .outOfBounds
    else do
      let bytes ← part data place stop
      return (littleEndian bytes, stop)

/-- The next byte. -/
def byte : Cursor Nat := number 1

/-- The next byte, at which the place stays. -/
def peek : Cursor Nat := fun data place =>
  match data[place]? with
  | some b => pure (b.toNat, place)
  | none => Machine.fail .outOfBounds

/-- The values of cursors that take turns, from a first one on. -/
def turns (c : Nat → Cursor α) : (fuel first count : Nat) → Cursor (List α)
  | _, _, 0 => return []
  | 0, _, _ + 1 => compute (fault .endless)
  | fuel + 1, first, count + 1 => do
    let a ← c first
    let rest ← turns c fuel (first + 1) count
    return a :: rest

/-- The values of a cursor that takes its turn so many times. -/
def times (c : Cursor α) (fuel count : Nat) : Cursor (List α) := turns (fun _ => c) fuel 0 count

theorem turns_zero (c : Nat → Cursor α) (fuel first : Nat) : turns c fuel first 0 = pure [] := by
  cases fuel <;> rfl

/-- A number with the next byte behind its own. -/
def appendByte (n : Nat) : Cursor Nat := do
  let high ← compute (shiftLeft 32 n 8)
  let low ← byte
  return high ||| low

/-- The next compressed number. -/
def compressed : Cursor Nat := do
  let first ← byte
  if first &&& 0x80 = 0 then return first
  else if first &&& 0xc0 = 0x80 then appendByte (first &&& 0x3f)
  else if first &&& 0xe0 = 0xc0 then
    let two ← appendByte (first &&& 0x1f)
    let three ← appendByte two
    appendByte three
  else fail (.damaged (.compressedNumber first))

/-- The token of a row that a compressed token names in a table. -/
def tokenIn (table n : Nat) : Cursor Token := do
  let high ← compute (shiftLeft 32 table 24)
  let low ← compute (shiftRight 32 n 2)
  return ⟨UInt32.ofNat (high ||| low)⟩

/-- The next compressed token. -/
def compressedToken : Cursor Token := do
  let n ← compressed
  match n &&& 0x3 with
  | 0 => tokenIn TableId.typeDef.code n
  | 1 => tokenIn TableId.typeRef.code n
  | 2 => tokenIn TableId.typeSpec.code n
  | _ => fail (.damaged (.compressedToken n))

end Cursor

-- =========================================================== following

/-- A machine gives what a reader gives, at a place that is not before
`least`, or fails as the reader does. -/
inductive Alike (data : List UInt8) (least : Nat) :
    Machine (α × Nat) → Except Error (α × List UInt8) → Prop
  | ok (a : α) {place : Nat} (hleast : least ≤ place) (hplace : place ≤ data.length) :
    Alike data least (.ok (a, place)) (.ok (a, data.drop place))
  | error (e : Error) : Alike data least (fail e) (.error e)

namespace Alike

variable {least least' : Nat} {x : Machine (α × Nat)} {y : Except Error (α × List UInt8)}

theorem bind {f : α → Nat → Machine (β × Nat)}
    {g : α → List UInt8 → Except Error (β × List UInt8)} (h : Alike data least x y)
    (hf : ∀ a place, y = .ok (a, data.drop place) → least ≤ place → place ≤ data.length →
      Alike data least' (f a place) (g a (data.drop place))) :
    Alike data least' (x >>= fun r => f r.1 r.2) (y >>= fun r => g r.1 r.2) := by
  cases h with
  | error e => exact .error e
  | ok a hleast hplace => exact hf a _ rfl hleast hplace

theorem mono (h : Alike data least x y) (hle : least' ≤ least) : Alike data least' x y := by
  cases h with
  | error e => exact .error e
  | ok a hleast hplace => exact .ok a (Nat.le_trans hle hleast) hplace

theorem fst_eq (h : Alike data least x y) :
    (do return (← x).1) = lift (y.map Prod.fst) := by
  cases h <;> rfl

end Alike

/-- A cursor does on bytes, at every place, what a reader does on those from
there on, and moves on by so many bytes at least. -/
def Follows (data : List UInt8) (least : Nat) (c : Cursor α) (r : Reader α) : Prop :=
  ∀ place, place ≤ data.length → Alike data (place + least) (c data place) (r (data.drop place))

namespace Follows

variable {least any : Nat} {c : Cursor α} {r : Reader α} {f : α → Cursor β} {g : α → Reader β}

theorem pure (a : α) : Follows data 0 (pure a) (pure a) :=
  fun _ hplace => .ok a (Nat.le_refl _) hplace

theorem fail (e : Error) : Follows data least (Cursor.fail e : Cursor α) (throw e) :=
  fun _ _ => .error e

theorem mono (h : Follows data least c r) {less : Nat} (hle : less ≤ least) :
    Follows data less c r :=
  fun place hplace => (h place hplace).mono (by omega)

theorem still (h : Follows data least c r) : Follows data 0 c r := h.mono (Nat.zero_le _)

/-- In sequence, with what is known of all values that the reader gives. -/
theorem sequence {P : α → Prop} (h : Follows data any c r) (hr : Always r P)
    (hf : ∀ a, P a → Follows data least (f a) (g a)) :
    Follows data (any + least) (c >>= f) (r >>= g) := by
  intro place hplace
  refine Alike.bind (f := fun a place => f a data place) (g := fun a bytes => g a bytes)
    (h place hplace) fun a place' hread hleast hplace' => ?_
  exact (hf a (hr _ _ _ hread) place' hplace').mono (by omega)

/-- In sequence, where the first part moves on as far as is asked. -/
theorem bind_of {P : α → Prop} (h : Follows data least c r) (hr : Always r P)
    (hf : ∀ a, P a → Follows data 0 (f a) (g a)) : Follows data least (c >>= f) (r >>= g) :=
  h.sequence hr hf

theorem bind (h : Follows data least c r) (hf : ∀ a, Follows data 0 (f a) (g a)) :
    Follows data least (c >>= f) (r >>= g) :=
  h.bind_of (P := fun _ => True) (fun _ _ _ _ => trivial) fun a _ => hf a

/-- In sequence, where the second part moves on as far as is asked. -/
theorem after_of {P : α → Prop} (h : Follows data any c r) (hr : Always r P)
    (hf : ∀ a, P a → Follows data least (f a) (g a)) : Follows data least (c >>= f) (r >>= g) := by
  have hall := h.still.sequence hr hf
  rwa [Nat.zero_add] at hall

theorem after (h : Follows data any c r) (hf : ∀ a, Follows data least (f a) (g a)) :
    Follows data least (c >>= f) (r >>= g) :=
  h.after_of (P := fun _ => True) (fun _ _ _ _ => trivial) fun a _ => hf a

/-- A computation that does not fault gives way to what follows it. -/
theorem compute {x : Machine β} {b : β} {f : β → Cursor α} (hx : x = .ok b)
    (h : Follows data least (f b) r) : Follows data least (Cursor.compute x >>= f) r := by
  subst hx
  exact h

theorem ite {p q : Prop} [Decidable p] [Decidable q] {c' : Cursor α} {r' : Reader α} (hpq : p ↔ q)
    (h : q → Follows data least c r) (h' : ¬ q → Follows data least c' r') :
    Follows data least (if p then c else c') (if q then r else r') := by
  by_cases hq : q
  · rw [if_pos (hpq.mpr hq), if_pos hq]
    exact h hq
  · rw [if_neg (mt hpq.mp hq), if_neg hq]
    exact h' hq

/-- Either part, with what stands behind both. -/
theorem branch {p q : Prop} [Decidable p] [Decidable q] {any' : Nat} {c' : Cursor α}
    {r' : Reader α} (hpq : p ↔ q) (h : Follows data any c r) (h' : Follows data any' c' r')
    (hf : ∀ a, Follows data least (f a) (g a)) :
    Follows data least (if p then c >>= f else c' >>= f) (if q then r >>= g else r' >>= g) :=
  .ite hpq (fun _ => h.after hf) fun _ => h'.after hf

/-- From the start of bytes, a cursor gives what a reader gives. -/
theorem value_eq (h : Follows data least c r) : c.value data = lift (r.value data) :=
  (h 0 (Nat.zero_le _)).fst_eq

end Follows

-- ============================================================= numbers

/-- A number is read at any place, also past the end of the bytes. -/
theorem number_at (hdata : data.length < 2 ^ 64) {size : Nat} (hsize : 0 < size) (place : Nat) :
    Cursor.number size data place
      = if place + size ≤ data.length then pure (wordAt data place size, place + size)
        else Machine.fail .outOfBounds := by
  unfold Cursor.number checkedAdd
  by_cases h : place + size ≤ data.length
  · rw [if_pos h, if_pos (by omega)]
    dsimp only
    rw [if_neg (by omega), part_eq (by omega) h, Nat.add_sub_cancel_left]
    rfl
  · rw [if_neg h]
    by_cases hword : place + size < 2 ^ 64
    · rw [if_pos hword]
      exact if_pos (by omega)
    · rw [if_neg hword]

theorem number_ok (hdata : data.length < 2 ^ 64) {size place : Nat} (hsize : 0 < size)
    (h : place + size ≤ data.length) :
    Cursor.number size data place = pure (wordAt data place size, place + size) :=
  (number_at hdata hsize place).trans (if_pos h)

theorem follows_number (hdata : data.length < 2 ^ 64) {size : Nat} (hsize : 0 < size) :
    Follows data size (Cursor.number size) (Reader.number size) := by
  intro place hplace
  rw [number_at hdata hsize, number_eq, List.length_drop]
  by_cases h : place + size ≤ data.length
  · rw [if_pos h, if_pos (by omega), List.drop_drop]
    exact .ok _ (Nat.le_refl _) h
  · rw [if_neg h, if_neg (by omega)]
    exact .error _

theorem follows_byte (hdata : data.length < 2 ^ 64) : Follows data 1 Cursor.byte Reader.byte :=
  follows_number hdata Nat.one_pos

theorem follows_peek : Follows data 0 Cursor.peek Reader.peek := by
  intro place hplace
  unfold Cursor.peek Reader.peek
  cases hget : data[place]? with
  | none =>
    have hnil : data.drop place = [] := List.drop_eq_nil_of_le (List.getElem?_eq_none_iff.mp hget)
    rw [hnil]
    exact .error _
  | some b =>
    obtain ⟨hlt, hb⟩ := List.getElem?_eq_some_iff.mp hget
    have hcons := List.drop_eq_getElem_cons hlt
    rw [hb] at hcons
    have hok : Alike data (place + 0) (.ok (b.toNat, place)) (.ok (b.toNat, data.drop place)) :=
      .ok _ (Nat.le_refl _) hplace
    rw [hcons] at hok ⊢
    exact hok

/-- The values of readers that take turns, from a first one on. -/
def readTurns (r : Nat → Reader α) : (first count : Nat) → Reader (List α)
  | _, 0 => return []
  | first, count + 1 => do
    let a ← r first
    let rest ← readTurns r (first + 1) count
    return a :: rest

theorem readTurns_const (r : Reader α) (first count : Nat) :
    readTurns (fun _ => r) first count = Reader.times count r := by
  induction count generalizing first with
  | zero => rfl
  | succ count ih =>
    rw [readTurns, ih]
    rfl

/-- A loop over what moves on ends, however many turns it is told to
take. -/
theorem follows_turns {fuel : Nat} {c : Nat → Cursor α} {r : Nat → Reader α}
    (h : ∀ turn, Follows data 1 (c turn) (r turn)) (hfuel : data.length < fuel)
    (first count : Nat) :
    Follows data 0 (Cursor.turns c fuel first count) (readTurns r first count) := by
  -- what is left of the bytes is less than what is left of the turns
  suffices hall : ∀ count fuel first place, data.length < fuel + place → place ≤ data.length →
      Alike data place (Cursor.turns c fuel first count data place)
        (readTurns r first count (data.drop place)) from
    fun place hplace => hall count fuel first place (by omega) hplace
  intro count
  induction count with
  | zero =>
    intro fuel first place _ hplace
    rw [Cursor.turns_zero]
    exact Follows.pure [] place hplace
  | succ count ih =>
    intro fuel first place hfuel hplace
    cases fuel with
    | zero => omega
    | succ fuel =>
      refine Alike.bind
        (f := fun a place => (do return a :: (← Cursor.turns c fuel (first + 1) count)) data place)
        (g := fun a bytes => (do return a :: (← readTurns r (first + 1) count)) bytes)
        (h first place hplace) fun a place' _ hleast hplace' => ?_
      refine Alike.bind (f := fun as place => pure (a :: as, place))
        (g := fun as bytes => pure (a :: as, bytes))
        (ih fuel (first + 1) place' (by omega) hplace') fun as place'' _ hleast' hplace'' => ?_
      exact .ok _ (by omega) hplace''

theorem follows_times {fuel : Nat} {c : Cursor α} {r : Reader α} (h : Follows data 1 c r)
    (hfuel : data.length < fuel) (count : Nat) :
    Follows data 0 (Cursor.times c fuel count) (Reader.times count r) := by
  rw [← readTurns_const r 0]
  exact follows_turns (fun _ => h) hfuel 0 count

-- ========================================================== compressed

/-- What a reader does that puts the next byte behind a number. -/
def appendNext (n : Nat) : Reader Nat := do return n * 0x100 + (← Reader.byte)

theorem always_appendNext {n limit : Nat} (h : n < limit) :
    Always (appendNext n) (· < limit * 0x100) :=
  always_byte.bind fun low hlow => .pure (by omega)

theorem follows_appendByte (hdata : data.length < 2 ^ 64) {n : Nat} (hn : n < 2 ^ 24) :
    Follows data 1 (Cursor.appendByte n) (appendNext n) := by
  refine .compute (shiftLeft_eq (by decide) (by omega)) ?_
  refine (follows_byte hdata).bind_of always_byte fun low hlow => ?_
  have hor : n * 2 ^ 8 ||| low = n * 0x100 + low := by
    rw [Nat.mul_comm, ← Nat.two_pow_add_eq_or_of_lt hlow, Nat.mul_comm]
  rw [hor]
  exact .pure _

/-- The bits that tell the size of a compressed number, read as a mask and
as a bound. -/
theorem first_bits : ∀ first < 256, (first &&& 0x80 = 0 ↔ first < 0x80)
    ∧ (¬ first < 0x80 → (first &&& 0xc0 = 0x80 ↔ first < 0xc0))
    ∧ (¬ first < 0xc0 → (first &&& 0xe0 = 0xc0 ↔ first < 0xe0))
    ∧ (¬ first < 0x80 → first < 0xc0 → first &&& 0x3f = first - 0x80)
    ∧ (¬ first < 0xc0 → first < 0xe0 → first &&& 0x1f = first - 0xc0) := by
  decide +kernel

theorem follows_compressed (hdata : data.length < 2 ^ 64) :
    Follows data 1 Cursor.compressed Reader.compressed := by
  refine (follows_byte hdata).bind_of always_byte fun first hfirst => ?_
  obtain ⟨hone, htwo, hfour, hlowTwo, hlowFour⟩ := first_bits first hfirst
  refine .ite hone (fun _ => .pure first) fun h0x80 => ?_
  refine .ite (htwo h0x80) (fun h0xc0 => ?_) fun h0xc0 => ?_
  · rw [hlowTwo h0x80 h0xc0]
    exact (follows_appendByte hdata (by omega)).still
  refine .ite (hfour h0xc0) (fun h0xe0 => ?_) fun _ => .fail _
  rw [hlowFour h0xc0 h0xe0]
  -- the three bytes are put behind the first one after the other
  have hreader : (do
      let second ← Reader.byte
      let third ← Reader.byte
      let fourth ← Reader.byte
      return (first - 0xc0) * 0x1000000 + second * 0x10000 + third * 0x100 + fourth)
      = (appendNext (first - 0xc0) >>= fun two => appendNext two >>= appendNext) := by
    simp only [appendNext, bind_assoc, pure_bind]
    refine congrArg _ (funext fun second => congrArg _ (funext fun third =>
      congrArg _ (funext fun fourth => congrArg _ ?_)))
    omega
  rw [hreader]
  have hfirst : first - 0xc0 < 0x20 := by omega
  exact (follows_appendByte hdata (by omega)).after_of (always_appendNext hfirst) fun two htwo =>
    (follows_appendByte hdata (by omega)).after_of (always_appendNext htwo) fun three hthree =>
      (follows_appendByte hdata (by omega)).still

theorem follows_tokenIn {table n : Nat} (htable : table < 2 ^ 8) :
    Follows data 0 (Cursor.tokenIn table n)
      (pure ⟨UInt32.ofNat (table * 0x1000000 ||| n / 4)⟩) := by
  refine .compute (shiftLeft_eq (by decide) (by omega)) ?_
  exact .compute (shiftRight_eq (by decide)) (.pure _)

theorem follows_compressedToken (hdata : data.length < 2 ^ 64) :
    Follows data 1 Cursor.compressedToken Reader.compressedToken := by
  refine (follows_compressed hdata).bind fun n => ?_
  have hmask : n &&& 0x3 = n % 4 := Nat.and_two_pow_sub_one_eq_mod n 2
  rw [hmask]
  have htag : n % 4 < 4 := Nat.mod_lt _ (by decide)
  generalize n % 4 = tag at htag
  match tag with
  | 0 => exact follows_tokenIn (by decide)
  | 1 => exact follows_tokenIn (by decide)
  | 2 => exact follows_tokenIn (by decide)
  | 3 => exact .fail _

end ClrListing.Machine
