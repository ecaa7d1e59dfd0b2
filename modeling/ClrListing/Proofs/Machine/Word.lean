/-
What a machine does when it computes.

The numbers of a machine are words of so many bits, and its places are
places in bytes that it holds. So there are steps that it cannot carry out:
a sum may not fit its word, a difference may be below zero, a shift may be
as wide as a word, a place may be none of those that there are, and a loop
may not end. A computation that comes to such a step stops with a fault,
and one that finds something wrong with what it reads stops with an error,
as a computation without words does. The two never count as the same.
-/
import ClrListing.Error
import Mathlib.Algebra.Group.Nat.Defs

namespace ClrListing

-- ============================================================== faults

/-- What a machine cannot carry out. -/
inductive Fault where
  /-- A place, or a range of places, that is not there. -/
  | outOfRange
  /-- A number that does not fit its word. -/
  | overflow
  /-- A number below zero. -/
  | underflow
  /-- A shift by the width of a word or more. -/
  | shift
  /-- A loop or recursion that goes on for longer than it may. -/
  | endless
  deriving DecidableEq, Repr

/-- Why a machine stops. -/
inductive Stop where
  | fault (fault : Fault)
  | error (error : Error)
  deriving DecidableEq

/-- A computation of a machine. -/
abbrev Machine := Except Stop

namespace Machine

variable {α β σ : Type}

/-- Stops at a step that cannot be carried out. -/
def fault (f : Fault) : Machine α := .error (.fault f)

/-- Stops because something is wrong with what was read. -/
def fail (e : Error) : Machine α := .error (.error e)

/-- What a computation without words gives, as that of a machine. -/
def lift : Except Error α → Machine α
  | .ok a => .ok a
  | .error e => fail e

@[simp] theorem lift_pure (a : α) : lift (pure a) = pure a := rfl

@[simp] theorem fail_bind (e : Error) (f : α → Machine β) : (fail e >>= f) = fail e := rfl

@[simp] theorem lift_bind (x : Except Error α) (f : α → Except Error β) :
    lift (x >>= f) = lift x >>= fun a => lift (f a) := by
  cases x <;> rfl

theorem lift_ite (p : Prop) [Decidable p] (x y : Except Error α) :
    lift (if p then x else y) = if p then lift x else lift y :=
  apply_ite lift p x y

/-- Computations that agree on what the first of two gives agree in
sequence. -/
theorem bind_congr_lift {x : Machine α} {x' : Except Error α} {f : α → Machine β}
    {f' : α → Except Error β} (hx : x = lift x') (hf : ∀ a, x' = .ok a → f a = lift (f' a)) :
    (x >>= f) = lift (x' >>= f') := by
  subst hx
  cases x' with
  | error e => rfl
  | ok a => exact hf a rfl

/-- Computations agree behind a check if they do where it finds nothing. -/
theorem guard_eq_lift {p : Prop} [Decidable p] {e : Error} {f : PUnit → Machine α}
    {f' : PUnit → Except Error α} (h : ¬ p → f ⟨⟩ = lift (f' ⟨⟩)) :
    (if p then fail e >>= f else f ⟨⟩) = lift (if p then throw e >>= f' else f' ⟨⟩) := by
  by_cases hp : p
  · rw [if_pos hp, if_pos hp]
    rfl
  · rw [if_neg hp, if_neg hp]
    exact h hp

/-- What holds of each element holds of all in sequence. -/
theorem mapM_eq_lift {f : α → Machine β} {f' : α → Except Error β} {xs : List α}
    (h : ∀ a ∈ xs, f a = lift (f' a)) : xs.mapM f = lift (xs.mapM f') := by
  induction xs with
  | nil => rfl
  | cons a xs ih =>
    rw [List.mapM_cons, List.mapM_cons]
    refine bind_congr_lift (h a List.mem_cons_self) fun b _ => ?_
    refine bind_congr_lift (ih fun c hc => h c (List.mem_cons_of_mem _ hc)) fun bs _ => rfl

/-- Steps that agree do so one after the other. -/
theorem foldlM_eq_lift {f : σ → α → Machine σ} {f' : σ → α → Except Error σ}
    (h : ∀ s a, f s a = lift (f' s a)) (xs : List α) (s : σ) :
    xs.foldlM f s = lift (xs.foldlM f' s) := by
  induction xs generalizing s with
  | nil => rfl
  | cons a xs ih =>
    rw [List.foldlM_cons, List.foldlM_cons]
    exact bind_congr_lift (h s a) fun s _ => ih s

/-- A step that never stops gives one result for each element. -/
theorem mapM_eq_pure {f : α → Machine β} {g : α → β} {xs : List α}
    (h : ∀ a ∈ xs, f a = pure (g a)) : xs.mapM f = pure (xs.map g) := by
  induction xs with
  | nil => rfl
  | cons a xs ih =>
    rw [List.mapM_cons, h a List.mem_cons_self, ih fun c hc => h c (List.mem_cons_of_mem _ hc)]
    rfl

/-- Whether a computation comes to its end: with a result or an error. -/
def Ends (x : Machine α) : Prop := (∃ a, x = .ok a) ∨ ∃ e, x = .error (.error e)

theorem ends_lift (x : Except Error α) : Ends (lift x) := by
  cases x with
  | ok a => exact .inl ⟨a, rfl⟩
  | error e => exact .inr ⟨e, rfl⟩

-- =============================================================== words

/-- A number as a word of so many bits. -/
def word (bits n : Nat) : Machine Nat := if n < 2 ^ bits then pure n else fault .overflow

/-- The sum of two words of so many bits. -/
def add (bits a b : Nat) : Machine Nat :=
  if a + b < 2 ^ bits then pure (a + b) else fault .overflow

/-- The difference of two words. -/
def sub (a b : Nat) : Machine Nat := if b ≤ a then pure (a - b) else fault .underflow

/-- The product of two words. -/
def mul (bits a b : Nat) : Machine Nat :=
  if a * b < 2 ^ bits then pure (a * b) else fault .overflow

/-- A word shifted to the left; what leaves the word is lost. -/
def shiftLeft (bits a distance : Nat) : Machine Nat :=
  if distance < bits then pure (a <<< distance % 2 ^ bits) else fault .shift

/-- A word shifted to the right. -/
def shiftRight (bits a distance : Nat) : Machine Nat :=
  if distance < bits then pure (a >>> distance) else fault .shift

/-- The sum of two words, if it fits its word. -/
def checkedAdd (bits a b : Nat) : Option Nat := if a + b < 2 ^ bits then some (a + b) else none

/-- The difference of two words, if it is not below zero. -/
def checkedSub (a b : Nat) : Option Nat := if b ≤ a then some (a - b) else none

/-- How many bits in front of a word are zero. -/
def leadingZeros (bits a : Nat) : Nat := if a = 0 then bits else bits - (a.log2 + 1)

/-- A word of which the low bits are cleared. -/
def clearLow (bits low a : Nat) : Nat := a &&& (2 ^ bits - 2 ^ low)

variable {bits a b n : Nat}

theorem word_eq (h : n < 2 ^ bits) : word bits n = pure n := if_pos h

theorem add_eq (h : a + b < 2 ^ bits) : add bits a b = pure (a + b) := if_pos h

theorem sub_eq (h : b ≤ a) : sub a b = pure (a - b) := if_pos h

theorem mul_eq (h : a * b < 2 ^ bits) : mul bits a b = pure (a * b) := if_pos h

theorem shiftRight_eq (h : b < bits) : shiftRight bits a b = pure (a / 2 ^ b) := by
  rw [← Nat.shiftRight_eq_div_pow]
  exact if_pos h

/-- Nothing leaves a word that is wide enough. -/
theorem shiftLeft_eq (h : b < bits) (hfit : a * 2 ^ b < 2 ^ bits) :
    shiftLeft bits a b = pure (a * 2 ^ b) := by
  unfold shiftLeft
  rw [if_pos h, Nat.shiftLeft_eq, Nat.mod_eq_of_lt hfit]

theorem checkedAdd_eq (h : a + b < 2 ^ bits) : checkedAdd bits a b = some (a + b) := if_pos h

theorem checkedAdd_eq_none (h : 2 ^ bits ≤ a + b) : checkedAdd bits a b = none :=
  if_neg (Nat.not_lt.mpr h)

theorem checkedSub_eq (h : b ≤ a) : checkedSub a b = some (a - b) := if_pos h

theorem sub_leadingZeros (hpos : a ≠ 0) (h : a < 2 ^ bits) :
    sub bits (leadingZeros bits a) = pure (a.log2 + 1) := by
  have hlog : a.log2 + 1 ≤ bits := (Nat.log2_lt hpos).mpr h
  unfold leadingZeros
  rw [if_neg hpos, sub_eq (Nat.sub_le _ _), Nat.sub_sub_self hlog]

theorem clearLow_eq {low : Nat} (h : a < 2 ^ bits) (hlow : low ≤ bits) :
    clearLow bits low a = a / 2 ^ low * 2 ^ low := by
  have hmask : 2 ^ bits - 2 ^ low = (2 ^ (bits - low) - 1) * 2 ^ low := by
    rw [Nat.sub_mul, ← Nat.pow_add, Nat.sub_add_cancel hlow, Nat.one_mul]
  unfold clearLow
  rw [hmask]
  refine Nat.eq_of_testBit_eq fun i => ?_
  rw [Nat.testBit_and, Nat.testBit_mul_two_pow, Nat.testBit_mul_two_pow,
    Nat.testBit_two_pow_sub_one, Nat.testBit_div_two_pow]
  by_cases hi : low ≤ i
  · rw [Nat.sub_add_cancel hi]
    by_cases hbits : i < bits
    · simp [hi, show i - low < bits - low by omega]
    · simp [Nat.testBit_lt_two_pow (Nat.lt_of_lt_of_le h
        (Nat.pow_le_pow_right (by decide) (Nat.le_of_not_lt hbits)))]
  · simp [hi]

-- ============================================================== places

/-- The element at a place. -/
def index (xs : List α) (i : Nat) : Machine α :=
  match xs[i]? with
  | some a => pure a
  | none => fault .outOfRange

/-- Elements of which the one at a place is another. -/
def update (xs : List α) (i : Nat) (f : α → α) : Machine (List α) :=
  if i < xs.length then pure (xs.modify i f) else fault .outOfRange

/-- The elements from a place up to another, if these are places. -/
def part? (xs : List α) (first stop : Nat) : Option (List α) :=
  if first ≤ stop ∧ stop ≤ xs.length then some ((xs.drop first).take (stop - first)) else none

/-- The elements from a place up to another. -/
def part (xs : List α) (first stop : Nat) : Machine (List α) :=
  match part? xs first stop with
  | some ys => pure ys
  | none => fault .outOfRange

/-- The elements from a place on. -/
def rest (xs : List α) (first : Nat) : Machine (List α) := part xs first xs.length

variable {xs : List α} {i first stop : Nat}

theorem index_eq {x : α} (h : xs[i]? = some x) : index xs i = pure x := by
  unfold index
  rw [h]

theorem update_eq {f : α → α} (h : i < xs.length) : update xs i f = pure (xs.modify i f) := if_pos h

theorem part_eq (hfirst : first ≤ stop) (hstop : stop ≤ xs.length) :
    part xs first stop = pure ((xs.drop first).take (stop - first)) := by
  unfold part part?
  rw [if_pos ⟨hfirst, hstop⟩]

theorem part?_to_end (h : first ≤ xs.length) : part? xs first xs.length = some (xs.drop first) := by
  unfold part?
  rw [if_pos ⟨h, Nat.le_refl _⟩, List.take_of_length_le (Nat.le_of_eq List.length_drop)]

theorem length_of_part? {ys : List α} (h : part? xs first stop = some ys) :
    ys.length ≤ xs.length := by
  unfold part? at h
  split at h
  · cases h
    exact Nat.le_trans (List.length_take_le' _ _) (List.length_drop ▸ Nat.sub_le _ _)
  · cases h

theorem rest_eq (h : first ≤ xs.length) : rest xs first = pure (xs.drop first) := by
  unfold rest part
  rw [part?_to_end h]

-- =============================================================== loops

/-- Repeats a step on a state until it gives a result, for less than so
many times. -/
def loop (step : σ → Machine (σ ⊕ α)) : (fuel : Nat) → σ → Machine α
  | 0, _ => fault .endless
  | fuel + 1, s => do
    match ← step s with
    | .inl s => loop step fuel s
    | .inr a => pure a

theorem loop_succ (step : σ → Machine (σ ⊕ α)) (fuel : Nat) (s : σ) :
    loop step (fuel + 1) s = step s >>= fun
      | .inl s => loop step fuel s
      | .inr a => pure a := rfl

end Machine

end ClrListing
