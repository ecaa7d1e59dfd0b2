/-
Computations that may fail, taken apart, and what a run comes to.

If a sequence of computations that may fail succeeds, so does each part of
it, and what it gives is what the last part gives.

A `Run` maps the progress made so far to an outcome and the progress made
then. Each equation below takes one way to build a run apart; with them a
proof computes what a run does and never opens the monad again.

Most runs only add to the records and never look at those left before
(`Steady`), so that they come to the same whatever was left.
-/
import ClrListing.Log
import Mathlib.Data.List.Forall2

namespace ClrListing.Fallible

variable {ε α β : Type}

theorem exists_of_isOk {x : Except ε α} (h : x.isOk = true) : ∃ a, x = .ok a := by
  cases x with
  | error e => cases h
  | ok a => exact ⟨a, rfl⟩

theorem ok_of_toOption_eq_some {x : Except ε α} {a : α} (h : x.toOption = some a) : x = .ok a := by
  cases x with
  | error e => cases h
  | ok b =>
    cases h
    rfl

/-- Both parts of a sequence that succeeds succeed. -/
theorem exists_of_bind_eq_ok {x : Except ε α} {f : α → Except ε β} {b : β}
    (h : (x >>= f) = .ok b) : ∃ a, x = .ok a ∧ f a = .ok b := by
  cases x with
  | error e => cases h
  | ok a => exact ⟨a, rfl, h⟩

/-- What stands behind a check succeeds, and the check finds nothing. -/
theorem of_guard_eq_ok {c : Prop} [Decidable c] {e : ε} {f : PUnit → Except ε α} {a : α}
    (h : (if c then throw e >>= f else f ⟨⟩) = .ok a) : ¬ c ∧ f ⟨⟩ = .ok a := by
  by_cases hc : c
  · rw [if_pos hc] at h
    cases h
  · rw [if_neg hc] at h
    exact ⟨hc, h⟩

/-- What stands behind two branches succeeds on what one of them gives. -/
theorem exists_of_branch_eq_ok {c : Prop} [Decidable c] {x y : Except ε α} {f : α → Except ε β}
    {b : β} (h : (if c then x >>= f else y >>= f) = .ok b) :
    ∃ a, (if c then x else y) = .ok a ∧ f a = .ok b := by
  by_cases hc : c
  · rw [if_pos hc] at h ⊢
    exact exists_of_bind_eq_ok h
  · rw [if_neg hc] at h ⊢
    exact exists_of_bind_eq_ok h

/-- A function that succeeds on all elements gives one result for each. -/
theorem forall₂_of_mapM_eq_ok {f : α → Except ε β} {xs : List α} {ys : List β}
    (h : xs.mapM f = .ok ys) : List.Forall₂ (fun x y => f x = .ok y) xs ys := by
  induction xs generalizing ys with
  | nil =>
    cases h
    exact .nil
  | cons x rest ih =>
    rw [List.mapM_cons] at h
    obtain ⟨y, hy, h⟩ := exists_of_bind_eq_ok h
    obtain ⟨more, hmore, h⟩ := exists_of_bind_eq_ok h
    cases h
    exact .cons hy (ih hmore)

/-- Each result is that of the element in its place. -/
theorem exists_of_mapM_eq_ok {f : α → Except ε β} {xs : List α} {ys : List β}
    (h : xs.mapM f = .ok ys) {i : Nat} {y : β} (hy : ys[i]? = some y) :
    ∃ x, xs[i]? = some x ∧ f x = .ok y := by
  have hforall := forall₂_of_mapM_eq_ok h
  clear h
  induction hforall generalizing i with
  | nil => cases hy
  | @cons x y' xs ys hx _ ih =>
    cases i with
    | zero =>
      cases hy
      exact ⟨x, rfl, hx⟩
    | succ i => exact ih hy

end ClrListing.Fallible

namespace ClrListing.Run

variable {σ τ α β : Type}

/-- What `x` comes to from the progress `p`. -/
def upshot (p : Progress σ) (x : Run σ α) : Except Error α × Progress σ := x.run.run p

theorem upshot_pure (a : α) (p : Progress σ) : upshot p (pure a : Run σ α) = (.ok a, p) := rfl

theorem upshot_throw (e : Error) (p : Progress σ) :
    upshot p (throw e : Run σ α) = (.error e, p) := rfl

/-- A failure of the first part is the failure of the whole. -/
theorem upshot_bind (x : Run σ α) (f : α → Run σ β) (p : Progress σ) :
    upshot p (x >>= f) = match upshot p x with
      | (.ok a, q) => upshot q (f a)
      | (.error e, q) => (.error e, q) := by
  show (ExceptT.bindCont f (x.run.run p).1).run (x.run.run p).2 = _
  unfold upshot
  cases x.run.run p with
  | mk outcome q => cases outcome <;> rfl

/-- The outcome of two parts is that of the second, if the first has
one. -/
theorem upshot_bind_fst (x : Run σ α) (f : α → Run σ β) (p : Progress σ) :
    (upshot p (x >>= f)).1 = (upshot p x).1 >>= fun a => (upshot (upshot p x).2 (f a)).1 := by
  rw [upshot_bind]
  cases upshot p x with
  | mk outcome q => cases outcome <;> rfl

/-- After a first part that has an outcome, all goes on from what it
left. -/
theorem upshot_bind_of_ok {x : Run σ α} {a : α} {p : Progress σ} (h : (upshot p x).1 = .ok a)
    (f : α → Run σ β) : upshot p (x >>= f) = upshot (upshot p x).2 (f a) := by
  rw [upshot_bind]
  cases hx : upshot p x with
  | mk outcome q =>
    rw [hx] at h
    cases h
    rfl

theorem upshot_state (p : Progress σ) : upshot p (state : Run σ σ) = (.ok p.state, p) := rfl

theorem upshot_setState (s : σ) (p : Progress σ) :
    upshot p (setState s) = (.ok (), { p with state := s }) := rfl

theorem upshot_log (records : Log) (p : Progress σ) :
    upshot p (log records : Run σ Unit) = (.ok (), { p with log := p.log ++ records }) := rfl

theorem upshot_debug (text : String) (p : Progress σ) :
    upshot p (debug text : Run σ Unit)
      = (.ok (), { p with log := p.log ++ [⟨.debug, text⟩] }) := rfl

theorem upshot_info (text : String) (p : Progress σ) :
    upshot p (info text : Run σ Unit)
      = (.ok (), { p with log := p.log ++ [⟨.info, text⟩] }) := rfl

/-- A computation with a state of its own never fails; its records are
kept. -/
theorem upshot_within (s : τ) (run : Run τ α) (p : Progress σ) :
    upshot p (within s run : Run σ (Except Error α × τ))
      = (.ok ((upshot ⟨s, p.log⟩ run).1, (upshot ⟨s, p.log⟩ run).2.state),
        { p with log := (upshot ⟨s, p.log⟩ run).2.log }) := rfl

theorem upshot_act (action : Action α) (p : Progress σ) :
    upshot p (act action : Run σ α)
      = ((upshot ⟨(), p.log⟩ action).1, { p with log := (upshot ⟨(), p.log⟩ action).2.log }) := by
  unfold act
  rw [upshot_bind, upshot_within]
  cases (upshot ⟨(), p.log⟩ action).1 <;> rfl

/-- Trying a computation never fails. -/
theorem upshot_attempt (run : Run σ α) (p : Progress σ) :
    upshot p (attempt run) = (.ok (upshot p run).1, (upshot p run).2) := rfl

/-- The outcome of an action is what it comes to from nothing. -/
theorem outcome_eq (action : Action α) :
    outcome action = ((upshot ⟨(), []⟩ action).1, (upshot ⟨(), []⟩ action).2.log) := rfl

-- ========================================================= steady runs

/-- A run that comes to the same whatever records were left before. -/
class Steady (run : Run σ α) : Prop where
  steady : ∀ p : Progress σ, upshot p run
    = ((upshot ⟨p.state, []⟩ run).1,
      ⟨(upshot ⟨p.state, []⟩ run).2.state, p.log ++ (upshot ⟨p.state, []⟩ run).2.log⟩)

namespace Steady

instance (a : α) : Steady (pure a : Run σ α) where
  steady p := by rw [upshot_pure, upshot_pure, List.append_nil]

instance (e : Error) : Steady (throw e : Run σ α) where
  steady p := by rw [upshot_throw, upshot_throw, List.append_nil]

instance : Steady (state : Run σ σ) where
  steady p := by rw [upshot_state, upshot_state, List.append_nil]

instance (s : σ) : Steady (setState s) where
  steady p := by rw [upshot_setState, upshot_setState, List.append_nil]

instance (records : Log) : Steady (log records : Run σ Unit) where
  steady p := by rw [upshot_log, upshot_log, List.nil_append]

instance (text : String) : Steady (debug text : Run σ Unit) where
  steady p := by rw [upshot_debug, upshot_debug, List.nil_append]

instance (text : String) : Steady (info text : Run σ Unit) where
  steady p := by rw [upshot_info, upshot_info, List.nil_append]

instance (run : Run σ α) (f : α → Run σ β) [Steady run] [∀ a, Steady (f a)] :
    Steady (run >>= f) where
  steady p := by
    have hfirst := @steady _ _ run _ p
    rw [upshot_bind, upshot_bind, hfirst]
    cases h : upshot ⟨p.state, []⟩ run with
    | mk outcome q =>
      cases outcome with
      | error e => rfl
      | ok a =>
        have hbefore := @steady _ _ (f a) _ ⟨q.state, p.log ++ q.log⟩
        have hafter := @steady _ _ (f a) _ q
        dsimp only
        rw [hbefore, hafter]
        simp only [List.append_assoc]

/-- For the ends of a sequence that instances cannot see, such as those of
a match. -/
theorem after {run : Run σ α} {f : α → Run σ β} [Steady run] (h : ∀ a, Steady (f a)) :
    Steady (run >>= f) := inferInstance

end Steady

end ClrListing.Run
