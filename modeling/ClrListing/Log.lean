/-
Progress records, and computations that leave some.

A `Run` may fail; it keeps its state and the records it left up to then.
Records are data; nothing is printed here.
-/
import ClrListing.Error

namespace ClrListing

/-- How much a record matters, least first. -/
inductive LogLevel where
  | debug
  | info
  | warn
  deriving DecidableEq, Repr, Inhabited

namespace LogLevel

/-- The level's rank. -/
def rank : LogLevel → Nat
  | debug => 0
  | info => 1
  | warn => 2

/-- The level's name. -/
def name : LogLevel → String
  | debug => "DEBUG"
  | info => "INFO"
  | warn => "WARN"

end LogLevel

/-- One record of progress. -/
structure LogRecord where
  level : LogLevel
  text : String
  deriving DecidableEq, Repr, Inhabited

/-- The records of a run, in order. -/
abbrev Log := List LogRecord

/-- The records that matter at least as much as `level`. -/
def Log.atLeast (log : Log) (level : LogLevel) : Log :=
  log.filter fun r => level.rank ≤ r.level.rank

/-- What a run has got to: its state and the records it left. -/
structure Progress (σ : Type) where
  state : σ
  log : Log
  deriving Repr, Inhabited

/-- A computation with a state that leaves records and may fail. -/
abbrev Run (σ : Type) := ExceptT Error (StateM (Progress σ))

/-- A computation that leaves records and may fail. -/
abbrev Action := Run Unit

namespace Run

/-- The state. -/
def state : Run σ σ := do return (← get).state

/-- Puts a state in place of the one before. -/
def setState (s : σ) : Run σ Unit := modify fun p => { p with state := s }

/-- Leaves records. -/
def log (records : Log) : Run σ Unit := modify fun p => { p with log := p.log ++ records }

/-- Leaves one record. -/
def record (level : LogLevel) (text : String) : Run σ Unit := log [⟨level, text⟩]

/-- Leaves a record of detail. -/
def debug (text : String) : Run σ Unit := record .debug text

/-- Leaves a record of progress. -/
def info (text : String) : Run σ Unit := record .info text

/-- Leaves a warning. -/
def warn (text : String) : Run σ Unit := record .warn text

/-- Runs a computation from a state of its own and gives its outcome and
its last state; its records are kept. -/
def within (s : σ) (run : Run σ α) : Run τ (Except Error α × σ) := fun p =>
  let (result, after) := (run.run).run ⟨s, p.log⟩
  (.ok (result, after.state), { p with log := after.log })

/-- Runs an action, whose failure is a failure. -/
def act (action : Action α) : Run σ α := do
  let (result, _) ← within () action
  result

/-- Gives what a use of files gives, or fails as it does. -/
def orFault (used : Except FileFault α) : Run σ α :=
  match used with
  | .ok a => return a
  | .error fault => throw (.file fault)

/-- Runs a computation whose failure ends nothing, and gives its
outcome. -/
def attempt (run : Run σ α) : Run σ (Except Error α) := do
  let (result, s) ← within (← state) run
  setState s
  return result

/-- The outcome of an action that starts with no records, and the records
it leaves. -/
def outcome (action : Action α) : Except Error α × Log :=
  let (result, after) := (action.run).run ⟨(), []⟩
  (result, after.log)

end Run

end ClrListing
