/-
Programs that are run: how they end, and what they leave.
-/
import ClrListing.Disk.Basic

namespace ClrListing

-- ============================================================== endings

/-- The signals, by their numbers. -/
def signals : List (Nat × String) :=
  [(1, "HUP"), (2, "INT"), (3, "QUIT"), (4, "ILL"), (5, "TRAP"), (6, "ABRT"), (7, "BUS"),
    (8, "FPE"), (9, "KILL"), (10, "USR1"), (11, "SEGV"), (12, "USR2"), (13, "PIPE"),
    (14, "ALRM"), (15, "TERM"), (16, "STKFLT"), (17, "CHLD"), (18, "CONT"), (19, "STOP"),
    (20, "TSTP"), (21, "TTIN"), (22, "TTOU"), (23, "URG"), (24, "XCPU"), (25, "XFSZ"),
    (26, "VTALRM"), (27, "PROF"), (28, "WINCH"), (29, "IO"), (30, "PWR"), (31, "SYS")]

/-- How a program ends. -/
inductive ExitStatus where
  | code (n : Nat)
  /-- A signal ended it. -/
  | signal (n : Nat)
  deriving DecidableEq, Repr, Inhabited

namespace ExitStatus

/-- Whether the program succeeded. -/
def isOk : ExitStatus → Bool
  | code n => n = 0
  | signal _ => false

/-- How a program ended, in words. -/
def display : ExitStatus → String
  | code n => "exit status: " ++ n.repr
  | signal n =>
    "signal: " ++ n.repr ++ ((signals.lookup n).map fun name => " (SIG" ++ name ++ ")").getD ""

end ExitStatus

-- ============================================================= programs

/-- What a program leaves. -/
structure Outcome where
  status : ExitStatus
  output : List UInt8
  errors : List UInt8
  disk : Disk
  deriving DecidableEq, Repr, Inhabited

/-- What programs are run on: a disk, and a way to run the programs that
are there. -/
structure Computer where
  disk : Disk
  launch : (program : String) → (arguments : List String) → Disk → Except FileFault Outcome

/-- How many bytes an argument may have, with its end. -/
def argumentLimit : Nat := 0x20000

/-- Runs a program. Neither its name nor an argument may hold a zero. -/
def Computer.run (c : Computer) (program : String) (arguments : List String) (disk : Disk) :
    Except FileFault Outcome :=
  let words := program :: arguments
  if words.any fun word => word.contains '\x00' then .error .invalidInput
  else if words.any fun word => word.utf8ByteSize ≥ argumentLimit then
    .error .argumentListTooLong
  else c.launch program arguments disk

end ClrListing
