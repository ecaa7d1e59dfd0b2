/-
Recorded runtimes: what a runtime tells of itself, and the methods that
it knew with their code.

A snapshot stands in for the runtime and for the process around it.
Preparing a method only takes note of it.
-/
import ClrListing.Native.Runtime

namespace ClrListing.Native

open Metadata

-- ============================================================= methods

/-- A recorded method. -/
structure RecordedMethod where
  /-- The module that it is in; any module if that is not recorded. -/
  module : Option String
  token : Option Token
  /-- Where it starts. -/
  entry : UInt64
  signature : String
  isCompiled : Bool
  hotStart : UInt64
  hotSize : UInt32
  code : List UInt8
  deriving DecidableEq, Repr, Inhabited

namespace RecordedMethod

/-- A method whose code starts where the method starts. -/
def compiled (signature : String) (entry : UInt64) (code : List UInt8) : RecordedMethod :=
  ⟨none, none, entry, signature, true, entry, UInt32.ofNat (min code.length 0xffffffff), code⟩

/-- A method without code. -/
def uncompiled (signature : String) (entry : UInt64) : RecordedMethod :=
  ⟨none, none, entry, signature, false, 0, 0, []⟩

/-- The method as a member of a module. -/
def withToken (m : RecordedMethod) (module : String) (token : Token) : RecordedMethod :=
  { m with module := some module, token := some token }

/-- The method as the runtime tells of it. -/
def native (m : RecordedMethod) : NativeMethod :=
  ⟨m.signature, m.isCompiled, m.hotStart, m.hotSize⟩

/-- Whether the method is a member of a module. -/
def isMember (m : RecordedMethod) (module : String) (token : Token) : Bool :=
  m.token = some token && m.module.all (· = module)

/-- The code at an address, if the method has so many bytes there. -/
def codeAt? (m : RecordedMethod) (address : UInt64) (size : Nat) : Option (List UInt8) :=
  if address < m.hotStart then none
  else
    let offset := (address - m.hotStart).toNat
    if offset + size ≤ m.code.length then some ((m.code.drop offset).take size) else none

end RecordedMethod

-- =========================================================== snapshots

/-- A recorded runtime. -/
structure Snapshot where
  info : RuntimeInfo
  methods : List RecordedMethod
  deriving DecidableEq, Repr, Inhabited

/-- The methods that were prepared, by module and token, each once. -/
abbrev Prepared := List (String × Token)

namespace Snapshot

/-- What a snapshot tells of the runtime unless it is told otherwise. -/
def defaultInfo (architecture : Architecture) : RuntimeInfo :=
  ⟨"CoreCLR", "8.0.8", "coreclr.dll", architecture⟩

/-- The method whose code holds an address, else the one that starts
there; the first recorded counts. -/
def methodAt? (s : Snapshot) (address : UInt64) : Option NativeMethod :=
  ((s.methods.map RecordedMethod.native).find? fun m => m.contains address)
    <|> (s.methods.find? fun m => m.entry = address).map RecordedMethod.native

/-- Reads code of the first compiled method that has it. -/
def read (s : Snapshot) (address : UInt64) (size : Nat) : Except Error (List UInt8) :=
  match (s.methods.filter RecordedMethod.isCompiled).findSome? fun m => m.codeAt? address size with
  | some bytes => .ok bytes
  | none => .error .outOfBounds

/-- The runtime that was recorded. -/
def runtime (s : Snapshot) : Runtime := ⟨s.info, s.methodAt?, s.read⟩

/-- Looks into the recorded runtime. -/
def attach (s : Snapshot) : Action Runtime := do
  Run.debug ("Attached to " ++ s.info.flavor ++ " CLR " ++ s.info.version ++ " ("
    ++ s.info.module ++ ") on " ++ s.info.architecture.name)
  return s.runtime

/-- Where a member starts: the entry of the first recorded method that is
that member. -/
def entryOf? (s : Snapshot) (a : Assembly) (token : Token) : Option UInt64 :=
  (s.methods.find? fun m => m.isMember a.name token).map RecordedMethod.entry

/-- Whether a member was prepared. -/
def isPrepared (prepared : Prepared) (a : Assembly) (token : Token) : Bool :=
  prepared.contains (a.name, token)

/-- Takes note of a member. -/
def prepare (a : Assembly) (token : Token) : Run Prepared Unit := do
  let before ← Run.state
  if !isPrepared before a token then
    Run.setState (before ++ [(a.name, token)])
    Run.debug ("Prepared " ++ a.displayName token)

/-- The process that was recorded. -/
def host (s : Snapshot) : Host Prepared := ⟨prepare, fun _ a token => s.entryOf? a token⟩

end Snapshot

end ClrListing.Native
