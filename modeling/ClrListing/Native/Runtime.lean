/-
What a listing asks of a runtime: to prepare members so that they have
native code, to tell where that starts, to find the method at an address
and to read code.
-/
import ClrListing.Assembly.Basic
import ClrListing.Log
import ClrListing.Native.Instruction

namespace ClrListing.Native

open Metadata

/-- What a runtime tells of itself. -/
structure RuntimeInfo where
  flavor : String
  version : String
  /-- The file that it was loaded from. -/
  module : String
  architecture : Architecture
  deriving DecidableEq, Repr, Inhabited

/-- A method as a runtime knows it. -/
structure NativeMethod where
  signature : String
  /-- Whether it has native code. -/
  isCompiled : Bool
  /-- Where its code starts. -/
  hotStart : UInt64
  /-- How many bytes of code it has. -/
  hotSize : UInt32
  deriving DecidableEq, Repr, Inhabited

/-- Whether an address lies in the code of a method. -/
def NativeMethod.contains (m : NativeMethod) (address : UInt64) : Bool :=
  m.isCompiled && m.hotStart ≤ address && address - m.hotStart < m.hotSize.toUInt64

/-- A runtime that can be looked into. -/
structure Runtime where
  info : RuntimeInfo
  /-- The method that starts at an address, or whose code holds it. -/
  methodAt? : UInt64 → Option NativeMethod
  /-- Reads so many bytes of code. -/
  read : UInt64 → Nat → Except Error (List UInt8)

/-- A process that executes modules, with what it remembers. -/
structure Host (σ : Type) where
  /-- Gives a method native code; a second time changes nothing more. -/
  prepare : Assembly → Token → Run σ Unit
  /-- Where a method starts. -/
  entryOf? : σ → Assembly → Token → Option UInt64

/-- A process without a runtime prepares nothing. -/
def Host.none : Host σ := ⟨fun _ _ => return (), fun _ _ _ => Option.none⟩

/-- A process without a runtime cannot be looked into. -/
def attachNone : Action Runtime := throw (.attach .noRuntime)

end ClrListing.Native
