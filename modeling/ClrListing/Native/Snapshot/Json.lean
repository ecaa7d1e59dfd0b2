/-
Snapshots as JSON.

A record is written as an object. It is read from an object, whose members
may come in any order and besides others, or from an array of its values
in order, from which values at the end may be missing that need not be
given. Code is written in hexadecimal digits and may be read with blanks
anywhere between them.
-/
import ClrListing.Native.Snapshot.Basic
import ClrListing.Text.Json.Reader
import ClrListing.Text.Utf8

namespace ClrListing.Native

open Metadata Text

-- ============================================================== records

/-- The values of a record by the names of its fields. -/
abbrev JsonRecord := List (String × Json)

namespace JsonRecord

/-- How many members of an object have a name. -/
def occurrences (name : String) (members : List (Option String × Json)) : Nat :=
  members.countP fun m => m.1 = some name

/-- The record of a value, its fields having these names. No field may be
given twice, and every name must be a text. -/
def ofJson? (names : List String) : Json → Option JsonRecord
  | .object members =>
    if members.all (fun m => m.1.isSome) && names.all (fun n => occurrences n members ≤ 1) then
      some (members.filterMap fun m => m.1.map (·, m.2))
    else none
  | .array values => if values.length ≤ names.length then some (names.zip values) else none
  | _ => none

/-- The value of a field that must be given. -/
def required (read : Json → Option α) (name : String) (r : JsonRecord) : Option α :=
  (r.lookup name).bind read

/-- The value of a field that need not be given. -/
def optional (fallback : α) (read : Json → Option α) (name : String) (r : JsonRecord) :
    Option α :=
  match r.lookup name with
  | none => some fallback
  | some value => read value

/-- The value of a field that may be empty or not given. -/
def nullable (read : Json → Option α) (name : String) (r : JsonRecord) : Option (Option α) :=
  match r.lookup name with
  | none => some none
  | some .null => some none
  | some value => (read value).map some

end JsonRecord

-- =============================================================== values

/-- The value of a text. -/
def textJson (s : String) : Json := .string (some s)

/-- The text of a value. -/
def textOf? : Json → Option String
  | .string text => text
  | _ => none

/-- The truth value of a value. -/
def flagOf? : Json → Option Bool
  | .bool b => some b
  | _ => none

/-- The number of a value, if it is below a bound. -/
def numberOf? (bound : Nat) : Json → Option Nat
  | .natural n => if n < bound then some n else none
  | _ => none

/-- The number of up to 64 bits of a value. -/
def longOf? (j : Json) : Option UInt64 := (numberOf? 0x10000000000000000 j).map UInt64.ofNat

/-- The number of up to 32 bits of a value. -/
def wordOf? (j : Json) : Option UInt32 := (numberOf? 0x100000000 j).map UInt32.ofNat

/-- The elements of an array. -/
def elementsOf? (read : Json → Option α) : Json → Option (List α)
  | .array elements => elements.mapM read
  | _ => none

/-- The architecture of a value: its name, alone or as the name of an
empty member. -/
def architectureOf? : Json → Option Architecture
  | .string (some name) => Architecture.ofName? name
  | .object [(some name, .null)] => Architecture.ofName? name
  | _ => none

-- ================================================================= code

/-- The blanks that may stand between digits. -/
def isCodeSpace (c : Char) : Bool :=
  c = ' ' || c = '\t' || c = '\n' || c = '\x0c' || c = '\r'

/-- The value of code. -/
def codeJson (code : List UInt8) : Json := textJson (String.ofList (Hex.bytes code))

/-- The code of a value. -/
def codeOf? (j : Json) : Option (List UInt8) := do
  Hex.readBytes ((← textOf? j).toList.filter fun c => !isCodeSpace c)

-- ============================================================== runtime

/-- A member of an object. -/
def member (name : String) (value : Json) : Option String × Json := (some name, value)

/-- The value of what a runtime tells of itself. -/
def RuntimeInfo.toJson (info : RuntimeInfo) : Json :=
  .object [member "flavor" (textJson info.flavor), member "version" (textJson info.version),
    member "module" (textJson info.module),
    member "architecture" (textJson info.architecture.name)]

/-- What a runtime tells of itself, from a value. -/
def RuntimeInfo.ofJson? (j : Json) : Option RuntimeInfo := do
  let r ← JsonRecord.ofJson? ["flavor", "version", "module", "architecture"] j
  return ⟨← r.required textOf? "flavor", ← r.required textOf? "version",
    ← r.required textOf? "module", ← r.required architectureOf? "architecture"⟩

-- ============================================================= methods

namespace RecordedMethod

/-- The names of the fields of a recorded method. -/
def fieldNames : List String :=
  ["module", "token", "entry", "signature", "compiled", "hot_start", "hot_size", "code"]

/-- The value of a recorded method; the module and the token are left out
if they are not recorded. -/
def toJson (m : RecordedMethod) : Json :=
  .object (((m.module.map fun name => member "module" (textJson name)).toList)
    ++ ((m.token.map fun t => member "token" (.natural t.value.toNat)).toList)
    ++ [member "entry" (.natural m.entry.toNat), member "signature" (textJson m.signature),
      member "compiled" (.bool m.isCompiled), member "hot_start" (.natural m.hotStart.toNat),
      member "hot_size" (.natural m.hotSize.toNat), member "code" (codeJson m.code)])

/-- The recorded method of a value. -/
def ofJson? (j : Json) : Option RecordedMethod := do
  let r ← JsonRecord.ofJson? fieldNames j
  return {
    module := ← r.nullable textOf? "module"
    token := (← r.nullable wordOf? "token").map Token.mk
    entry := ← r.required longOf? "entry"
    signature := ← r.required textOf? "signature"
    isCompiled := ← r.required flagOf? "compiled"
    hotStart := ← r.optional 0 longOf? "hot_start"
    hotSize := ← r.optional 0 wordOf? "hot_size"
    code := ← r.optional [] codeOf? "code" }

end RecordedMethod

-- =========================================================== snapshots

namespace Snapshot

/-- The value of a snapshot. -/
def toJson (s : Snapshot) : Json :=
  .object [member "runtime" s.info.toJson,
    member "methods" (.array (s.methods.map RecordedMethod.toJson))]

/-- The snapshot of a value. -/
def ofJson? (j : Json) : Option Snapshot := do
  let r ← JsonRecord.ofJson? ["runtime", "methods"] j
  return ⟨← r.required RuntimeInfo.ofJson? "runtime",
    ← r.optional [] (elementsOf? RecordedMethod.ofJson?) "methods"⟩

/-- The text of a snapshot. -/
def toText (s : Snapshot) : String := s.toJson.toText

/-- The snapshot of a text. -/
def ofText (text : String) : Except Error Snapshot :=
  match (Json.ofText? text).bind ofJson? with
  | some s => .ok s
  | none => .error .snapshot

/-- Reads a snapshot from what a file holds, if it can be read. -/
def ofFile (path : String) (content : Except FileFault (List UInt8)) : Action Snapshot := do
  let bytes ← Run.orFault content
  let some text := Utf8.decode bytes | throw (.file .invalidData)
  let s ← ofText (String.ofList text)
  Run.debug ("Loaded runtime snapshot " ++ path ++ " with " ++ s.methods.length.repr
    ++ " methods")
  return s

end Snapshot

end ClrListing.Native
