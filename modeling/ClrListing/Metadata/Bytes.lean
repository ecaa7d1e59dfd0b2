/-
Reading numbers from the front of a byte string.

A reader gives a value and the bytes it left. Numbers of a fixed size are
little-endian; compressed numbers take one, two or four bytes, most
significant first, and their first bits tell how many.
-/
import ClrListing.Error

namespace ClrListing.Metadata

/-- A step that reads from the front of bytes. -/
abbrev Reader := StateT (List UInt8) (Except Error)

/-- The value of little-endian bytes. -/
def littleEndian : List UInt8 → Nat
  | [] => 0
  | b :: rest => b.toNat + 256 * littleEndian rest

/-- The first `n` bytes and the bytes after them, if there are so many. -/
def splitBytes : (n : Nat) → List UInt8 → Option (List UInt8 × List UInt8)
  | 0, bytes => some ([], bytes)
  | _ + 1, [] => none
  | n + 1, b :: bytes => (splitBytes n bytes).map fun r => (b :: r.1, r.2)

/-- The `size` bytes from an offset on, if there are so many. -/
def slice (bytes : List UInt8) (offset size : Nat) : Except Error (List UInt8) :=
  match splitBytes size (bytes.drop offset) with
  | some (part, _) => if offset ≤ bytes.length then .ok part else .error .outOfBounds
  | none => .error .outOfBounds

namespace Reader

/-- Stops because an image is damaged. -/
def damaged (d : Damage) : Reader α := throw (.damaged d)

/-- The next `n` bytes. -/
def take (n : Nat) : Reader (List UInt8) := fun bytes =>
  match splitBytes n bytes with
  | some r => .ok r
  | none => .error .outOfBounds

/-- The next number of `size` bytes. -/
def number (size : Nat) : Reader Nat := littleEndian <$> take size

/-- The next byte. -/
def byte : Reader Nat := number 1

/-- The next byte, which stays to be read. -/
def peek : Reader Nat := fun bytes =>
  match bytes with
  | b :: _ => .ok (b.toNat, bytes)
  | [] => .error .outOfBounds

/-- The value of a reader on bytes, whatever it leaves. -/
def value (reader : Reader α) (bytes : List UInt8) : Except Error α :=
  (reader.run bytes).map Prod.fst

/-- The number of `size` bytes at an offset. -/
def numberAt (bytes : List UInt8) (offset size : Nat) : Except Error Nat :=
  (number size).value (bytes.drop offset)

/-- The values of a reader that is repeated. -/
def times : Nat → Reader α → Reader (List α)
  | 0, _ => return []
  | n + 1, reader => do
    let a ← reader
    let rest ← times n reader
    return a :: rest

-- ========================================================= compressed

/-- The next compressed number. -/
def compressed : Reader Nat := do
  let first ← byte
  if first < 0x80 then return first
  else if first < 0xc0 then
    let second ← byte
    return (first - 0x80) * 0x100 + second
  else if first < 0xe0 then
    let second ← byte
    let third ← byte
    let fourth ← byte
    return (first - 0xc0) * 0x1000000 + second * 0x10000 + third * 0x100 + fourth
  else damaged (.compressedNumber first)

/-- The next compressed token: the low two bits of a compressed number
choose the table. The row is not cut to three bytes, so a large one spills
over into the number of the table. -/
def compressedToken : Reader Token := do
  let n ← compressed
  match n % 4 with
  | 0 => return ⟨UInt32.ofNat (TableId.typeDef.code * 0x1000000 ||| n / 4)⟩
  | 1 => return ⟨UInt32.ofNat (TableId.typeRef.code * 0x1000000 ||| n / 4)⟩
  | 2 => return ⟨UInt32.ofNat (TableId.typeSpec.code * 0x1000000 ||| n / 4)⟩
  | _ => damaged (.compressedToken n)

end Reader

end ClrListing.Metadata
