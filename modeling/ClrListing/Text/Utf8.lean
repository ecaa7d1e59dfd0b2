/-
UTF-8: the bytes of a text, the text of a valid byte string, and the
lossy reading that puts U+FFFD in place of each maximal invalid part.

A part is what a decoder gives up on: the longest opening of a
well-formed sequence that the bytes hold, or one byte if they hold none.

Programs take and print bytes. As texts of octets, in which each character
is below 256 and stands for the byte of its number, these can be searched
and cut like any other text, and no byte is lost.
-/

namespace ClrListing.Text.Utf8

/-- The bytes of one character. -/
def encodeChar (c : Char) : List UInt8 :=
  let n := c.toNat
  if n < 0x80 then [UInt8.ofNat n]
  else if n < 0x800 then
    [UInt8.ofNat (0xc0 + n / 0x40), UInt8.ofNat (0x80 + n % 0x40)]
  else if n < 0x10000 then
    [UInt8.ofNat (0xe0 + n / 0x1000), UInt8.ofNat (0x80 + n / 0x40 % 0x40),
      UInt8.ofNat (0x80 + n % 0x40)]
  else
    [UInt8.ofNat (0xf0 + n / 0x40000), UInt8.ofNat (0x80 + n / 0x1000 % 0x40),
      UInt8.ofNat (0x80 + n / 0x40 % 0x40), UInt8.ofNat (0x80 + n % 0x40)]

/-- The bytes of a text. -/
def encode (s : List Char) : List UInt8 := s.flatMap encodeChar

/-- A byte of the form `10xxxxxx`. -/
def isContinuation (b : Nat) : Bool := 0x80 ≤ b && b < 0xc0

/-- What the bytes open with: a character of so many bytes, or an
invalid part of so many bytes. -/
inductive Opening where
  | char (c : Char) (size : Nat)
  | invalid (size : Nat)

/-- Reads the opening of a non-empty byte string, given as its first
byte and the rest. The second byte's range excludes overlong forms,
surrogates and values above U+10FFFF. -/
def opening (first : UInt8) (rest : List UInt8) : Opening :=
  let b0 := first.toNat
  let next (i : Nat) : Nat := ((rest[i]?).map UInt8.toNat).getD 0
  if b0 < 0x80 then .char (Char.ofNat b0) 1
  else if 0xc2 ≤ b0 && b0 < 0xe0 then
    if isContinuation (next 0) then
      .char (Char.ofNat ((b0 - 0xc0) * 0x40 + (next 0 - 0x80))) 2
    else .invalid 1
  else if 0xe0 ≤ b0 && b0 < 0xf0 then
    let low := if b0 = 0xe0 then 0xa0 else 0x80
    let high := if b0 = 0xed then 0xa0 else 0xc0
    if low ≤ next 0 && next 0 < high then
      if isContinuation (next 1) then
        .char (Char.ofNat ((b0 - 0xe0) * 0x1000 + (next 0 - 0x80) * 0x40 + (next 1 - 0x80))) 3
      else .invalid 2
    else .invalid 1
  else if 0xf0 ≤ b0 && b0 < 0xf5 then
    let low := if b0 = 0xf0 then 0x90 else 0x80
    let high := if b0 = 0xf4 then 0x90 else 0xc0
    if low ≤ next 0 && next 0 < high then
      if isContinuation (next 1) then
        if isContinuation (next 2) then
          .char (Char.ofNat ((b0 - 0xf0) * 0x40000 + (next 0 - 0x80) * 0x1000
            + (next 1 - 0x80) * 0x40 + (next 2 - 0x80))) 4
        else .invalid 3
      else .invalid 2
    else .invalid 1
  else .invalid 1

/-- Reads on after `skip` bytes that belong to the part before. -/
def decodeAfter (skip : Nat) : List UInt8 → Option (List Char)
  | [] => some []
  | b :: rest =>
    match skip with
    | skip + 1 => decodeAfter skip rest
    | 0 =>
      match opening b rest with
      | .char c size => (decodeAfter (size - 1) rest).map (c :: ·)
      | .invalid _ => none

/-- The text of a valid byte string. -/
def decode (data : List UInt8) : Option (List Char) := decodeAfter 0 data

/-- Reads on after `skip` bytes that belong to the part before, with
U+FFFD for each invalid part. -/
def decodeLossyAfter (skip : Nat) : List UInt8 → List Char
  | [] => []
  | b :: rest =>
    match skip with
    | skip + 1 => decodeLossyAfter skip rest
    | 0 =>
      match opening b rest with
      | .char c size => c :: decodeLossyAfter (size - 1) rest
      | .invalid size => '\ufffd' :: decodeLossyAfter (size - 1) rest

/-- The text of any byte string, with U+FFFD for each invalid part. -/
def decodeLossy (data : List UInt8) : List Char := decodeLossyAfter 0 data

end ClrListing.Text.Utf8

namespace ClrListing.Text.Octets

/-- Bytes as a text of octets. -/
def ofBytes (bytes : List UInt8) : List Char := bytes.map fun b => Char.ofNat b.toNat

/-- The bytes of a text of octets. -/
def toBytes (s : List Char) : List UInt8 := s.map fun c => UInt8.ofNat c.toNat

/-- The octets that a text is written with in UTF-8. -/
def ofString (s : String) : List Char := ofBytes (Utf8.encode s.toList)

/-- The text that octets are written for, with U+FFFD for what is not
UTF-8. -/
def toString (s : List Char) : String := String.ofList (Utf8.decodeLossy (toBytes s))

end ClrListing.Text.Octets
