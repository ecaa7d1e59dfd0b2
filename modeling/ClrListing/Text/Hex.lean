/-
Hexadecimal text: numbers in lower-case digits, padded or not, and byte
strings as pairs of digits. `readBytes` undoes `bytes`.
-/

namespace ClrListing.Text.Hex

/-- The lower-case digit of a number below sixteen. -/
def digit (n : Nat) : Char :=
  Char.ofNat (if n < 10 then 0x30 + n else 0x57 + n)

/-- The value of a hexadecimal digit of either case. -/
def value? (c : Char) : Option Nat :=
  if '0' ≤ c && c ≤ '9' then some (c.toNat - 0x30)
  else if 'a' ≤ c && c ≤ 'f' then some (c.toNat - 0x57)
  else if 'A' ≤ c && c ≤ 'F' then some (c.toNat - 0x37)
  else none

/-- The last `count` digits of `n`, most significant first. -/
def lowDigits : (count n : Nat) → List Char
  | 0, _ => []
  | count + 1, n => lowDigits count (n / 16) ++ [digit (n % 16)]

/-- How many digits `n` takes, at least one. -/
def width (n : Nat) : Nat := if n = 0 then 1 else n.log2 / 4 + 1

/-- The digits of `n` without leading zeros. -/
def digits (n : Nat) : List Char := lowDigits (width n) n

/-- The digits of `n`, with leading zeros up to `count` digits. -/
def padded (count n : Nat) : List Char := lowDigits (max count (width n)) n

/-- `0x` and the digits of `n`. -/
def number (n : Nat) : String := "0x" ++ String.ofList (digits n)

/-- `0x` and the digits of `n`, four characters at least. -/
def byteNumber (n : Nat) : String := "0x" ++ String.ofList (padded 2 n)

/-- Two digits per byte. -/
def bytes (data : List UInt8) : List Char :=
  data.flatMap fun b => [digit (b.toNat / 16), digit (b.toNat % 16)]

/-- The bytes written as pairs of digits, if the text is that. -/
def readBytes : List Char → Option (List UInt8)
  | [] => some []
  | high :: low :: rest => do
    let h ← value? high
    let l ← value? low
    let tail ← readBytes rest
    pure (UInt8.ofNat (h * 16 + l) :: tail)
  | _ => none

end ClrListing.Text.Hex
