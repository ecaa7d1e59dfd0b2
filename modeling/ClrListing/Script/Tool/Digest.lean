/-
Digests: short texts that tell whether files hold the same. A digest is a
fold over the blocks of a padded message, and a block is a fold over
rounds; the tools print the digest of a file before its name.

Words are of thirty-two or of sixty-four bits, and their sums wrap.
-/
import ClrListing.Script.Tool.Basic
import ClrListing.Text.Hex

namespace ClrListing.Script

open Text

namespace Digest

-- ================================================================ messages

/-- Turns a word to the left. -/
def turn (x : UInt32) (n : Nat) : UInt32 := (x <<< n.toUInt32) ||| (x >>> (32 - n).toUInt32)

/-- The bytes of a number, the lowest first. -/
def lowFirst : (count n : Nat) → List UInt8
  | 0, _ => []
  | count + 1, n => n.toUInt8 :: lowFirst count (n / 256)

/-- The bytes of a number, the highest first. -/
def highFirst (count n : Nat) : List UInt8 := (lowFirst count n).reverse

/-- The number that bytes are written for, the lowest first. -/
def ofLowFirst (bytes : List UInt8) : Nat := bytes.foldr (fun b n => b.toNat + 256 * n) 0

/-- The number that bytes are written for, the highest first. -/
def ofHighFirst (bytes : List UInt8) : Nat := ofLowFirst bytes.reverse

/-- A message with a bit after it, zeros up to the end of a block of sixteen
words, and there its length in bits, in two words. -/
def padded (size : Nat) (length : Nat → List UInt8) (message : List UInt8) : List UInt8 :=
  let block := 16 * size
  message ++ 0x80 :: List.replicate ((2 * block - 2 * size - 1 - message.length % block) % block) 0
    ++ length (message.length * 8)

/-- A word of a list. -/
def wordAt [OfNat α 0] (s : List α) (n : Nat) : α := (s[n]?).getD 0

/-- How a digest is made of words. -/
structure Method (α : Type) where
  /-- The bytes of a word. -/
  size : Nat
  /-- The word of a number. -/
  word : Nat → α
  /-- The number of a word. -/
  number : α → Nat
  /-- What the first block is added to. -/
  start : List α
  rounds : Nat
  /-- The words that the rounds of a block use. -/
  schedule : List α → List α
  round : List α → Nat → List α → List α
  /-- The bytes of a number, in the order of the digest. -/
  write : (count n : Nat) → List UInt8
  /-- The number that bytes are written for. -/
  read : List UInt8 → Nat
  /-- The bytes of the digest. -/
  length : Nat

/-- Adds to a state what the rounds of a block make of it. -/
def Method.absorb [Add α] (m : Method α) (state block : List α) : List α :=
  let w := m.schedule block
  List.zipWith (· + ·) state
    ((List.range m.rounds).foldl (fun state n => m.round w n state) state)

/-- The digest of a message. -/
def Method.digest [Add α] (m : Method α) (message : List UInt8) : List UInt8 :=
  let bytes := padded m.size (m.write (2 * m.size)) message
  let text := (piecesOf m.size bytes.length bytes).map fun b => m.word (m.read b)
  (((piecesOf 16 text.length text).foldl m.absorb m.start).flatMap fun w =>
    m.write m.size (m.number w)).take m.length

/-- A schedule: a block, and words each made of those before it, which
stand last first. -/
def extended (count : Nat) (next : List α → α) (block : List α) : List α :=
  ((List.range count).foldl (fun w _ => next w :: w) block.reverse).reverse

-- ==================================================================== MD5

/-- The first thirty-two bits of the fractions of sines. -/
def sines : List UInt32 :=
  [0xd76aa478, 0xe8c7b756, 0x242070db, 0xc1bdceee, 0xf57c0faf, 0x4787c62a, 0xa8304613,
    0xfd469501, 0x698098d8, 0x8b44f7af, 0xffff5bb1, 0x895cd7be, 0x6b901122, 0xfd987193,
    0xa679438e, 0x49b40821, 0xf61e2562, 0xc040b340, 0x265e5a51, 0xe9b6c7aa, 0xd62f105d,
    0x02441453, 0xd8a1e681, 0xe7d3fbc8, 0x21e1cde6, 0xc33707d6, 0xf4d50d87, 0x455a14ed,
    0xa9e3e905, 0xfcefa3f8, 0x676f02d9, 0x8d2a4c8a, 0xfffa3942, 0x8771f681, 0x6d9d6122,
    0xfde5380c, 0xa4beea44, 0x4bdecfa9, 0xf6bb4b60, 0xbebfbc70, 0x289b7ec6, 0xeaa127fa,
    0xd4ef3085, 0x04881d05, 0xd9d4d039, 0xe6db99e5, 0x1fa27cf8, 0xc4ac5665, 0xf4292244,
    0x432aff97, 0xab9423a7, 0xfc93a039, 0x655b59c3, 0x8f0ccc92, 0xffeff47d, 0x85845dd1,
    0x6fa87e4f, 0xfe2ce6e0, 0xa3014314, 0x4e0811a1, 0xf7537e82, 0xbd3af235, 0x2ad7d2bb,
    0xeb86d391]

/-- How far the rounds of MD5 turn. -/
def turnsMD5 : List Nat := [7, 12, 17, 22, 5, 9, 14, 20, 4, 11, 16, 23, 6, 10, 15, 21]

/-- A round of MD5. -/
def roundMD5 (w : List UInt32) (n : Nat) : List UInt32 → List UInt32
  | [a, b, c, d] =>
    let (mixed, place) : UInt32 × Nat := match n / 16 with
      | 0 => ((b &&& c) ||| (~~~b &&& d), n)
      | 1 => ((d &&& b) ||| (~~~d &&& c), 5 * n + 1)
      | 2 => (b ^^^ c ^^^ d, 3 * n + 5)
      | _ => (c ^^^ (b ||| ~~~d), 7 * n)
    let turned := turn (a + mixed + wordAt sines n + wordAt w (place % 16))
      ((turnsMD5[n / 16 * 4 + n % 4]?).getD 0)
    [d, b + turned, b, c]
  | state => state

/-- MD5. -/
def md5 : Method UInt32 where
  size := 4
  word := Nat.toUInt32
  number := UInt32.toNat
  start := [0x67452301, 0xefcdab89, 0x98badcfe, 0x10325476]
  rounds := 64
  schedule := id
  round := roundMD5
  write := lowFirst
  read := ofLowFirst
  length := 16

-- ================================================================== SHA-1

/-- A round of SHA-1. -/
def roundSHA1 (w : List UInt32) (n : Nat) : List UInt32 → List UInt32
  | [a, b, c, d, e] =>
    let (mixed, added) : UInt32 × UInt32 := match n / 20 with
      | 0 => ((b &&& c) ||| (~~~b &&& d), 0x5a827999)
      | 1 => (b ^^^ c ^^^ d, 0x6ed9eba1)
      | 2 => ((b &&& c) ||| (b &&& d) ||| (c &&& d), 0x8f1bbcdc)
      | _ => (b ^^^ c ^^^ d, 0xca62c1d6)
    [turn a 5 + mixed + e + added + wordAt w n, a, turn b 30, c, d]
  | state => state

/-- SHA-1. -/
def sha1 : Method UInt32 where
  size := 4
  word := Nat.toUInt32
  number := UInt32.toNat
  start := [0x67452301, 0xefcdab89, 0x98badcfe, 0x10325476, 0xc3d2e1f0]
  rounds := 80
  schedule := extended 64 fun w =>
    turn (wordAt w 2 ^^^ wordAt w 7 ^^^ wordAt w 13 ^^^ wordAt w 15) 1
  round := roundSHA1
  write := highFirst
  read := ofHighFirst
  length := 20

-- ================================================================ SHA-256

/-- The largest number whose power is at most `n`, found by its bits from
the highest on. -/
def root (power n : Nat) : (bits : Nat) → (found : Nat) → Nat
  | 0, found => found
  | bits + 1, found =>
    let more := found + Nat.pow 2 bits
    root power n bits (if Nat.pow more power ≤ n then more else found)

/-- The first eighty primes. -/
def primes : List Nat :=
  (List.range 410).filter fun n => 2 ≤ n && (List.range n).all fun d => d < 2 || n % d ≠ 0

/-- The first sixty-four bits of the fraction of a root. -/
def rootFraction (power n : Nat) : UInt64 := (root power (n <<< (64 * power)) 69 0).toUInt64

/-- The high half of a word. -/
def highHalf (x : UInt64) : UInt32 := (x >>> 32).toUInt32

/-- The fractions of cube roots of primes. -/
def rootsOfPrimes : List UInt64 := primes.map (rootFraction 3)

/-- What the rounds of SHA-256 add. -/
def cubeFractions : List UInt32 := rootsOfPrimes.map highHalf

/-- A round of SHA-256. -/
def roundSHA256 (w : List UInt32) (n : Nat) : List UInt32 → List UInt32
  | [a, b, c, d, e, f, g, h] =>
    let choice := (e &&& f) ^^^ (~~~e &&& g)
    let majority := (a &&& b) ^^^ (a &&& c) ^^^ (b &&& c)
    let first := h + (turn e 26 ^^^ turn e 21 ^^^ turn e 7) + choice + wordAt cubeFractions n
      + wordAt w n
    let second := (turn a 30 ^^^ turn a 19 ^^^ turn a 10) + majority
    [first + second, a, b, c, d + first, e, f, g]
  | state => state

/-- The words that the rounds of SHA-256 use. -/
def scheduleSHA256 : List UInt32 → List UInt32 := extended 48 fun w =>
  let x := wordAt w 14
  let y := wordAt w 1
  wordAt w 15 + (turn x 25 ^^^ turn x 14 ^^^ (x >>> 3)) + wordAt w 6
    + (turn y 15 ^^^ turn y 13 ^^^ (y >>> 10))

/-- SHA-256. -/
def sha256 : Method UInt32 where
  size := 4
  word := Nat.toUInt32
  number := UInt32.toNat
  start := (primes.take 8).map fun p => highHalf (rootFraction 2 p)
  rounds := 64
  schedule := scheduleSHA256
  round := roundSHA256
  write := highFirst
  read := ofHighFirst
  length := 32

/-- SHA-224. -/
def sha224 : Method UInt32 :=
  { sha256 with
    start := ((primes.drop 8).take 8).map fun p => (rootFraction 2 p).toUInt32
    length := 28 }

-- ================================================================ SHA-512

/-- Turns a long word to the left. -/
def turnLong (x : UInt64) (n : Nat) : UInt64 := (x <<< n.toUInt64) ||| (x >>> (64 - n).toUInt64)

/-- A round of SHA-512. -/
def roundSHA512 (w : List UInt64) (n : Nat) : List UInt64 → List UInt64
  | [a, b, c, d, e, f, g, h] =>
    let choice := (e &&& f) ^^^ (~~~e &&& g)
    let majority := (a &&& b) ^^^ (a &&& c) ^^^ (b &&& c)
    let first := h + (turnLong e 50 ^^^ turnLong e 46 ^^^ turnLong e 23) + choice
      + wordAt rootsOfPrimes n + wordAt w n
    let second := (turnLong a 36 ^^^ turnLong a 30 ^^^ turnLong a 25) + majority
    [first + second, a, b, c, d + first, e, f, g]
  | state => state

/-- SHA-512. -/
def sha512 : Method UInt64 where
  size := 8
  word := Nat.toUInt64
  number := UInt64.toNat
  start := (primes.take 8).map (rootFraction 2)
  rounds := 80
  schedule := extended 64 fun w =>
    let x := wordAt w 14
    let y := wordAt w 1
    wordAt w 15 + (turnLong x 63 ^^^ turnLong x 56 ^^^ (x >>> 7)) + wordAt w 6
      + (turnLong y 45 ^^^ turnLong y 3 ^^^ (y >>> 6))
  round := roundSHA512
  write := highFirst
  read := ofHighFirst
  length := 64

/-- SHA-384. -/
def sha384 : Method UInt64 :=
  { sha512 with
    start := ((primes.drop 8).take 8).map (rootFraction 2)
    length := 48 }

-- ========================================================= cyclic remainders

/-- A remainder with a bit more. -/
def shift (remainder : UInt32) (isSet : Bool) : UInt32 :=
  let isOut := remainder &&& 0x80000000 ≠ 0
  (remainder <<< 1) ^^^ if isOut ≠ isSet then 0x04c11db7 else 0

/-- A remainder with a byte more, its highest bit first. -/
def shiftByte (remainder : UInt32) (b : UInt8) : UInt32 :=
  (List.range 8).foldl (fun r n => shift r (b.toNat.testBit (7 - n))) remainder

/-- The remainder of a message and of the bytes of its length. -/
def remainder (message : List UInt8) : UInt32 :=
  let n := message.length
  ~~~(message ++ lowFirst (if n = 0 then 0 else n.log2 / 8 + 1) n).foldl shiftByte 0

/-- A sum of bytes, turned by a bit each time. -/
def turnedSum (message : List UInt8) : Nat :=
  message.foldl (fun sum b => (sum / 2 + sum % 2 * 0x8000 + b.toNat) % 0x10000) 0

/-- A sum of bytes, folded to sixteen bits. -/
def foldedSum (message : List UInt8) : Nat :=
  let sum := message.foldl (fun sum b => sum + b.toNat) 0
  let half := sum % 0x10000 + sum % 0x100000000 / 0x10000
  half % 0x10000 + half / 0x10000

end Digest

-- ================================================================== tools

/-- A way to make the digest of a text, its name, and the length of its
digests in digits. -/
structure DigestKind where
  name : String
  digits : Nat
  digest : List Char → List Char

/-- The kind of digests that a method makes. -/
def DigestKind.of [Add α] (name : String) (m : Digest.Method α) : DigestKind :=
  ⟨name, 2 * m.length, fun text => Hex.bytes (m.digest (Octets.toBytes text))⟩

/-- The kinds of digests. -/
def digestKinds : List DigestKind :=
  [.of "MD5" Digest.md5, .of "SHA1" Digest.sha1, .of "SHA224" Digest.sha224,
    .of "SHA256" Digest.sha256, .of "SHA384" Digest.sha384, .of "SHA512" Digest.sha512]

/-- The digest and the path in a line. -/
def digestLine? (kind : DigestKind) (line : List Char) : Option (List Char × List Char) :=
  let start := kind.name.toList ++ [' ', '(']
  if start.isPrefixOf line then
    (splitOnce ") = ".toList (line.drop start.length)).map fun r => (r.2, r.1)
  else
    let digest := line.takeWhile fun c => (digit? 16 c).isSome
    match line.drop digest.length with
    | ' ' :: c :: path =>
      if digest.length = kind.digits && (c = ' ' || c = '*') then some (digest, path) else none
    | _ => none

/-- What is told of a list of digests: for each line of it whether the file
still has the digest, and then what was wrong. -/
def digestCheck (i : Invocation) (p : Parsed) (kind : DigestKind) (path text : List Char) :
    List Telling × Bool :=
  let lines := (plainLines text).map (digestLine? kind)
  let given := lines.filterMap id
  let results := given.map fun (digest, path) =>
    match i.disk.read i.here path with
    | .ok bytes =>
      let isSame := kind.digest (Octets.ofBytes bytes) = digest.map Char.toLower
      (path, if isSame then none else some ("FAILED", []))
    | .error fault => (path, some ("FAILED open or read", fileComplaint i.name path fault))
  let isQuiet := p.has 'q' || p.has 'S'
  let told := results.flatMap fun (path, result) => match result with
    | none => if isQuiet then [] else [(1, path ++ ": OK\n".toList)]
    | some (word, complaint) =>
      (if p.has 'i' && !complaint.isEmpty then []
        else [(2, complaint), (1, if p.has 'S' then [] else path ++ ": ".toList ++ word.toList ++ ['\n'])])
  let count (word : String) : Nat := (results.filter fun r =>
    r.2.any fun f => f.1 = word).length
  let warning (n : Nat) (one many : String) : List Char :=
    if n = 0 || p.has 'S' then []
    else i.name ++ ": WARNING: ".toList ++ n.repr.toList ++ ' ' ::
      (if n = 1 then one else many).toList ++ ['\n']
  let bad := lines.length - given.length
  let title := if path = ['-'] then "\x27standard input\x27".toList else path
  if given.isEmpty then
    ([(2, i.name ++ ": ".toList ++ title
      ++ ": no properly formatted checksum lines found\n".toList)], false)
  else
    let ending := warning bad "line is improperly formatted" "lines are improperly formatted"
      ++ warning (count "FAILED open or read") "listed file could not be read"
        "listed files could not be read"
      ++ warning (count "FAILED") "computed checksum did NOT match"
        "computed checksums did NOT match"
    (told ++ [(2, ending)], results.all fun r =>
      r.2.isNone || (p.has 'i' && r.2.any fun f => !f.2.isEmpty))

/-- Prints digests of files before their names, or checks them. -/
def digestTool (kind : DigestKind) : Tool := fun i =>
  match (Options.of "btcTqSwiz" "" [("binary", 'b'), ("text", 't'), ("check", 'c'), ("tag", 'T'),
      ("quiet", 'q'), ("status", 'S'), ("warn", 'w'), ("ignore-missing", 'i'), ("strict", 'w'),
      ("zero", 'z')]).parse false i.arguments with
  | .error fault => .refused i 1 fault
  | .ok p =>
    let g := gatherOrInput i p.operands
    if p.has 'c' then
      let checks := g.parts.map fun part => match part.2 with
        | .ok text => digestCheck i p kind part.1 text
        | .error reason => ([(2, reason)], false)
      (g.telling i 1 (checks.flatMap Prod.fst)).withStatus (if checks.all Prod.snd then 0 else 1)
    else
      let mark := if (p.given.filter fun o => o.1 = 'b' || o.1 = 't').getLast?.any fun o =>
        o.1 = 'b' then '*' else ' '
      g.completeEach i 1 fun path text =>
        let digest := kind.digest text
        let line := if p.has 'T' then
            kind.name.toList ++ " (".toList ++ path ++ ") = ".toList ++ digest
          else digest ++ ' ' :: mark :: path
        line ++ [if p.has 'z' then '\x00' else '\n']

/-- The tool for the digests of a name. -/
def digestToolOf (name : String) : Tool :=
  match digestKinds.find? fun kind => kind.name = name with
  | some kind => digestTool kind
  | none => fun i => .ofStatus i 1

/-- Prints the cyclic remainders and the lengths of files before their
names, or digests. -/
def cksum : Tool := fun i =>
  match (Options.of "u" "a" [("algorithm", 'a'), ("untagged", 'u')]).parse false
      i.arguments with
  | .error fault => .refused i 1 fault
  | .ok p =>
    let g := gatherOrInput i p.operands
    let name := (p.value? 'a').map fun text => String.ofList (text.map Char.toUpper)
    match name.bind fun name => digestKinds.find? fun kind => kind.name = name with
    | some kind => g.completeEach i 1 fun path text =>
      if p.has 'u' then kind.digest text ++ ' ' :: ' ' :: path ++ ['\n']
      else kind.name.toList ++ " (".toList ++ path ++ ") = ".toList ++ kind.digest text ++ ['\n']
    | none => g.completeEach i 1 fun path text =>
      (Digest.remainder (Octets.toBytes text)).toNat.repr.toList ++ ' ' :: text.length.repr.toList
        ++ (if p.operands.isEmpty then [] else ' ' :: path) ++ ['\n']

/-- Prints plain sums of the bytes of files, and how many blocks there are. -/
def sum : Tool := fun i =>
  match (Options.of "rs" "" [("sysv", 's')]).parse false i.arguments with
  | .error fault => .refused i 1 fault
  | .ok p =>
    let isPlain := (p.given.getLast?).any fun o => o.1 = 's'
    (gatherOrInput i p.operands).completeEach i 1 fun path text =>
      let bytes := Octets.toBytes text
      let blocks (size : Nat) : List Char := ((bytes.length + size - 1) / size).repr.toList
      let title := if p.operands.isEmpty then [] else ' ' :: path
      if isPlain then
        (Digest.foldedSum bytes).repr.toList ++ ' ' :: blocks 512 ++ title ++ ['\n']
      else
        let digits := (Digest.turnedSum bytes).repr.toList
        List.replicate (5 - digits.length) '0' ++ digits ++ ' ' :: padStart 5 (blocks 1024) ++ title
          ++ ['\n']

end ClrListing.Script
