/-
Modes of files, and masks: what may be done with a file, and what may not be
done with those that are made.

Both have three bits for each of a file's owner, its group and all others.
They are written in octal digits, or as what may be done: letters for some of
these three, signs, and letters for what they may or may not do. In a mode a
clause that names nobody is for all, as far as the mask lets it.
-/
import ClrListing.Disk.Basic
import ClrListing.Script.Number

namespace ClrListing.Script.Mask

-- ================================================================= octal

/-- All bits of a mask. -/
def full : Nat := 0o777

/-- The bits that are not in a mask. -/
def inverse (n : Nat) : Nat := full - n % (full + 1)

/-- The mask of octal digits; of many digits the last three count. -/
def ofDigits? (s : List Char) : Option Nat := do
  let digits ← s.mapM (digit? 8)
  return digits.foldl (fun n d => 8 * n + d) 0 % (full + 1)

/-- The four octal digits of a mask. -/
def digits (n : Nat) : List Char :=
  let shown := Nat.toDigits 8 n
  List.replicate (4 - shown.length) '0' ++ shown

-- =============================================================== letters

/-- The three bits by their letters. -/
def bitLetters : List (Char × Nat) := [('r', 4), ('w', 2), ('x', 1)]

/-- What may be done, in letters. -/
def letters (n : Nat) : List Char :=
  let allowed := inverse n
  let part (name : Char) (shift : Nat) : List Char :=
    name :: '=' :: (bitLetters.filter fun b => allowed / shift / b.2 % 2 = 1).map Prod.fst
  part 'u' 64 ++ ',' :: part 'g' 8 ++ ',' :: part 'o' 1

/-- What the letter of some of those that a file has asks for: a multiple
of the bits for them. -/
def place? : Char → Option Nat
  | 'a' => some 0o111
  | 'u' => some 0o100
  | 'g' => some 0o010
  | 'o' => some 0o001
  | _ => none

/-- The bits that a letter stands for, where `allowed` may be done. -/
def bits? (allowed : Nat) : Char → Option Nat
  | 'r' => some 4
  | 'w' => some 2
  | 'x' => some 1
  | 'u' => some (allowed / 64 % 8)
  | 'g' => some (allowed / 8 % 8)
  | 'o' => some (allowed % 8)
  | 'X' => some (if allowed &&& 0o111 = 0 then 0 else 1)
  | 's' => some 0
  | _ => none

/-- What may be done after changes in letters, which are read from the
front of a text; `start` may be done before them. The change that is read
is for the places `places`. -/
def change? (start : Nat) : (bound places allowed : Nat) → List Char → Option Nat
  | 0, _, _, _ => none
  | bound + 1, places, allowed, s =>
    let named := s.takeWhile fun c => (place? c).isSome
    let places := (named.filterMap place?).foldl (· ||| ·) places
    let places := if places = 0 then 0o111 else places
    match s.drop named.length with
    | [] => some allowed
    | sign :: rest =>
      let letters := rest.takeWhile fun c => (bits? start c).isSome
      let value := (letters.filterMap (bits? start)).foldl (· ||| ·) 0 * places
      let after := rest.drop letters.length
      let next (allowed : Nat) : Option Nat :=
        match after with
        | [] => some allowed
        | ',' :: after => change? start bound 0 allowed after
        | _ => change? start bound places allowed after
      match sign with
      | '+' => next (allowed ||| value)
      | '-' => next (allowed &&& inverse value)
      | '=' => next (allowed &&& inverse (places * 7) ||| value)
      | _ => none

/-- The mask after changes in letters. -/
def changed? (n : Nat) (s : List Char) : Option Nat :=
  (change? (inverse n) (s.length + 1) 0 (inverse n) s).map inverse

end ClrListing.Script.Mask

namespace ClrListing

open Script

namespace Mode

-- ================================================================ showing

/-- All bits of a mode. -/
def full : Mode := 0o7777

/-- The letters of one of the three parts of a mode; the last is another one
where a bit of its own is set. -/
def partLetters (m : Mode) (shift special : Nat) (letter : Char) : List Char :=
  let bits := m / shift % 8
  let runs := bits % 2 = 1
  [if bits ≥ 4 then 'r' else '-', if bits / 2 % 2 = 1 then 'w' else '-',
    if m &&& special = 0 then (if runs then 'x' else '-')
    else if runs then letter else letter.toUpper]

/-- A mode in letters. -/
def letters (m : Mode) : List Char :=
  partLetters m 64 0o4000 's' ++ partLetters m 8 0o2000 's' ++ partLetters m 1 0o1000 't'

/-- A mode in octal digits, of which there are at least so many. -/
def octal (width : Nat) (m : Mode) : List Char :=
  let digits := Nat.toDigits 8 m
  List.replicate (width - digits.length) '0' ++ digits

-- =============================================================== changing

/-- The bits of those that a letter names. -/
def party? : Char → Option Mode
  | 'u' => some 0o4700
  | 'g' => some 0o2070
  | 'o' => some 0o1007
  | 'a' => some full
  | _ => none

/-- What a letter stands for in a mode that is changed. -/
def letterBits? (isDirectory : Bool) (m : Mode) : Char → Option Mode
  | 'r' => some 0o444
  | 'w' => some 0o222
  | 'x' => some 0o111
  | 'X' => some (if isDirectory || m.isRunnable then 0o111 else 0)
  | 's' => some 0o6000
  | 't' => some 0o1000
  | _ => none

/-- What a letter stands for that names those whose bits are copied. -/
def copiedBits? (m : Mode) : Char → Option Mode
  | 'u' => some (m / 64 % 8 * 0o111)
  | 'g' => some (m / 8 % 8 * 0o111)
  | 'o' => some (m % 8 * 0o111)
  | _ => none

/-- The bits that a text opens with after a sign, and the rest. -/
def readBits (isDirectory : Bool) (m : Mode) (s : List Char) : Mode × List Char :=
  match s with
  | c :: rest =>
    match copiedBits? m c with
    | some bits => (bits, rest)
    | none =>
      let letters := s.takeWhile fun c => (letterBits? isDirectory m c).isSome
      ((letters.filterMap (letterBits? isDirectory m)).foldl (· ||| ·) 0, s.drop letters.length)
  | [] => (0, [])

/-- A mode after the changes of a clause of at most so many signs, for the
bits of `party`; these are kept where they are not in `allowed`. -/
def withClause? (isDirectory : Bool) (party allowed : Mode) : (bound : Nat) → Mode → List Char →
    Option Mode
  | _, m, [] => some m
  | 0, _, _ => none
  | bound + 1, m, sign :: s =>
    let (bits, rest) := readBits isDirectory m s
    let bits := bits &&& party &&& allowed
    let special := if isDirectory then m &&& 0o6000 else 0
    match sign with
    | '+' => withClause? isDirectory party allowed bound (m ||| bits) rest
    | '-' => withClause? isDirectory party allowed bound (m &&& (full - bits)) rest
    | '=' =>
      withClause? isDirectory party allowed bound (m &&& (full - party) ||| special ||| bits) rest
    | _ => none

/-- A mode after a change that a text asks for; `mask` is what may not be
done with the files that are made. -/
def changed? (mask : Nat) (isDirectory : Bool) (text : List Char) (m : Mode) : Option Mode :=
  match readDigits? 8 text with
  | some (n, []) =>
    if n > full then none
    else some (if isDirectory && text.length < 5 then n ||| (m &&& 0o6000) else n)
  | _ =>
    match text with
    | [] => none
    | _ => (Text.splitAll ',' text).foldl (fun m clause => m.bind (clause? clause)) (some m)
where
  /-- A mode after the changes of a clause. -/
  clause? (clause : List Char) (m : Mode) : Option Mode :=
    let named := clause.takeWhile fun c => (party? c).isSome
    let changes := clause.drop named.length
    if changes.isEmpty then none
    else if named.isEmpty then
      withClause? isDirectory full (full - mask % (full + 1)) (changes.length + 1) m changes
    else
      let party := (named.filterMap party?).foldl (· ||| ·) 0
      withClause? isDirectory party full (changes.length + 1) m changes

end Mode

end ClrListing
