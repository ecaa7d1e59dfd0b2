/-
Cutting a text at a separator: at its first occurrence, at the last
occurrence of a character, or at every occurrence. White space, by the
Unicode property White_Space, is trimmed off the ends of a text or
separates its words. Names are put together with dots, and with the number
of type parameters behind.

File paths are cut at the slashes between their parts: the last part that
is a name has a stem and an extension. Empty parts and single dots name
nothing and are passed over, except for a single dot that is the whole
path. Two dots are no name.
-/

namespace ClrListing.Text

-- ========================================================== separators

/-- What stands before and after the first occurrence of `separator`. -/
def splitOnce (separator : List Char) : List Char → Option (List Char × List Char)
  | [] => if separator.isEmpty then some ([], []) else none
  | c :: rest =>
    if separator.isPrefixOf (c :: rest) then
      some ([], (c :: rest).drop separator.length)
    else (splitOnce separator rest).map fun r => (c :: r.1, r.2)

/-- What stands after the last occurrence of the character `c`. -/
def afterLast (c : Char) (s : List Char) : Option (List Char) :=
  if s.contains c then some (s.reverse.takeWhile (· != c)).reverse else none

/-- What stands before and after the last occurrence of the character `c`. -/
def splitLast (c : Char) (s : List Char) : Option (List Char × List Char) :=
  (afterLast c s).map fun tail => (s.take (s.length - tail.length - 1), tail)

/-- The pieces between the occurrences of `c`; one more than there are
occurrences. -/
def splitAll (c : Char) : List Char → List (List Char)
  | [] => [[]]
  | d :: rest =>
    if d = c then [] :: splitAll c rest
    else match splitAll c rest with
      | [] => [[d]]
      | piece :: pieces => (d :: piece) :: pieces

/-- The lines of a text: pieces between line feeds, each without a
carriage return at its end, and no empty line after a final line feed. -/
def lines (s : List Char) : List (List Char) :=
  let pieces := splitAll '\n' s
  let kept := if pieces.getLast? = some [] then pieces.dropLast else pieces
  kept.mapIdx fun i line =>
    if i + 1 < pieces.length && line.getLast? = some '\r' then line.dropLast else line

/-- A natural number below `bound` in decimal digits, with an optional
plus sign before them. -/
def readBounded (bound : Nat) (s : List Char) : Option Nat :=
  let digits := match s with
    | '+' :: rest => rest
    | _ => s
  if !digits.isEmpty && digits.all (fun c => '0' ≤ c && c ≤ '9') then
    let n := digits.foldl (fun n c => n * 10 + (c.toNat - '0'.toNat)) 0
    if n < bound then some n else none
  else none

-- ========================================================= white space

/-- A character with the White_Space property. -/
def isBlank (c : Char) : Bool :=
  (9 ≤ c.toNat && c.toNat ≤ 13) || c = ' ' || c.toNat = 0x85 || c.toNat = 0xa0
    || c.toNat = 0x1680 || (0x2000 ≤ c.toNat && c.toNat ≤ 0x200a)
    || c.toNat = 0x2028 || c.toNat = 0x2029 || c.toNat = 0x202f
    || c.toNat = 0x205f || c.toNat = 0x3000

/-- The text without the longest run of `p` at its end. -/
def dropEndWhile (p : Char → Bool) (s : List Char) : List Char :=
  (s.reverse.dropWhile p).reverse

/-- The text without the blanks at either end. -/
def trim (s : List Char) : List Char :=
  dropEndWhile isBlank (s.dropWhile isBlank)

/-- The maximal runs without a blank, in order; the first argument
collects the run in progress. -/
def wordsAfter (run : List Char) : List Char → List (List Char)
  | [] => if run.isEmpty then [] else [run]
  | c :: rest =>
    if isBlank c then
      if run.isEmpty then wordsAfter [] rest else run :: wordsAfter [] rest
    else wordsAfter (run ++ [c]) rest

/-- The maximal runs without a blank, in order. -/
def words (s : List Char) : List (List Char) := wordsAfter [] s

-- =============================================================== names

/-- A name inside a namespace; the empty namespace adds nothing. -/
def qualify (space name : String) : String :=
  if space.isEmpty then name else space ++ "." ++ name

/-- The name that metadata gives to something generic: a backtick and
the number of type parameters after the name, unless there are none. -/
def arityName (name : String) (arity : Nat) : String :=
  if arity = 0 then name else name ++ "`" ++ arity.repr

end ClrListing.Text

namespace ClrListing.Text.Path

-- =============================================================== paths

/-- The parts of a path that name something. -/
def parts (path : List Char) : List (List Char) :=
  (splitAll '/' path).filter fun part => !part.isEmpty && part ≠ ['.']

/-- The name at the end of a path, if it ends with one. -/
def fileName? (path : List Char) : Option (List Char) :=
  match (parts path).getLast? with
  | none => none
  | some name => if name = ['.', '.'] then none else some name

/-- A name cut at its last dot; a dot that starts the name does not
count. -/
def cut (name : List Char) : List Char × Option (List Char) :=
  match splitLast '.' name with
  | none => (name, none)
  | some ([], _) => (name, none)
  | some (stem, extension) => (stem, some extension)

/-- The name at the end of a path without its extension. -/
def stem? (path : List Char) : Option (List Char) := (fileName? path).map fun name => (cut name).1

/-- The extension of the name at the end of a path. -/
def extension? (path : List Char) : Option (List Char) :=
  (fileName? path).bind fun name => (cut name).2

end ClrListing.Text.Path
