/-
Patterns for whole texts, as `case` and the cutting of values use them: a
star stands for any text, a question mark for any character and a bracket
for one of the characters in it. A quoted character stands for itself.
-/

namespace ClrListing.Script

-- ============================================================ characters

/-- A character of a script with whether it is quoted. -/
structure Marked where
  char : Char
  isQuoted : Bool
  deriving DecidableEq, Repr, Inhabited

namespace Marked

/-- Whether a character stands there without quotes. -/
def isBare (m : Marked) (c : Char) : Bool := m.char = c && !m.isQuoted

end Marked

/-- Characters without quotes. -/
def bare (s : List Char) : List Marked := s.map fun c => ⟨c, false⟩

/-- A set of characters: single ones and ranges, or all but these. -/
structure CharSet where
  isNegated : Bool
  ranges : List (Char × Char)
  deriving DecidableEq, Repr, Inhabited

/-- Whether a character is in a set. -/
def CharSet.has (s : CharSet) (c : Char) : Bool :=
  (s.ranges.any fun r => r.1 ≤ c && c ≤ r.2) != s.isNegated

/-- The characters of a named class. -/
def classRanges? : String → Option (List (Char × Char))
  | "alpha" => some [('A', 'Z'), ('a', 'z')]
  | "digit" => some [('0', '9')]
  | "alnum" => some [('0', '9'), ('A', 'Z'), ('a', 'z')]
  | "upper" => some [('A', 'Z')]
  | "lower" => some [('a', 'z')]
  | "space" => some [(' ', ' '), ('\x09', '\x0d')]
  | "blank" => some [(' ', ' '), ('\t', '\t')]
  | "punct" => some [('!', '/'), (':', '@'), ('[', '\x60'), ('\x7b', '~')]
  | "print" => some [(' ', '~')]
  | "graph" => some [('!', '~')]
  | "cntrl" => some [('\x00', '\x1f'), ('\x7f', '\x7f')]
  | "xdigit" => some [('0', '9'), ('A', 'F'), ('a', 'f')]
  | _ => none

/-- The class that a text opens with after `[:`, and the rest after its
end. -/
def className? (s : List Marked) : Option (List (Char × Char) × List Marked) :=
  let name := (s.takeWhile fun m => m.char.isAlpha).map Marked.char
  match s.drop name.length with
  | colon :: close :: rest =>
    if colon.char = ':' && close.char = ']' then
      (classRanges? (String.ofList name)).map fun ranges => (ranges, rest)
    else none
  | _ => none

/-- The ranges of a set of at most so many characters up to its closing
bracket, and the rest after it. A closing bracket that comes first is one
of the characters. -/
def setRanges : (bound : Nat) → (isFirst : Bool) → List Marked →
    Option (List (Char × Char) × List Marked)
  | 0, _, _ => none
  | _, _, [] => none
  | bound + 1, isFirst, c :: rest =>
    if c.isBare ']' && !isFirst then some ([], rest)
    else
      let named := match rest with
        | colon :: after => if c.isBare '[' && colon.isBare ':' then className? after else none
        | [] => none
      match named with
      | some (ranges, after) =>
        (setRanges bound false after).map fun r => (ranges ++ r.1, r.2)
      | none =>
        match rest with
        | dash :: high :: after =>
          if dash.isBare '-' && !high.isBare ']' then
            (setRanges bound false after).map fun r => ((c.char, high.char) :: r.1, r.2)
          else (setRanges bound false rest).map fun r => ((c.char, c.char) :: r.1, r.2)
        | _ => (setRanges bound false rest).map fun r => ((c.char, c.char) :: r.1, r.2)

/-- The set that a text opens with after its bracket, and the rest after
the closing one; `negation` is the sign that turns a set around. -/
def charSet? (negation : Char) (s : List Marked) : Option (CharSet × List Marked) :=
  let isNegated := s.head?.any fun m => m.isBare negation
  let inner := if isNegated then s.tail else s
  (setRanges (inner.length + 1) true inner).map fun r => (⟨isNegated, r.1⟩, r.2)

-- ============================================================== patterns

/-- A part of a pattern. -/
inductive Glob where
  | char (c : Char)
  | any
  | many
  | oneOf (set : CharSet)
  deriving DecidableEq, Repr, Inhabited

/-- The parts of a pattern, `skip` characters of which belong to the part
before. A backslash that a value brings along quotes the next
character. -/
def globAfter : (skip : Nat) → List Marked → List Glob
  | _, [] => []
  | skip + 1, _ :: rest => globAfter skip rest
  | 0, c :: rest =>
    if c.isQuoted then .char c.char :: globAfter 0 rest
    else match c.char with
      | '*' => .many :: globAfter 0 rest
      | '?' => .any :: globAfter 0 rest
      | '[' =>
        match charSet? '!' rest with
        | some (set, after) => .oneOf set :: globAfter (rest.length - after.length) rest
        | none => .char '[' :: globAfter 0 rest
      | '\\' =>
        match rest with
        | next :: _ => .char next.char :: globAfter 1 rest
        | [] => [.char '\\']
      | c => .char c :: globAfter 0 rest

/-- The parts of a pattern. -/
def glob (pattern : List Marked) : List Glob := globAfter 0 pattern

/-- Whether a pattern stands for the whole of a text. -/
def globMatches : List Glob → List Char → Bool
  | [], s => s.isEmpty
  | .many :: globs, [] => globMatches globs []
  | .many :: globs, c :: rest => globMatches globs (c :: rest) || globMatches (.many :: globs) rest
  | _ :: _, [] => false
  | .char d :: globs, c :: rest => c = d && globMatches globs rest
  | .any :: globs, _ :: rest => globMatches globs rest
  | .oneOf set :: globs, c :: rest => set.has c && globMatches globs rest
termination_by globs s => (globs.length, s.length)

-- =============================================================== cutting

/-- How a value is cut. -/
inductive Cut where
  | shortestStart
  | longestStart
  | shortestEnd
  | longestEnd
  deriving DecidableEq, Repr, Inhabited

/-- How much may be cut off a value at its start or end, in the order in
which it is tried. -/
def Cut.sizes (length : Nat) : Cut → List Nat
  | shortestStart | shortestEnd => List.range (length + 1)
  | longestStart | longestEnd => (List.range (length + 1)).reverse

/-- A value cut by a pattern; it is left as it is if the pattern stands
for none of its starts or ends. -/
def cutBy (cut : Cut) (pattern : List Glob) (value : List Char) : List Char :=
  let split (n : Nat) : List Char × List Char :=
    match cut with
    | .shortestStart | .longestStart => (value.take n, value.drop n)
    | .shortestEnd | .longestEnd => (value.drop (value.length - n), value.take (value.length - n))
  match (cut.sizes value.length).find? fun n => globMatches pattern (split n).1 with
  | some n => (split n).2
  | none => value

-- ================================================================= names

/-- Whether a pattern is for a name: characters that are not quoted stand
for more than themselves. -/
def isGlob (pattern : List Marked) : Bool :=
  pattern.any fun m => !m.isQuoted && (m.char = '*' || m.char = '?' || m.char = '[')

/-- Whether a pattern stands for a name in a directory; a dot that a name
starts with has to be written. -/
def nameMatches (pattern : List Marked) (name : List Char) : Bool :=
  (name.head? ≠ some '.' || (pattern.head?.map Marked.char) = some '.')
    && globMatches (glob pattern) name

end ClrListing.Script
