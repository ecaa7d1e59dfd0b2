/-
Regular expressions, basic and extended: how they are written, and where a
text has one. The leftmost place counts, and there the longest text.

Matching goes along an expression with what is to follow it; of the ways
to match, the longest one is kept, and of ways that are as long the first.
-/
import ClrListing.Script.Number
import ClrListing.Script.Pattern
import ClrListing.Text.Search

namespace ClrListing.Script

-- =========================================================== expressions

/-- What one character is asked to be. -/
inductive Atom where
  | char (c : Char)
  | any
  | oneOf (set : CharSet)
  deriving DecidableEq, Repr, Inhabited

/-- Whether a character is what is asked for. -/
def Atom.has : Atom → Char → Bool
  | char d, c => c = d
  | any, _ => true
  | oneOf set, c => set.has c

/-- A regular expression. -/
inductive Regex where
  | nothing
  | one (atom : Atom)
  | lineStart
  | lineEnd
  | textStart
  | textEnd
  /-- A place where a line of a text starts. -/
  | partStart
  /-- A place where a line of a text ends. -/
  | partEnd
  | wordStart
  | wordEnd
  | wordEdge
  | wordInside
  /-- An expression whose text is remembered by its number. -/
  | group (number : Nat) (inner : Regex)
  /-- The text of a group once more. -/
  | again (number : Nat)
  | both (first second : Regex)
  | either (first second : Regex)
  | repeated (inner : Regex) (least : Nat) (most : Option Nat)
  deriving DecidableEq, Repr, Inhabited

/-- How many parts an expression has. -/
def Regex.size : Regex → Nat
  | .group _ inner => inner.size + 1
  | .both first second | .either first second => first.size + second.size + 1
  | .repeated inner _ _ => inner.size + 1
  | _ => 1

/-- How many groups an expression has. -/
def Regex.groups : Regex → Nat
  | .group _ inner => inner.groups + 1
  | .both first second | .either first second => first.groups + second.groups
  | .repeated inner _ _ => inner.groups
  | _ => 0

/-- An expression for which each line of a text starts and ends. -/
def Regex.byLine : Regex → Regex
  | .lineStart => .partStart
  | .lineEnd => .partEnd
  | .group number inner => .group number inner.byLine
  | .both first second => .both first.byLine second.byLine
  | .either first second => .either first.byLine second.byLine
  | .repeated inner least most => .repeated inner.byLine least most
  | r => r

-- =============================================================== reading

/-- How expressions are written. -/
structure Grammar where
  /-- Signs need no backslash. -/
  isExtended : Bool
  /-- What cannot be a sign where it stands is a fault, and does not stand
  for itself. -/
  isStrict : Bool
  /-- A class that stands without a set around it is a fault. -/
  guardsClasses : Bool
  /-- After a backslash a letter or a number names a character, also in
  sets. -/
  hasNames : Bool
  deriving DecidableEq, Repr, Inhabited

/-- Why a text is no expression. -/
inductive RegexFault where
  | invalid
  | classSyntax
  | unknownClass
  | unknownName
  | openSet
  | openGroup
  | closedGroup
  | openBounds
  | badBounds
  | badRange
  | tooBig
  | nothingBefore
  | noGroup
  | openEscape
  deriving DecidableEq, Repr, Inhabited

/-- How a fault is told. -/
def RegexFault.message : RegexFault → String
  | invalid => "Invalid regular expression"
  | classSyntax => "character class syntax is [[:space:]], not [:space:]"
  | unknownClass => "Invalid character class name"
  | unknownName => "Invalid collation character"
  | openSet => "Unmatched [, [^, [:, [., or [="
  | openGroup => "Unmatched ( or \\("
  | closedGroup => "Unmatched ) or \\)"
  | openBounds => "Unmatched \\\x7b"
  | badBounds => "Invalid content of \\\x7b\\\x7d"
  | badRange => "Invalid range end"
  | tooBig => "Regular expression too big"
  | nothingBefore => "Invalid preceding regular expression"
  | noGroup => "Invalid back reference"
  | openEscape => "Trailing backslash"

/-- An expression that is being read. -/
structure RegexSource where
  rest : List Char
  /-- How many groups have begun. -/
  begun : Nat
  /-- The groups that have ended. -/
  ended : List Nat
  /-- The signs that stood where there was nothing to repeat. -/
  idle : List String

/-- A step that reads an expression off a text. -/
abbrev RegexReader := StateT RegexSource (Except RegexFault)

namespace RegexReader

/-- The expression is not well formed. -/
def fail (fault : RegexFault) : RegexReader α := throw fault

/-- What is left of the text. -/
def rest : RegexReader (List Char) := do return (← get).rest

/-- Leaves what is left of the text. -/
def setRest (s : List Char) : RegexReader Unit := modify fun x => { x with rest := s }

/-- Takes a text off if it comes next, and tells whether it did. -/
def take (text : String) : RegexReader Bool := do
  let s ← rest
  if text.toList.isPrefixOf s then
    setRest (s.drop text.length)
    return true
  else return false

end RegexReader

open RegexReader

/-- The characters of words. -/
def wordSet (isNegated : Bool) : CharSet :=
  ⟨isNegated, [('0', '9'), ('A', 'Z'), ('a', 'z'), ('_', '_')]⟩

/-- The blanks, as a set. -/
def spaceSet (isNegated : Bool) : CharSet := ⟨isNegated, [(' ', ' '), ('\x09', '\x0d')]⟩

/-- What a character after a backslash stands for, unless it is a sign of
its own. -/
def escapedPart (c : Char) : Regex :=
  match c with
  | 'n' => .one (.char '\n')
  | 't' => .one (.char '\t')
  | 'w' => .one (.oneOf (wordSet false))
  | 'W' => .one (.oneOf (wordSet true))
  | 's' => .one (.oneOf (spaceSet false))
  | 'S' => .one (.oneOf (spaceSet true))
  | '<' => .wordStart
  | '>' => .wordEnd
  | 'b' => .wordEdge
  | 'B' => .wordInside
  | '\x60' => .textStart
  | '\x27' => .textEnd
  | c =>
    if '1' ≤ c && c ≤ '9' then .again (c.toNat - '0'.toNat) else .one (.char c)

-- ------------------------------------------------------------------ sets

/-- A part of a set: a class, or a character that may begin a range. -/
inductive SetPart where
  | ranges (ranges : List (Char × Char))
  | char (c : Char)
  deriving DecidableEq, Repr, Inhabited

/-- The character that a text after a backslash names, and the rest. -/
def namedChar : List Char → Char × List Char
  | 'a' :: rest => ('\x07', rest)
  | 'b' :: rest => ('\x08', rest)
  | 'f' :: rest => ('\x0c', rest)
  | 'n' :: rest => ('\n', rest)
  | 'r' :: rest => ('\x0d', rest)
  | 't' :: rest => ('\t', rest)
  | 'v' :: rest => ('\x0b', rest)
  | s =>
    match readDigits? 8 (s.take 3) with
    | some (n, rest) => (Char.ofNat (n % 0x100), rest ++ s.drop 3)
    | none => (s.headD '\\', s.drop 1)

/-- The name in a set up to its end, after a bracket and a sign. -/
def setName? (sign : Char) (s : List Char) : Except RegexFault (List Char × List Char) :=
  match Text.splitOnce [sign, ']'] s with
  | some (name, rest) => .ok (name, rest)
  | none => .error .openSet

/-- The part that a set opens with, and the rest. -/
def setPart (g : Grammar) (isFirst isAfterDash : Bool) :
    List Char → Except RegexFault (SetPart × List Char)
  | '[' :: ':' :: rest => do
    let (name, rest) ← setName? ':' rest
    match classRanges? (String.ofList name) with
    | some ranges => return (.ranges ranges, rest)
    | none => throw .unknownClass
  | '[' :: '.' :: rest => named '.' rest
  | '[' :: '=' :: rest => named '=' rest
  | '-' :: c :: rest =>
    if isFirst || isAfterDash || c = ']' then .ok (.char '-', c :: rest) else .error .badRange
  | c :: rest =>
    if c = '\\' && g.hasNames && !rest.isEmpty then
      let (named, rest) := namedChar rest
      .ok (.char named, rest)
    else .ok (.char c, rest)
  | [] => .error .openSet
where
  named (sign : Char) (rest : List Char) : Except RegexFault (SetPart × List Char) := do
    match ← setName? sign rest with
    | ([c], rest) => return (.char c, rest)
    | _ => throw .unknownName

/-- The ranges of a set of at most so many characters up to its closing
bracket, and the rest after it. A closing bracket that comes first is one
of the characters. -/
def setParts (g : Grammar) : (bound : Nat) → (isFirst : Bool) → List Char →
    Except RegexFault (List (Char × Char) × List Char)
  | 0, _, _ | _, _, [] => .error .openSet
  | bound + 1, isFirst, c :: rest => do
    if c = ']' && !isFirst then return ([], rest)
    let (part, after) ← setPart g isFirst false (c :: rest)
    let isRange := after.head? = some '-' && after.tail.head? ≠ some ']' && !after.tail.isEmpty
    match part, isRange with
    | .ranges _, true => throw .badRange
    | .ranges ranges, false =>
      let (more, rest) ← setParts g bound false after
      return (ranges ++ more, rest)
    | .char c, false =>
      let (more, rest) ← setParts g bound false after
      return ((c, c) :: more, rest)
    | .char low, true =>
      match ← setPart g false true after.tail with
      | (.ranges _, _) => throw .badRange
      | (.char high, after) =>
        if high < low then throw .badRange
        let (more, rest) ← setParts g bound false after
        return ((low, high) :: more, rest)

/-- Reads a set after its bracket. -/
def readSet (g : Grammar) : RegexReader CharSet := do
  let s ← rest
  let isNegated := s.head? = some '^'
  let inner := if isNegated then s.tail else s
  if inner.isEmpty then fail .invalid
  match setParts g (inner.length + 1) true inner with
  | .error fault => fail fault
  | .ok (ranges, after) =>
    let written := s.take (s.length - after.length - 1)
    if g.guardsClasses && written.length > 1 && written.head? = some ':' &&
        written.getLast? = some ':' then
      fail .classSyntax
    setRest after
    return ⟨isNegated, ranges⟩

-- ----------------------------------------------------------- repetitions

/-- The number that a text opens with, if it opens with a digit. -/
def readNumber? (s : List Char) : Option (Nat × List Char) :=
  let digits := s.takeWhile Char.isDigit
  if digits.isEmpty then none
  else some (digits.foldl (fun n c => 10 * n + (c.toNat - '0'.toNat)) 0, s.drop digits.length)

/-- The most that an expression may be repeated. -/
def repetitionLimit : Nat := 0x7fff

/-- The bounds that a text opens with after the sign for bounds; nothing if
the text has none, which is a fault of its own where that matters. -/
def readBounds (g : Grammar) (s : List Char) :
    Except RegexFault (Option (Nat × Option Nat × List Char)) := do
  let close := if g.isExtended then ['\x7d'] else ['\\', '\x7d']
  let none_ (s : List Char) : Except RegexFault (Option (Nat × Option Nat × List Char)) :=
    if g.isExtended && !g.isStrict then .ok none
    else .error (if s.isEmpty then .openBounds else .badBounds)
  let bounded (least : Nat) (most : Option Nat) (s : List Char) :
      Except RegexFault (Option (Nat × Option Nat × List Char)) :=
    if most.any fun most => most < least then .error .badBounds
    else if least > repetitionLimit || most.any fun most => most > repetitionLimit then
      .error .tooBig
    else .ok (some (least, most, s.drop close.length))
  let first := readNumber? s
  let (least, s) := first.getD (0, s)
  if first.isSome && close.isPrefixOf s then bounded least (some least) s
  else match s with
    | ',' :: s =>
      match readNumber? s with
      | some (most, s) =>
        if close.isPrefixOf s then bounded least (some most) s else none_ s
      | none => if close.isPrefixOf s then bounded least none s else none_ s
    | _ => none_ s

/-- Reads the sign for repetition that comes next, if one does: how it is
told of, and its bounds. -/
def readRepetition? (g : Grammar) : RegexReader (Option (String × Nat × Option Nat)) := do
  let sign := if g.isExtended then "" else "\\"
  if ← take "*" then return some ("*", 0, none)
  else if ← take (sign ++ "+") then return some ("+", 1, none)
  else if ← take (sign ++ "?") then return some ("?", 0, some 1)
  else
    let s ← rest
    if ← take (sign ++ "\x7b") then
      match readBounds g (← rest) with
      | .ok (some (least, most, s)) =>
        setRest s
        return some ("\x7b...\x7d", least, most)
      | .ok none =>
        setRest s
        return none
      | .error fault => fail fault
    else return none

/-- An expression that is repeated as the signs that come next ask for. -/
def readRepeated (g : Grammar) : (fuel : Nat) → (isAgain : Bool) → Regex → RegexReader Regex
  | 0, _, r => return r
  | fuel + 1, isAgain, r => do
    let next := (← rest).take 2
    if g.isStrict && !g.isExtended && isAgain &&
        (next.head? = some '*' || next = ['\\', '\x7b']) then
      fail .nothingBefore
    match ← readRepetition? g with
    | some (_, least, most) => readRepeated g fuel true (.repeated r least most)
    | none => return r

-- ----------------------------------------------------------------- parts

/-- Whether an alternative of an expression ends here. -/
def endsHere (g : Grammar) (isInside : Bool) : RegexReader Bool := do
  let s ← rest
  return s.isEmpty
    || (if g.isExtended then s.head? = some '|' else "\\|".toList.isPrefixOf s)
    || (isInside && if g.isExtended then s.head? = some ')' else "\\)".toList.isPrefixOf s)

/-- Reads what one character asks for. -/
def readAtom (g : Grammar) (isInside isFirst : Bool) : RegexReader Regex := do
  let s ← rest
  match s with
  | [] => fail .invalid
  | '.' :: s => do
    setRest s
    return .one .any
  | '[' :: s => do
    setRest s
    return .one (.oneOf (← readSet g))
  | '\\' :: c :: s => do
    let (c, s) := if g.hasNames then namedChar (c :: s) else (c, s)
    setRest s
    if c = ')' && !g.isExtended then fail .closedGroup
    match if g.hasNames then .one (.char c) else escapedPart c with
    | .again number =>
      if (← get).ended.contains number then return .again number else fail .noGroup
    | part => return part
  | ['\\'] => fail .openEscape
  | '^' :: s => do
    setRest s
    return if g.isExtended || isFirst then .lineStart else .one (.char '^')
  | '$' :: s => do
    setRest s
    return if g.isExtended || (← endsHere g isInside) then .lineEnd
      else .one (.char '$')
  | c :: s => do
    if c = ')' && g.isExtended && g.isStrict then fail .closedGroup
    setRest s
    return .one (.char c)

/-- Passes over the signs for repetition where there is nothing to
repeat. -/
def skipIdle (g : Grammar) : (fuel : Nat) → RegexReader Unit
  | 0 => return
  | fuel + 1 => do
    let s ← rest
    let bound := if g.isExtended then ['\x7b'] else ['\\', '\x7b']
    if g.isStrict && bound.isPrefixOf s then fail .nothingBefore
    if g.isExtended then
      match ← readRepetition? g with
      | some (sign, _) =>
        if g.isStrict then fail .nothingBefore
        modify fun x => { x with idle := x.idle ++ [sign] }
        skipIdle g fuel
      | none => return

mutual

/-- Reads alternatives. -/
def readEither (g : Grammar) : (fuel : Nat) → (isInside : Bool) → RegexReader Regex
  | 0, _ => fail .tooBig
  | fuel + 1, isInside => do
    let first ← readBoth g fuel isInside true
    if ← take (if g.isExtended then "|" else "\\|") then
      return .either first (← readEither g fuel isInside)
    else return first

/-- Reads parts that follow each other. -/
def readBoth (g : Grammar) :
    (fuel : Nat) → (isInside isFirst : Bool) → RegexReader Regex
  | 0, _, _ => fail .tooBig
  | fuel + 1, isInside, isFirst => do
    if isFirst then skipIdle g fuel
    if ← endsHere g isInside then return .nothing
    else
      let part ← readPart g fuel isInside isFirst
      let starts := isFirst && part = .lineStart
      return .both part (← readBoth g fuel isInside starts)

/-- Reads a part with the signs for its repetition. A star that comes
first stands for itself. -/
def readPart (g : Grammar) :
    (fuel : Nat) → (isInside isFirst : Bool) → RegexReader Regex
  | 0, _, _ => fail .tooBig
  | fuel + 1, isInside, isFirst => do
    if ← (if isFirst then take "*" else pure false) then
      readRepeated g fuel false (.one (.char '*'))
    else if ← take (if g.isExtended then "(" else "\\(") then
      let number := (← get).begun + 1
      modify fun x => { x with begun := number }
      let inner ← readEither g fuel true
      if ← take (if g.isExtended then ")" else "\\)") then
        modify fun x => { x with ended := number :: x.ended }
        readRepeated g fuel false (.group number inner)
      else fail .openGroup
    else
      let part ← readAtom g isInside isFirst
      if part = .lineStart then return part
      else readRepeated g fuel false part

end

namespace Regex

/-- The expression that a text is written for, and the signs in it that
stand where there is nothing to repeat. -/
def read (g : Grammar) (s : List Char) : Except RegexFault (Regex × List String) :=
  match (readEither g (4 * s.length + 8) false).run ⟨s, 0, [], []⟩ with
  | .ok (r, source) => if source.rest.isEmpty then .ok (r, source.idle) else .error .closedGroup
  | .error fault => .error fault

/-- The expression that a text is written for. -/
def ofText (g : Grammar) (s : List Char) : Except RegexFault Regex := (read g s).map Prod.fst

-- ============================================================== matching

/-- A place in a text that matching has got to. -/
structure Spot where
  /-- The character before it. -/
  before : Option Char
  rest : List Char
  /-- How many characters are matched. -/
  taken : Nat
  /-- The texts of groups. -/
  groups : List (Nat × List Char)
  deriving DecidableEq, Repr, Inhabited

namespace Spot

/-- The place after so many characters more. -/
def skip (s : Spot) : (count : Nat) → Spot
  | 0 => s
  | count + 1 =>
    let t := s.skip count
    match t.rest with
    | c :: rest => { t with before := some c, rest := rest, taken := t.taken + 1 }
    | [] => t

/-- Whether a word character is before the place, and after it. -/
def inWord (s : Spot) : Bool × Bool :=
  (s.before.any (wordSet false).has, s.rest.head?.any (wordSet false).has)

end Spot

/-- Whether a character is asked for, in either case if `folds` holds. -/
def meets (folds : Bool) (a : Atom) (c : Char) : Bool :=
  a.has c || (folds && (a.has c.toUpper || a.has c.toLower))

/-- Of two ways to match the longer; the second is not tried if nothing is
left after the first. -/
def longer (first : Option Spot) (second : Unit → Option Spot) : Option Spot :=
  match first with
  | none => second ()
  | some s =>
    if s.rest.isEmpty then some s
    else match second () with
      | some t => if t.taken > s.taken then some t else some s
      | none => some s

/-- Whether two texts are the same, in any case if `folds` holds. -/
def sameText (folds : Bool) (s t : List Char) : Bool :=
  s = t || (folds && s.map Char.toLower = t.map Char.toLower)

/-- Matches an expression at a place, and goes on from there. -/
def matchFrom (folds : Bool) : (fuel : Nat) → Regex → Spot → (Spot → Option Spot) → Option Spot
  | 0, _, _, _ => none
  | fuel + 1, r, s, next =>
    match r with
    | .nothing => next s
    | .one a =>
      match s.rest with
      | c :: _ => if meets folds a c then next (s.skip 1) else none
      | [] => none
    | .lineStart | .textStart => if s.before.isNone then next s else none
    | .lineEnd | .textEnd => if s.rest.isEmpty then next s else none
    | .partStart => if s.before.all (· = '\n') then next s else none
    | .partEnd => if s.rest.head?.all (· = '\n') then next s else none
    | .wordStart => if s.inWord = (false, true) then next s else none
    | .wordEnd => if s.inWord = (true, false) then next s else none
    | .wordEdge => if s.inWord.1 != s.inWord.2 then next s else none
    | .wordInside => if s.inWord.1 == s.inWord.2 then next s else none
    | .group number inner =>
      matchFrom folds fuel inner s fun t =>
        let text := s.rest.take (t.taken - s.taken)
        next { t with groups := (number, text) :: t.groups.filter fun g => g.1 ≠ number }
    | .again number =>
      match s.groups.lookup number with
      | some text =>
        if sameText folds (s.rest.take text.length) text then next (s.skip text.length) else none
      | none => none
    | .both first second =>
      matchFrom folds fuel first s fun t => matchFrom folds fuel second t next
    | .either first second =>
      longer (matchFrom folds fuel first s next) fun _ => matchFrom folds fuel second s next
    | .repeated inner least most =>
      let stop (_ : Unit) : Option Spot := if least = 0 then next s else none
      if most = some 0 then stop ()
      else
        let more := matchFrom folds fuel inner s fun t =>
          if t.taken = s.taken && least = 0 then none
          else matchFrom folds fuel (.repeated inner (least - 1) (most.map (· - 1))) t next
        longer more stop

/-- The longest match at a place. -/
def matchAt (r : Regex) (folds : Bool) (before : Option Char) (s : List Char) : Option Spot :=
  matchFrom folds (r.size * (s.length + 2) + 8) r ⟨before, s, 0, []⟩ some

/-- The first match in a text: how many characters stand before it, and
where it ends. -/
def search (r : Regex) (folds : Bool) (before : Option Char) :
    List Char → Option (Nat × Spot)
  | [] => (r.matchAt folds before []).map fun s => (0, s)
  | c :: rest =>
    match r.matchAt folds before (c :: rest) with
    | some s => some (0, s)
    | none => (search r folds (some c) rest).map fun f => (f.1 + 1, f.2)

/-- Whether a text has the expression anywhere. -/
def isIn (r : Regex) (folds : Bool) (s : List Char) : Bool := (r.search folds none s).isSome

end Regex

end ClrListing.Script
