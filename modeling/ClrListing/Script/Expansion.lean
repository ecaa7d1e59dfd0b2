/-
From expanded words to fields: values are split at separators, and
patterns become the names of the files that they stand for.
-/
import ClrListing.Disk.Basic
import ClrListing.Script.Number
import ClrListing.Script.Pattern
import ClrListing.Script.Tool.Search

namespace ClrListing.Script

open Text

-- ================================================================== marks

/-- A part of an expanded word. -/
inductive Mark where
  /-- A character that separates nothing. -/
  | char (c : Marked)
  /-- A character of a value, which may separate fields. -/
  | split (c : Char)
  /-- There is a field here, even an empty one. -/
  | field
  /-- A field ends. -/
  | cut
  deriving DecidableEq, Repr, Inhabited

/-- The characters of marks that are one text; what would be fields of
their own stands with a mark between. -/
def charsOf (joinMark : List Char) (marks : List Mark) : List Marked :=
  marks.flatMap fun m => match m with
    | .char c => [c]
    | .split c => [⟨c, false⟩]
    | .field => []
    | .cut => joinMark.map fun c => ⟨c, true⟩

/-- The text of marked characters. -/
def textOf (chars : List Marked) : List Char := chars.map Marked.char

/-- The marks of a value: characters that may be separators, unless it is
quoted. -/
def valueMarks (isQuoted : Bool) (value : List Char) : List Mark :=
  if isQuoted then .field :: value.map fun c => .char ⟨c, true⟩ else value.map .split

/-- The marks of values that are fields of their own. -/
def valuesMarks (isQuoted : Bool) : List (List Char) → List Mark
  | [] => []
  | [value] => valueMarks isQuoted value
  | value :: rest => valueMarks isQuoted value ++ .cut :: valuesMarks isQuoted rest

/-- Marks of which characters without quotes may be separators too. -/
def splitting (marks : List Mark) : List Mark :=
  marks.map fun m => match m with
    | .char c => if c.isQuoted then m else .split c.char
    | _ => m

-- ================================================================= fields

/-- What stood before a place where a field may start. -/
inductive Before where
  | start
  | blanks
  | separator
  deriving DecidableEq, Repr, Inhabited

/-- The fields of marks, where blanks among the separators count only
between fields, and every other separator ends a field; `field` is what
was read of the current one, backwards. -/
def fieldsAfter (separators : List Char) (field : Option (List Marked)) (before : Before) :
    List Mark → List (List Marked)
  | [] => (field.map List.reverse).toList
  | .char c :: rest => fieldsAfter separators (some (c :: field.getD [])) .start rest
  | .field :: rest => fieldsAfter separators (some (field.getD [])) .start rest
  | .cut :: rest =>
    (field.map List.reverse).toList ++ fieldsAfter separators none .start rest
  | .split c :: rest =>
    if !separators.contains c then
      fieldsAfter separators (some (⟨c, false⟩ :: field.getD [])) .start rest
    else
      let isBlank := c = ' ' || c = '\t' || c = '\n'
      match field with
      | some f =>
        f.reverse :: fieldsAfter separators none (if isBlank then .blanks else .separator) rest
      | none =>
        if isBlank then fieldsAfter separators none before rest
        else if before = .blanks then fieldsAfter separators none .separator rest
        else [] :: fieldsAfter separators none .separator rest

/-- The fields of marks. -/
def fieldsOf (separators : List Char) (marks : List Mark) : List (List Marked) :=
  fieldsAfter separators none .start marks

-- ================================================================== names

/-- The names in a directory that a pattern stands for, in their order. -/
def matchingNames (disk : Disk) (here : Trail) (directory : List Char) (pattern : List Marked) :
    List (List Char) :=
  match disk.find here (if directory.isEmpty then ['.'] else directory) true with
  | .ok (place, .directory _) =>
    let names := disk.names place ++ [['.'], ['.', '.']]
    (names.filter fun name => nameMatches pattern name).mergeSort fun a b => textOrder a b ≠ .gt
  | _ => []

/-- The paths that start as given and go on with names that patterns stand
for. -/
def matchingPaths (disk : Disk) (here : Trail) : (start : List Char) → List (List Marked) →
    List (List Char)
  | start, [] => if (disk.find here start false).isOk then [start] else []
  | start, pattern :: rest =>
    let slash := if rest.isEmpty then [] else ['/']
    if isGlob pattern then
      (matchingNames disk here start pattern).flatMap fun name =>
        matchingPaths disk here (start ++ name ++ slash) rest
    else matchingPaths disk here (start ++ textOf pattern ++ slash) rest

/-- The parts of a field between its slashes. -/
def slashParts : List Marked → List (List Marked)
  | [] => [[]]
  | c :: rest =>
    if c.char = '/' then [] :: slashParts rest
    else match slashParts rest with
      | [] => [[c]]
      | part :: parts => (c :: part) :: parts

/-- The texts that a field becomes: paths, if it is a pattern for some. -/
def pathsOf (disk : Disk) (here : Trail) (field : List Marked) : List (List Char) :=
  if isGlob field then
    let paths := matchingPaths disk here [] (slashParts field)
    if paths.isEmpty then [textOf field] else paths
  else [textOf field]

-- ================================================================ reading

/-- The parts of a line as it is read: characters that a backslash quotes
are no separators. -/
def lineMarks (isRaw : Bool) : List Char → List Marked
  | [] => []
  | '\\' :: rest =>
    if isRaw then ⟨'\\', false⟩ :: lineMarks isRaw rest
    else match rest with
      | c :: after => ⟨c, true⟩ :: lineMarks isRaw after
      | [] => []
  | c :: rest => ⟨c, false⟩ :: lineMarks isRaw rest

/-- Whether a character is a blank among the separators. -/
def isBlankSeparator (separators : List Char) (c : Marked) : Bool :=
  !c.isQuoted && (c.char = ' ' || c.char = '\t' || c.char = '\n') && separators.contains c.char

/-- Whether a character is a separator. -/
def isSeparator (separators : List Char) (c : Marked) : Bool :=
  !c.isQuoted && separators.contains c.char

/-- Takes the first field off a line, with the separator after it. -/
def takeField (separators : List Char) (line : List Marked) : List Marked × List Marked :=
  let line := line.dropWhile (isBlankSeparator separators)
  let field := line.takeWhile fun c => !isSeparator separators c
  let after := (line.drop field.length).dropWhile (isBlankSeparator separators)
  match after with
  | c :: rest => if isSeparator separators c then
      (field, rest.dropWhile (isBlankSeparator separators)) else (field, after)
  | [] => (field, [])

/-- A line without the blanks at its ends, and without the separator at
its end if it has no other. -/
def lastField (separators : List Char) (line : List Marked) : List Marked :=
  let trimmed := (line.dropWhile (isBlankSeparator separators)).reverse.dropWhile
    (isBlankSeparator separators)
  let line := trimmed.reverse
  match takeField separators line with
  | (field, []) => field
  | _ => line

/-- The values of so many names: the fields of a line, of which the last
one gets all that is left. -/
def readFields (separators : List Char) : (count : Nat) → List Marked → List (List Char)
  | 0, _ => []
  | 1, line => [textOf (lastField separators line)]
  | count + 1, line =>
    let (field, rest) := takeField separators line
    textOf field :: readFields separators count rest

end ClrListing.Script
