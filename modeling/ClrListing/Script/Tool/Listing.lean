/-
Lists of what stands in directories: the names in their order, with what is
to be told of each.
-/
import ClrListing.Script.FileMode
import ClrListing.Script.Pattern
import ClrListing.Script.Tool.Naming
import ClrListing.Script.Tool.Search

namespace ClrListing.Script

open Text

-- ================================================================ entries

/-- Something that is listed. -/
structure Listed where
  name : List Char
  place : Trail
  entry : Entry
  deriving DecidableEq, Repr, Inhabited

/-- The bytes of a block that disks keep files in. -/
def blockSize : Nat := 4096

namespace Listed

/-- How many bytes something holds. -/
def size (l : Listed) : Nat :=
  match l.entry with
  | .file content _ => content.length
  | .directory _ => blockSize
  | .link path => path.length
  | .void => 0

/-- How many blocks something takes. -/
def blocks (l : Listed) : Nat :=
  match l.entry with
  | .file content _ => (content.length + blockSize - 1) / blockSize
  | .directory _ => 1
  | _ => 0

/-- The mode of something. -/
def mode (l : Listed) : Mode :=
  match l.entry with
  | .file _ mode | .directory mode => mode
  | .link _ => 0o777
  | .void => 0o666

/-- The letter for the kind of something, and its mode in letters. -/
def letters (l : Listed) : List Char :=
  let kind := match l.entry with
    | .file _ _ => '-'
    | .directory _ => 'd'
    | .link _ => 'l'
    | .void => 'c'
  kind :: l.mode.letters

/-- How many names something has: a directory has its own, one in itself,
and one in each directory that is in it. -/
def names (l : Listed) (disk : Disk) : Nat :=
  match l.entry with
  | .directory _ =>
    2 + ((disk.names l.place).filter fun name =>
      (disk.at? (l.place ++ [name])).any Entry.isDirectory).length
  | _ => 1

end Listed

-- ================================================================= orders

/-- Texts in their order. -/
def sortedTexts (texts : List (List Char)) : List (List Char) :=
  texts.mergeSort fun a b => textOrder a b ≠ .gt

/-- What entries are listed by. -/
inductive ListOrder where
  | name
  | size
  | ending
  | none
  deriving DecidableEq, Repr, Inhabited

/-- The part of a name from its last point on. -/
def nameEnding (name : List Char) : List Char :=
  if name.contains '.' then '.' :: (splitAll '.' name).getLast?.getD [] else []

/-- Entries in an order; those that are alike in it go by their names. -/
def ListOrder.sorted (order : ListOrder) (entries : List Listed) : List Listed :=
  let byName (a b : Listed) : Bool := textOrder a.name b.name ≠ .gt
  match order with
  | name => entries.mergeSort byName
  | size => entries.mergeSort fun a b => a.size > b.size || (a.size = b.size && byName a b)
  | ending => entries.mergeSort fun a b =>
    match textOrder (nameEnding a.name) (nameEnding b.name) with
    | .lt => true
    | .gt => false
    | .eq => byName a b
  | none => entries

-- ================================================================= layout

/-- How wide lines are. -/
def lineWidth : Nat := 80

/-- What brings a line from one place to a later one: tabs where there is
room for them, and blanks. -/
def indentation : (bound : Nat) → (start goal : Nat) → List Char
  | 0, _, _ => []
  | bound + 1, start, goal =>
    if start ≥ goal then []
    else if goal / 8 > (start + 1) / 8 then '\t' :: indentation bound (start + 8 - start % 8) goal
    else ' ' :: indentation bound (start + 1) goal

/-- The widths of columns: that many, for texts that fill them one after the
other, or line by line. -/
def columnWidths (byLine : Bool) (count : Nat) (texts : List (List Char)) : List Nat :=
  let rows := (texts.length + count - 1) / count
  (List.range count).map fun column =>
    let own := (texts.zipIdx.filter fun t =>
      (if byLine then t.2 % count else t.2 / rows) = column).map fun t => t.1.length
    own.foldl max 1 + if column + 1 = count then 0 else 2

/-- Texts in as many columns as fit on lines. -/
def inColumns (byLine : Bool) (texts : List (List Char)) : List (List Char) :=
  let counts := (List.range (min texts.length (lineWidth / 3))).map (· + 1)
  let fits (count : Nat) : Bool := (columnWidths byLine count texts).foldl (· + ·) 0 < lineWidth
  let count := ((counts.filter fits).getLast?).getD 1
  let rows := (texts.length + count - 1) / count
  let widths := columnWidths byLine count texts
  (List.range rows).map fun row =>
    let own := (List.range count).filterMap fun column =>
      texts[if byLine then row * count + column else column * rows + row]?
    ((own.zip widths).foldl (fun (line, width, start) (text, next) =>
      (line ++ indentation lineWidth width start ++ text, start + text.length, start + next))
      ([], 0, 0)).1

/-- Texts with commas between them, on lines that hold as much as fits. -/
def withCommas (texts : List (List Char)) : List (List Char) :=
  let (lines, last) := texts.foldl (fun (lines, line) text =>
    if line.isEmpty then (lines, text)
    else if line.length + 2 + text.length + 1 ≤ lineWidth then
      (lines, line ++ [',', ' '] ++ text)
    else (lines ++ [line ++ [',']], text)) (([] : List (List Char)), ([] : List Char))
  lines ++ if last.isEmpty then [] else [last]

-- ================================================================ showing

/-- The time of all files, as it is listed. -/
def listedTime : List Char := "Jan  1 00:00".toList

/-- A size with a letter for its unit. -/
def sizeText (n : Nat) : List Char :=
  let shown (unit : Nat) (letter : Char) : List Char :=
    let tenths := (n * 10 + unit - 1) / unit
    (if tenths < 100 then (tenths / 10).repr.toList ++ '.' :: (tenths % 10).repr.toList
      else ((n + unit - 1) / unit).repr.toList) ++ [letter]
  if n < 1024 then n.repr.toList
  else if n ≤ 1023 * 1024 then shown 1024 'K'
  else if n ≤ 1023 * 1048576 then shown 1048576 'M'
  else shown 1073741824 'G'

/-- A text in double quotes, with backslashes before those in it. -/
def doubleQuoted (s : List Char) : List Char :=
  '\x22' :: (s.flatMap fun c => if c = '\x22' || c = '\\' then ['\\', c] else [c]) ++ ['\x22']

/-- A name as it is listed. -/
def listedName (p : Parsed) (name : List Char) : List Char :=
  if p.has 'Q' then doubleQuoted name
  else if p.has 'b' then name.flatMap fun c =>
    if c = ' ' || c = '\\' then ['\\', c] else if c = '\n' then ['\\', 'n']
    else if c = '\t' then ['\\', 't'] else [c]
  else if p.has 'q' then name.map fun c => if c.toNat < 32 || c.toNat = 127 then '?' else c
  else name

/-- The sign for the kind of something, if one is asked for. -/
def kindSign (p : Parsed) (entry : Entry) : List Char :=
  match entry with
  | .directory _ => if p.has 'F' || p.has 'p' || p.has 'e' then ['/'] else []
  | .link _ => if p.has 'F' || p.has 'e' then ['@'] else []
  | e => if p.has 'F' && e.isProgram then ['*'] else []

/-- Whether all is told of each entry. -/
def isLong (p : Parsed) : Bool := "lngo".toList.any p.has

/-- What is told of entries, each in a line. -/
def longLines (p : Parsed) (disk : Disk) (entries : List Listed) : List (List Char) :=
  let size (l : Listed) : List Char := if p.has 'h' then sizeText l.size else l.size.repr.toList
  let width (text : Listed → List Char) : Nat :=
    (entries.map fun l => (text l).length).foldl max 0
  let links (l : Listed) : List Char := (l.names disk).repr.toList
  let owner := if p.has 'n' then "0".toList else "root".toList
  let linkWidth := width links
  let sizeWidth := width size
  entries.map fun l =>
    let target := match l.entry with
      | .link path =>
        " -> ".toList ++ listedName p path ++
          if p.has 'F' then ((disk.found? (l.place.dropLast) path).map (kindSign p)).getD [] else []
      | e => kindSign p e
    spaced ([l.letters, padStart linkWidth (links l)]
      ++ (if p.has 'g' then [] else [owner])
      ++ (if p.has 'o' || p.has 'G' then [] else [owner])
      ++ [padStart sizeWidth (size l), listedTime, listedName p l.name ++ target])

/-- How many blocks there are, in the unit that they are shown in. -/
def blockText (p : Parsed) (blocks : Nat) : List Char :=
  if p.has 'h' then sizeText (blocks * blockSize) else (blocks * 4).repr.toList

/-- Entries in lines. -/
def listedLines (p : Parsed) (disk : Disk) (entries : List Listed) : List (List Char) :=
  let plain := if isLong p then longLines p disk entries
    else entries.map fun l => listedName p l.name ++ kindSign p l.entry
  let sizes := entries.map fun l => blockText p l.blocks
  let width := (sizes.map List.length).foldl max 0
  let lines := if p.has 's' then
      sizes.zipWith (fun size line => padStart width size ++ ' ' :: line) plain
    else plain
  let layout := (p.given.map Prod.fst).filter fun c => "lngoC1xm".toList.contains c
  match layout.getLast? with
  | some 'C' => inColumns false lines
  | some 'x' => inColumns true lines
  | some 'm' => withCommas lines
  | _ => lines

-- ============================================================ directories

/-- Whether a name in a directory is listed. -/
def isListed (p : Parsed) (name : List Char) : Bool :=
  let shows := p.has 'a' || p.has 'A' || p.has 'f'
  let hides (letter : Char) : Bool := (p.values letter).any fun pattern =>
    globMatches (glob (bare pattern)) name
  (shows || name.head? ≠ some '.') && !hides 'I' && (shows || !hides 'H')
    && !(p.has 'B' && name.getLast? = some '~')

/-- Entries in the order that is asked for. -/
def inListOrder (p : Parsed) (entries : List Listed) : List Listed :=
  let order := (p.given.filterMap fun g => match g.1, String.ofList g.2 with
    | 'S', _ | 'O', "size" => some ListOrder.size
    | 'X', _ | 'O', "extension" => some .ending
    | 'U', _ | 'f', _ | 'O', "none" => some .none
    | 't', _ | 'v', _ | 'O', _ => some .name
    | _, _ => none).getLast?.getD .name
  let sorted := order.sorted entries
  let sorted := if p.has 'r' && order ≠ .none then sorted.reverse else sorted
  if p.has 'D' then
    (sorted.filter fun l => l.entry.isDirectory) ++ sorted.filter fun l => !l.entry.isDirectory
  else sorted

/-- The entries of a directory. -/
def listedIn (i : Invocation) (p : Parsed) (place : Trail) : List Listed :=
  let at_ (name : List Char) (place : Trail) : Listed :=
    ⟨name, place, (i.disk.at? place).getD (.directory .running)⟩
  let dots := if p.has 'a' || p.has 'f' then
      [at_ ['.'] place, at_ ['.', '.'] place.dropLast]
    else []
  let names := (i.disk.names place).filter (isListed p)
  inListOrder p (dots ++ names.map fun name => at_ name (place ++ [name]))

/-- A directory in lines. -/
def directoryLines (i : Invocation) (p : Parsed) (place : Trail) : List (List Char) :=
  let entries := listedIn i p place
  let total := (entries.map Listed.blocks).foldl (· + ·) 0
  (if isLong p || p.has 's' then ["total ".toList ++ blockText p total] else [])
    ++ listedLines p i.disk entries

/-- The places below one that are directories, each before what is in it,
down to a depth. -/
def directoriesBelow (i : Invocation) (p : Parsed) : (depth : Nat) → (path : List Char) →
    Trail → List (List Char × Trail)
  | 0, _, _ => []
  | depth + 1, path, place =>
    let below := (listedIn i p place).filter fun l =>
      l.entry.isDirectory && l.name ≠ ['.'] && l.name ≠ ['.', '.']
    (path, place) :: below.flatMap fun l =>
      directoriesBelow i p depth (Disk.join path l.name) (place ++ [l.name])

/-- How many directories are listed in one another. -/
def listingDepth : Nat := 64

/-- The options of `ls`. -/
def listingOptions : Options :=
  .mk "aA1drFpCmntUSxiqQbNhGogRlLHfXksvcuBDeZ" "IHOTw" "y" [("all", 'a'), ("almost-all", 'A'),
    ("directory", 'd'), ("reverse", 'r'), ("recursive", 'R'), ("classify", 'F'), ("size", 's'),
    ("human-readable", 'h'), ("numeric-uid-gid", 'n'), ("no-group", 'G'), ("dereference", 'L'),
    ("inode", 'i'), ("quote-name", 'Q'), ("escape", 'b'), ("hide-control-chars", 'q'),
    ("literal", 'N'), ("show-control-chars", 'N'), ("ignore", 'I'), ("hide", 'H'),
    ("ignore-backups", 'B'), ("sort", 'O'), ("time", 'T'), ("width", 'w'), ("tabsize", 'T'),
    ("group-directories-first", 'D'), ("file-type", 'e'), ("kibibytes", 'k'), ("color", 'y'),
    ("format", 'T'), ("indicator-style", 'T'), ("time-style", 'T'), ("full-time", 'l')]

/-- Lists directories, and files by their names. -/
def ls : Tool := fun i =>
  match listingOptions.parse false i.arguments with
  | .error fault => .refused i 2 fault
  | .ok p =>
    let paths := if p.operands.isEmpty then [['.']] else p.operands
    let showsLinks := isLong p || p.has 'F'
    let found := paths.map fun path =>
      let itself := i.disk.find i.here path false
      let leadsTo := i.disk.find i.here path true
      let isDirectory := match leadsTo with
        | .ok (_, e) => e.isDirectory
        | .error _ => false
      if p.has 'L' then (path, leadsTo)
      else if p.has 'd' || showsLinks || !isDirectory then (path, itself)
      else (path, leadsTo)
    let errors := found.flatMap fun f => match f.2 with
      | .error fault => i.name ++ [':', ' '] ++ cannot "cannot access" f.1 fault ++ ['\n']
      | .ok _ => []
    let entries := inListOrder p (found.filterMap fun f => match f.2 with
      | .ok (place, entry) => some ⟨f.1, place, entry⟩
      | .error _ => none)
    let opens (l : Listed) : Bool := l.entry.isDirectory && !p.has 'd'
    let files := entries.filter fun l => !opens l
    let directories := (entries.filter opens).flatMap fun l =>
      if p.has 'R' then directoriesBelow i p listingDepth l.name l.place else [(l.name, l.place)]
    let blocks := directories.map fun d =>
      let lines := unlines (directoryLines i p d.2)
      if p.operands.length > 1 || p.has 'R' then d.1 ++ ":\n".toList ++ lines else lines
    let parts := if files.isEmpty then blocks
      else unlines (listedLines p i.disk files) :: blocks
    ((Completion.printing i (['\n'].intercalate parts)).precededBy 2 errors).withStatus
      (if errors.isEmpty then 0 else 2)

-- ============================================================ single files

namespace Listed

/-- The word for the kind of something. -/
def kindText (l : Listed) : String :=
  match l.entry with
  | .file [] _ => "regular empty file"
  | .file _ _ => "regular file"
  | .directory _ => "directory"
  | .link _ => "symbolic link"
  | .void => "character special file"

/-- The bits for the kind of something. -/
def kindBits (l : Listed) : Nat :=
  match l.entry with
  | .file _ _ => 0o100000
  | .directory _ => 0o040000
  | .link _ => 0o120000
  | .void => 0o020000

/-- What a letter asks for, and whether that is a number. -/
def field (l : Listed) (disk : Disk) (quotes : Bool) : Char → List Char × Bool
  | 'n' => (l.name, false)
  | 'N' =>
    let quoted (s : List Char) : List Char := if quotes then ticked s else shellQuoted s
    (match l.entry with
      | .link path => quoted l.name ++ " -> ".toList ++ quoted path
      | _ => quoted l.name, false)
  | 's' => (l.size.repr.toList, true)
  | 'a' => (l.mode.octal 0, true)
  | 'A' => (l.letters, false)
  | 'F' => (l.kindText.toList, false)
  | 'h' => ((l.names disk).repr.toList, true)
  | 'u' | 'g' => (['0'], true)
  | 'U' | 'G' => ("root".toList, false)
  | 'f' => (Nat.toDigits 16 (l.kindBits + l.mode), true)
  | 'b' => ((l.blocks * 8).repr.toList, true)
  | 'B' => ("512".toList, true)
  | 'o' => ("4096".toList, true)
  | 'i' | 'd' => (['1'], true)
  | 't' | 'T' => (['0'], true)
  | 'D' => (['1'], true)
  | 'm' => (['/'], false)
  | 'X' | 'Y' | 'Z' | 'W' => ("1767225600".toList, true)
  | 'x' | 'y' | 'z' | 'w' => ("2026-01-01 00:00:00.000000000 +0000".toList, false)
  | 'C' => (['?'], false)
  | _ => (['?'], false)

end Listed

/-- What a format makes of an entry: percent signs with letters are replaced,
and backslashes if `escapes` holds. -/
def statusText (l : Listed) (disk : Disk) (quotes escapes : Bool) : (bound : Nat) → List Char →
    List Char
  | 0, _ => []
  | _, [] => []
  | bound + 1, '%' :: rest =>
    let flags := rest.takeWhile fun c => "-+ #0\x27".toList.contains c
    let rest := rest.drop flags.length
    let width := rest.takeWhile Char.isDigit
    let rest := rest.drop width.length
    let precision := match rest with
      | '.' :: digits => '.' :: digits.takeWhile Char.isDigit
      | _ => []
    match rest.drop precision.length with
    | [] => '%' :: flags ++ width ++ precision
    | '%' :: rest => '%' :: statusText l disk quotes escapes bound rest
    | letter :: rest =>
      let (text, isNumber) := l.field disk quotes letter
      let limit := (natural? (precision.drop 1)).getD 0
      let text := if precision.isEmpty then text
        else if isNumber then List.replicate (limit - text.length) '0' ++ text
        else text.take limit
      let text := if isNumber && letter = 'a' && flags.contains '#' then '0' :: text else text
      let fill := (natural? width).getD 0 - text.length
      let shown := if flags.contains '-' then text ++ List.replicate fill ' '
        else if flags.contains '0' && isNumber then List.replicate fill '0' ++ text
        else List.replicate fill ' ' ++ text
      shown ++ statusText l disk quotes escapes bound rest
  | bound + 1, '\\' :: c :: rest =>
    if escapes then
      let made := match c with
        | 'n' => ['\n']
        | 't' => ['\t']
        | '\\' => ['\\']
        | '\x22' => ['\x22']
        | 'a' => ['\x07']
        | 'r' => ['\r']
        | _ => [c]
      made ++ statusText l disk quotes escapes bound rest
    else '\\' :: c :: statusText l disk quotes escapes bound rest
  | bound + 1, c :: rest => c :: statusText l disk quotes escapes bound rest

/-- How a file is told of where nothing else is asked for. -/
def usualStatus : String :=
  "  File: %N\n  Size: %-10s\tBlocks: %-10b IO Block: %-6o %F\n" ++
    "Device: 0,1\tInode: %-10i  Links: %h\n" ++
    "Access: (%04a/%10.10A)  Uid: (%5u/%8U)   Gid: (%5g/%8G)\n" ++
    "Access: %x\nModify: %y\nChange: %z\n Birth: %w\n"

/-- How a file is told of in one line. -/
def briefStatus : String := "%n %s %b %f %u %g %D %i %h %t %T %X %Y %Z %W %o\n"

/-- Tells of files. -/
def stat : Tool := fun i =>
  match (Options.of "Lft" "cp" [("dereference", 'L'), ("file-system", 'f'), ("terse", 't'),
      ("format", 'c'), ("printf", 'p')]).parse false i.arguments with
  | .error fault => .refused i 1 fault
  | .ok p =>
    let (format, quotes, escapes) :=
      match (p.given.filter fun g => g.1 = 'c' || g.1 = 'p').getLast? with
      | some ('p', text) => (text, true, true)
      | some (_, text) => (text ++ ['\n'], true, false)
      | none => (if p.has 't' then briefStatus.toList else usualStatus.toList, false, false)
    if p.operands.isEmpty then .lacking i 1 "operand" []
    else withEach i 1 p.operands fun path disk =>
      match disk.find i.here path (p.has 'L') with
      | .ok (place, entry) =>
        .ok (disk, statusText ⟨path, place, entry⟩ disk quotes escapes (format.length + 1) format)
      | .error fault => .error (cannot "cannot statx" path fault)

end ClrListing.Script
