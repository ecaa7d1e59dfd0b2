/-
Tools that tell how files differ: byte by byte, or line by line in one of
several forms.

Lines are aligned first: which of the first file are left out, which of the
second are put in, and which are common to both, so that as many as can be are
common.
-/
import ClrListing.Script.Regex
import ClrListing.Script.Tool.Listing

namespace ClrListing.Script

open Text

/-- What becomes of an item. -/
inductive Fate where
  | kept
  | removed
  | added
  deriving DecidableEq, Repr, Inhabited

/-- How many items the end of a list has in common with each end of another
one, the whole of it first; `below` tells that of the same end without its
first item `x`. -/
def commonRow [BEq α] (x : α) : List α → (below : List Nat) → List Nat
  | [], below => below
  | y :: ys, below =>
    let row := commonRow x ys below.tail
    let length := if x == y then below.tail.headD 0 + 1 else max (below.headD 0) (row.headD 0)
    length :: row

/-- The rows of all ends of a list, the whole of it first. -/
def commonRows [BEq α] (xs ys : List α) : List (List Nat) :=
  xs.foldr (fun x rows => commonRow x ys (rows.headD []) :: rows) [List.replicate (ys.length + 1) 0]

/-- Goes through two lists of at most so many items. `rows` tells of their
ends how much these have in common. -/
def fatesBy [BEq α] : (bound : Nat) → List α → List α → (rows : List (List Nat)) → List Fate
  | 0, _, _, _ => []
  | _, [], ys, _ => ys.map fun _ => .added
  | _, xs, [], _ => xs.map fun _ => .removed
  | bound + 1, x :: xs, y :: ys, rows =>
    let shorter := rows.tail.map List.tail
    if x == y then .kept :: fatesBy bound xs ys shorter
    else
      let withoutFirst := (rows.tail.headD []).headD 0
      let withoutSecond := (rows.headD []).tail.headD 0
      if withoutFirst ≥ withoutSecond then .removed :: fatesBy bound xs (y :: ys) rows.tail
      else .added :: fatesBy bound (x :: xs) ys (rows.map List.tail)

/-- The alignment of two lists. -/
def fates [BEq α] (xs ys : List α) : List Fate :=
  fatesBy (xs.length + ys.length) xs ys (commonRows xs ys)

/-- Some items that follow each other in two lists, in the places of each
other. -/
structure Hunk where
  /-- How many items come before in the first list. -/
  firstStart : Nat
  firstCount : Nat
  /-- How many items come before in the second list. -/
  secondStart : Nat
  secondCount : Nat
  deriving DecidableEq, Repr, Inhabited

namespace Hunk

/-- Where a hunk ends in the first list. -/
def firstEnd (h : Hunk) : Nat := h.firstStart + h.firstCount

/-- Where a hunk ends in the second list. -/
def secondEnd (h : Hunk) : Nat := h.secondStart + h.secondCount

/-- The hunks of an alignment that starts at two places; `current` is the
one that is still to end. -/
def ofFates (current : Option Hunk) (first second : Nat) : List Fate → List Hunk
  | [] => current.toList
  | .kept :: rest => current.toList ++ ofFates none (first + 1) (second + 1) rest
  | .removed :: rest =>
    let h := current.getD ⟨first, 0, second, 0⟩
    ofFates (some { h with firstCount := h.firstCount + 1 }) (first + 1) second rest
  | .added :: rest =>
    let h := current.getD ⟨first, 0, second, 0⟩
    ofFates (some { h with secondCount := h.secondCount + 1 }) first (second + 1) rest

/-- What two lists do not have in common. -/
def between [BEq α] (xs ys : List α) : List Hunk := ofFates none 0 0 (fates xs ys)

/-- Hunks in groups, where those that follow each other have at most so many
items between them. -/
def groups (distance : Nat) : List Hunk → List (List Hunk)
  | [] => []
  | h :: rest =>
    match groups distance rest with
    | (next :: more) :: others =>
      if next.firstStart ≤ h.firstEnd + distance then (h :: next :: more) :: others
      else [h] :: (next :: more) :: others
    | _ => [[h]]

end Hunk

-- ================================================================= bytes

/-- How many characters two texts have in common at their starts. -/
def commonLength : List Char → List Char → Nat
  | a :: s, b :: t => if a = b then commonLength s t + 1 else 0
  | _, _ => 0

/-- The bytes in which two texts differ, each with its place. -/
def byteDifferences (s t : List Char) : List (Nat × Char × Char) :=
  (s.zip t).zipIdx.filterMap fun x => if x.1.1 = x.1.2 then none else some (x.2 + 1, x.1.1, x.1.2)

/-- A byte in octal digits. -/
def octalByte (c : Char) : List Char := padStart 3 (Nat.toDigits 8 c.toNat)

/-- Tells of the end of the shorter one of two files. -/
def endNotice (path text : List Char) (showsLine : Bool) : List Char :=
  let lines := text.count '\n'
  "EOF on ".toList ++ path ++
    if text.isEmpty then " which is empty".toList
    else " after byte ".toList ++ text.length.repr.toList ++
      if !showsLine then []
      else if text.getLast? = some '\n' then ", line ".toList ++ lines.repr.toList
      else ", in line ".toList ++ (lines + 1).repr.toList

/-- The numbers of bytes that are skipped. -/
def skips? (p : Parsed) (more : List (List Char)) : Except (List Char) (Nat × Nat) :=
  let given := match more, p.value? 'i' with
    | [first], _ => some (first, ['0'])
    | first :: second :: _, _ => some (first, second)
    | [], some text => some ((splitOnce [':'] text).getD (text, text))
    | [], none => none
  match given with
  | none => .ok (0, 0)
  | some (first, second) =>
    match natural? first, natural? second with
    | some a, some b => .ok (a, b)
    | none, _ => .error first
    | _, none => .error second

/-- Tells by its status whether two files hold the same, and where they
differ. -/
def cmp : Tool := fun i =>
  match (Options.of "sblc" "in" [("silent", 's'), ("quiet", 's'), ("print-bytes", 'b'),
      ("verbose", 'l'), ("ignore-initial", 'i'), ("bytes", 'n')]).parse false i.arguments with
  | .error fault => .refused i 2 fault
  | .ok p =>
    let operands := match p.operands with
      | [path] => [path, ['-']]
      | operands => operands
    let limit := p.value? 'n'
    match p.operands, skips? p (operands.drop 2) with
    | [], _ => .lacking i 2 "operand" [i.name]
    | _ :: _ :: _ :: _ :: extra :: _, _ => .excessive i 2 extra
    | _, .error text =>
      .misusedFor i 2 ("invalid --ignore-initial value ".toList ++ ticked text)
    | _, .ok (first, second) =>
      if limit.any fun text => (natural? text).isNone then
        .misusedFor i 2 ("invalid --bytes value ".toList ++ ticked (limit.getD []))
      else if p.has 'l' && p.has 's' then
        .misusedFor i 2 "options -l and -s are incompatible".toList
      else match operands.take 2, (gather i (operands.take 2)).contents with
        | [a, b], [(_, s), (_, t)] =>
          let cut (n : Nat) (s : List Char) : List Char :=
            let s := s.drop n
            match limit.bind natural? with
            | some n => s.take n
            | none => s
          let (s, t) := (cut first s, cut second t)
          let showsBytes := p.has 'b' || p.has 'c'
          let n := commonLength s t
          let (short, text) := if s.length < t.length then (a, s) else (b, t)
          let ends := endNotice short text (!p.has 'l')
          let isShorter := s.length ≠ t.length
          if s = t then .ofStatus i 0
          else if p.has 's' then .ofStatus i 1
          else if p.has 'l' then
            let width := (max s.length t.length).repr.length
            let lines := (byteDifferences s t).map fun (place, x, y) =>
              spaced ([padStart width place.repr.toList]
                ++ if showsBytes then
                    [octalByte x, padEnd 4 (visibleOctet x), octalByte y, visibleOctet y]
                  else [octalByte x, octalByte y])
            ((Completion.printing i (unlines lines)).precededBy 2
              (if isShorter then i.name ++ [':', ' '] ++ ends ++ ['\n'] else [])).withStatus 1
          else if n = text.length then .failing i 1 ends
          else
            let line := ((s.take n).count '\n' + 1).repr.toList
            let place := (n + 1).repr.toList
            let start := spaced [a, b, "differ: ".toList]
              ++ (if showsBytes then "byte ".toList else "char ".toList) ++ place
              ++ ", line ".toList ++ line
            let bytes := match s[n]?, t[n]? with
              | some x, some y =>
                " is ".toList ++ spaced [octalByte x, visibleOctet x, octalByte y, visibleOctet y]
              | _, _ => []
            (Completion.printing i (start ++ (if showsBytes then bytes else []) ++ ['\n'])).withStatus 1
        | paths, _ => .complaining i 2 ((gather i paths).complaints.headD [])

-- ================================================================== lines

/-- A line as it is, whether a line feed ends it, and as it is compared. -/
structure ComparedLine where
  text : List Char
  isWhole : Bool
  key : List Char
  deriving DecidableEq, Repr, Inhabited

/-- A text with each run of blanks as one blank, and none at its end. -/
def singleBlanks (s : List Char) : List Char :=
  let words := blankWords s
  (if s.head?.any isSpace && !words.isEmpty then [' '] else []) ++ spaced words

/-- The lines of a text, as they are to be compared. -/
def comparedLines (p : Parsed) (s : List Char) : List ComparedLine :=
  (linesOf s).map fun l =>
    let ignoresBlanks := p.has 'w' || p.has 'b' || p.has 'Z'
    let text := if p.has 'x' && l.1.getLast? = some '\r' then l.1.dropLast else l.1
    let key := if p.has 'w' then text.filter fun c => !isSpace c
      else if p.has 'b' then singleBlanks text
      else if p.has 'Z' then dropEndWhile isSpace text
      else text
    let key := if p.has 'i' then key.map Char.toLower else key
    ⟨l.1, l.2, key ++ if l.2 || ignoresBlanks then ['\n'] else []⟩

/-- A line after a sign; if no line feed ends it, that is told. -/
def signedLine (sign : String) (l : ComparedLine) : List (List Char) :=
  (sign.toList ++ l.text) ::
    if l.isWhole then [] else ["\\ No newline at end of file".toList]

/-- Some lines after a sign. -/
def signedLines (sign : String) (start count : Nat) (lines : List ComparedLine) :
    List (List Char) :=
  ((lines.drop start).take count).flatMap (signedLine sign)

/-- Two files that are compared. -/
structure Comparison where
  firstPath : List Char
  secondPath : List Char
  first : List ComparedLine
  second : List ComparedLine
  hunks : List Hunk
  /-- How many lines around those that differ are shown. -/
  context : Nat
  labels : List (List Char)
  deriving DecidableEq, Repr, Inhabited

namespace Comparison

/-- The numbers of some lines. -/
def range (start count : Nat) : List Char :=
  if count = 0 then start.repr.toList
  else if count = 1 then (start + 1).repr.toList
  else (start + 1).repr.toList ++ ',' :: (start + count).repr.toList

/-- The letter for what a hunk does. -/
def letter (h : Hunk) : Char :=
  if h.firstCount = 0 then 'a' else if h.secondCount = 0 then 'd' else 'c'

/-- The plain form: for each hunk the lines that it leaves out and those that
it puts in. -/
def plainForm (c : Comparison) : List (List Char) :=
  c.hunks.flatMap fun h =>
    (range h.firstStart h.firstCount ++ letter h :: range h.secondStart h.secondCount) ::
      signedLines "< " h.firstStart h.firstCount c.first
      ++ (if letter h = 'c' then ["---".toList] else [])
      ++ signedLines "> " h.secondStart h.secondCount c.second

/-- The titles of the files, after two signs. -/
def titles (c : Comparison) (signs : String × String) (time : String) : List (List Char) :=
  let title (path : List Char) (place : Nat) : List Char :=
    (c.labels[place]?).getD (path ++ '\t' :: time.toList)
  [signs.1.toList ++ title c.firstPath 0, signs.2.toList ++ title c.secondPath 1]

/-- What a group of hunks spans, with the lines around it. -/
def span (c : Comparison) (group : List Hunk) : Hunk :=
  let first := group.headD default
  let last := (group.getLast?).getD default
  let before := min c.context (min first.firstStart first.secondStart)
  let after := min c.context (min (c.first.length - last.firstEnd)
    (c.second.length - last.secondEnd))
  ⟨first.firstStart - before, last.firstEnd + after - (first.firstStart - before),
    first.secondStart - before, last.secondEnd + after - (first.secondStart - before)⟩

/-- Lines of a file: those of hunks after the sign that each of these has,
and those around them after another sign. -/
def withAround (around : String) (lines : List ComparedLine) :
    (place goal : Nat) → List (String × Nat × Nat) → List (List Char)
  | place, goal, [] => signedLines around place (goal - place) lines
  | place, goal, (sign, start, count) :: rest =>
    signedLines around place (start - place) lines ++ signedLines sign start count lines
      ++ withAround around lines (start + count) goal rest

/-- The form in which both files are shown in one. -/
def unifiedForm (c : Comparison) : List (List Char) :=
  let numbers (sign : Char) (start count : Nat) : List Char :=
    sign :: (if count = 0 then start.repr.toList ++ ",0".toList
      else (start + 1).repr.toList ++
        if count = 1 then [] else ',' :: count.repr.toList)
  c.titles ("--- ", "+++ ") "2026-01-01 00:00:00.000000000 +0000" ++
    (Hunk.groups (2 * c.context) c.hunks).flatMap fun group =>
      let s := c.span group
      let (lines, place) := group.foldl (fun (lines, place) h =>
        (lines ++ signedLines " " place (h.firstStart - place) c.first
          ++ signedLines "-" h.firstStart h.firstCount c.first
          ++ signedLines "+" h.secondStart h.secondCount c.second, h.firstEnd))
        (([] : List (List Char)), s.firstStart)
      spaced ["@@".toList, numbers '-' s.firstStart s.firstCount,
          numbers '+' s.secondStart s.secondCount, "@@".toList] ::
        lines ++ signedLines " " place (s.firstEnd - place) c.first

/-- The form in which the files are shown one after the other. -/
def contextForm (c : Comparison) : List (List Char) :=
  let sign (h : Hunk) (plain : String) : String := if letter h = 'c' then "! " else plain
  c.titles ("*** ", "--- ") "Thu Jan  1 00:00:00 2026" ++
    (Hunk.groups (2 * c.context) c.hunks).flatMap fun group =>
      let s := c.span group
      let numbers (mark : String) (start count : Nat) : List Char :=
        let shown := if count ≤ 1 then (start + count).repr.toList else range start count
        spaced [mark.toList, shown, (mark ++ if mark = "***" then "*" else "-").toList]
      let removes := group.any fun h => h.firstCount > 0
      let adds := group.any fun h => h.secondCount > 0
      ["***************".toList, numbers "***" s.firstStart s.firstCount]
        ++ (if removes then withAround "  " c.first s.firstStart s.firstEnd
            (group.map fun h => (sign h "- ", h.firstStart, h.firstCount)) else [])
        ++ [numbers "---" s.secondStart s.secondCount]
        ++ (if adds then withAround "  " c.second s.secondStart s.secondEnd
            (group.map fun h => (sign h "+ ", h.secondStart, h.secondCount)) else [])

/-- The form of commands that make the second file from the first. -/
def editForm (c : Comparison) : List (List Char) :=
  c.hunks.reverse.flatMap fun h =>
    (range h.firstStart h.firstCount ++ [letter h]) ::
      if h.secondCount = 0 then []
      else ((c.second.drop h.secondStart).take h.secondCount).map ComparedLine.text ++ [['.']]

/-- The form of commands that count lines. -/
def countedForm (c : Comparison) : List (List Char) :=
  c.hunks.flatMap fun h =>
    (if h.firstCount = 0 then []
      else [spaced ['d' :: (h.firstStart + 1).repr.toList, h.firstCount.repr.toList]])
    ++ if h.secondCount = 0 then []
      else spaced ['a' :: h.firstEnd.repr.toList, h.secondCount.repr.toList] ::
        ((c.second.drop h.secondStart).take h.secondCount).map ComparedLine.text

/-- A line of the form in which the files stand side by side. -/
def besideLine (width : Nat) (first : Option ComparedLine) (sign : Char)
    (second : Option ComparedLine) : List Char :=
  let start := (width + 11) / 16 * 8
  let half := min (start - 3) (width - start)
  let text (l : Option ComparedLine) : List Char := (l.elim [] ComparedLine.text).take half
  let left := text first
  let place := (half + start - 1) / 2
  let marked := if sign = ' ' then left
    else left ++ indentation lineEnd left.length place ++ [sign]
  let length := if sign = ' ' then left.length else place + 1
  let line := if second.isNone then marked
    else marked ++ indentation lineEnd length start ++ text second
  let isWhole (l : Option ComparedLine) : Bool := l.any ComparedLine.isWhole
  if isWhole first || isWhole second then line ++ ['\n'] else line
where
  /-- More than the width of any line. -/
  lineEnd : Nat := 0x1000

/-- The form in which the files stand side by side. -/
def besideForm (c : Comparison) (width : Nat) (showsCommon : Bool) : List Char :=
  let common (a b count : Nat) : List Char :=
    if showsCommon then (List.range count).flatMap fun n =>
      besideLine width c.first[a + n]? ' ' c.second[b + n]?
    else []
  let (text, a, b) := c.hunks.foldl (fun (text, a, b) h =>
    let rows := (List.range (max h.firstCount h.secondCount)).flatMap fun n =>
      let first := if n < h.firstCount then c.first[h.firstStart + n]? else none
      let second := if n < h.secondCount then c.second[h.secondStart + n]? else none
      besideLine width first (if first.isNone then '>' else if second.isNone then '<' else '|')
        second
    (text ++ common a b (h.firstStart - a) ++ rows, h.firstEnd, h.secondEnd))
    (([] : List Char), 0, 0)
  text ++ common a b (c.first.length - a)

end Comparison

-- =================================================================== diff

/-- The options of `diff`. -/
def differenceOptions : Options :=
  .mk "qsucbwBNareinyZTtdpx" "UCLWIFX" "vV" [("brief", 'q'), ("report-identical-files", 's'),
    ("unified", 'v'), ("context", 'V'), ("ed", 'e'), ("rcs", 'n'), ("side-by-side", 'y'),
    ("width", 'W'), ("label", 'L'), ("recursive", 'r'), ("new-file", 'N'),
    ("ignore-case", 'i'), ("ignore-all-space", 'w'), ("ignore-space-change", 'b'),
    ("ignore-trailing-space", 'Z'), ("ignore-blank-lines", 'B'), ("text", 'a'), ("minimal", 'd'),
    ("ignore-matching-lines", 'I'), ("expand-tabs", 't'), ("initial-tab", 'T'), ("normal", 'd'),
    ("suppress-common-lines", 'd'), ("strip-trailing-cr", 'x'), ("exclude", 'X')]

/-- How many lines around those that differ options ask for. -/
def contextLines (p : Parsed) : List (List Char) :=
  p.values 'U' ++ p.values 'C' ++ (p.values 'v' ++ p.values 'V').filter fun v => !v.isEmpty

/-- Tells how two texts differ: what is printed, and whether they do. -/
def textDifference (p : Parsed) (arguments : List (List Char)) (a b s t : List Char) :
    List Char × Bool :=
  let isBinary (s : List Char) : Bool := s.contains '\x00'
  let (first, second) := (comparedLines p s, comparedLines p t)
  let isIgnored (l : ComparedLine) : Bool :=
    (p.has 'B' && l.text.isEmpty) || (p.values 'I').any fun pattern =>
      match Regex.ofText ⟨false, false, true, false⟩ pattern with
      | .ok r => r.isIn false l.text
      | .error _ => false
  let counts (h : Hunk) : Bool :=
    !(((first.drop h.firstStart).take h.firstCount).all isIgnored
      && ((second.drop h.secondStart).take h.secondCount).all isIgnored)
  let hunks := if s = t then [] else (Hunk.between (first.map ComparedLine.key) (second.map ComparedLine.key)).filter
    counts
  let context := ((contextLines p).filterMap natural?).foldl max 0
  let c : Comparison := ⟨a, b, first, second, hunks,
    if (contextLines p).isEmpty then 3 else context, p.values 'L'⟩
  let pair (text : String) : List Char := spaced [a, "and".toList, b, text.toList] ++ ['\n']
  let shows (letters : String) : Bool := letters.toList.any p.has
  let hidesCommon := arguments.contains "--suppress-common-lines".toList
  let width := ((p.value? 'W').bind natural?).getD 130
  if hunks.isEmpty then
    if p.has 'y' && !hidesCommon then (c.besideForm width true, false)
    else (if p.has 's' then "Files ".toList ++ pair "are identical" else [], false)
  else if p.has 'q' then ("Files ".toList ++ pair "differ", true)
  else if (isBinary s || isBinary t) && !p.has 'a' then
    ("Binary files ".toList ++ pair "differ", true)
  else if shows "uUv" then (unlines c.unifiedForm, true)
  else if shows "cCV" then (unlines c.contextForm, true)
  else if p.has 'e' then (unlines c.editForm, true)
  else if p.has 'n' then (unlines c.countedForm, true)
  else if p.has 'y' then (c.besideForm width (!hidesCommon), true)
  else (unlines c.plainForm, true)

/-- What is there to compare, the text of a file or a directory, or the fault
that keeps it from being read. -/
def comparedAt (i : Invocation) (p : Parsed) (path : List Char) :
    Except FileFault (Option (List Char)) :=
  if isInput path then .ok (some i.input)
  else match i.disk.find i.here path true with
    | .ok (_, .directory _) => .ok none
    | .error fault => if p.has 'N' && fault = .notFound then .ok (some []) else .error fault
    | .ok _ => (i.disk.read i.here path).map fun bytes => some (Octets.ofBytes bytes)

/-- Tells how what stands at two paths differs: what is printed, and whether
there is a difference. -/
def differenceBelow (i : Invocation) (p : Parsed) : (bound : Nat) → (isInside : Bool) →
    (a b : List Char) → List Char × Bool
  | 0, _, _, _ => ([], false)
  | bound + 1, isInside, a, b =>
    match comparedAt i p a, comparedAt i p b with
    | .ok (some s), .ok (some t) =>
      let (text, differs) := textDifference p i.arguments a b s t
      let options := i.arguments.filter fun argument => argument.head? = some '-'
      let title := spaced ("diff".toList :: options.map shellQuoted ++ [a, b]) ++ ['\n']
      (if isInside && differs && !p.has 'q' then title ++ text else text, differs)
    | .ok none, .ok none =>
      if isInside && !p.has 'r' then
        (spaced ["Common subdirectories:".toList, a, "and".toList, b] ++ ['\n'], false)
      else
        let names (path : List Char) : List (List Char) :=
          match i.disk.find i.here path true with
          | .ok (place, _) => i.disk.names place
          | .error _ => []
        let (left, right) := (names a, names b)
        let all := sortedTexts (left ++ right.filter fun name => !left.contains name)
        let excluded (name : List Char) : Bool := (p.values 'X').any fun pattern =>
          globMatches (glob (bare pattern)) name
        (all.filter fun name => !excluded name).foldl (fun (text, differs) name =>
          let only (path : List Char) : List Char :=
            "Only in ".toList ++ path ++ [':', ' '] ++ name ++ ['\n']
          if !p.has 'N' && !right.contains name then (text ++ only a, true)
          else if !p.has 'N' && !left.contains name then (text ++ only b, true)
          else
            let (more, isOther) := differenceBelow i p bound true (Disk.join a name)
              (Disk.join b name)
            (text ++ more, differs || isOther)) ([], false)
    | .ok first, .ok _ =>
      let kind (isDirectory : Bool) : List Char :=
        (if isDirectory then "directory" else "regular file").toList
      (spaced ["File".toList, a, "is a".toList, kind first.isNone, "while file".toList, b,
        "is a".toList, kind first.isSome] ++ ['\n'], true)
    | _, _ => ([], true)

/-- How deep directories are compared. -/
def differenceDepth : Nat := 256

/-- An argument that is a number after a dash, with the letter of the option
that it stands for. -/
def withCount (arguments : List (List Char)) : List (List Char) :=
  arguments.map fun argument =>
    match argument with
    | '-' :: c :: digits =>
      let isUnified := c = 'u' && !digits.isEmpty && digits.all Char.isDigit
      if isUnified then '-' :: 'U' :: digits else argument
    | _ => argument

/-- Tells how files differ. -/
def diff : Tool := fun i =>
  match differenceOptions.parse false (withCount i.arguments) with
  | .error fault => .refused i 2 fault
  | .ok p =>
    match p.operands with
    | [] | [_] => .lacking i 2 "operand" [(i.arguments.getLast?).getD i.name]
    | _ :: _ :: extra :: _ => .excessive i 2 extra
    | [a, b] =>
      match (contextLines p).find? fun text => (natural? text).isNone with
      | some text => .misusedFor i 2 ("invalid context length ".toList ++ ticked text)
      | none =>
        let faults := [a, b].filterMap fun path => match comparedAt i p path with
          | .error fault => some (i.name ++ [':', ' '] ++ path ++ [':', ' '] ++ fault.words.toList)
          | .ok _ => none
        let isDirectory (path : List Char) : Bool := match comparedAt i p path with
          | .ok none => true
          | _ => false
        let a' := if isDirectory a && !isDirectory b then Disk.join a (baseName b) else a
        let b' := if isDirectory b && !isDirectory a then Disk.join b (baseName a) else b
        let missing := [a', b'].filterMap fun path => match comparedAt i p path with
          | .error fault => some (i.name ++ [':', ' '] ++ path ++ [':', ' '] ++ fault.words.toList)
          | .ok _ => none
        if !faults.isEmpty then .complaining i 2 (unlines faults)
        else if !missing.isEmpty then .complaining i 2 (unlines missing)
        else
          let (text, differs) := differenceBelow i p differenceDepth false a' b'
          { Completion.printing i text with status := if differs then 1 else 0 }

end ClrListing.Script
