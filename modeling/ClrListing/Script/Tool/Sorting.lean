/-
Tools that bring lines into an order, and tell of lines that are alike.
-/
import ClrListing.Script.Tool.Columns

namespace ClrListing.Script

open Text

-- ================================================================= orders

/-- A number with a point: digits, and how many of them come after it. -/
structure PointedNumber where
  digits : Int
  places : Nat
  deriving DecidableEq, Repr, Inhabited

/-- The order of two such numbers. -/
def PointedNumber.order (a b : PointedNumber) : Ordering :=
  compare (a.digits * (Nat.pow 10 b.places : Nat)) (b.digits * (Nat.pow 10 a.places : Nat))

/-- The number that a text opens with after blanks. -/
def openingNumber (s : List Char) : PointedNumber :=
  let (isNegative, rest) := match s.dropWhile isSpace with
    | '-' :: rest => (true, rest)
    | rest => (false, rest)
  let whole := rest.takeWhile Char.isDigit
  let part := match rest.drop whole.length with
    | '.' :: rest => rest.takeWhile Char.isDigit
    | _ => []
  let n : Int := ((readDigits? 10 (whole ++ part)).map Prod.fst).getD 0
  ⟨if isNegative then -n else n, part.length⟩

/-- The size of a number with a letter for its unit. -/
def unitOrder (s : List Char) : Int :=
  let rest := (s.dropWhile isSpace).dropWhile fun c => c.isDigit || c = '.' || c = '-'
  let unit : Int := match rest.head? with
    | some c => (" KMGTPEZYRQ".toList.findIdx? fun d => d = c || (d = 'K' && c = 'k')).getD 0
    | none => 0
  let n := openingNumber s
  if n.digits < 0 then -unit else if n.digits = 0 then 0 else unit

/-- A number with an exponent; `none` stands for a text without one. -/
def generalNumber? (s : List Char) : Option PointedNumber :=
  let (isNegative, rest) := readSign (s.dropWhile isSpace)
  let whole := rest.takeWhile Char.isDigit
  let after := rest.drop whole.length
  let part := match after with
    | '.' :: rest => rest.takeWhile Char.isDigit
    | _ => []
  let after := match after with
    | '.' :: rest => rest.drop part.length
    | rest => rest
  match readDigits? 10 (whole ++ part) with
  | none => none
  | some (n, _) =>
    let exponent : Int := match after with
      | e :: rest =>
        if e ≠ 'e' && e ≠ 'E' then 0
        else
          let (isNegative, rest) := readSign rest
          match readDigits? 10 rest with
          | some (n, _) => if isNegative then -(min n 400 : Nat) else (min n 400 : Nat)
          | none => 0
      | [] => 0
    let n : Int := if isNegative then -n else n
    if exponent < 0 then some ⟨n, part.length + exponent.natAbs⟩
    else some ⟨n * (Nat.pow 10 exponent.natAbs : Nat), part.length⟩

/-- The place of the month that a text opens with, from one on. -/
def monthPlace (s : List Char) : Nat :=
  let name := ((s.dropWhile isSpace).take 3).map Char.toUpper
  (["JAN", "FEB", "MAR", "APR", "MAY", "JUN", "JUL", "AUG", "SEP", "OCT", "NOV",
    "DEC"].findIdx? fun month => month.toList = name).elim 0 (· + 1)

/-- The rank of a character that is no digit, in versions. -/
def versionRank : List Char → Int
  | [] => -1
  | c :: _ =>
    if c.isDigit then 0 else if c.isAlpha then c.toNat else if c = '~' then -2 else c.toNat + 256

/-- The order of two texts in which runs of digits count as numbers. -/
def runOrder : (bound : Nat) → List Char → List Char → Ordering
  | 0, _, _ => .eq
  | bound + 1, s, t =>
    let inText (s : List Char) : Bool := s.head?.any fun c => !c.isDigit
    if s.isEmpty && t.isEmpty then .eq
    else if inText s || inText t then
      match compare (versionRank s) (versionRank t) with
      | .eq => runOrder bound s.tail t.tail
      | order => order
    else
      let number (s : List Char) : Nat := ((readDigits? 10 s).map Prod.fst).getD 0
      match compare (number s) (number t) with
      | .eq => runOrder bound (s.dropWhile Char.isDigit) (t.dropWhile Char.isDigit)
      | order => order

/-- Whether a text consists of endings of a file: points with letters. -/
def isEndings : (bound : Nat) → List Char → Bool
  | _, [] => true
  | 0, _ => false
  | bound + 1, s =>
    match s with
    | '.' :: c :: rest =>
      (c.isAlpha || c = '~') && isEndings bound (rest.dropWhile fun c => c.isAlphanum || c = '~')
    | _ => false

/-- A name without the endings of a file. -/
def withoutEndings (s : List Char) : List Char :=
  let places := (List.range s.length).map (· + 1)
  s.take ((places.find? fun n => isEndings s.length (s.drop n)).getD s.length)

/-- Which of two versions comes first. -/
def versionOrder (s t : List Char) : Ordering :=
  let bound := s.length + t.length + 1
  let kind (s : List Char) : Nat :=
    if s.isEmpty then 0 else if s = ['.'] then 1 else if s = ['.', '.'] then 2
    else if s.head? = some '.' then 3 else 4
  match compare (kind s) (kind t) with
  | .eq =>
    match runOrder bound (withoutEndings s) (withoutEndings t) with
    | .eq => runOrder bound s t
    | order => order
  | order => order

/-- The order of two texts, character by character. -/
def plainOrder (s t : List Char) : Ordering :=
  if textBefore s t then .lt else if textBefore t s then .gt else .eq

/-- Which of two texts comes first by some letters. -/
def sortOrder (letters : List Char) (s t : List Char) : Ordering :=
  let has (c : Char) : Bool := letters.contains c
  let kept (s : List Char) : List Char :=
    let s := if has 'd' then s.filter fun c => c = ' ' || c = '\t' || c.isAlphanum else s
    let s := if has 'i' then s.filter fun c => 32 ≤ c.toNat && c.toNat < 127 else s
    if has 'f' then s.map Char.toUpper else s
  let order :=
    if has 'n' then (openingNumber s).order (openingNumber t)
    else if has 'g' then
      match generalNumber? s, generalNumber? t with
      | some a, some b => a.order b
      | none, none => .eq
      | none, some _ => .lt
      | some _, none => .gt
    else if has 'h' then
      (compare (unitOrder s) (unitOrder t)).then ((openingNumber s).order (openingNumber t))
    else if has 'M' then compare (monthPlace s) (monthPlace t)
    else if has 'V' then versionOrder s t
    else plainOrder (kept s) (kept t)
  if has 'r' then order.swap else order

-- =================================================================== keys

/-- An end of a key: after so many fields, and so many characters. -/
structure KeyEnd where
  fields : Nat
  chars : Nat
  skipsBlanks : Bool
  deriving DecidableEq, Repr, Inhabited

/-- A key that lines are sorted by. -/
structure SortKey where
  first : KeyEnd
  last : Option KeyEnd
  letters : List Char
  deriving DecidableEq, Repr, Inhabited

namespace SortKey

/-- The letters that tell how a key is compared. -/
def orderLetters : List Char := "dfghiMnRrV".toList

/-- The complaint about a key. -/
def badKey (reason : String) (s : List Char) : List Char :=
  reason.toList ++ ": invalid field specification ".toList ++ ticked s

/-- Reads a count. -/
def readCount (reason : String) (s : List Char) : Except (List Char) (Nat × List Char) :=
  match readDigits? 10 s with
  | some r => .ok r
  | none => .error (reason.toList ++ ": invalid count at start of ".toList ++ ticked s)

/-- Reads an end of a key: the number of a field, that of a character if
there is one, and letters. -/
def readEnd (whole : List Char) (reason : String) (s : List Char) :
    Except (List Char) (Nat × Option Nat × List Char × List Char) := do
  let (field, rest) ← readCount reason s
  if field = 0 then throw (badKey "field number is zero" whole)
  let (char, rest) ← match rest with
    | '.' :: rest => (readCount "invalid number after \x27.\x27" rest).map fun r => (some r.1, r.2)
    | rest => .ok (none, rest)
  let letters := rest.takeWhile fun c => c = 'b' || orderLetters.contains c
  return (field, char, letters, rest.drop letters.length)

/-- The key that a text is written for. -/
def ofText (s : List Char) : Except (List Char) SortKey := do
  let (field, char, letters, rest) ← readEnd s "invalid number at field start" s
  if char = some 0 then throw (badKey "character offset is zero" s)
  let first : KeyEnd := ⟨field - 1, char.getD 1 - 1, letters.contains 'b'⟩
  match rest with
  | [] => return ⟨first, none, letters⟩
  | ',' :: rest =>
    let (field, char, more, rest) ← readEnd s "invalid number after \x27,\x27" rest
    if !rest.isEmpty then throw (badKey "stray character in field spec" s)
    let char := char.getD 0
    return ⟨first, some ⟨if char = 0 then field else field - 1, char, more.contains 'b'⟩,
      letters ++ more⟩
  | _ => throw (badKey "stray character in field spec" s)

/-- The rest of a line after some fields. -/
def afterFields (separator : Option Char) (toEnd : Bool) : (count : Nat) → List Char → List Char
  | 0, s => s
  | count + 1, s =>
    match separator with
    | some c =>
      match s.dropWhile (· ≠ c) with
      | [] => []
      | _ :: rest =>
        if toEnd && count = 0 then s.dropWhile (· ≠ c) else afterFields separator toEnd count rest
    | none =>
      let isBlank (c : Char) : Bool := c = ' ' || c = '\t' || c = '\n'
      afterFields separator toEnd count ((s.dropWhile isBlank).dropWhile fun c => !isBlank c)

/-- The rest of a line after an end of a key. -/
def after (separator : Option Char) (isLast : Bool) (e : KeyEnd) (s : List Char) : List Char :=
  let rest := afterFields separator (isLast && e.chars = 0) e.fields s
  let rest := if e.skipsBlanks && !(isLast && e.chars = 0) then rest.dropWhile isSpace else rest
  rest.drop e.chars

/-- The part of a line that a key is for. -/
def text (separator : Option Char) (k : SortKey) (s : List Char) : List Char :=
  let start := after separator false k.first s
  match k.last with
  | none => start
  | some last => start.take (start.length - (after separator true last s).length)

end SortKey

/-- How lines are sorted. -/
structure SortStyle where
  keys : List SortKey
  /-- The letters for lines without keys, and for keys without letters. -/
  letters : List Char
  separator : Option Char
  isStable : Bool
  isUnique : Bool
  deriving DecidableEq, Repr, Inhabited

namespace SortStyle

/-- The order of two lines by some keys. -/
def keyOrder (style : SortStyle) (s t : List Char) : List SortKey → Ordering
  | [] => .eq
  | k :: rest =>
    let own := if k.letters.isEmpty then style.letters else k.letters
    let skips := k.letters.isEmpty && style.letters.contains 'b'
    let ended (e : KeyEnd) : KeyEnd := { e with skipsBlanks := e.skipsBlanks || skips }
    let k := { k with first := ended k.first, last := k.last.map ended }
    match sortOrder own (k.text style.separator s) (k.text style.separator t) with
    | .eq => keyOrder style s t rest
    | order => order

/-- The order of two lines. -/
def order (style : SortStyle) (s t : List Char) : Ordering :=
  if style.keys.isEmpty then
    let blanks (s : List Char) : List Char :=
      if style.letters.contains 'b' then s.dropWhile isSpace else s
    sortOrder style.letters (blanks s) (blanks t)
  else style.keyOrder s t style.keys

/-- Whether a line may come before another. -/
def comesFirst (style : SortStyle) (s t : List Char) : Bool :=
  match style.order s t with
  | .lt => true
  | .gt => false
  | .eq =>
    if style.isStable || style.isUnique then true
    else if style.letters.contains 'r' then plainOrder s t ≠ .lt
    else plainOrder s t ≠ .gt

/-- The first of each run of lines that are alike. -/
def unique (style : SortStyle) (lines : List (List Char)) : List (List Char) :=
  (lines.foldl (fun kept line =>
    match kept with
    | before :: _ => if style.order before line = .eq then kept else line :: kept
    | [] => [line]) []).reverse

/-- The number of the first line that may not stand where it does, and the
line. -/
def disorder? (style : SortStyle) : (number : Nat) → List (List Char) →
    Option (Nat × List Char)
  | number, a :: b :: rest =>
    let isFine := if style.isUnique then style.order a b = .lt else style.comesFirst a b
    if isFine then disorder? style (number + 1) (b :: rest) else some (number + 1, b)
  | _, _ => none

end SortStyle

-- =================================================================== sort

/-- Arguments with keys in the form of two signs written out. -/
def withSignedKeys : List (List Char) → List (List Char)
  | ['-', '-'] :: rest => ['-', '-'] :: rest
  | ('+' :: c :: first) :: rest =>
    let shifted (s : List Char) (more : Nat) : List Char :=
      match readDigits? 10 s with
      | none => s
      | some (n, tail) =>
        let char : Option (Nat × List Char) := match tail with
          | '.' :: tail => (readDigits? 10 tail).map fun r => (r.1 + more, r.2)
          | _ => none
        match char with
        | some (m, tail) => (n + 1).repr.toList ++ '.' :: m.repr.toList ++ tail
        | none => (n + more).repr.toList ++ tail
    if !c.isDigit then ('+' :: c :: first) :: withSignedKeys rest
    else
      let start := shifted (c :: first) 1
      match rest with
      | ('-' :: d :: last) :: rest =>
        if d.isDigit then ['-', 'k'] :: (start ++ ',' :: shifted (d :: last) 0) ::
          withSignedKeys rest
        else ['-', 'k'] :: start :: withSignedKeys (('-' :: d :: last) :: rest)
      | rest => ['-', 'k'] :: start :: withSignedKeys rest
  | argument :: rest => argument :: withSignedKeys rest
  | [] => []

/-- The options of `sort`. -/
def sortOptions : Options :=
  .mk "rnufbdgshmcCViMRz" "ktoSTWQ" "K" [("reverse", 'r'), ("numeric-sort", 'n'),
    ("unique", 'u'), ("key", 'k'), ("field-separator", 't'), ("ignore-case", 'f'),
    ("stable", 's'), ("ignore-leading-blanks", 'b'), ("dictionary-order", 'd'),
    ("general-numeric-sort", 'g'), ("ignore-nonprinting", 'i'), ("month-sort", 'M'),
    ("human-numeric-sort", 'h'), ("random-sort", 'R'), ("version-sort", 'V'), ("merge", 'm'),
    ("output", 'o'), ("zero-terminated", 'z'), ("buffer-size", 'S'),
    ("temporary-directory", 'T'), ("sort", 'W'), ("check", 'K'), ("parallel", 'Q'),
    ("random-source", 'Q'), ("batch-size", 'Q'), ("compress-program", 'Q')]

/-- The words for ways of sorting, with their letters. -/
def sortWords : List (String × Char) :=
  [("general-numeric", 'g'), ("human-numeric", 'h'), ("month", 'M'), ("numeric", 'n'),
    ("random", 'R'), ("version", 'V')]

/-- The letters that cannot be used together, if there are any. -/
def clashingLetters? (letters : List Char) : Option (List Char) :=
  let kinds := "ghMn".toList.filter letters.contains
  let others := (if letters.contains 'V' || letters.contains 'R' then 1
    else if letters.contains 'd' || letters.contains 'i' then 1 else 0)
  let isMixed := (letters.contains 'V' || letters.contains 'R')
    && (letters.contains 'd' || letters.contains 'i')
  if kinds.length + others > 1 || isMixed then
    some ("dfghiMnRV".toList.filter letters.contains)
  else none

/-- The style that options ask for, or the complaint about them. -/
def sortStyle (p : Parsed) : Except (List Char) SortStyle := do
  let keys ← (p.values 'k').mapM SortKey.ofText
  let words := (p.values 'W').filterMap fun w => sortWords.lookup (String.ofList w)
  let letters := ((p.given.map Prod.fst).filter fun c =>
    c = 'b' || SortKey.orderLetters.contains c) ++ words
  let separator ← match p.value? 't' with
    | none => .ok none
    | some [] => .error "empty tab".toList
    | some [c] => .ok (some c)
    | some ['\\', '0'] => .ok (some '\x00')
    | some text => .error ("multi-character tab ".toList ++ ticked text)
  let own := if keys.isEmpty then [letters]
    else keys.map fun k => if k.letters.isEmpty then letters else k.letters
  match own.findSome? clashingLetters? with
  | some clash => throw ("options ".toList ++ ticked ('-' :: clash) ++ " are incompatible".toList)
  | none => return ⟨keys, letters, separator, p.has 's', p.has 'u'⟩

/-- Whether a text is a size of memory. -/
def isMemorySize (s : List Char) : Bool :=
  match readDigits? 10 s with
  | some (_, rest) => rest.isEmpty || (rest.length = 1 && rest.all "bkKmMGTPEZY%".toList.contains)
  | none => false

/-- The lines of texts that are in their order each, in one order. -/
def mergedLines (comesFirst : List Char → List Char → Bool) (texts : List (List (List Char))) :
    List (List Char) :=
  texts.foldl (fun merged lines => merged.merge lines comesFirst) []

/-- Sorts the lines of files. -/
def sort : Tool := fun i =>
  match sortOptions.parse false (withSignedKeys i.arguments) with
  | .error fault => .refused i 2 fault
  | .ok p =>
    let word := (p.values 'W').find? fun w => (sortWords.lookup (String.ofList w)).isNone
    let checkWord := (p.values 'K').find? fun w =>
      !(["", "quiet", "silent", "diagnose-first"].contains (String.ofList w))
    let listed (words : List String) : List Char :=
      words.flatMap fun w => "\n  - ".toList ++ w.toList
    match sortStyle p, word, checkWord, (p.value? 'S').filter fun s => !isMemorySize s with
    | _, some w, _, _ =>
      .misusedFor i 1 ("invalid argument ".toList ++ ticked w
        ++ " for \x27--sort\x27\nValid arguments are:".toList
        ++ listed (sortWords.map fun w => "\x27" ++ w.1 ++ "\x27"))
    | _, _, some w, _ =>
      .misusedFor i 1 ("invalid argument ".toList ++ ticked w
        ++ " for \x27--check\x27\nValid arguments are:".toList
        ++ listed ["\x27quiet\x27, \x27silent\x27", "\x27diagnose-first\x27"])
    | _, _, _, some size => .failing i 2 ("invalid -S argument ".toList ++ ticked size)
    | .error reason, _, _, _ => .failing i 2 reason
    | .ok style, none, none, none =>
      let isQuiet := p.has 'C' || (p.values 'K').any fun w => w = "quiet".toList
        || w = "silent".toList
      let checks := p.has 'c' || p.has 'C' || p.has 'K'
      if checks && p.operands.length > 1 then
        .failing i 2 ("extra operand ".toList ++ ticked ((p.operands[1]?).getD [])
          ++ " not allowed with -c".toList)
      else (gatherOrInput i p.operands).orRefuse i 2 fun g =>
        let mark := if p.has 'z' then '\x00' else '\n'
        let texts := g.contents.map fun f => (markedLines mark f.2).map Prod.fst
        if checks then
          match style.disorder? 1 texts.flatten with
          | none => g.telling i 2 []
          | some (number, line) =>
            let path := (p.operands.head?).getD ['-']
            let reason := i.name ++ ": ".toList ++ path ++ ':' :: number.repr.toList
              ++ ": disorder: ".toList ++ line ++ ['\n']
            (g.telling i 2 (if isQuiet then [] else [(2, reason)])).withStatus 1
        else
          let sorted := if p.has 'm' then mergedLines style.comesFirst texts
            else texts.flatten.mergeSort style.comesFirst
          let kept := if p.has 'u' then style.unique sorted else sorted
          let text := kept.flatMap fun line => line ++ [mark]
          match p.value? 'o' with
          | none => g.complete i 2 text
          | some path =>
            match i.disk.write i.here path (Octets.toBytes text) with
            | .ok disk => { g.complete i 2 [] with disk := disk }
            | .error fault =>
              .failing i 2 ("open failed: ".toList ++ path ++ ": ".toList ++ fault.words.toList)

-- ============================================================ alike lines

/-- Runs of lines that are alike. -/
def lineRuns (alike : List Char → List Char → Bool) : List (List Char) →
    List (List (List Char))
  | [] => []
  | line :: rest =>
    match lineRuns alike rest with
    | (next :: more) :: runs =>
      if alike line next then (line :: next :: more) :: runs
      else [line] :: (next :: more) :: runs
    | _ => [[line]]

/-- Texts with an empty line between them, or also around them. -/
def apart (isBefore isAfter : Bool) (mark : Char) (texts : List (List Char)) : List Char :=
  let text := [mark].intercalate texts
  if texts.isEmpty then []
  else (if isBefore then [mark] else []) ++ text ++ if isAfter then [mark] else []

/-- The options of `uniq`. -/
def uniqOptions : Options :=
  .mk "cdDuiz" "fsw" "AG" [("count", 'c'), ("repeated", 'd'), ("unique", 'u'),
    ("ignore-case", 'i'), ("all-repeated", 'A'), ("group", 'G'), ("skip-fields", 'f'),
    ("skip-chars", 's'), ("check-chars", 'w'), ("zero-terminated", 'z')]

/-- Arguments with numbers after signs as the values of options. -/
def withSignedCounts (arguments : List (List Char)) : List (List Char) :=
  arguments.map fun argument => match argument with
    | '-' :: c :: rest => if c.isDigit then '-' :: 'f' :: c :: rest else argument
    | '+' :: c :: rest => if c.isDigit then '-' :: 's' :: c :: rest else argument
    | _ => argument

/-- The words for ways to keep groups of lines apart. -/
def groupWords (isAll : Bool) : List String :=
  if isAll then ["none", "prepend", "separate"] else ["prepend", "append", "separate", "both"]

/-- Prints one of every run of lines that are alike. -/
def uniq : Tool := fun i =>
  match uniqOptions.parse false (withSignedCounts i.arguments) with
  | .error fault => .refused i 1 fault
  | .ok p =>
    let bad (letter : Char) (what : String) : Option (List Char) :=
      ((p.values letter).find? fun v => (natural? v).isNone).map fun v =>
        v ++ ": invalid number of ".toList ++ what.toList
    let badWord (letter : Char) (name : String) (isAll : Bool) : Option (List Char) :=
      ((p.values letter).find? fun v =>
        !v.isEmpty && !(groupWords isAll).contains (String.ofList v)).map fun v =>
        "invalid argument ".toList ++ ticked v ++ " for ".toList ++ ticked name.toList
          ++ "\nValid arguments are:".toList
          ++ (groupWords isAll).flatMap fun w => "\n  - ".toList ++ ticked w.toList
    let amount? (letter : Char) : Option Nat := (p.value? letter).bind natural?
    let reason := bad 'f' "fields to skip" <|> bad 's' "bytes to skip"
      <|> bad 'w' "bytes to compare"
    match reason, badWord 'A' "--all-repeated" true <|> badWord 'G' "--group" false with
    | some reason, _ => .failing i 1 reason
    | none, some reason => .misusedFor i 1 reason
    | none, none =>
    match p.operands with
    | _ :: _ :: extra :: _ => .excessive i 1 extra
    | operands =>
      let showsAll := p.has 'D' || p.has 'A'
      if p.has 'G' && "cdDuA".toList.any p.has then
        .misusedFor i 1 "--group is mutually exclusive with -c/-d/-D/-u".toList
      else if p.has 'c' && showsAll then
        .misusedFor i 1
          "printing all duplicated lines and repeat counts is meaningless".toList
      else (gatherOrInput i (operands.take 1)).orRefuse i 1 fun g =>
        let mark := if p.has 'z' then '\x00' else '\n'
        let key (s : List Char) : List Char :=
          let s := SortKey.afterFields none true ((amount? 'f').getD 0) s
          let s := s.drop ((amount? 's').getD 0)
          let s := match amount? 'w' with
            | some n => s.take n
            | none => s
          if p.has 'i' then s.map Char.toLower else s
        let lines := (markedLines mark g.text).map Prod.fst
        let runs := lineRuns (fun s t => key s = key t) lines
        let ended (lines : List (List Char)) : List Char := lines.flatMap fun l => l ++ [mark]
        let text :=
          if p.has 'G' then
            let word := String.ofList ((p.value? 'G').getD [])
            apart (word = "prepend" || word = "both") (word = "append" || word = "both") mark
              (runs.map ended)
          else if showsAll then
            let word := String.ofList ((p.value? 'A').getD [])
            let repeated := runs.filter fun run => run.length > 1
            if word = "separate" || word = "prepend" then
              apart (word = "prepend") false mark (repeated.map ended)
            else ended repeated.flatten
          else
            let kept := runs.filter fun run =>
              (!p.has 'd' || run.length > 1) && (!p.has 'u' || run.length = 1)
            ended (kept.map fun run =>
              if p.has 'c' then padStart 7 run.length.repr.toList ++ ' ' :: run.headD []
              else run.headD [])
        match operands[1]? with
        | none | some ['-'] => g.complete i 1 text
        | some path =>
          match i.disk.write i.here path (Octets.toBytes text) with
          | .ok disk => { g.complete i 1 [] with disk := disk }
          | .error fault => .failing i 1 (path ++ ": ".toList ++ fault.words.toList)

-- ============================================================ other orders

/-- The items of a list that come before others, as pairs tell: each is taken
once nothing that is left comes before it. -/
def precedence (pairs : List (List Char × List Char)) :
    (bound : Nat) → (ready left : List (List Char)) → List (List Char) × List (List Char)
  | 0, _, left => ([], left)
  | _, [], left => ([], left)
  | bound + 1, item :: ready, left =>
    let left := left.filter fun x => x ≠ item
    let rest := pairs.filter fun pair => pair.1 ≠ item
    let freed := ((pairs.filter fun pair => pair.1 = item).map Prod.snd).reverse
    let freed := freed.foldl (fun done x => if done.contains x then done else done ++ [x]) []
    let next := freed.filter fun x =>
      left.contains x && !ready.contains x && rest.all fun pair => pair.2 ≠ x
    let (done, left) := precedence rest bound (ready ++ next) left
    (item :: done, left)

/-- Brings items into an order in which each comes before those that pairs
put after it. -/
def tsort : Tool := fun i =>
  match (Options.of "w" "" []).parse false i.arguments with
  | .error fault => .refused i 1 fault
  | .ok p =>
    match p.operands with
    | _ :: extra :: _ => .excessive i 1 extra
    | operands => (gatherOrInput i operands).orRefuse i 1 fun g =>
      let path := (operands.head?).getD ['-']
      let words := blankWords g.text
      let rec paired : List (List Char) → List (List Char × List Char)
        | a :: b :: rest => (a, b) :: paired rest
        | _ => []
      if words.length % 2 = 1 then
        .failing i 1 (path ++ ": input contains an odd number of tokens".toList)
      else
        let pairs := (paired words).filter fun pair => pair.1 ≠ pair.2
        let items := (words.mergeSort fun a b => !textBefore b a).foldl (fun done w =>
          if done.getLast? = some w then done else done ++ [w]) []
        let ready := items.filter fun item => pairs.all fun pair => pair.2 ≠ item
        let (done, left) := precedence pairs (items.length + 1) ready items
        if left.isEmpty then g.complete i 1 (unlines done)
        else
          let lines := (path ++ ": input contains a loop:".toList) :: left
          (g.telling i 1 [(1, unlines done), (2, unlines (lines.map fun l => "tsort: ".toList ++ l)),
            (1, unlines left)]).withStatus 1

/-- The whole numbers of a range. -/
def rangeOf? (s : List Char) : Option (Nat × Nat) := do
  let (low, high) ← splitOnce ['-'] s
  let low ← natural? low
  let high ← natural? high
  if low ≤ high + 1 then some (low, high) else none

/-- Prints lines in some order: that which they have. -/
def shuf : Tool := fun i =>
  match (Options.of "erz" "ion" [("echo", 'e'), ("repeat", 'r'), ("input-range", 'i'),
      ("output", 'o'), ("head-count", 'n'), ("zero-terminated", 'z'),
      ("random-source", 'o')]).parse false i.arguments with
  | .error fault => .refused i 1 fault
  | .ok p =>
    let mark := if p.has 'z' then '\x00' else '\n'
    let count := (p.value? 'n').bind natural?
    let shown (g : Gathered) (lines : List (List Char)) : Completion :=
      let lines := if p.has 'r' then
          let count := count.getD 0
          (List.replicate count lines).flatten.take count
        else match count with
          | some n => lines.take n
          | none => lines
      g.complete i 1 (lines.flatMap fun l => l ++ [mark])
    match (p.value? 'n').filter fun n => (natural? n).isNone, p.value? 'i' with
    | some n, _ => .failing i 1 ("invalid line count: ".toList ++ ticked n)
    | none, some range =>
      match rangeOf? range, p.operands with
      | none, _ => .failing i 1 ("invalid input range: ".toList ++ ticked range)
      | some _, extra :: _ => .excessive i 1 extra
      | some (low, high), [] =>
        shown ⟨[], false⟩ ((List.range (high + 1 - low)).map fun n => (low + n).repr.toList)
    | none, none =>
      if p.has 'e' then shown ⟨[], false⟩ p.operands
      else match p.operands with
        | _ :: extra :: _ => .excessive i 1 extra
        | operands => (gatherOrInput i operands).orRefuse i 1 fun g =>
          shown g ((markedLines mark g.text).map Prod.fst)

end ClrListing.Script
