/-
Tools that take lines apart into columns, put lines of several files beside
each other, and put blanks for tabs or tabs for blanks.
-/
import ClrListing.Script.Tool.Lines

namespace ClrListing.Script

open Text

-- ================================================================ columns

/-- A range of places, from one on, of which the last may be open. -/
abbrev PlaceRange := Nat × Option Nat

/-- Why a list of places is not understood. -/
inductive PlaceFault where
  | zero
  | decreasing
  | endless
  | badRange
  | badValue (text : List Char)
  | tooLarge (text : List Char)
  deriving DecidableEq, Repr, Inhabited

/-- How a fault is told, of fields or of characters. -/
def PlaceFault.message (isField : Bool) : PlaceFault → List Char
  | zero => (if isField then "fields are numbered from 1"
      else "byte/character positions are numbered from 1").toList
  | decreasing => "invalid decreasing range".toList
  | endless => "invalid range with no endpoint: -".toList
  | badRange => (if isField then "invalid field range" else "invalid byte or character range").toList
  | badValue text => (if isField then "invalid field value "
      else "invalid byte/character position ").toList ++ ticked text
  | tooLarge text => (if isField then "field number "
      else "byte/character offset ").toList ++ ticked text ++ " is too large".toList

/-- The number that a place is written with. -/
def placeNumber (s : List Char) : Except PlaceFault Nat :=
  match readDigits? 10 s with
  | some (n, []) => if n < 0x7fffffffffffffff then .ok n else .error (.tooLarge s)
  | some (_, rest) => .error (.badValue rest)
  | none => .error (.badValue s)

/-- The range that a part of a list is written for. -/
def placeRange (part : List Char) : Except PlaceFault PlaceRange := do
  match splitAll '-' part with
  | [[]] => throw .zero
  | [[], []] => throw .endless
  | [n] =>
    let n ← placeNumber n
    if n = 0 then throw .zero else return (n, some n)
  | [[], last] =>
    let last ← placeNumber last
    if last = 0 then throw .decreasing else return (1, some last)
  | [first, []] =>
    let first ← placeNumber first
    if first = 0 then throw .zero else return (first, none)
  | [first, last] =>
    let first ← placeNumber first
    let last ← placeNumber last
    if first = 0 then throw .zero
    else if last < first then throw .decreasing
    else return (first, some last)
  | _ => throw .badRange

/-- The ranges that a list of places is written for. -/
def placeRanges (s : List Char) : Except PlaceFault (List PlaceRange) :=
  (splitAll ',' (s.map fun c => if c = ' ' || c = '\t' then ',' else c)).mapM placeRange

/-- Ranges in their order, where those that overlap are one. -/
def mergedRanges (ranges : List PlaceRange) : List PlaceRange :=
  let sorted := ranges.mergeSort fun a b => a.1 ≤ b.1
  sorted.foldl (fun done r => match done.getLast? with
    | some (first, last) =>
      match last, r.2 with
      | none, _ => done
      | some m, some n =>
        if r.1 ≤ m then done.dropLast ++ [(first, some (max m n))] else done ++ [r]
      | some m, none => if r.1 ≤ m then done.dropLast ++ [(first, none)] else done ++ [r]
    | none => [r]) []

/-- The ranges between some that are in their order. -/
def rangesBetween (start : Nat) : List PlaceRange → List PlaceRange
  | [] => [(start, none)]
  | (first, last) :: rest =>
    let before := if start < first then [(start, some (first - 1))] else []
    match last with
    | some last => before ++ rangesBetween (last + 1) rest
    | none => before

/-- What stands in each of some ranges, counted from one on, without what is
empty. -/
def pickRanges (ranges : List PlaceRange) (xs : List α) : List (List α) :=
  (ranges.map fun r => match r.2 with
    | some last => (xs.take last).drop (r.1 - 1)
    | none => xs.drop (r.1 - 1)).filter fun part => !part.isEmpty

/-- The options of `cut`. -/
def cutOptions : Options :=
  .mk "snCz" "dfcbo" "" [("delimiter", 'd'), ("fields", 'f'), ("characters", 'c'),
    ("bytes", 'b'), ("complement", 'C'), ("only-delimited", 's'), ("output-delimiter", 'o'),
    ("zero-terminated", 'z')]

/-- What is wrong with options of `cut`, if anything is. -/
def cutFault? (p : Parsed) (isField : Bool) : Option String :=
  if (p.value? 'd').any fun d => d.length > 1 then
    some "the delimiter must be a single character"
  else if !isField && p.has 'd' then
    some "an input delimiter may be specified only when operating on fields"
  else if !isField && p.has 's' then
    some "suppressing non-delimited lines makes sense\n\tonly when operating on fields"
  else none

/-- Prints columns of lines. -/
def cut : Tool := fun i =>
  match cutOptions.parse false i.arguments with
  | .error fault => .refused i 1 fault
  | .ok p =>
    match p.given.filter fun x => x.1 = 'f' || x.1 = 'c' || x.1 = 'b' with
    | [] =>
      .misusedFor i 1 "you must specify a list of bytes, characters, or fields".toList
    | _ :: _ :: _ => .misusedFor i 1 "only one list may be specified".toList
    | [(letter, list)] =>
      let isField := letter = 'f'
      match cutFault? p isField, placeRanges list with
      | some reason, _ => .misusedFor i 1 reason.toList
      | none, .error fault => .misusedFor i 1 (fault.message isField)
      | none, .ok ranges =>
        let merged := mergedRanges ranges
        let chosen := if p.has 'C' then rangesBetween 1 merged else merged
        let delimiter := match p.value? 'd' with
          | some (c :: _) => c
          | some [] => '\x00'
          | none => '\t'
        let joiner := match p.value? 'o' with
          | some [] => ['\x00']
          | some text => text
          | none => if isField then [delimiter] else []
        let mark := if p.has 'z' then '\x00' else '\n'
        let line (s : List Char) : Option (List Char) :=
          if isField then
            if s.contains delimiter then
              some (joiner.intercalate (pickRanges chosen (splitAll delimiter s)).flatten)
            else if p.has 's' then none else some s
          else some (joiner.intercalate (pickRanges chosen s))
        (gatherOrInput i p.operands).completeEach i 1 fun _ text =>
          ((markedLines mark text).filterMap fun l => line l.1).flatMap fun l => l ++ [mark]

-- ============================================================ side by side

/-- The lines of files side by side: one line of each, until there are
none left; there are at most `bound`. -/
def besideLines (joiner : Nat → List Char) :
    (bound : Nat) → List (List (List Char)) → List (List Char)
  | 0, _ => []
  | bound + 1, files =>
    if files.all List.isEmpty then []
    else
      let row := files.mapIdx fun n f => (if n = 0 then [] else joiner (n - 1)) ++ f.headD []
      row.flatten :: besideLines joiner bound (files.map List.tail)

/-- The lines of files. Where the input is named several times, its lines
go to these places in turn. -/
def shareLines (mark : Char) (contents : List (List Char × List Char)) :
    List (List (List Char)) :=
  let lines (text : List Char) : List (List Char) := (markedLines mark text).map Prod.fst
  let shares := contents.countP fun f => isInput f.1
  let input := ((contents.find? fun f => isInput f.1).map Prod.snd).getD []
  contents.mapIdx fun n f =>
    if isInput f.1 then
      let turn := (contents.take n).countP fun f => isInput f.1
      ((lines input).zipIdx.filter fun l => l.2 % shares = turn).map Prod.fst
    else lines f.2

/-- The signs that a list of delimiters is written for; a zero stands for
none. -/
def delimiters? : List Char → Option (List (List Char))
  | [] => some []
  | ['\\'] => none
  | '\\' :: c :: rest =>
    let sign := match c with
      | 'n' => ['\n']
      | 't' => ['\t']
      | '0' => []
      | 'b' => ['\x08']
      | 'f' => ['\x0c']
      | 'r' => ['\r']
      | 'v' => ['\x0b']
      | c => [c]
    (delimiters? rest).map (sign :: ·)
  | c :: rest => (delimiters? rest).map ([c] :: ·)

/-- Joins the lines of files. -/
def paste : Tool := fun i =>
  match (Options.of "sz" "d" [("delimiters", 'd'), ("serial", 's'),
      ("zero-terminated", 'z')]).parse false i.arguments with
  | .error fault => .refused i 1 fault
  | .ok p =>
    let list := (p.value? 'd').getD ['\t']
    match delimiters? list with
    | none =>
      .failing i 1 ("delimiter list ends with an unescaped backslash: ".toList ++ list)
    | some signs =>
      let g := gatherOrInput i p.operands
      let mark := if p.has 'z' then '\x00' else '\n'
      let joiner (n : Nat) : List Char := (signs[n % max signs.length 1]?).getD []
      let joined (n : Nat) (line : List Char) : List Char :=
        (if n = 0 then [] else joiner (n - 1)) ++ line
      let ended (lines : List (List Char)) : List Char := lines.flatMap fun l => l ++ [mark]
      if p.has 's' then g.completeEach i 1 fun _ text =>
        ended [(((markedLines mark text).map Prod.fst).mapIdx joined).flatten]
      else g.orRefuse i 1 fun g =>
        let files := shareLines mark g.contents
        g.complete i 1 (ended (besideLines joiner ((files.map List.length).foldl max 0) files))

-- ================================================================= common

/-- Whether a text comes before another, character by character. -/
def textBefore : List Char → List Char → Bool
  | [], [] => false
  | [], _ :: _ => true
  | _ :: _, [] => false
  | a :: s, b :: t => if a = b then textBefore s t else decide (a < b)

/-- How it is checked that lines are in their order: not at all, always, or
from the first line on that has no partner. -/
inductive OrderCheck where
  | never
  | always
  | usual
  deriving DecidableEq, Repr, Inhabited

/-- The check that options ask for. -/
def OrderCheck.ofOptions (p : Parsed) : OrderCheck :=
  match (p.given.filter fun o => o.1 = 'K' || o.1 = 'N').getLast? with
  | some ('K', _) => .always
  | some _ => .never
  | none => .usual

/-- What has been found of two sorted files. -/
structure Merging where
  told : List Telling
  /-- Whether a line without a partner was seen. -/
  isUneven : Bool
  /-- The files of which it was told that they are not in their order. -/
  disordered : List Nat
  isOver : Bool
  deriving DecidableEq, Repr, Inhabited

namespace Merging

/-- Prints. -/
def printing (m : Merging) (text : List Char) : Merging := { m with told := m.told ++ [(1, text)] }

/-- Checks that a line of a file may follow another one. -/
def checking (m : Merging) (check : OrderCheck) (file : Nat) (isBefore : Bool)
    (complaint : List Char) : Merging :=
  let isChecked := check = .always || (check = .usual && m.isUneven)
  if !isChecked || m.disordered.contains file || !isBefore then m
  else
    { m with
      told := m.told ++ [(2, complaint)]
      disordered := m.disordered ++ [file]
      isOver := m.isOver || check = .always }

end Merging

/-- Compares the lines of two sorted files. -/
def commonLines (check : OrderCheck) (show_ : Nat → List Char → List Char) :
    (bound : Nat) → List (List Char) → List (List Char) → Merging → Merging
  | 0, _, _, m => m
  | bound + 1, s, t, m =>
    if m.isOver then m
    else
      let next (file : Nat) (lines : List (List Char)) (m : Merging) : Merging :=
        match lines with
        | a :: b :: _ =>
          m.checking check file (textBefore b a)
            ("comm: file ".toList ++ file.repr.toList ++ " is not in sorted order\n".toList)
        | _ => m
      let single (column : Nat) (line : List Char) : Merging :=
        { m.printing (show_ column line) with isUneven := true }
      match s, t with
      | [], [] => m
      | a :: s', [] => commonLines check show_ bound s' [] (next 1 s (single 1 a))
      | [], b :: t' => commonLines check show_ bound [] t' (next 2 t (single 2 b))
      | a :: s', b :: t' =>
        if a = b then
          commonLines check show_ bound s' t' (next 2 t (next 1 s (m.printing (show_ 3 a))))
        else if textBefore a b then
          commonLines check show_ bound s' (b :: t') (next 1 s (single 1 a))
        else commonLines check show_ bound (a :: s') t' (next 2 t (single 2 b))

/-- Compares two sorted files line by line. -/
def comm : Tool := fun i =>
  match (Options.of "123KNTz" "o" [("check-order", 'K'), ("nocheck-order", 'N'), ("total", 'T'),
      ("output-delimiter", 'o'), ("zero-terminated", 'z')]).parse false i.arguments with
  | .error fault => .refused i 1 fault
  | .ok p =>
    match p.operands with
    | [] | [_] => .lacking i 1 "operand" p.operands
    | _ :: _ :: extra :: _ => .excessive i 1 extra
    | [_, _] => (gather i p.operands).orRefuse i 1 fun g =>
      let mark := if p.has 'z' then '\x00' else '\n'
      let joiner := match p.value? 'o' with
        | some [] => ['\x00']
        | some text => text
        | none => ['\t']
      let isShown (column : Nat) : Bool := !p.has (Char.ofNat ('0'.toNat + column))
      let show_ (column : Nat) (line : List Char) : List Char :=
        if isShown column then
          let before := (List.range column).filter fun c => c > 0 && isShown c
          (before.flatMap fun _ => joiner) ++ line ++ [mark]
        else []
      let texts := g.contents.map fun f => (markedLines mark f.2).map Prod.fst
      let s := texts.headD []
      let t := (texts.drop 1).headD []
      let check := OrderCheck.ofOptions p
      let m := commonLines check show_ (s.length + t.length + 1) s t ⟨[], false, [], false⟩
      let counted (column : Nat) : Nat :=
        let plain := commonLines .never (fun c _ => if c = column then [mark] else [])
          (s.length + t.length + 1) s t ⟨[], false, [], false⟩
        (plain.told.flatMap Prod.snd).length
      let total := if p.has 'T' && !m.isOver then
          joiner.intercalate [(counted 1).repr.toList, (counted 2).repr.toList,
            (counted 3).repr.toList, "total".toList] ++ [mark]
        else []
      let done := (g.telling i 1 m.told).followedBy 1 total
      if m.disordered.isEmpty then done
      else if m.isOver then done.withStatus 1
      else (done.followedBy 2 "comm: input is not in sorted order\n".toList).withStatus 1

-- ================================================================== joins

/-- A field of a line: the one that lines are joined by, or one of a
file. -/
inductive JoinField where
  | key
  | field (file place : Nat)
  deriving DecidableEq, Repr, Inhabited

/-- How lines are joined. -/
structure JoinStyle where
  separator : Option Char
  firstKey : Nat
  secondKey : Nat
  folds : Bool
  /-- What stands for fields that there are not. -/
  filler : List Char
  /-- The fields that are printed, if that is told. -/
  fields : Option (List JoinField)
  /-- How many fields of each file are printed at least. -/
  counts : Option (Nat × Nat)
  showsPairs : Bool
  /-- The files of which lines without a partner are printed. -/
  singles : List Nat
  check : OrderCheck
  names : List Char × List Char
  deriving DecidableEq, Repr, Inhabited

namespace JoinStyle

/-- The fields of a line. -/
def split (s : JoinStyle) (line : List Char) : List (List Char) :=
  match s.separator with
  | some '\n' => [line]
  | some c => if line.isEmpty then [] else splitAll c line
  | none => blankWords line

/-- The text that a line of a file is joined by. -/
def key (s : JoinStyle) (file : Nat) (fields : List (List Char)) : List Char :=
  let text := (fields[(if file = 1 then s.firstKey else s.secondKey) - 1]?).getD []
  if s.folds then text.map Char.toLower else text

/-- The line that is printed for two lines; one of them may lack. -/
def joined (s : JoinStyle) (first second : Option (List (List Char))) : List Char :=
  let shown (line : Option (List (List Char))) (place : Nat) : List Char :=
    match line.bind fun l => l[place - 1]? with
    | some [] | none => s.filler
    | some text => text
  let keyText := match first with
    | some _ => shown first s.firstKey
    | none => shown second s.secondKey
  let others (line : Option (List (List Char))) (key : Nat) (count : Option Nat) :
      List (List Char) :=
    let length := count.getD ((line.map List.length).getD 0)
    ((List.range length).map (· + 1)).filterMap fun place =>
      if place = key then none else some (shown line place)
  let texts := match s.fields with
    | some fields => fields.map fun f => match f with
      | .key => keyText
      | .field 1 place => shown first place
      | .field _ place => shown second place
    | none => keyText :: others first s.firstKey (s.counts.map Prod.fst)
        ++ others second s.secondKey (s.counts.map Prod.snd)
  (match s.separator with
    | none | some '\n' => [' ']
    | some c => [c]).intercalate texts ++ ['\n']

/-- Checks that the second line of some may follow the first. -/
def checked (s : JoinStyle) (file number : Nat) (lines : List (List Char)) (m : Merging) :
    Merging :=
  match lines with
  | a :: b :: _ =>
    let name := if file = 1 then s.names.1 else s.names.2
    m.checking s.check file (textBefore (s.key file (s.split b)) (s.key file (s.split a)))
      ("join: ".toList ++ name ++ ':' :: (number + 1).repr.toList ++ ": is not sorted: ".toList ++ b
        ++ ['\n'])
  | _ => m

/-- Goes past so many lines of a file. -/
def passing (s : JoinStyle) (file : Nat) : (count : Nat) → (number : Nat) → List (List Char) →
    Merging → Merging
  | 0, _, _, m => m
  | count + 1, number, lines, m =>
    passing s file count (number + 1) lines.tail (s.checked file number lines m)

/-- Prints a line of a file that has no partner, if that is asked for. -/
def single (s : JoinStyle) (file : Nat) (line : List Char) (m : Merging) : Merging :=
  if s.singles.contains file then
    let fields := some (s.split line)
    m.printing (if file = 1 then s.joined fields none else s.joined none fields)
  else m

/-- Joins the lines of two files, of which so many have been gone past. -/
def join (s : JoinStyle) : (bound : Nat) → (first second : Nat) → (xs ys : List (List Char)) →
    Merging → Merging
  | 0, _, _, _, _, m => m
  | bound + 1, first, second, xs, ys, m =>
    if m.isOver then m
    else match xs, ys with
    | [], [] => m
    | x :: xs', [] =>
      let m := s.checked 1 first xs (s.single 1 x m)
      join s bound (first + 1) second xs' [] m
    | [], y :: ys' =>
      let m := s.checked 2 second ys (s.single 2 y m)
      join s bound first (second + 1) [] ys' m
    | x :: xs', y :: ys' =>
      let a := s.key 1 (s.split x)
      let b := s.key 2 (s.split y)
      if textBefore a b then
        let m := s.checked 1 first xs (s.single 1 x m)
        join s bound (first + 1) second xs' ys { m with isUneven := true }
      else if textBefore b a then
        let m := s.checked 2 second ys (s.single 2 y m)
        join s bound first (second + 1) xs ys' { m with isUneven := true }
      else
        let left := xs.takeWhile fun line => s.key 1 (s.split line) = a
        let right := ys.takeWhile fun line => s.key 2 (s.split line) = a
        let m := s.passing 1 left.length first xs m
        let m := s.passing 2 right.length second ys m
        let pairs := left.flatMap fun x => right.map fun y => (x, y)
        let m := if s.showsPairs then pairs.foldl (fun m (x, y) =>
            m.printing (s.joined (some (s.split x)) (some (s.split y)))) m
          else m
        join s bound (first + left.length) (second + right.length) (xs.drop left.length)
          (ys.drop right.length) m

end JoinStyle

/-- The fields that a list is written for. -/
def joinFields (s : List Char) : Except (List Char) (List JoinField) :=
  let parts := (splitAll ',' (s.map fun c => if c = ' ' || c = '\t' then ',' else c))
  parts.mapM fun part => match part with
    | ['0'] => .ok .key
    | file :: '.' :: place =>
      if file ≠ '1' && file ≠ '2' then
        .error ("invalid file number in field spec: ".toList ++ ticked part)
      else match natural? place with
        | some (n + 1) => .ok (.field (file.toNat - '0'.toNat) (n + 1))
        | _ => .error ("invalid field number: ".toList ++ ticked place)
    | _ =>
      if part.head? = some '1' || part.head? = some '2' || part.head? = some '0' then
        .error ("invalid field specifier: ".toList ++ ticked part)
      else .error ("invalid file number in field spec: ".toList ++ ticked part)

/-- The style that options ask for, or the complaint about them. -/
def joinStyle (p : Parsed) (first second : List Char) : Except (List Char) JoinStyle := do
  let place (letters : List Char) : Except (List Char) Nat := do
    match (p.given.filter fun o => letters.contains o.1).getLast? with
    | none => return 1
    | some (_, text) =>
      match natural? text with
      | some (n + 1) => return n + 1
      | _ => throw ("invalid field number: ".toList ++ ticked text)
  let files (letter : Char) : Except (List Char) (List Nat) := (p.values letter).mapM fun text =>
    if text = ['1'] then .ok 1 else if text = ['2'] then .ok 2
    else .error ("invalid field number: ".toList ++ ticked text)
  let separator ← match p.value? 't' with
    | none => .ok none
    | some [c] => .ok (some c)
    | some [] => .ok (some '\n')
    | some ['\\', '0'] => .ok (some '\x00')
    | some text => .error ("multi-character tab ".toList ++ ticked text)
  let lists := p.values 'o'
  let isAuto := lists.contains "auto".toList
  let fields ← if lists.isEmpty || isAuto then .ok none
    else (lists.mapM joinFields).map fun f => some f.flatten
  let also ← files 'a'
  let only ← files 'v'
  return {
    separator := separator
    firstKey := ← place ['1', 'j']
    secondKey := ← place ['2', 'j']
    folds := p.has 'i'
    filler := (p.value? 'e').getD []
    fields := fields
    counts := if isAuto then some (0, 0) else none
    showsPairs := only.isEmpty
    singles := also ++ only
    check := OrderCheck.ofOptions p
    names := (first, second) }

/-- Joins lines of two sorted files that have a field in common. -/
def join : Tool := fun i =>
  match (Options.of "iHKNz" "tae12jvo" [("ignore-case", 'i'), ("header", 'H'),
      ("check-order", 'K'), ("nocheck-order", 'N'), ("zero-terminated", 'z')]).parse false
      i.arguments with
  | .error fault => .refused i 1 fault
  | .ok p =>
    match p.operands with
    | [] | [_] => .lacking i 1 "operand" p.operands
    | _ :: _ :: extra :: _ => .excessive i 1 extra
    | [first, second] =>
      match joinStyle p first second with
      | .error reason => .failing i 1 reason
      | .ok style => (gather i [first, second]).orRefuse i 1 fun g =>
        let texts := g.contents.map fun f => plainLines f.2
        let xs := texts.headD []
        let ys := (texts.drop 1).headD []
        let width (lines : List (List Char)) : Nat := (style.split (lines.headD [])).length
        let style := if style.counts.isSome then
            { style with counts := some (width xs, width ys) }
          else style
        let (title, xs, ys, passed) := match p.has 'H', xs, ys with
          | true, x :: xs, y :: ys =>
            (style.joined (some (style.split x)) (some (style.split y)), xs, ys, 1)
          | _, _, _ => ([], xs, ys, 0)
        let m := style.join (xs.length + ys.length + 1) (passed + 1) (passed + 1) xs ys
          ⟨[(1, title)], false, [], false⟩
        let done := g.telling i 1 m.told
        if m.disordered.isEmpty then done
        else if m.isOver then done.withStatus 1
        else (done.followedBy 2 "join: input is not in sorted order\n".toList).withStatus 1

-- =================================================================== stops

/-- Where tabs lead to: to some places, and after these to the multiples of a
number, if there is one. -/
structure TabStops where
  places : List Nat
  step : Option Nat
  /-- Whether the multiples count from the last place on. -/
  isFromLast : Bool
  deriving DecidableEq, Repr, Inhabited

namespace TabStops

/-- Tabs that lead to the multiples of eight. -/
def usual : TabStops := ⟨[], some 8, false⟩

/-- The place that a tab leads to. -/
def next? (t : TabStops) (column : Nat) : Option Nat :=
  match t.places.find? fun place => column < place with
  | some place => some place
  | none => t.step.map fun step =>
    let start := if t.isFromLast then (t.places.getLast?).getD 0 else 0
    start + (column - start) / step * step + step

/-- The stops that a list is written for, or the complaint about it. -/
def ofText (s : List Char) : Except (List Char) TabStops := do
  let parts := (splitAll ',' (s.map fun c => if c = ' ' then ',' else c)).filter fun part =>
    !part.isEmpty
  let number (part : List Char) : Except (List Char) Nat :=
    match natural? part with
    | some 0 => .error "tab size cannot be 0".toList
    | some n => .ok n
    | none =>
      .error ("tab size contains invalid character(s): ".toList
        ++ ticked (part.dropWhile Char.isDigit))
  let t ← parts.foldlM (fun (t : TabStops) part => do
    match part with
    | '/' :: rest => return { t with step := some (← number rest) }
    | '+' :: rest => return { t with step := some (← number rest), isFromLast := true }
    | part =>
      let n ← number part
      if t.places.getLast?.any fun last => last ≥ n then
        throw "tab sizes must be ascending".toList
      return { t with places := t.places ++ [n] }) ⟨[], none, false⟩
  match t.places, t.step with
  | [], none => return usual
  | [n], none => return ⟨[], some n, false⟩
  | _, _ => return t

end TabStops

/-- Arguments with stops that follow a dash as the value of an option. -/
def withDashStops (arguments : List (List Char)) : List (List Char) :=
  arguments.map fun argument => match argument with
    | '-' :: c :: rest =>
      if c.isDigit && rest.all fun c => c.isDigit || c = ',' then '-' :: 't' :: c :: rest
      else argument
    | _ => argument

-- =================================================================== tools

/-- A line with blanks for tabs; `isInitial` tells that nothing else has come
so far, and `all` that this does not matter. -/
def expandedLine (t : TabStops) (all : Bool) : (isInitial : Bool) → (column : Nat) → List Char →
    List Char
  | _, _, [] => []
  | isInitial, column, c :: rest =>
    if !all && !isInitial then c :: rest
    else if c = '\t' then
      let next := (t.next? column).getD (column + 1)
      List.replicate (next - column) ' ' ++ expandedLine t all isInitial next rest
    else if c = '\x08' then c :: expandedLine t all false (column - 1) rest
    else c :: expandedLine t all (isInitial && c = ' ') (column + 1) rest

/-- Puts blanks for tabs. -/
def expand : Tool := fun i =>
  match (Options.of "i" "t" [("initial", 'i'), ("tabs", 't')]).parse false
      (withDashStops i.arguments) with
  | .error fault => .refused i 1 fault
  | .ok p =>
    match (p.value? 't').elim (.ok .usual) TabStops.ofText with
    | .error reason => .failing i 1 reason
    | .ok stops => (gatherOrInput i p.operands).completeFlow i 1 fun text =>
      rejoin ((linesOf text).map fun l => (expandedLine stops (!p.has 'i') true 0 l.1, l.2))

/-- Blanks that may become a tab. -/
structure PendingBlanks where
  column : Nat
  text : List Char
  /-- Whether the first of them is a single blank before the last stop. -/
  isSingle : Bool
  wasBlank : Bool
  /-- Whether blanks are still looked at. -/
  isOn : Bool
  output : List Char
  deriving DecidableEq, Repr, Inhabited

namespace PendingBlanks

/-- What is written of the blanks before something else. -/
def flushed (b : PendingBlanks) : List Char :=
  if b.text.length > 1 && b.isSingle then '\t' :: b.text.drop 1 else b.text

/-- Writes a character after the blanks that there are. -/
def writing (b : PendingBlanks) (all isBlank : Bool) (c : Char) : PendingBlanks :=
  { b with
    output := b.output ++ b.flushed ++ [c]
    text := []
    isSingle := if b.text.isEmpty then b.isSingle else false
    wasBlank := isBlank
    isOn := b.isOn && (all || isBlank) }

/-- Goes on with a character. -/
def taking (t : TabStops) (all : Bool) (b : PendingBlanks) (c : Char) : PendingBlanks :=
  let isBlank := c = ' ' || c = '\t'
  if !b.isOn then { b with output := b.output ++ [c] }
  else if !isBlank then
    let column := if c = '\x08' then b.column - 1 else b.column + 1
    { b with column := column }.writing all false c
  else match t.next? b.column with
    | none => { b with isOn := false }.writing all true c
    | some next =>
      let kept (text : List Char) : List Char := if b.isSingle then text.take 1 else []
      if c = '\t' then
        let text := if b.text.isEmpty then [] else '\t' :: b.text.drop 1
        { b with column := next, text := kept text }.writing all true '\t'
      else
        let column := b.column + 1
        if !(b.wasBlank && column = next) then
          { b with
            column := column
            isSingle := b.isSingle || column = next
            text := b.text ++ [c]
            wasBlank := true }
        else
          let text := '\t' :: b.text.drop 1
          { b with column := column, text := kept text }.writing all true '\t'

end PendingBlanks

/-- A line with tabs for blanks. -/
def unexpandedLine (t : TabStops) (all : Bool) (s : List Char) : List Char :=
  let b := s.foldl (PendingBlanks.taking t all) ⟨0, [], false, true, true, []⟩
  b.output ++ b.flushed

/-- Puts tabs for blanks. -/
def unexpand : Tool := fun i =>
  match (Options.of "aF" "t" [("all", 'a'), ("first-only", 'F'), ("tabs", 't')]).parse false
      (withDashStops i.arguments) with
  | .error fault => .refused i 1 fault
  | .ok p =>
    match (p.value? 't').elim (.ok .usual) TabStops.ofText with
    | .error reason => .failing i 1 reason
    | .ok stops =>
      let all := (p.has 'a' || p.has 't') && !p.has 'F'
      (gatherOrInput i p.operands).completeFlow i 1 fun text =>
        rejoin ((linesOf text).map fun l => (unexpandedLine stops all l.1, l.2))

end ClrListing.Script
