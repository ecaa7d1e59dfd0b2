/-
A tool that changes characters one by one for others: two sets tell which.
-/
import ClrListing.Script.Pattern
import ClrListing.Script.Tool.Printing

namespace ClrListing.Script

open Text

-- =================================================================== sets

/-- A character of a set as it is written, and whether it is an escape. -/
structure SetChar where
  char : Char
  isEscaped : Bool
  deriving DecidableEq, Repr, Inhabited

/-- A part of a set of characters. -/
inductive SetItem where
  | chars (cs : List Char)
  | ofClass (name : String) (cs : List Char)
  | alike (c : Char)
  /-- One character over and over, so often or to the end. -/
  | fill (c : Char) (count : Option Nat)
  deriving DecidableEq, Repr, Inhabited

/-- Why sets are not understood. -/
inductive SetFault where
  | unknownClass (name : List Char)
  | emptyClass (sign : Char)
  | unlike (text : List Char)
  | backwards (low high : Char)
  | badCount (text : List Char)
  | fillInFirst
  | twoFills
  | alikeInSecond
  | classInSecond
  | misaligned
  | emptySecond
  | classAtEnd
  | notOne
  | idleFill
  deriving DecidableEq, Repr, Inhabited

/-- A character as complaints show it. -/
def shownSetChar (c : Char) : List Char :=
  if c.toNat < 32 || c.toNat ≥ 127 then
    match c with
    | '\n' => ['\\', 'n']
    | '\t' => ['\\', 't']
    | '\r' => ['\\', 'r']
    | '\x07' => ['\\', 'a']
    | '\x08' => ['\\', 'b']
    | '\x0b' => ['\\', 'v']
    | '\x0c' => ['\\', 'f']
    | c =>
      let digits := Nat.toDigits 8 c.toNat
      '\\' :: List.replicate (3 - digits.length) '0' ++ digits
  else [c]

/-- How a fault is told. -/
def SetFault.message : SetFault → List Char
  | unknownClass name => "invalid character class ".toList ++ ticked name
  | emptyClass sign =>
    (if sign = ':' then "missing character class name \x27[::]\x27"
      else "missing equivalence class character \x27[==]\x27").toList
  | unlike text =>
    text ++ ": equivalence class operand must be a single character".toList
  | backwards low high =>
    "range-endpoints of ".toList ++ ticked (shownSetChar low ++ '-' :: shownSetChar high)
      ++ " are in reverse collating sequence order".toList
  | badCount text =>
    "invalid repeat count ".toList ++ ticked text ++ " in [c*n] construct".toList
  | fillInFirst => "the [c*] repeat construct may not appear in string1".toList
  | twoFills => "only one [c*] repeat construct may appear in string2".toList
  | alikeInSecond => "[=c=] expressions may not appear in string2 when translating".toList
  | classInSecond =>
    ("when translating, the only character classes that may appear in\n" ++
      "string2 are \x27upper\x27 and \x27lower\x27").toList
  | misaligned => "misaligned [:upper:] and/or [:lower:] construct".toList
  | emptySecond => "when not truncating set1, string2 must be non-empty".toList
  | classAtEnd =>
    ("when translating with string1 longer than string2,\n" ++
      "the latter string must not end with a character class").toList
  | notOne =>
    ("when translating with complemented character classes,\n" ++
      "string2 must map all characters in the domain to one").toList
  | idleFill => "the [c*] construct may appear in string2 only when translating".toList

/-- The characters from one to another. -/
def charRange (low high : Char) : List Char :=
  (List.range (high.toNat + 1 - low.toNat)).map fun n => Char.ofNat (low.toNat + n)

/-- The characters of a set as they are written, and the warnings about
them. -/
def setChars : (bound : Nat) → List Char → List SetChar × List (List Char)
  | 0, _ | _, [] => ([], [])
  | bound + 1, '\\' :: rest =>
    match rest with
    | [] =>
      ([⟨'\\', false⟩],
        ["warning: an unescaped backslash at end of string is not portable".toList])
    | c :: after =>
      let named := if c = 'e' then none else control? c
      match named with
      | some d =>
        let (cs, warnings) := setChars bound after
        (⟨d, true⟩ :: cs, warnings)
      | none =>
        let (size, value) := octalRun 3 rest
        if size = 0 then
          let (cs, warnings) := setChars bound after
          (⟨c, true⟩ :: cs, warnings)
        else if value > 255 then
          let (cs, warnings) := setChars bound (rest.drop 2)
          let digits := rest.take 3
          let warning := "warning: the ambiguous octal escape \\".toList ++ digits
            ++ " is being\n\tinterpreted as the 2-byte sequence \\0".toList ++ digits.take 2
            ++ ", ".toList ++ digits.drop 2
          (⟨Char.ofNat (value / 8), true⟩ :: cs, warning :: warnings)
        else
          let (cs, warnings) := setChars bound (rest.drop size)
          (⟨Char.ofNat value, true⟩ :: cs, warnings)
  | bound + 1, c :: rest =>
    let (cs, warnings) := setChars bound rest
    (⟨c, false⟩ :: cs, warnings)

/-- Whether a character stands for itself as a sign. -/
def SetChar.isSign (c : SetChar) (sign : Char) : Bool := c.char = sign && !c.isEscaped

/-- The text up to a sign with a closing bracket after it, and what comes
after that. -/
def upToClosing? (sign : Char) : List SetChar → Option (List SetChar × List SetChar)
  | c :: d :: rest =>
    if c.isSign sign && d.isSign ']' then some ([], rest)
    else (upToClosing? sign (d :: rest)).map fun r => (c :: r.1, r.2)
  | _ => none

/-- A character that is repeated, where a set opens with one after its
bracket. -/
def repeated? (s : List SetChar) : Except SetFault (Option (SetItem × List SetChar)) :=
  match s with
  | c :: star :: rest =>
    if !star.isSign '*' then .ok none
    else
      let digits := rest.takeWhile fun d => !d.isEscaped && d.char ≠ ']'
      if !(rest.drop digits.length).head?.any fun d => d.isSign ']' then .ok none
      else
        let text := digits.map SetChar.char
        let after := rest.drop (digits.length + 1)
        if text.isEmpty then .ok (some (.fill c.char none, after))
        else match readDigits? (if text.head? = some '0' then 8 else 10) text with
          | some (n, []) => .ok (some (.fill c.char (if n = 0 then none else some n), after))
          | _ => .error (.badCount text)
  | _ => .ok none

/-- What a set opens with after a bracket, if that is more than the
bracket. -/
def bracketed? (s : List SetChar) : Except SetFault (Option (SetItem × List SetChar)) :=
  match s with
  | sign :: rest =>
    if sign.isSign ':' || sign.isSign '=' then
      match upToClosing? sign.char rest with
      | none => repeated? s
      | some (inside, after) =>
        let text := inside.map SetChar.char
        let isRepeat := match repeated? s with
          | .ok (some _) => true
          | _ => false
        if text.isEmpty then .error (.emptyClass sign.char)
        else if sign.char = ':' then
          match classRanges? (String.ofList text) with
          | some ranges => .ok (some (.ofClass (String.ofList text)
              (ranges.flatMap fun r => charRange r.1 r.2), after))
          | none => if isRepeat then repeated? s else .error (.unknownClass text)
        else match text with
          | [c] => .ok (some (.alike c, after))
          | _ => if isRepeat then repeated? s else .error (.unlike text)
    else repeated? s
  | [] => .ok none

/-- The parts of a set of at most so many characters. -/
def setItems : (bound : Nat) → List SetChar → Except SetFault (List SetItem)
  | 0, _ | _, [] => .ok []
  | bound + 1, c :: rest => do
    let special ← if c.isSign '[' && rest.length > 1 then bracketed? rest else .ok none
    match special with
    | some (item, after) => return item :: (← setItems bound after)
    | none =>
      match rest with
      | dash :: high :: after =>
        if dash.isSign '-' then
          if high.char < c.char then throw (.backwards c.char high.char)
          else return .chars (charRange c.char high.char) :: (← setItems bound after)
        else return .chars [c.char] :: (← setItems bound rest)
      | _ => return .chars [c.char] :: (← setItems bound rest)

namespace SetItem

/-- How many characters a part is at least. -/
def size : SetItem → Nat
  | chars cs | ofClass _ cs => cs.length
  | alike _ => 1
  | fill _ count => count.getD 0

/-- The characters of a part, where so many are left to be filled. -/
def expanded (left : Nat) : SetItem → List Char
  | chars cs | ofClass _ cs => cs
  | alike c => [c]
  | fill c (some n) => List.replicate n c
  | fill c none => List.replicate left c

/-- Whether a part goes on as long as it is needed. -/
def isEndless : SetItem → Bool
  | fill _ none => true
  | _ => false

/-- Whether a part is a class of letters of one case. -/
def isCase : SetItem → Bool
  | ofClass name _ => name = "upper" || name = "lower"
  | _ => false

end SetItem

/-- How many characters parts are at least. -/
def setSize (items : List SetItem) : Nat := (items.map SetItem.size).foldl (· + ·) 0

/-- The characters of a set; what is filled to the end makes it as long as
another. -/
def setText (length : Nat) (items : List SetItem) : List Char :=
  items.flatMap (SetItem.expanded (length - setSize items))

/-- Where the classes of letters of one case start. -/
def casePlaces (length : Nat) (items : List SetItem) : List Nat :=
  (items.foldl (fun (place, found) item =>
    (place + (item.expanded (length - setSize items)).length,
      if item.isCase then found ++ [place] else found)) (0, ([] : List Nat))).2

-- ============================================================ translation

/-- Every character. -/
def allChars : List Char := (List.range 256).map Char.ofNat

/-- A text with runs of one of some characters cut to one. -/
def squeezed (set : List Char) : List Char → List Char
  | a :: b :: rest =>
    if a = b && set.contains a then squeezed set (b :: rest) else a :: squeezed set (b :: rest)
  | s => s

/-- What is wrong with two sets that characters are changed by, if anything
is; `old` is the first of them in full. -/
def translationFault? (p : Parsed) (isNegated : Bool) (first second : List SetItem)
    (old : List Char) : Option SetFault :=
  let new := setText old.length second
  let places := casePlaces 0 first
  let isAlike (item : SetItem) : Bool := match item with
    | .alike _ => true
    | _ => false
  let isClass (item : SetItem) : Bool := match item with
    | .ofClass _ _ => true
    | _ => false
  let isShort := new.length < old.length && !p.has 't'
  if (second.filter SetItem.isEndless).length > 1 then some .twoFills
  else if second.any isAlike then some .alikeInSecond
  else if second.any fun item => isClass item && !item.isCase then some .classInSecond
  else if !isNegated && (casePlaces old.length second).any fun n => !places.contains n then
    some .misaligned
  else if isShort && new.isEmpty then some .emptySecond
  else if isShort && second.getLast?.any isClass then some .classAtEnd
  else if isNegated && first.any isClass
      && !(new.all (· = new.headD ' ') || second.any SetItem.isEndless && second.length = 1) then
    some .notOne
  else none

/-- How `tr` is used wrongly by the number of its sets, if it is. -/
def countFault? (i : Invocation) (p : Parsed) : Option Completion :=
  let deletes := p.has 'd'
  let squeezes := p.has 's'
  let least := if deletes = squeezes then 2 else 1
  let most := if deletes && !squeezes then 1 else 2
  let count := p.operands.length
  if count = 0 then some (.lacking i 1 "operand" [])
  else if count < least then
    let reason := if squeezes then
        "Two strings must be given when both deleting and squeezing repeats."
      else "Two strings must be given when translating."
    some (.misusedFor i 1 ("missing operand after ".toList ++ ticked (p.operands.headD [])
      ++ '\n' :: reason.toList))
  else if count > most then
    let extra := "extra operand ".toList ++ ticked ((p.operands[most]?).getD [])
    let reason := if count = 2 then
        "\nOnly one string may be given when deleting without squeezing repeats."
      else ""
    some (.misusedFor i 1 (extra ++ reason.toList))
  else none

/-- Changes characters of its input for others, or leaves them out. -/
def tr : Tool := fun i =>
  match (Options.of "cCdst" "" [("complement", 'c'), ("delete", 'd'),
      ("squeeze-repeats", 's'), ("truncate-set1", 't')]).parse true i.arguments with
  | .error fault => .refused i 1 fault
  | .ok p =>
    match countFault? i p with
    | some complaint => complaint
    | none =>
      let isNegated := p.has 'c' || p.has 'C'
      let written := p.operands.map fun s => setChars (s.length + 1) s
      let warnings := unlines ((written.flatMap Prod.snd).map fun w => i.name ++ [':', ' '] ++ w)
      let finish (output : List Char) : Completion :=
        { (Completion.printing i output).precededBy 2 warnings with left := [] }
      let failed (fault : SetFault) : Completion :=
        (Completion.failing i 1 fault.message).precededBy 2 warnings
      match written.mapM fun w => setItems (w.1.length + 1) w.1 with
      | .error fault => failed fault
      | .ok sets =>
        let first := sets.headD []
        let plain := setText 0 first
        let old := if isNegated then allChars.filter fun c => !plain.contains c else plain
        let second := sets[1]?
        let translates := second.isSome && !p.has 'd'
        if first.any SetItem.isEndless then failed .fillInFirst
        else match second, translates with
          | none, _ =>
            if p.has 'd' then finish (i.input.filter fun c => !old.contains c)
            else finish (squeezed old i.input)
          | some second, false =>
            if second.any SetItem.isEndless then failed .idleFill
            else finish (squeezed (setText 0 second) (i.input.filter fun c => !old.contains c))
          | some second, true =>
            match translationFault? p isNegated first second old with
            | some fault => failed fault
            | none =>
              let new := setText old.length second
              let old := if p.has 't' then old.take new.length else old
              let pairs := (old.mapIdx fun n c =>
                (c, (new[n]?).getD ((new.getLast?).getD c))).reverse
              let changed := i.input.map fun c => (pairs.lookup c).getD c
              finish (if p.has 's' then squeezed new changed else changed)

end ClrListing.Script
