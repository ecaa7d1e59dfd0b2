/-
Tools that work something out from their arguments, word by word: the
value of an expression, `expr`, and whether something holds of texts,
numbers or files, `test`.

A word of a test that could be an operator is one unless what follows it
shows that it is an operand.
-/
import ClrListing.Script.Tool.Search

namespace ClrListing.Script

open Text

-- ================================================================= values

/-- What is left of an expression, and the word before it. -/
structure ExprState where
  before : List Char
  rest : List (List Char)
  deriving DecidableEq, Repr, Inhabited

/-- A reader of expressions. -/
abbrev ExprReader := StateT ExprState (Except (List Char))

/-- Whether a value of `expr` counts as none. -/
def isNull (s : List Char) : Bool := s.isEmpty || decimal? s = some 0

/-- A comparison by its sign. -/
def compared (sign : List Char) (order : Ordering) : Option Bool :=
  match String.ofList sign with
  | "=" | "==" => some (order = .eq)
  | "!=" => some (order ≠ .eq)
  | "<" => some (order = .lt)
  | "<=" => some (order ≠ .gt)
  | ">" => some (order = .gt)
  | ">=" => some (order ≠ .lt)
  | _ => none

/-- The order of two values: as numbers if both are. -/
def valueOrder (s t : List Char) : Ordering :=
  match decimal? s, decimal? t with
  | some a, some b => compare a b
  | _, _ => textOrder s t

/-- The text of a truth. -/
def truthText (b : Bool) : List Char := if b then ['1'] else ['0']

/-- What an expression finds at the start of a text: the text of its
group, or how much it takes. -/
def startMatch (s pattern : List Char) : Except (List Char) (List Char) :=
  match Regex.ofText ⟨false, false, false, false⟩ pattern with
  | .error fault => .error fault.message.toList
  | .ok r =>
    let hasGroup := (splitOnce ['\\', '('] pattern).isSome
    match r.matchAt false none s with
    | none => .ok (if hasGroup then [] else ['0'])
    | some spot =>
      .ok (if hasGroup then (spot.groups.lookup 1).getD [] else spot.taken.repr.toList)

/-- The place of the first character of a text that is one of some. -/
def firstPlace (s set : List Char) : Nat :=
  match s.findIdx? fun c => set.contains c with
  | some n => n + 1
  | none => 0

namespace ExprReader

/-- Complains of an expression that is not well formed. -/
def fail (reason : List Char) : ExprReader α := throw ("syntax error: ".toList ++ reason)

/-- A whole number. -/
def number (s : List Char) : ExprReader Int :=
  match decimal? s with
  | some n => return n
  | none => throw "non-integer argument".toList

/-- The word that comes next, which is left. -/
def peek? : ExprReader (Option (List Char)) := do return (← get).rest.head?

/-- Takes a word off. -/
def next : ExprReader (List Char) := do
  let s ← get
  match s.rest with
  | w :: rest =>
    set (ExprState.mk w rest)
    return w
  | [] => fail ("missing argument after ".toList ++ ticked s.before)

/-- The result of an operation on two values, if there is one of that
sign. -/
def operate? (sign a b : List Char) : ExprReader (Option (List Char)) := do
  match String.ofList sign with
  | "+" => return some (digitsOf ((← number a) + (← number b)))
  | "-" => return some (digitsOf ((← number a) - (← number b)))
  | "*" => return some (digitsOf ((← number a) * (← number b)))
  | "/" =>
    let d ← number b
    if d = 0 then throw "division by zero".toList
    return some (digitsOf ((← number a).tdiv d))
  | "%" =>
    let d ← number b
    if d = 0 then throw "division by zero".toList
    return some (digitsOf ((← number a).tmod d))
  | ":" =>
    match startMatch a b with
    | .ok s => return some s
    | .error reason => throw reason
  | "|" => return some (if isNull a then (if isNull b then ['0'] else b) else a)
  | "&" => return some (if isNull a || isNull b then ['0'] else a)
  | _ => return (compared sign (valueOrder a b)).map truthText

/-- The signs by how much they bind, those that bind least first. -/
def levels : List (List String) :=
  [["|"], ["&"], ["<", "<=", "=", "==", "!=", ">=", ">"], ["+", "-"], ["*", "/", "%"], [":"]]

mutual

/-- Reads a value with operations that bind at least as much as those
given. -/
def readValue : (fuel : Nat) → List (List String) → ExprReader (List Char)
  | 0, _ => fail []
  | fuel + 1, [] => readSimple fuel
  | fuel + 1, level :: rest => do
    let a ← readValue fuel rest
    readOperations fuel level rest a

/-- Reads further operations of a level. -/
def readOperations : (fuel : Nat) → List String → List (List String) → List Char →
    ExprReader (List Char)
  | 0, _, _, _ => fail []
  | fuel + 1, level, rest, a => do
    match ← peek? with
    | some sign =>
      if level.contains (String.ofList sign) then
        let _ ← next
        let b ← readValue fuel rest
        match ← operate? sign a b with
        | some c => readOperations fuel level rest c
        | none => fail []
      else return a
    | none => return a

/-- Reads a value without operations. -/
def readSimple : (fuel : Nat) → ExprReader (List Char)
  | 0 => fail []
  | fuel + 1 => do
    let w ← next
    match String.ofList w with
    | "(" =>
      let inner ← readValue fuel levels
      let before := (← get).before
      match ← peek? with
      | some [')'] =>
        let _ ← next
        return inner
      | some w => fail ("expecting \x27)\x27 instead of ".toList ++ ticked w)
      | none => fail ("expecting \x27)\x27 after ".toList ++ ticked before)
    | ")" => fail "unexpected \x27)\x27".toList
    | "+" => next
    | "length" => return (← readSimple fuel).length.repr.toList
    | "substr" =>
      let s ← readSimple fuel
      let start ← number (← readSimple fuel)
      let count ← number (← readSimple fuel)
      return if start ≤ 0 || count ≤ 0 then [] else (s.drop (start.toNat - 1)).take count.toNat
    | "index" =>
      let s ← readSimple fuel
      return (firstPlace s (← readSimple fuel)).repr.toList
    | "match" =>
      let s ← readSimple fuel
      match startMatch s (← readSimple fuel) with
      | .ok t => return t
      | .error reason => throw reason
    | _ => return w

end

end ExprReader

/-- Prints the value of its arguments. -/
def expr : Tool := fun i =>
  let arguments := match i.arguments with
    | ['-', '-'] :: rest => rest
    | arguments => arguments
  if arguments.isEmpty then .lacking i 2 "operand" []
  else
    let reading := ExprReader.readValue (16 * arguments.length + 16) ExprReader.levels
    match reading.run ⟨[], arguments⟩ with
    | .ok (value, ⟨_, []⟩) =>
      (Completion.printing i (value ++ ['\n'])).withStatus (if isNull value then 1 else 0)
    | .ok (_, ⟨_, w :: _⟩) =>
      .failing i 2 ("syntax error: unexpected argument ".toList ++ ticked w)
    | .error reason => .failing i 2 reason

-- ============================================================== operators

/-- An operator of a test. -/
inductive TestOperator where
  /-- Asks about one operand. -/
  | about (letter : Char)
  /-- Compares two operands. -/
  | between (sign : String)
  | not
  | and
  | or
  | openGroup
  | closeGroup
  deriving DecidableEq, Repr, Inhabited

/-- The letters that ask about one operand. -/
def testLetters : List Char := "bcdefgGhkLnOprsStuwxz".toList

/-- The signs that compare two operands. -/
def testSigns : List String :=
  ["=", "!=", "<", ">", "-eq", "-ne", "-gt", "-ge", "-lt", "-le", "-nt", "-ot", "-ef"]

/-- The operator that a word may be. Two equals signs are one only where a
shell does not do the test itself. -/
def testOperator? (isOwn : Bool) (word : List Char) : Option TestOperator :=
  match word with
  | ['!'] => some .not
  | ['('] => some .openGroup
  | [')'] => some .closeGroup
  | ['-', 'a'] => some .and
  | ['-', 'o'] => some .or
  | _ =>
    let text := String.ofList word
    if testSigns.contains text then some (.between text)
    else if text = "==" && !isOwn then some (.between "=")
    else match word with
      | ['-', c] => if testLetters.contains c then some (.about c) else none
      | _ => none

/-- Whether an operator compares two operands; the signs that join tests
count too. -/
def TestOperator.joins : TestOperator → Bool
  | .between _ | .and | .or => true
  | _ => false

-- ============================================================= conditions

/-- What is wrong with a test. -/
abbrev TestFault := List Char

/-- What tests are made on. -/
structure TestGround where
  disk : Disk
  here : Trail
  /-- A shell does the test itself. -/
  isOwn : Bool
  deriving Inhabited

/-- The number of an operand. -/
def testNumber (s : List Char) : Except TestFault Int :=
  match decimal? s with
  | some n => .ok n
  | none => .error ("Illegal number: ".toList ++ s)

/-- What a path leads to; the end of the path is followed unless a link is
asked for. -/
def testFound? (g : TestGround) (path : List Char) (follows : Bool) : Option Entry :=
  match g.disk.find g.here path follows with
  | .ok (_, e) => some e
  | .error _ => none

/-- Whether something holds of an operand. -/
def testAbout (g : TestGround) (letter : Char) (s : List Char) : Except TestFault Bool :=
  let entry := testFound? g s true
  match letter with
  | 'n' => .ok !s.isEmpty
  | 'z' => .ok s.isEmpty
  | 't' => do
    let _ ← testNumber s
    return false
  | 'd' => .ok (entry.any Entry.isDirectory)
  | 'f' => .ok (entry.any Entry.isFile)
  | 'h' | 'L' => .ok ((testFound? g s false).any Entry.isLink)
  | 's' => .ok (entry.any fun e => match e with
    | .file content _ => !content.isEmpty
    | .directory _ => true
    | _ => false)
  | 'x' => .ok (entry.any fun e => e.isProgram || e.isDirectory)
  | 'c' => .ok (entry = some .void)
  | 'b' | 'p' | 'S' | 'u' | 'g' | 'k' => .ok false
  | _ => .ok entry.isSome

/-- Whether two operands compare as a sign asks. -/
def testBetween (g : TestGround) (sign : String) (a b : List Char) : Except TestFault Bool := do
  let numbers (f : Int → Int → Bool) : Except TestFault Bool := do
    let x ← testNumber a
    let y ← testNumber b
    return f x y
  match sign with
  | "=" => return a = b
  | "!=" => return a ≠ b
  | "<" => return textOrder a b = .lt
  | ">" => return textOrder a b = .gt
  | "-eq" => numbers fun x y => x = y
  | "-ne" => numbers fun x y => x ≠ y
  | "-gt" => numbers fun x y => x > y
  | "-ge" => numbers fun x y => x ≥ y
  | "-lt" => numbers fun x y => x < y
  | "-le" => numbers fun x y => x ≤ y
  | "-nt" => return !g.isOwn && (testFound? g a true).isSome && (testFound? g b true).isNone
  | "-ot" => return !g.isOwn && (testFound? g a true).isNone && (testFound? g b true).isSome
  | _ =>
    match g.disk.find g.here a true, g.disk.find g.here b true with
    | .ok (p, _), .ok (q, _) => return p = q
    | _, _ => return false

-- ================================================================ reading

/-- A step that reads a test off words. -/
abbrev TestReader := StateT (List (List Char)) (Except TestFault)

/-- The operator that the first of some words is, if it is one. -/
def operatorAt? (isOwn : Bool) (words : List (List Char)) : Option TestOperator :=
  match words with
  | [] => none
  | word :: rest =>
    match testOperator? isOwn word with
    | none => none
    | some op =>
      let isOperand := match op, rest with
        | .about _, [] => true
        | .about _, [_] => false
        | .about _, next :: _ => (testOperator? isOwn next).any TestOperator.joins
        | .openGroup, [] => true
        | _, _ => false
      if isOperand then none else some op

namespace TestReader

/-- Reads what an operand is asked, or an operand alone. -/
def readOperand (g : TestGround) : TestReader Bool := do
  match ← get with
  | [] => return false
  | word :: rest =>
    match operatorAt? g.isOwn (word :: rest) with
    | some (.about letter) =>
      match rest with
      | [] => throw (word ++ ": argument expected".toList)
      | operand :: rest =>
        set rest
        testAbout g letter operand
    | _ =>
      match rest with
      | sign :: more =>
        match operatorAt? g.isOwn rest with
        | some (.between text) =>
          match more with
          | [] => throw (sign ++ ": argument expected".toList)
          | operand :: rest =>
            set rest
            testBetween g text word operand
        | _ =>
          set rest
          return !word.isEmpty
      | [] =>
        set rest
        return !word.isEmpty

mutual

/-- Reads tests of which one has to hold. -/
def readOr (g : TestGround) : (fuel : Nat) → TestReader Bool
  | 0 => return false
  | fuel + 1 => do
    let first ← readAnd g fuel
    if operatorAt? g.isOwn (← get) = some .or then
      modify List.tail
      let second ← readOr g fuel
      return first || second
    else return first

/-- Reads tests that all have to hold. -/
def readAnd (g : TestGround) : (fuel : Nat) → TestReader Bool
  | 0 => return false
  | fuel + 1 => do
    let first ← readNot g fuel
    if operatorAt? g.isOwn (← get) = some .and then
      modify List.tail
      let second ← readAnd g fuel
      return first && second
    else return first

/-- Reads a test that may be negated. -/
def readNot (g : TestGround) : (fuel : Nat) → TestReader Bool
  | 0 => return false
  | fuel + 1 => do
    match operatorAt? g.isOwn (← get) with
    | some .not =>
      match ← get with
      | [_] =>
        set ([] : List (List Char))
        return true
      | _ =>
        modify List.tail
        return !(← readNot g fuel)
    | some .openGroup =>
      modify List.tail
      if (← get).head? = some [')'] then
        modify List.tail
        return false
      let inner ← readOr g fuel
      if (← get).head? = some [')'] then
        modify List.tail
        return inner
      else throw "closing paren expected".toList
    | _ => readOperand g

end

end TestReader

/-- Whether a test holds. Of three words a comparison in the middle counts
before all else. -/
def holds (g : TestGround) : (bound : Nat) → List (List Char) → Except TestFault Bool
  | 0, _ => .ok false
  | _, [] => .ok false
  | bound + 1, words =>
    let asIs : Except TestFault Bool := do
      match ← (TestReader.readOr g (4 * words.length + 8)).run words with
      | (b, []) => return b
      | (_, rest) =>
        let word := (words[words.length - rest.length - 1]?).getD []
        throw (word ++ ": unexpected operator".toList)
    let special : Option (Except TestFault Bool) :=
      if words.length = 3 || words.length = 4 then
        match words.head?, words.getLast? with
        | some ['('], some [')'] => some (holds g bound (words.tail.dropLast))
        | some ['!'], _ => some ((holds g bound words.tail).map fun b => !b)
        | _, _ => none
      else none
    match words with
    | [a, sign, b] =>
      match testOperator? g.isOwn sign with
      | some (.between text) => testBetween g text a b
      | some .and => .ok (!a.isEmpty && !b.isEmpty)
      | some .or => .ok (!a.isEmpty || !b.isEmpty)
      | _ => special.getD asIs
    | [a] => .ok !a.isEmpty
    | _ => special.getD asIs

/-- Tells by its status whether a test holds. -/
def test (isOwn : Bool) : Tool := fun i =>
  match holds ⟨i.disk, i.here, isOwn⟩ (i.arguments.length + 1) i.arguments with
  | .ok b => .ofStatus i (if b then 0 else 1)
  | .error reason => .failing i 2 reason

/-- The same, with a bracket after the test. -/
def bracketTest (isOwn : Bool) : Tool := fun i =>
  if i.arguments.getLast? = some [']'] then
    test isOwn { i with arguments := i.arguments.dropLast }
  else .failing i 2 "missing ]".toList

end ClrListing.Script
