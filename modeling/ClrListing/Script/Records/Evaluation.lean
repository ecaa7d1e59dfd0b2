/-
What expressions of programs for records are worth, and what statements
do.
-/
import ClrListing.Script.Records.Machine

namespace ClrListing.Script.Records

open Text

-- ============================================================ operations

/-- The result of an operation. -/
def Operation.apply (o : Operation) (x y : Float) : Float :=
  match o with
  | add => x + y
  | subtract => x - y
  | multiply => x * y
  | divide => x / y
  | remainder => Records.remainder x y
  | power => Records.power x y

/-- Whether numbers compare so. -/
def Relation.ofNumbers (r : Relation) (x y : Float) : Bool :=
  match r with
  | less => x < y
  | lessOrEqual => x ≤ y
  | equal => x == y
  | unequal => x != y
  | greater => x > y
  | greaterOrEqual => x ≥ y

/-- Whether texts compare so. -/
def Relation.ofTexts (r : Relation) (s t : List Char) : Bool :=
  match r with
  | less => textOrder s t = .lt
  | lessOrEqual => textOrder s t ≠ .gt
  | equal => s = t
  | unequal => s ≠ t
  | greater => textOrder s t = .gt
  | greaterOrEqual => textOrder s t ≠ .lt

/-- Whether values compare so: as numbers if both are, and as texts
otherwise. -/
def compareValues (r : Relation) (a b : Value) : Step Bool := do
  match a.compared?, b.compared? with
  | some x, some y => return r.ofNumbers x y
  | _, _ =>
    let m ← get
    return r.ofTexts (m.textOf a) (m.textOf b)

-- =========================================================== replacement

/-- The parts of a replacement: a character, or the text that is
replaced. -/
def replacementOf : List Char → List (Option Char)
  | '\\' :: '\\' :: '&' :: rest => some '\\' :: none :: replacementOf rest
  | '\\' :: '&' :: rest => some '&' :: replacementOf rest
  | '&' :: rest => none :: replacementOf rest
  | c :: rest => some c :: replacementOf rest
  | [] => []

/-- A text with what an expression finds replaced, once or everywhere, and
how often that was; `isAfter` tells that something was found that ends
here. -/
def replaced (r : Regex) (parts : List (Option Char)) (isGlobal : Bool) :
    (bound : Nat) → (isAfter : Bool) → (before : Option Char) → List Char → Nat × List Char
  | 0, _, _, s => (0, s)
  | bound + 1, isAfter, before, s =>
    let leave (_ : Unit) : Nat × List Char :=
      match s with
      | [] => (0, [])
      | c :: rest =>
        let (count, later) := replaced r parts isGlobal bound false (some c) rest
        (count, c :: later)
    match r.matchAt false before s with
    | none => leave ()
    | some spot =>
      if spot.taken = 0 && isAfter then leave ()
      else
        let found := s.take spot.taken
        let put := parts.flatMap fun part => match part with
          | some c => [c]
          | none => found
        if !isGlobal then (1, put ++ spot.rest)
        else if spot.taken = 0 then
          match s with
          | [] => (1, put)
          | c :: rest =>
            let (count, later) := replaced r parts isGlobal bound false (some c) rest
            (count + 1, put ++ c :: later)
        else
          let (count, later) := replaced r parts isGlobal bound true spot.before spot.rest
          (count + 1, put ++ later)

-- ================================================================ targets

/-- What can be given a value. -/
inductive Cell where
  | variable (name : String)
  | element (table : Nat) (key : Key)
  | field (number : Int)
  deriving Repr, Inhabited

/-- The value of a cell. -/
def Cell.read : Cell → Step Value
  | .variable name => valueOf name
  | .element n key => do
    changeTable n fun t => t.touch key
    return (← table n).value key
  | .field n => Records.field n

/-- Gives a cell a value. -/
def Cell.write (v : Value) : Cell → Step Unit
  | .variable name => setVariable name v
  | .element n key => changeTable n fun t => (t.touch key).set key v
  | .field n => setField n v

/-- How a statement ended. -/
inductive Flow where
  /-- The next statement follows. -/
  | onward
  /-- The loop ends. -/
  | breaks
  /-- The next turn of the loop follows. -/
  | continues
  /-- The function ends with a value. -/
  | returns (v : Value)
  deriving Repr, Inhabited

/-- How deep functions may call each other. -/
def callLimit : Nat := 1000

/-- The functions of one number, by their names. -/
def numberFunction? (name : String) : Option (Float → Float) :=
  match name with
  | "sin" => some Float.sin
  | "cos" => some Float.cos
  | "exp" => some Float.exp
  | "log" => some Float.log
  | "sqrt" => some Float.sqrt
  | "int" => some fun x => if x < 0 then x.ceil else x.floor
  | _ => none

/-- The part of a text from a place on, of so many characters. -/
def partOf (s : List Char) (start : Int) (count : Option Int) : List Char :=
  let count := count.map fun n => if start < 1 then n - start else n
  let after := s.drop (start - 1).toNat
  match count with
  | some n => after.take n.toNat
  | none => after

/-- The place of a text in another, counted from one. -/
def placeOfText (part s : List Char) : Nat :=
  match splitOnce part s with
  | some (before, _) => before.length + 1
  | none => if part.isEmpty then 1 else 0

/-- The next of the numbers that seem to come by chance. -/
def nextRandom (n : Nat) : Nat := (n * 1103515245 + 12345) % 0x80000000

/-- Ends the run since there are too few values for a format. -/
def failToFormat (name : String) (format : List Char) : Step α :=
  fail ("not enough arguments passed to ".toList ++ name.toList ++ "(\x22".toList ++ format ++
    "\x22)".toList)

mutual

/-- The value of an expression. -/
def evaluate : (fuel : Nat) → Expr → Step Value
  | 0, _ => fail "program limit exceeded".toList
  | fuel + 1, e => do
    match e with
    | .number x => return .number x
    | .text s => return .text s
    | .pattern _ r => return .ofBool (r.isIn false ((← get).textOf (← record)))
    | .variable name => valueOf name
    | .element _ _ | .field _ => (← cellOf fuel e).read
    | .grouped inner => evaluate fuel inner
    | .assign target operation value =>
      let cell ← cellOf fuel target
      let v ← evaluate fuel value
      let v ← match operation with
        | some o => do pure (Value.number (o.apply (← cell.read).toNumber v.toNumber))
        | none => pure v
      cell.write v
      return v
    | .choose test yes no =>
      if (← evaluate fuel test).holds then evaluate fuel yes else evaluate fuel no
    | .both a b =>
      if (← evaluate fuel a).holds then return .ofBool (← evaluate fuel b).holds
      else return .ofBool false
    | .either a b =>
      if (← evaluate fuel a).holds then return .ofBool true
      else return .ofBool (← evaluate fuel b).holds
    | .operate o a b =>
      let x ← evaluate fuel a
      let y ← evaluate fuel b
      return .number (o.apply x.toNumber y.toNumber)
    | .compare r a b =>
      let x ← evaluate fuel a
      let y ← evaluate fuel b
      return .ofBool (← compareValues r x y)
    | .join a b =>
      let x ← evaluate fuel a
      let y ← evaluate fuel b
      let m ← get
      return .text (m.textOf x ++ m.textOf y)
    | .search isNegated subject pattern =>
      let s ← evaluate fuel subject
      let r ← patternOf fuel pattern
      return .ofBool (r.isIn false ((← get).textOf s) != isNegated)
    | .negate a => return .number (-(← evaluate fuel a).toNumber)
    | .plus a => return .number (← evaluate fuel a).toNumber
    | .not a => return .ofBool !(← evaluate fuel a).holds
    | .isIn key name =>
      let key ← keyOf (← evaluateAll fuel key)
      let n ← tableNumber name
      let (isThere, t) := (← table n).has key
      changeTable n fun _ => t
      return .ofBool isThere
    | .step isFirst isUp target =>
      let cell ← cellOf fuel target
      let before := (← cell.read).toNumber
      let after := if isUp then before + 1 else before - 1
      cell.write (.number after)
      return .number (if isFirst then after else before)
    | .call name arguments => call fuel name arguments
    | .builtin name arguments => callBuiltin fuel name arguments
    | .readLine source target => readLine fuel source target

/-- The values of expressions. -/
def evaluateAll : (fuel : Nat) → List Expr → Step (List Value)
  | 0, _ => fail "program limit exceeded".toList
  | fuel + 1, es => es.mapM (evaluate fuel)

/-- The text of an expression. -/
def evaluateText : (fuel : Nat) → Expr → Step (List Char)
  | 0, _ => fail "program limit exceeded".toList
  | fuel + 1, e => do
    let v ← evaluate fuel e
    return (← get).textOf v

/-- The regular expression that an expression stands for. -/
def patternOf : (fuel : Nat) → Expr → Step Regex
  | 0, _ => fail "program limit exceeded".toList
  | fuel + 1, e => do
    match e with
    | .pattern _ r => return r
    | e => compiled (← evaluateText fuel e)

/-- The cell that an expression stands for. -/
def cellOf : (fuel : Nat) → Expr → Step Cell
  | 0, _ => fail "program limit exceeded".toList
  | fuel + 1, e => do
    match e with
    | .variable name => return .variable name
    | .element name key =>
      let key ← keyOf (← evaluateAll fuel key)
      return .element (← tableNumber name) key
    | .field number => return .field (truncated (← evaluate fuel number).toNumber)
    | .grouped inner => cellOf fuel inner
    | _ => fail "assignment to a value".toList

/-- Calls a function of the program. -/
def call : (fuel : Nat) → (name : String) → List Expr → Step Value
  | 0, _, _ => fail "program limit exceeded".toList
  | fuel + 1, name, arguments => do
    let before ← get
    match before.functions.find? fun f => f.name = name with
    | none => fail ("function ".toList ++ name.toList ++ " never defined".toList)
    | some f =>
      if before.depth ≥ callLimit then fail "function call nesting too deep".toList
      let frame ← f.parameters.zipIdx.mapM fun p => do
        match p.1.2, arguments[p.2]? with
        | true, some (.variable table) => return (p.1.1, Local.table (← tableNumber table))
        | true, _ => return (p.1.1, Local.table (← newTable))
        | false, some e => return (p.1.1, Local.value (← evaluate fuel e))
        | false, none => return (p.1.1, Local.value .unset)
      modify fun m => { m with locals := frame, depth := m.depth + 1 }
      let ended ← run fuel f.body
      modify fun m => { m with locals := before.locals, depth := before.depth }
      match ended with
      | .returns v => return v
      | _ => return .unset

/-- Calls a function that is always there. -/
def callBuiltin : (fuel : Nat) → (name : String) → List Expr → Step Value
  | 0, _, _ => fail "program limit exceeded".toList
  | fuel + 1, name, arguments => do
    let ofInt (n : Int) : Value := .number (Float.ofInt n)
    match name, arguments with
    | "length", [] => return .number (Float.ofNat ((← get).textOf (← record)).length)
    | "length", [.variable s] =>
      let m ← get
      let number := match m.locals.lookup s with
        | some (.table n) => some n
        | some (.value _) => none
        | none => m.tableNumbers.lookup s
      match number with
      | some n => return .number (Float.ofNat (← table n).size)
      | none => return .number (Float.ofNat (← evaluateText fuel (.variable s)).length)
    | "length", e :: _ => return .number (Float.ofNat (← evaluateText fuel e).length)
    | "substr", e :: start :: rest =>
      let s ← evaluateText fuel e
      let start := truncated (← evaluate fuel start).toNumber
      let count ← rest.head?.mapM fun e => do return truncated (← evaluate fuel e).toNumber
      return .text (partOf s start count)
    | "index", [a, b] =>
      let s ← evaluateText fuel a
      let part ← evaluateText fuel b
      return .number (Float.ofNat (placeOfText part s))
    | "split", e :: .variable name :: rest =>
      let s ← evaluateText fuel e
      let separator ← match rest with
        | [] => separatorOf ((← get).globalText "FS") false
        | .pattern _ r :: _ => pure (Separator.pattern r)
        | e :: _ => separatorOf (← evaluateText fuel e) false
      let parts := separator.parts s
      let n ← tableNumber name
      changeTable n fun _ => .ofParts (parts.map Value.read)
      return .number (Float.ofNat parts.length)
    | "sub", pattern :: replacement :: rest =>
      substitute fuel false pattern replacement (rest.headD (.field (.number 0)))
    | "gsub", pattern :: replacement :: rest =>
      substitute fuel true pattern replacement (rest.headD (.field (.number 0)))
    | "match", [e, pattern] =>
      let s ← evaluateText fuel e
      let r ← patternOf fuel pattern
      let (start, length) : Int × Int := match r.search false none s with
        | some (skip, spot) => (skip + 1, spot.taken)
        | none => (0, -1)
      setVariable "RSTART" (ofInt start)
      setVariable "RLENGTH" (ofInt length)
      return ofInt start
    | "sprintf", arguments =>
      match ← evaluateFormat fuel arguments with
      | (_, .ok text) => return .text text
      | (format, .error _) => failToFormat name format
    | "atan2", [a, b] =>
      let y ← evaluate fuel a
      let x ← evaluate fuel b
      return .number (Float.atan2 y.toNumber x.toNumber)
    | "rand", _ =>
      let n := nextRandom (← get).random
      modify fun m => { m with random := n }
      return .number (Float.ofNat n / 2147483648)
    | "srand", arguments =>
      let seed ← match arguments with
        | e :: _ => evaluate fuel e
        | [] => pure (.number 0)
      let before := (← get).seed
      modify fun m => { m with
        seed := seed
        random := (truncated seed.toNumber).natAbs % 0x80000000 }
      return before
    | "tolower", [e] => return .text ((← evaluateText fuel e).map Char.toLower)
    | "toupper", [e] => return .text ((← evaluateText fuel e).map Char.toUpper)
    | "system", [e] =>
      let command ← evaluateText fuel e
      sendOutput
      return ofInt (← runCommand ⟨command, none, false⟩).status
    | "close", [e] => return ofInt (← close (← evaluateText fuel e))
    | "fflush", _ =>
      sendOutput
      return .number 0
    | name, [e] =>
      match numberFunction? name with
      | some f => return .number (f (← evaluate fuel e).toNumber)
      | none => return .unset
    | _, _ => return .unset

/-- Replaces what an expression finds in a cell, and gives how often. -/
def substitute : (fuel : Nat) → (isGlobal : Bool) → (pattern replacement target : Expr) →
    Step Value
  | 0, _, _, _, _ => fail "program limit exceeded".toList
  | fuel + 1, isGlobal, pattern, replacement, target => do
    let r ← patternOf fuel pattern
    let parts := replacementOf (← evaluateText fuel replacement)
    let cell ← cellOf fuel target
    let v ← cell.read
    let s := (← get).textOf v
    let (count, text) :=
      if isGlobal then replaced r parts true (2 * s.length + 2) false none s
      else match r.search false none s with
        | none => (0, s)
        | some (skip, spot) =>
          let found := (s.drop skip).take spot.taken
          (1, s.take skip ++ (parts.flatMap fun part => match part with
            | some c => [c]
            | none => found) ++ spot.rest)
    if count > 0 then cell.write (.text text)
    return .number (Float.ofNat count)

/-- A format, which comes first, and the values that follow written by it, or
what can be written before one lacks. -/
def evaluateFormat : (fuel : Nat) → List Expr → Step (List Char × Except (List Char) (List Char))
  | 0, _ => fail "program limit exceeded".toList
  | fuel + 1, arguments => do
    let values ← evaluateAll fuel arguments
    let m ← get
    let format := m.textOf (values.headD .unset)
    return (format, formatted m.conversion (format.length + 1) ⟨[], values.drop 1⟩ format)

/-- Reads a line, and gives one, or zero at the end, or minus one if it
cannot be read. -/
def readLine : (fuel : Nat) → Source → Option Expr → Step Value
  | 0, _, _ => fail "program limit exceeded".toList
  | fuel + 1, source, target => do
    let cell ← target.mapM (cellOf fuel)
    let give (s : List Char) : Step Unit := match cell with
      | some cell => cell.write (.read s)
      | none => setRecord (.read s)
    match source with
    | .input =>
      match ← takeRecord with
      | some s =>
        countUp "NR"
        countUp "FNR"
        give s
        return .number 1
      | none => return .number 0
    | .file name => ofSource (← sourceRecord false (← evaluateText fuel name)) give
    | .command text => ofSource (← sourceRecord true (← evaluateText fuel text)) give
where
  ofSource (found : Except FileFault (Option (List Char))) (give : List Char → Step Unit) :
      Step Value := do
    match found with
    | .ok (some s) =>
      give s
      return .number 1
    | .ok none => return .number 0
    | .error _ => return .number (-1)

/-- Writes a text where a sink tells. -/
def writeSink : (fuel : Nat) → Sink → List Char → Step Unit
  | 0, _, _ => fail "program limit exceeded".toList
  | fuel + 1, sink, text => do
    match sink with
    | .output => print text
    | .file name => writeTo .file (← evaluateText fuel name) false text
    | .append name => writeTo .file (← evaluateText fuel name) true text
    | .command name => writeTo .command (← evaluateText fuel name) false text

/-- Does what a statement tells. -/
def run : (fuel : Nat) → Statement → Step Flow
  | 0, _ => fail "program limit exceeded".toList
  | fuel + 1, s => do
    match s with
    | .evaluate e =>
      let _ ← evaluate fuel e
      return .onward
    | .print values sink =>
      let given ← if values.isEmpty then do pure [← record] else evaluateAll fuel values
      let m ← get
      let format := (m.global "OFMT").toText []
      let texts := given.map fun v => v.toText format
      let line := (m.globalText "OFS").intercalate texts ++ m.globalText "ORS"
      writeSink fuel sink line
      return .onward
    | .format values sink =>
      match ← evaluateFormat fuel values with
      | (_, .ok text) => writeSink fuel sink text
      | (format, .error text) =>
        writeSink fuel sink text
        failToFormat "printf" format
      return .onward
    | .conditional test yes no =>
      if (← evaluate fuel test).holds then run fuel yes else run fuel no
    | .whileDo test body => runLoop fuel (some test) (.block []) body
    | .doWhile body test =>
      match ← run fuel body with
      | .breaks => return .onward
      | .returns v => return .returns v
      | _ => runLoop fuel (some test) (.block []) body
    | .loop start test step body =>
      let _ ← run fuel start
      runLoop fuel test step body
    | .forEach name tableName body =>
      let n ← tableNumber tableName
      let (keys, t) := (← table n).keys
      changeTable n fun _ => t
      runEach fuel name keys body
    | .block body => runAll fuel body
    | .next => throw .next
    | .nextFile => throw .nextFile
    | .finish status =>
      match status with
      | some e =>
        let n := truncated (← evaluate fuel e).toNumber
        modify fun m => { m with status := (n.emod 256).toNat }
      | none => pure ()
      throw .finish
    | .giveBack value =>
      match value with
      | some e => return .returns (← evaluate fuel e)
      | none => return .returns .unset
    | .breakLoop => return .breaks
    | .continueLoop => return .continues
    | .delete name key =>
      let n ← tableNumber name
      match key with
      | some key =>
        let key ← keyOf (← evaluateAll fuel key)
        changeTable n fun t => t.erase key
      | none => changeTable n fun _ => .empty
      return .onward

/-- Does what statements tell, one after the other. -/
def runAll : (fuel : Nat) → List Statement → Step Flow
  | _, [] => return .onward
  | 0, _ => fail "program limit exceeded".toList
  | fuel + 1, s :: rest => do
    match ← run fuel s with
    | .onward => runAll fuel rest
    | flow => return flow

/-- Does what a loop tells as long as its test holds. -/
def runLoop : (fuel : Nat) → Option Expr → (step body : Statement) → Step Flow
  | 0, _, _, _ => fail "program limit exceeded".toList
  | fuel + 1, test, step, body => do
    let goesOn ← match test with
      | some e => do pure (← evaluate fuel e).holds
      | none => pure true
    if !goesOn then return .onward
    match ← run fuel body with
    | .breaks => return .onward
    | .returns v => return .returns v
    | _ =>
      let _ ← run fuel step
      runLoop fuel test step body

/-- Does what a loop tells for each key. -/
def runEach : (fuel : Nat) → (name : String) → List (List Char) → Statement → Step Flow
  | _, _, [], _ => return .onward
  | 0, _, _, _ => fail "program limit exceeded".toList
  | fuel + 1, name, key :: rest, body => do
    setVariable name (.text key)
    match ← run fuel body with
    | .breaks => return .onward
    | .returns v => return .returns v
    | _ => runEach fuel name rest body

end

end ClrListing.Script.Records
