/-
How programs for records are written: their grammar, read off the tokens.

Where a name is used with a key it is a table, and so is a parameter that
is handed on as one; this is found out after all is read.
-/
import ClrListing.Script.Records.Syntax
import ClrListing.Script.Records.Token

namespace ClrListing.Script.Records

open Text

-- ================================================================ reading

/-- How a name is used: in a function or outside of all, and as a table or
not. -/
structure Usage where
  context : Option String
  name : String
  isTable : Bool
  line : Nat
  deriving DecidableEq, Repr, Inhabited

/-- A name that is handed to a function, in one of its places. -/
structure Handing where
  context : Option String
  name : String
  function : String
  place : Nat
  deriving DecidableEq, Repr, Inhabited

/-- A call of a function, with how many arguments. -/
structure Calling where
  function : String
  count : Nat
  line : Nat
  deriving DecidableEq, Repr, Inhabited

/-- A program that is being read. -/
structure ProgramSource where
  rest : List Placed
  /-- The function that is being read, and its parameters. -/
  context : Option String
  parameters : List String
  /-- The names that are known to be those of functions. -/
  functions : List String
  /-- How many loops and how many braces are open. -/
  loops : Nat
  braces : Nat
  usages : List Usage
  handings : List Handing
  callings : List Calling

/-- A step that reads from the front of a program. -/
abbrev ProgramReader := StateT ProgramSource (Except (List Complaint))

namespace ProgramReader

/-- The next token with its place. -/
def placed : ProgramReader Placed := do
  return ((← get).rest.head?).getD ⟨.finish, 1, 0⟩

/-- The next token. -/
def peek : ProgramReader Token := do return (← placed).token

/-- Passes over a token. -/
def advance : ProgramReader Unit := modify fun s => { s with rest := s.rest.tail }

/-- Complains at the next token. -/
def complain (reason : List Char) : ProgramReader α := do
  throw [⟨(← placed).line, reason⟩]

/-- The next token cannot stand where it does. -/
def unexpected : ProgramReader α := do
  let p ← placed
  let braces := (← get).braces
  let isEnd : Bool := match p.token with
    | .finish | .lineEnd | .sign "\x7d" => true
    | _ => false
  let near := match p.token with
    | .finish => Token.lineEnd.shown
    | token => token.shown
  match p.token with
  | .finish =>
    if braces > 0 then throw [⟨p.line + 1, "missing \x7d near end of file".toList⟩] else pure ()
  | .sign "\x7d" =>
    if braces = 0 then
      throw [⟨p.line, "extra \x27\x7d\x27".toList⟩,
        ⟨p.line, "syntax error at or near end of line".toList⟩]
    else pure ()
  | _ => pure ()
  if isEnd && p.depth > 0 then complain ("missing ) near ".toList ++ near)
  else complain ("syntax error at or near ".toList ++ near)

/-- Takes a sign off if it comes next, and tells whether it did. -/
def take (sign : String) : ProgramReader Bool := do
  match ← peek with
  | .sign s =>
    if s = sign then
      advance
      return true
    else return false
  | _ => return false

/-- Takes a word off if it comes next, and tells whether it did. -/
def takeWord (word : String) : ProgramReader Bool := do
  match ← peek with
  | .word s =>
    if s = word then
      advance
      return true
    else return false
  | _ => return false

/-- Takes a sign off that has to come next. -/
def expect (sign : String) : ProgramReader Unit := do
  if !(← take sign) then unexpected

/-- Whether one of some signs comes next. -/
def isAt (signs : List String) : ProgramReader Bool := do
  match ← peek with
  | .sign s => return signs.contains s
  | _ => return false

/-- Passes over the ends of at most so many lines. -/
def skipLines : (bound : Nat) → ProgramReader Unit
  | 0 => return
  | bound + 1 => do
    match ← peek with
    | .lineEnd =>
      advance
      skipLines bound
    | _ => return

/-- Passes over the ends of lines. -/
def skipLineEnds : ProgramReader Unit := do skipLines (← get).rest.length

/-- Notes how a name is used. -/
def note (name : String) (isTable : Bool) : ProgramReader Unit := do
  let line := (← placed).line
  modify fun s => { s with usages := s.usages ++ [⟨s.context, name, isTable, line⟩] }

/-- Whether a name is known to be that of a function. -/
def isFunction (name : String) : ProgramReader Bool := do
  let s ← get
  return s.functions.contains name && !s.parameters.contains name

/-- Whether a name is known to be that of a variable or a table. -/
def isVariable (name : String) : ProgramReader Bool := do
  let s ← get
  return s.parameters.contains name || s.usages.any fun u => u.name = name

/-- Notes that a name is that of a function. -/
def noteFunction (name : String) : ProgramReader Unit :=
  modify fun s => { s with functions := name :: s.functions }

/-- Takes the name of a table off. -/
def tableName : ProgramReader String := do
  match ← peek with
  | .name s =>
    note s true
    advance
    return s
  | _ => unexpected

/-- Reads one way, or another way if that fails. -/
def orElse (first second : ProgramReader α) : ProgramReader α := fun s =>
  match first.run s with
  | .ok r => .ok r
  | .error _ => second.run s

/-- The regular expression of a text. -/
def pattern (source : List Char) : ProgramReader Regex := do
  match compilePattern source with
  | .ok r => return r
  | .error reason => complain reason
where
  /-- The expression of a text, or the complaint about it. -/
  compilePattern (source : List Char) : Except (List Char) Regex :=
    let failed (why : String) : Except (List Char) Regex :=
      .error ("regular expression compile failed (".toList ++ why.toList ++ ")\n".toList ++ source)
    match Regex.read ⟨true, false, false, true⟩ source with
    | .ok (r, []) => .ok r
    | .ok _ => failed "missing operand"
    | .error .openGroup => failed "missing \x27)\x27"
    | .error .closedGroup => failed "missing \x27(\x27"
    | .error .tooBig => failed "run time error"
    | .error .nothingBefore => failed "missing operand"
    | .error _ => failed "bad class -- [], [^] or ["

/-- Complains of a text that is used as a regular expression and is none. -/
def checkPattern (e : Expr) : ProgramReader Unit := do
  match e with
  | .text s =>
    let _ ← pattern s
  | _ => return

/-- Whether an expression can be given a value. -/
def isTarget : Expr → Bool
  | .variable _ | .element _ _ => true
  | e => isField e
where
  /-- Whether an expression is a field, which may be in parentheses. -/
  isField : Expr → Bool
    | .field _ => true
    | .grouped inner => isField inner
    | _ => false

/-- The operation of a sign that gives a value, if it is one. -/
def assignment? : Token → Option (Option Operation)
  | .sign "=" => some none
  | .sign "+=" => some (some .add)
  | .sign "-=" => some (some .subtract)
  | .sign "*=" => some (some .multiply)
  | .sign "/=" => some (some .divide)
  | .sign "%=" => some (some .remainder)
  | .sign "^=" => some (some .power)
  | _ => none

/-- The comparison of a sign, if it is one. -/
def relation? : Token → Option Relation
  | .sign "<" => some .less
  | .sign "<=" => some .lessOrEqual
  | .sign "==" => some .equal
  | .sign "!=" => some .unequal
  | .sign ">" => some .greater
  | .sign ">=" => some .greaterOrEqual
  | _ => none

/-- Whether a token opens a value that can stand right after another. -/
def joins : Token → Bool
  | .number _ _ | .text _ | .pattern _ | .name _ | .called _ => true
  | .word s => Token.builtinNames.contains s
  | .sign s => ["$", "(", "!", "++", "--", "-", "+"].contains s
  | _ => false

/-- The least and the most arguments of the functions that are always
there. -/
def argumentCounts : List (String × Nat × Nat) :=
  [("length", 0, 1), ("substr", 2, 3), ("index", 2, 2), ("split", 2, 3), ("sub", 2, 3),
    ("gsub", 2, 3), ("match", 2, 2), ("sprintf", 1, 250), ("sin", 1, 1), ("cos", 1, 1),
    ("atan2", 2, 2), ("exp", 1, 1), ("log", 1, 1), ("sqrt", 1, 1), ("int", 1, 1),
    ("rand", 0, 0), ("srand", 0, 1), ("tolower", 1, 1), ("toupper", 1, 1), ("system", 1, 1),
    ("close", 1, 1), ("fflush", 0, 1)]

-- ============================================================ expressions

mutual

/-- Reads an expression; `compares` tells whether a sign for greater is a
comparison in it. -/
def expression : (fuel : Nat) → (compares : Bool) → ProgramReader Expr
  | 0, _ => unexpected
  | fuel + 1, compares => do
    let test ← alternatives fuel compares
    if ← take "?" then
      skipLineEnds
      let yes ← expression fuel compares
      skipLineEnds
      expect ":"
      skipLineEnds
      return .choose test yes (← expression fuel compares)
    else return test

/-- Reads expressions of which one has to hold. -/
def alternatives : (fuel : Nat) → (compares : Bool) → ProgramReader Expr
  | 0, _ => unexpected
  | fuel + 1, compares => do
    let a ← conditions fuel compares
    moreAlternatives fuel compares a

/-- Reads on after an expression of which one has to hold. -/
def moreAlternatives : (fuel : Nat) → (compares : Bool) → Expr → ProgramReader Expr
  | 0, _, a => return a
  | fuel + 1, compares, a => do
    if ← take "||" then
      skipLineEnds
      let b ← conditions fuel compares
      moreAlternatives fuel compares (.either a b)
    else return a

/-- Reads expressions that all have to hold. -/
def conditions : (fuel : Nat) → (compares : Bool) → ProgramReader Expr
  | 0, _ => unexpected
  | fuel + 1, compares => do
    let a ← membership fuel compares
    moreConditions fuel compares a

/-- Reads on after an expression of which all have to hold. -/
def moreConditions : (fuel : Nat) → (compares : Bool) → Expr → ProgramReader Expr
  | 0, _, a => return a
  | fuel + 1, compares, a => do
    if ← take "&&" then
      skipLineEnds
      let b ← membership fuel compares
      moreConditions fuel compares (.both a b)
    else return a

/-- Reads an expression that may be looked for in tables. -/
def membership : (fuel : Nat) → (compares : Bool) → ProgramReader Expr
  | 0, _ => unexpected
  | fuel + 1, compares => do
    let a ← searching fuel compares
    moreMembership fuel a

/-- Reads on after an expression that may be looked for in tables. -/
def moreMembership : (fuel : Nat) → Expr → ProgramReader Expr
  | 0, a => return a
  | fuel + 1, a => do
    if ← takeWord "in" then
      moreMembership fuel (.isIn [a] (← tableName))
    else return a

/-- Reads an expression that may be searched. -/
def searching : (fuel : Nat) → (compares : Bool) → ProgramReader Expr
  | 0, _ => unexpected
  | fuel + 1, compares => do
    let a ← comparing fuel compares
    moreSearching fuel compares a

/-- Reads on after an expression that may be searched. -/
def moreSearching : (fuel : Nat) → (compares : Bool) → Expr → ProgramReader Expr
  | 0, _, a => return a
  | fuel + 1, compares, a => do
    if ← take "~" then
      let b ← comparing fuel compares
      checkPattern b
      moreSearching fuel compares (.search false a b)
    else if ← take "!~" then
      let b ← comparing fuel compares
      checkPattern b
      moreSearching fuel compares (.search true a b)
    else return a

/-- Reads an expression that may be compared. -/
def comparing : (fuel : Nat) → (compares : Bool) → ProgramReader Expr
  | 0, _ => unexpected
  | fuel + 1, compares => do
    let a ← joining fuel
    moreComparing fuel compares a

/-- Reads on after an expression that may be compared. -/
def moreComparing : (fuel : Nat) → (compares : Bool) → Expr → ProgramReader Expr
  | 0, _, a => return a
  | fuel + 1, compares, a => do
    match relation? (← peek) with
    | some relation =>
      if relation = .greater && !compares then return a
      else
        advance
        let b ← joining fuel
        moreComparing fuel compares (.compare relation a b)
    | none => return a

/-- Reads expressions whose texts follow each other. -/
def joining : (fuel : Nat) → ProgramReader Expr
  | 0 => unexpected
  | fuel + 1 => do
    let a ← sum fuel
    moreJoining fuel a

/-- Reads on after an expression whose text others may follow. -/
def moreJoining : (fuel : Nat) → Expr → ProgramReader Expr
  | 0, a => return a
  | fuel + 1, a => do
    if joins (← peek) then
      let b ← sum fuel
      moreJoining fuel (.join a b)
    else return a

/-- Reads a sum. -/
def sum : (fuel : Nat) → ProgramReader Expr
  | 0 => unexpected
  | fuel + 1 => do
    let a ← product fuel
    moreSum fuel a

/-- Reads on after a part of a sum. -/
def moreSum : (fuel : Nat) → Expr → ProgramReader Expr
  | 0, a => return a
  | fuel + 1, a => do
    if ← take "+" then moreSum fuel (.operate .add a (← product fuel))
    else if ← take "-" then moreSum fuel (.operate .subtract a (← product fuel))
    else return a

/-- Reads a product. -/
def product : (fuel : Nat) → ProgramReader Expr
  | 0 => unexpected
  | fuel + 1 => do
    let a ← signed fuel
    moreProduct fuel a

/-- Reads on after a part of a product. -/
def moreProduct : (fuel : Nat) → Expr → ProgramReader Expr
  | 0, a => return a
  | fuel + 1, a => do
    if ← take "*" then moreProduct fuel (.operate .multiply a (← signed fuel))
    else if ← take "/" then moreProduct fuel (.operate .divide a (← signed fuel))
    else if ← take "%" then moreProduct fuel (.operate .remainder a (← signed fuel))
    else return a

/-- Reads an expression that may have signs before it. -/
def signed : (fuel : Nat) → ProgramReader Expr
  | 0 => unexpected
  | fuel + 1 => do
    if ← take "-" then return .negate (← signed fuel)
    else if ← take "+" then return .plus (← signed fuel)
    else if ← take "!" then return .not (← signed fuel)
    else
      let a ← stepped fuel
      if ← take "^" then
        let b ← signed fuel
        return .operate .power a b
      else return a

/-- Reads an expression that may be given a value, or lines may be read
from. -/
def stepped : (fuel : Nat) → ProgramReader Expr
  | 0 => unexpected
  | fuel + 1 => do
    let a ← simple fuel
    let a ← if isTarget a then
        if ← take "++" then pure (.step false true a)
        else if ← take "--" then pure (.step false false a)
        else match assignment? (← peek) with
          | some operation => do
            advance
            skipLineEnds
            return .assign a operation (← expression fuel true)
          | none => pure a
      else pure a
    moreLines fuel a

/-- Reads on after the text of a command whose lines may be read. -/
def moreLines : (fuel : Nat) → Expr → ProgramReader Expr
  | 0, a => return a
  | fuel + 1, a => do
    match (← get).rest with
    | ⟨.sign "|", _, _⟩ :: ⟨.word "getline", _, _⟩ :: rest =>
      modify fun s => { s with rest := rest }
      let target ← lineTarget fuel
      moreLines fuel (.readLine (.command a) target)
    | _ => return a

/-- Reads what a line is read into, if it is told. -/
def lineTarget : (fuel : Nat) → ProgramReader (Option Expr)
  | 0 => return none
  | fuel + 1 => do
    match ← peek with
    | .name _ | .sign "$" => return some (← simple fuel)
    | _ => return none

/-- Reads the number of a field. A step that follows a field or the number
of fields changes that. -/
def fieldNumber : (fuel : Nat) → ProgramReader Expr
  | 0 => unexpected
  | fuel + 1 => do
    if ← take "-" then return .negate (← fieldNumber fuel)
    else if ← take "+" then return .plus (← fieldNumber fuel)
    else if ← take "!" then return .not (← fieldNumber fuel)
    else
      let e ← simple fuel
      let isStepped := match e with
        | .variable "NF" | .field _ => true
        | _ => false
      if !isStepped then return e
      else if ← take "++" then return .step false true e
      else if ← take "--" then return .step false false e
      else return e

/-- Reads what can be given a value, which opens with a name or as a
field. -/
def target : (fuel : Nat) → ProgramReader Expr
  | 0 => unexpected
  | fuel + 1 => do
    match ← peek with
    | .name _ | .called _ | .sign "$" => pure ()
    | .sign "(" =>
      if !((← get).rest.tail.head?.any fun p => match p.token with
        | .sign "$" => true
        | _ => false) then advance *> unexpected
    | _ => unexpected
    let e ← simple fuel
    if isTarget e then return e else unexpected

/-- Reads an expression without signs outside of parentheses. -/
def simple : (fuel : Nat) → ProgramReader Expr
  | 0 => unexpected
  | fuel + 1 => do
    match ← peek with
    | .number x _ =>
      advance
      return .number x
    | .text s =>
      advance
      return .text s
    | .pattern source =>
      let r ← pattern source
      advance
      return .pattern source r
    | .sign "$" =>
      advance
      return .field (← fieldNumber fuel)
    | .sign "++" =>
      advance
      return .step true true (← target fuel)
    | .sign "--" =>
      advance
      return .step true false (← target fuel)
    | .sign "(" =>
      advance
      let values ← expressions fuel true
      expect ")"
      match values with
      | [value] => return .grouped value
      | _ =>
        if ← takeWord "in" then return .isIn values (← tableName) else unexpected
    | .name s =>
      if ← isFunction s then call fuel s
      else if (match (← get).rest.tail.head? with
          | some ⟨.sign "[", _, _⟩ => true
          | _ => false) then
        note s true
        advance
        advance
        let key ← expressions fuel true
        expect "]"
        return .element s key
      else
        note s false
        advance
        return .variable s
    | .called s =>
      if ← isVariable s then
        note s false
        advance
        return .variable s
      else call fuel s
    | .word "getline" =>
      advance
      let target ← lineTarget fuel
      if ← take "<" then return .readLine (.file (← simple fuel)) target
      else return .readLine .input target
    | .word s => if Token.builtinNames.contains s then builtin fuel s else unexpected
    | _ => unexpected

/-- Reads expressions with commas between them. -/
def expressions : (fuel : Nat) → (compares : Bool) → ProgramReader (List Expr)
  | 0, _ => unexpected
  | fuel + 1, compares => do
    let first ← expression fuel compares
    if ← take "," then
      skipLineEnds
      return first :: (← expressions fuel compares)
    else return [first]

/-- Reads the arguments of a call, where names that stand alone may be
those of tables. -/
def arguments : (fuel : Nat) → (function : String) → (place : Nat) →
    ProgramReader (List Expr)
  | 0, _, _ => unexpected
  | fuel + 1, function, place => do
    let argument ← match (← get).rest with
      | ⟨.name s, _, _⟩ :: ⟨.sign ")", _, _⟩ :: _ | ⟨.name s, _, _⟩ :: ⟨.sign ",", _, _⟩ :: _ => do
        advance
        modify fun x => { x with handings := x.handings ++ [⟨x.context, s, function, place⟩] }
        pure (Expr.variable s)
      | _ => expression fuel true
    if ← take "," then
      skipLineEnds
      return argument :: (← arguments fuel function (place + 1))
    else return [argument]

/-- Reads a call of a function of the program. -/
def call : (fuel : Nat) → (name : String) → ProgramReader Expr
  | 0, _ => unexpected
  | fuel + 1, name => do
    let line := (← placed).line
    noteFunction name
    advance
    expect "("
    let given ← if ← take ")" then pure [] else do
      let given ← arguments fuel name 0
      expect ")"
      pure given
    modify fun x => { x with callings := x.callings ++ [⟨name, given.length, line⟩] }
    return .call name given

/-- Reads a call of a function that is always there. -/
def builtin : (fuel : Nat) → (name : String) → ProgramReader Expr
  | 0, _ => unexpected
  | fuel + 1, name => do
    advance
    let hasArguments ← take "("
    if !hasArguments then
      if name = "length" then return .builtin name [] else unexpected
    let given ← if ← take ")" then pure [] else do
      let given ← match name, (← get).rest with
        | "split", _ => do
          let subject ← expression fuel true
          if ← take "," then
            let table ← tableName
            let rest ← if ← take "," then expressions fuel true else pure []
            rest.forM fun e => match e with
              | .text (_ :: _ :: _) => checkPattern e
              | _ => return
            pure (subject :: .variable table :: rest)
          else pure [subject]
        | "length", ⟨.name s, _, _⟩ :: ⟨.sign ")", _, _⟩ :: _ => do
          advance
          modify fun x => { x with handings := x.handings ++ [⟨x.context, s, "length", 0⟩] }
          pure [Expr.variable s]
        | "length", _ => do pure [← expression fuel true]
        | _, _ => expressions fuel true
      expect ")"
      pure given
    match argumentCounts.lookup name with
    | some (least, most) =>
      if given.length < least || most < given.length then
        complain ("wrong number of arguments in call to ".toList ++ name.toList)
      match name, given with
      | "sub", e :: _ | "gsub", e :: _ | "match", [_, e] => checkPattern e
      | _, _ => pure ()
      return .builtin name given
    | none => unexpected

end

-- ============================================================= statements

/-- Takes the end of a statement off. -/
def statementEnd : ProgramReader Unit := do
  match ← peek with
  | .sign ";" | .lineEnd => advance
  | .sign "\x7d" => return
  | _ => unexpected

/-- Reads where something is printed to. -/
def sink (fuel : Nat) : ProgramReader Sink := do
  if ← take ">" then return .file (← expression fuel true)
  else if ← take ">>" then return .append (← expression fuel true)
  else if ← take "|" then return .command (← expression fuel true)
  else return .output

/-- Whether what is printed ends here. -/
def endsValues : ProgramReader Bool := do
  match ← peek with
  | .lineEnd | .finish => return true
  | .sign s => return [";", "\x7d", ">", ">>", "|"].contains s
  | _ => return false

/-- Reads what is printed. -/
def printed (fuel : Nat) : ProgramReader (List Expr) := do
  if ← endsValues then return []
  else
    let inParentheses : ProgramReader (List Expr) := do
      expect "("
      let values ← expressions fuel true
      expect ")"
      if ← endsValues then return values else unexpected
    if ← isAt ["("] then orElse inParentheses (expressions fuel false)
    else expressions fuel false

/-- Reads a statement that has no parts. -/
def plainStatement (fuel : Nat) : ProgramReader Statement := do
  match ← peek with
  | .word "print" =>
    advance
    let values ← printed fuel
    return .print values (← sink fuel)
  | .word "printf" =>
    advance
    let values ← printed fuel
    if values.isEmpty then complain "no arguments in call to printf".toList
    return .format values (← sink fuel)
  | .word "next" =>
    if (← get).context = some "" then complain "improper use of next".toList
    advance
    return .next
  | .word "nextfile" =>
    if (← get).context = some "" then complain "improper use of nextfile".toList
    advance
    return .nextFile
  | .word "break" =>
    if (← get).loops = 0 then complain "break statement outside of loop".toList
    advance
    return .breakLoop
  | .word "continue" =>
    if (← get).loops = 0 then complain "continue statement outside of loop".toList
    advance
    return .continueLoop
  | .word "exit" =>
    advance
    if ← endsValues then return .finish none
    else return .finish (some (← expression fuel true))
  | .word "return" =>
    if (← get).context.all (· = "") then complain "return outside function body".toList
    advance
    if ← endsValues then return .giveBack none
    else return .giveBack (some (← expression fuel true))
  | .word "delete" =>
    advance
    let table ← tableName
    if ← take "[" then
      let key ← expressions fuel true
      expect "]"
      return .delete table (some key)
    else return .delete table none
  | _ => return .evaluate (← expression fuel true)

/-- Reads the body of a loop. -/
def inLoop (read : ProgramReader Statement) : ProgramReader Statement := do
  modify fun s => { s with loops := s.loops + 1 }
  let body ← read
  modify fun s => { s with loops := s.loops - 1 }
  return body

/-- Passes over the ends of lines and a semicolon, if a word comes after
them. -/
def takeLater (word : String) : ProgramReader Bool := do
  let before ← get
  skipLineEnds
  let _ ← take ";"
  skipLineEnds
  if ← takeWord word then return true
  else
    set before
    return false

mutual

/-- Reads a statement. -/
def statement : (fuel : Nat) → ProgramReader Statement
  | 0 => unexpected
  | fuel + 1 => do
    match ← peek with
    | .sign "\x7b" => block fuel
    | .sign "\x7d" => return .block []
    | .sign ";" =>
      advance
      return .block []
    | .word "if" =>
      advance
      expect "("
      let test ← expression fuel true
      expect ")"
      skipLineEnds
      let yes ← statement fuel
      if ← takeLater "else" then
        skipLineEnds
        return .conditional test yes (← statement fuel)
      else return .conditional test yes (.block [])
    | .word "while" =>
      advance
      expect "("
      let test ← expression fuel true
      expect ")"
      skipLineEnds
      return .whileDo test (← inLoop (statement fuel))
    | .word "do" =>
      advance
      skipLineEnds
      let body ← inLoop (statement fuel)
      if ← takeLater "while" then
        expect "("
        let test ← expression fuel true
        expect ")"
        statementEnd
        return .doWhile body test
      else unexpected
    | .word "for" =>
      advance
      expect "("
      loop fuel
    | _ =>
      let s ← plainStatement fuel
      statementEnd
      return s

/-- Reads a loop after its opening parenthesis. -/
def loop : (fuel : Nat) → ProgramReader Statement
  | 0 => unexpected
  | fuel + 1 => do
    match (← get).rest with
    | ⟨.name name, _, _⟩ :: ⟨.word "in", _, _⟩ :: ⟨.name _, _, _⟩ :: ⟨.sign ")", _, _⟩ :: _ =>
      note name false
      advance
      advance
      let table ← tableName
      expect ")"
      skipLineEnds
      return .forEach name table (← inLoop (statement fuel))
    | _ =>
      let start ← if ← isAt [";"] then pure (.block []) else plainStatement fuel
      expect ";"
      skipLineEnds
      let test ← if ← isAt [";"] then pure none else do pure (some (← expression fuel true))
      expect ";"
      skipLineEnds
      let step ← if ← isAt [")"] then pure (.block []) else plainStatement fuel
      expect ")"
      skipLineEnds
      return .loop start test step (← inLoop (statement fuel))

/-- Reads statements in braces. -/
def block : (fuel : Nat) → ProgramReader Statement
  | 0 => unexpected
  | fuel + 1 => do
    expect "\x7b"
    modify fun s => { s with braces := s.braces + 1 }
    let body ← statements fuel
    expect "\x7d"
    modify fun s => { s with braces := s.braces - 1 }
    return .block body

/-- Reads statements up to a closing brace. -/
def statements : (fuel : Nat) → ProgramReader (List Statement)
  | 0 => unexpected
  | fuel + 1 => do
    skipLineEnds
    if ← isAt ["\x7d"] then return []
    else
      let first ← statement fuel
      return first :: (← statements fuel)

end

-- =============================================================== programs

/-- Takes the names of parameters of a function off. -/
def parameters (function : String) : (bound : Nat) → (before : List String) →
    ProgramReader (List String)
  | 0, _ => unexpected
  | bound + 1, before => do
    match ← peek with
    | .name s =>
      let line := (← placed).line
      if s = function then
        throw [⟨line, "function parameter cannot be the function".toList⟩,
          ⟨line, "syntax error at or near ".toList ++ s.toList⟩]
      if before.contains s then complain (s.toList ++ " is duplicated in argument list".toList)
      advance
      if ← take "," then
        skipLineEnds
        parameters function bound (before ++ [s])
      else return before ++ [s]
    | _ => unexpected

/-- Takes the end of a rule off. -/
def ruleEnd : ProgramReader Unit := do
  match ← peek with
  | .finish => return
  | .lineEnd => skipLineEnds
  | .sign ";" =>
    advance
    skipLineEnds
  | _ => return

/-- Reads what is done by a rule outside of functions. -/
def ruleBody (fuel : Nat) (context : Option String) : ProgramReader Statement := do
  modify fun s => { s with context := context }
  let body ← block fuel
  modify fun s => { s with context := none }
  ruleEnd
  return body

/-- Reads the rules and functions of a program, of which there are at most
so many. -/
def items (fuel : Nat) : (bound : Nat) → Program → ProgramReader Program
  | 0, p => return p
  | bound + 1, p => do
    let withRule (r : Rule) : Program := { p with rules := p.rules ++ [r] }
    match ← peek with
    | .finish => return p
    | .word "BEGIN" =>
      advance
      let body ← ruleBody fuel (some "")
      items fuel bound (withRule ⟨.start, some body⟩)
    | .word "END" =>
      advance
      let body ← ruleBody fuel (some "")
      items fuel bound (withRule ⟨.finish, some body⟩)
    | .word "function" =>
      advance
      match ← peek with
      | .name name | .called name =>
        advance
        expect "("
        let names ← if ← isAt [")"] then pure [] else parameters name (← get).rest.length []
        expect ")"
        skipLineEnds
        if p.functions.any fun f => f.name = name then
          complain ("redefinition of ".toList ++ name.toList)
        noteFunction name
        modify fun s => { s with parameters := names }
        let body ← ruleBody fuel (some name)
        modify fun s => { s with parameters := [] }
        items fuel bound
          { p with functions := p.functions ++ [⟨name, names.map fun n => (n, false), body⟩] }
      | _ => unexpected
    | .sign "\x7b" =>
      let body ← ruleBody fuel none
      items fuel bound (withRule ⟨.always, some body⟩)
    | _ =>
      let first ← expression fuel true
      let occasion ← if ← take "," then do
          skipLineEnds
          pure (Occasion.between first (← expression fuel true))
        else pure (Occasion.when first)
      if ← isAt ["\x7b"] then
        let body ← ruleBody fuel none
        items fuel bound (withRule ⟨occasion, some body⟩)
      else
        match ← peek with
        | .finish | .lineEnd | .sign ";" =>
          ruleEnd
          items fuel bound (withRule ⟨occasion, none⟩)
        | _ => unexpected

end ProgramReader

-- ================================================================= tables

/-- The parameters of functions that are tables, by what is known: those
that are used as tables, and those that are handed on as such. -/
def tableParameters (source : ProgramSource) (functions : List Function) :
    (rounds : Nat) → List (String × String) → List (String × String)
  | 0, known => known
  | rounds + 1, known =>
    let isTable (function : String) (place : Nat) : Bool :=
      match functions.find? fun f => f.name = function with
      | some f =>
        match f.parameters[place]? with
        | some (name, _) => known.contains (function, name)
        | none => false
      | none => false
    let found := source.handings.filterMap fun h =>
      match h.context with
      | some context =>
        if isTable h.function h.place && !known.contains (context, h.name) then
          some (context, h.name)
        else none
      | none => none
    if found.isEmpty then known else tableParameters source functions rounds (known ++ found)

namespace Program

/-- The program with what is known about its parameters. -/
def resolved (p : Program) (source : ProgramSource) : Program :=
  let used := source.usages.filterMap fun u =>
    match u.context, u.isTable with
    | some context, true => some (context, u.name)
    | _, _ => none
  let known := tableParameters source p.functions (p.functions.length + source.handings.length) used
  { p with functions := p.functions.map fun f =>
      { f with parameters := f.parameters.map fun x => (x.1, known.contains (f.name, x.1)) } }

/-- The complaint about a name that is used as a table and not as one, or
as a variable although it is a function. -/
def usageFault? (p : Program) (usages : List Usage) : Option Complaint :=
  let isLocal (u : Usage) : Bool := p.functions.any fun f =>
    u.context = some f.name && f.parameters.any fun x => x.1 = u.name
  let home (u : Usage) : Option String := if isLocal u then u.context else none
  let fault (before : List Usage) (u : Usage) : Option Complaint :=
    if p.functions.any fun f => f.name = u.name && !isLocal u then
      some ⟨u.line, "illegal reference to variable ".toList ++ u.name.toList⟩
    else match before.find? fun v => v.name = u.name && home v = home u with
      | some v =>
        if v.isTable = u.isTable then none
        else
          let kind := if v.isTable then "array " else "variable "
          some ⟨u.line, "illegal reference to ".toList ++ kind.toList ++ u.name.toList⟩
      | none => none
  (usages.zipIdx.findSome? fun u => fault (usages.take u.2) u.1)

/-- The complaint about a call that does not fit its function. -/
def callFault? (p : Program) (lastLine : Nat) (callings : List Calling) : Option Complaint :=
  callings.findSome? fun c =>
    match p.functions.find? fun f => f.name = c.function with
    | none =>
      some ⟨lastLine + 1, "function ".toList ++ c.function.toList ++ " never defined".toList⟩
    | some f =>
      if c.count > f.parameters.length then
        some ⟨c.line, "too many arguments in call to ".toList ++ c.function.toList⟩
      else none

/-- The program that a text is written for. -/
def ofText (text : List Char) : Except (List Complaint) Program :=
  match tokens 1 0 .lineEnd (text.length + 1) text with
  | .error complaint => .error [complaint]
  | .ok placed =>
    let fuel := 40 * placed.length + 40
    let read : ProgramReader Program := do
      ProgramReader.skipLineEnds
      ProgramReader.items fuel placed.length ⟨[], []⟩
    match read.run ⟨placed, none, [], [], 0, 0, [], [], []⟩ with
    | .error complaints => .error complaints
    | .ok (p, source) =>
      let lastLine := ((placed.getLast?).map Placed.line).getD 1
      match p.usageFault? source.usages <|> p.callFault? lastLine source.callings with
      | some complaint => .error [complaint]
      | none => .ok (p.resolved source)

end Program

end ClrListing.Script.Records
