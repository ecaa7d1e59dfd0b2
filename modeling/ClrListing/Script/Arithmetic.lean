/-
Arithmetic: expressions over whole numbers of 64 bits, which may give
parameters values.

An expression is read into a tree first. What need not be evaluated is
not: the other side of a decided `&&` or `||`, and the branch not taken.
-/
import ClrListing.Script.Number

namespace ClrListing.Script

-- ============================================================ expressions

/-- An operation on two numbers. -/
inductive Operation where
  | add | subtract | multiply | divide | remainder
  | shiftLeft | shiftRight
  | and | or | xor
  | less | lessEqual | greater | greaterEqual | equal | different
  deriving DecidableEq, Repr, Inhabited

/-- An operation on one number. -/
inductive Sign where
  | plus | minus | not | complement
  deriving DecidableEq, Repr, Inhabited

/-- An expression. -/
inductive Arithmetic where
  | number (n : Int)
  | parameter (name : List Char)
  | sign (s : Sign) (inner : Arithmetic)
  | operation (op : Operation) (left right : Arithmetic)
  | conjunction (left right : Arithmetic)
  | disjunction (left right : Arithmetic)
  | choice (test yes no : Arithmetic)
  /-- Gives a parameter a value, which is combined with the one that it
  has if there is an operation. -/
  | assign (name : List Char) (op : Option Operation) (value : Arithmetic)
  deriving DecidableEq, Repr, Inhabited

/-- What can be wrong with arithmetic. -/
inductive ArithmeticFault where
  | primaryExpected
  | endExpected
  | parenthesisExpected
  | colonExpected
  | divisionByZero
  /-- The value of a parameter is no number. -/
  | illegalNumber (text : List Char)
  deriving DecidableEq, Repr, Inhabited

/-- The wording of a fault in an expression. -/
def ArithmeticFault.message (expression : List Char) : ArithmeticFault → List Char
  | illegalNumber text => "Illegal number: ".toList ++ text
  | fault =>
    let reason := match fault with
      | primaryExpected => "expecting primary"
      | endExpected => "expecting EOF"
      | parenthesisExpected => "expecting ')'"
      | colonExpected => "expecting ':'"
      | _ => "division by zero"
    ("arithmetic expression: " ++ reason ++ ": \x22").toList ++ expression ++ ['\x22']

-- ================================================================= tokens

/-- A token of arithmetic. -/
inductive Token where
  | number (n : Int)
  | name (s : List Char)
  | symbol (s : String)
  deriving DecidableEq, Repr, Inhabited

/-- The symbols, a longer one before one that it starts with. -/
def symbols : List String :=
  ["<<=", ">>=", "<<", ">>", "<=", ">=", "==", "!=", "&&", "||", "+=", "-=", "*=", "/=", "%=",
    "&=", "|=", "^=", "+", "-", "*", "/", "%", "<", ">", "=", "!", "~", "&", "|", "^", "?", ":",
    "(", ")"]

/-- The token that a text opens with, and the rest; anything else is a
symbol that fits nowhere. -/
def readToken (s : List Char) : Token × List Char :=
  match readPlain? s with
  | some (n, rest) => (.number (clamped n), rest)
  | none =>
    let name := s.takeWhile fun c => c.isAlphanum || c = '_'
    if !name.isEmpty then (.name name, s.drop name.length)
    else match symbols.find? fun symbol => symbol.toList.isPrefixOf s with
      | some symbol => (.symbol symbol, s.drop symbol.length)
      | none => (.symbol "", s.drop 1)

/-- The tokens of an expression of at most so many characters. -/
def tokens : (bound : Nat) → List Char → List Token
  | 0, _ => []
  | bound + 1, s =>
    match s.dropWhile isSpace with
    | [] => []
    | c :: rest =>
      let (token, rest) := readToken (c :: rest)
      token :: tokens bound rest

-- ================================================================ reading

/-- A step that reads an expression off tokens. -/
abbrev ArithmeticReader := StateT (List Token) (Except ArithmeticFault)

/-- The operations by their symbols, those that bind least first. -/
def operationLevels : List (List (String × Operation)) :=
  [[("|", .or)], [("^", .xor)], [("&", .and)], [("==", .equal), ("!=", .different)],
    [("<", .less), ("<=", .lessEqual), (">", .greater), (">=", .greaterEqual)],
    [("<<", .shiftLeft), (">>", .shiftRight)], [("+", .add), ("-", .subtract)],
    [("*", .multiply), ("/", .divide), ("%", .remainder)]]

/-- The symbols that give a parameter a value. -/
def assignments : List (String × Option Operation) :=
  [("=", none), ("+=", some .add), ("-=", some .subtract), ("*=", some .multiply),
    ("/=", some .divide), ("%=", some .remainder), ("<<=", some .shiftLeft),
    (">>=", some .shiftRight), ("&=", some .and), ("|=", some .or), ("^=", some .xor)]

/-- The symbols that change one number. -/
def signs : List (String × Sign) :=
  [("+", .plus), ("-", .minus), ("!", .not), ("~", .complement)]

namespace ArithmeticReader

/-- Takes a symbol off if it comes next, and tells whether it did. -/
def take (symbol : String) : ArithmeticReader Bool := do
  match ← get with
  | .symbol s :: rest =>
    if s = symbol then
      set rest
      return true
    else return false
  | _ => return false

/-- Takes one of some symbols off, if one comes next. -/
def takeOne? (table : List (String × α)) : ArithmeticReader (Option α) := do
  match ← get with
  | .symbol s :: rest =>
    match table.lookup s with
    | some a =>
      set rest
      return some a
    | none => return none
  | _ => return none

mutual

/-- Reads an expression that may give a parameter a value. -/
def readAssignment : (fuel : Nat) → ArithmeticReader Arithmetic
  | 0 => throw .primaryExpected
  | fuel + 1 => do
    match ← get with
    | .name name :: .symbol s :: rest =>
      match assignments.lookup s with
      | some op =>
        set rest
        return .assign name op (← readAssignment fuel)
      | none => readChoice fuel
    | _ => readChoice fuel

/-- Reads a choice between two expressions, or less. -/
def readChoice : (fuel : Nat) → ArithmeticReader Arithmetic
  | 0 => throw .primaryExpected
  | fuel + 1 => do
    let test ← readDisjunction fuel
    if ← take "?" then
      let yes ← readAssignment fuel
      if !(← take ":") then throw .colonExpected
      return .choice test yes (← readChoice fuel)
    else return test

/-- Reads expressions of which one has to hold. -/
def readDisjunction : (fuel : Nat) → ArithmeticReader Arithmetic
  | 0 => throw .primaryExpected
  | fuel + 1 => do
    let left ← readConjunction fuel
    if ← take "||" then return .disjunction left (← readDisjunction fuel) else return left

/-- Reads expressions that all have to hold. -/
def readConjunction : (fuel : Nat) → ArithmeticReader Arithmetic
  | 0 => throw .primaryExpected
  | fuel + 1 => do
    let left ← readLevel fuel operationLevels
    if ← take "&&" then return .conjunction left (← readConjunction fuel) else return left

/-- Reads operations that bind at least as much as those given. -/
def readLevel : (fuel : Nat) → List (List (String × Operation)) →
    ArithmeticReader Arithmetic
  | 0, _ => throw .primaryExpected
  | fuel + 1, [] => readPrimary fuel
  | fuel + 1, level :: levels => do
    let left ← readLevel fuel levels
    readOperations fuel level levels left

/-- Reads further operations of a level. -/
def readOperations : (fuel : Nat) → List (String × Operation) →
    List (List (String × Operation)) → Arithmetic → ArithmeticReader Arithmetic
  | 0, _, _, _ => throw .primaryExpected
  | fuel + 1, level, levels, left => do
    match ← takeOne? level with
    | some op =>
      let right ← readLevel fuel levels
      readOperations fuel level levels (.operation op left right)
    | none => return left

/-- Reads what operations are applied to. -/
def readPrimary : (fuel : Nat) → ArithmeticReader Arithmetic
  | 0 => throw .primaryExpected
  | fuel + 1 => do
    match ← takeOne? signs with
    | some s => return .sign s (← readPrimary fuel)
    | none =>
      match ← get with
      | .number n :: rest =>
        set rest
        return .number n
      | .name name :: rest =>
        set rest
        return .parameter name
      | _ =>
        if ← take "(" then
          let inner ← readAssignment fuel
          if ← take ")" then return inner else throw .parenthesisExpected
        else throw .primaryExpected

end

end ArithmeticReader

/-- The expression that a text is written for. -/
def Arithmetic.ofText (s : List Char) : Except ArithmeticFault Arithmetic := do
  let ts := tokens (s.length + 1) s
  match ← (ArithmeticReader.readAssignment (16 * ts.length + 32)).run ts with
  | (a, []) => return a
  | _ => throw .endExpected

-- ============================================================= evaluation

/-- The number of a truth. -/
def truth (b : Bool) : Int := if b then 1 else 0

/-- The number below `wordCount` of the same bits. -/
def bitsOf (n : Int) : Nat := (n % wordCount).toNat

/-- The result of an operation. -/
def Operation.apply (op : Operation) (a b : Int) : Except ArithmeticFault Int :=
  match op with
  | add => .ok (wrapped (a + b))
  | subtract => .ok (wrapped (a - b))
  | multiply => .ok (wrapped (a * b))
  | divide => if b = 0 then .error .divisionByZero else .ok (wrapped (a.tdiv b))
  | remainder => if b = 0 then .error .divisionByZero else .ok (wrapped (a.tmod b))
  | shiftLeft => .ok (wrapped (a * Nat.pow 2 (bitsOf b % 64)))
  | shiftRight => .ok (a.fdiv (Nat.pow 2 (bitsOf b % 64)))
  | and => .ok (wrapped (Nat.land (bitsOf a) (bitsOf b)))
  | or => .ok (wrapped (Nat.lor (bitsOf a) (bitsOf b)))
  | xor => .ok (wrapped (Nat.xor (bitsOf a) (bitsOf b)))
  | less => .ok (truth (a < b))
  | lessEqual => .ok (truth (a ≤ b))
  | greater => .ok (truth (a > b))
  | greaterEqual => .ok (truth (a ≥ b))
  | equal => .ok (truth (a = b))
  | different => .ok (truth (a ≠ b))

/-- The result of a sign. -/
def Sign.apply (s : Sign) (a : Int) : Int :=
  match s with
  | plus => a
  | minus => wrapped (-a)
  | not => truth (a = 0)
  | complement => wrapped (-a - 1)

/-- The values that an evaluation gave parameters, the last ones first. -/
abbrev Given := List (List Char × Int)

namespace Arithmetic

/-- The number that the value of a parameter stands for; none stands for
zero. -/
def numberOf (value : List Char) : Except ArithmeticFault Int :=
  match readSigned? readPlain? value with
  | some (n, rest) =>
    if rest.all isSpace && isWord n then .ok n else .error (.illegalNumber value)
  | none => if value.all isSpace then .ok 0 else .error (.illegalNumber value)

/-- The number of a parameter. -/
def lookUp (value : List Char → List Char) (given : Given) (name : List Char) :
    Except ArithmeticFault Int :=
  match given.lookup name with
  | some n => .ok n
  | none => numberOf (value name)

/-- The number of an expression, where `value` gives the values of
parameters. -/
def evaluate (value : List Char → List Char) :
    Arithmetic → Given → Except ArithmeticFault (Int × Given)
  | .number n, given => .ok (n, given)
  | .parameter name, given => do return (← lookUp value given name, given)
  | .sign s inner, given => do
    let (a, given) ← evaluate value inner given
    return (s.apply a, given)
  | .operation op left right, given => do
    let (a, given) ← evaluate value left given
    let (b, given) ← evaluate value right given
    return (← op.apply a b, given)
  | .conjunction left right, given => do
    let (a, given) ← evaluate value left given
    if a = 0 then return (0, given)
    let (b, given) ← evaluate value right given
    return (truth (b ≠ 0), given)
  | .disjunction left right, given => do
    let (a, given) ← evaluate value left given
    if a ≠ 0 then return (1, given)
    let (b, given) ← evaluate value right given
    return (truth (b ≠ 0), given)
  | .choice test yes no, given => do
    let (a, given) ← evaluate value test given
    if a ≠ 0 then evaluate value yes given else evaluate value no given
  | .assign name op right, given => do
    let (b, given) ← evaluate value right given
    let n ← match op with
      | some op => do op.apply (← lookUp value given name) b
      | none => pure b
    return (n, (name, n) :: given)

end Arithmetic

end ClrListing.Script
