/-
Programs for records, as `awk` runs them: rules of a pattern and of what
is done with the records that meet it, and functions.
-/
import ClrListing.Script.Regex

namespace ClrListing.Script.Records

/-- An operation on two numbers. -/
inductive Operation where
  | add
  | subtract
  | multiply
  | divide
  | remainder
  | power
  deriving DecidableEq, Repr, Inhabited

/-- A comparison. -/
inductive Relation where
  | less
  | lessOrEqual
  | equal
  | unequal
  | greater
  | greaterOrEqual
  deriving DecidableEq, Repr, Inhabited

mutual

/-- What has a value. -/
inductive Expr where
  | number (x : Float)
  | text (s : List Char)
  /-- An expression that the record is searched for. -/
  | pattern (source : List Char) (r : Regex)
  | variable (name : String)
  | element (table : String) (key : List Expr)
  | field (number : Expr)
  /-- An expression in parentheses. -/
  | grouped (inner : Expr)
  | assign (target : Expr) (operation : Option Operation) (value : Expr)
  | choose (test yes no : Expr)
  | both (a b : Expr)
  | either (a b : Expr)
  | operate (operation : Operation) (a b : Expr)
  | compare (relation : Relation) (a b : Expr)
  | join (a b : Expr)
  | search (isNegated : Bool) (subject pattern : Expr)
  | negate (a : Expr)
  | plus (a : Expr)
  | not (a : Expr)
  | isIn (key : List Expr) (table : String)
  /-- A variable made one more or less; `isFirst` gives the value after
  that. -/
  | step (isFirst isUp : Bool) (target : Expr)
  | call (name : String) (arguments : List Expr)
  | builtin (name : String) (arguments : List Expr)
  | readLine (source : Source) (target : Option Expr)
  deriving Repr, Inhabited

/-- Where a line is read from. -/
inductive Source where
  | input
  | file (name : Expr)
  | command (text : Expr)
  deriving Repr, Inhabited

end

/-- Where something is printed to. -/
inductive Sink where
  | output
  | file (name : Expr)
  | append (name : Expr)
  | command (text : Expr)
  deriving Repr, Inhabited

/-- What is done. -/
inductive Statement where
  | evaluate (e : Expr)
  | print (values : List Expr) (sink : Sink)
  | format (values : List Expr) (sink : Sink)
  | conditional (test : Expr) (yes no : Statement)
  | whileDo (test : Expr) (body : Statement)
  | doWhile (body : Statement) (test : Expr)
  | loop (start : Statement) (test : Option Expr) (step body : Statement)
  | forEach (name table : String) (body : Statement)
  | block (body : List Statement)
  | next
  | nextFile
  | finish (status : Option Expr)
  | giveBack (value : Option Expr)
  | breakLoop
  | continueLoop
  | delete (table : String) (key : Option (List Expr))
  deriving Repr, Inhabited

/-- When a rule is followed. -/
inductive Occasion where
  | start
  | finish
  | always
  | when (test : Expr)
  /-- From a record to another. -/
  | between (first last : Expr)
  deriving Repr, Inhabited

/-- A rule. -/
structure Rule where
  occasion : Occasion
  /-- What is done; the record is printed if nothing is told. -/
  body : Option Statement
  deriving Repr, Inhabited

/-- A function: its parameters, each with whether it is a table, and its
body. -/
structure Function where
  name : String
  parameters : List (String × Bool)
  body : Statement
  deriving Repr, Inhabited

/-- A program. -/
structure Program where
  rules : List Rule
  functions : List Function
  deriving Repr, Inhabited

end ClrListing.Script.Records
