/-
Scripts: commands of words, and what makes larger commands of them.

A word is a list of pieces, of which some are replaced when the script
runs: parameters by their values, command substitutions by what the
commands print, and arithmetic by its result.
-/
import ClrListing.Script.Pattern

namespace ClrListing.Script

/-- When a step of a list of commands is run. -/
inductive Condition where
  | always
  /-- If the step before succeeded. -/
  | ifOk
  /-- If the step before failed. -/
  | ifFailed
  deriving DecidableEq, Repr, Inhabited

/-- What is asked of a parameter. -/
inductive Request where
  | value
  | length
  /-- The value, or the word if there is none. -/
  | orElse
  /-- The same, and the word becomes the value. -/
  | orAssign
  /-- The value; if there is none the script ends with the word. -/
  | orFail
  /-- The word, if there is a value. -/
  | ifGiven
  /-- The value without what the word as a pattern stands for. -/
  | cut (cut : Cut)
  /-- Nothing that can be asked. -/
  | unknown
  deriving DecidableEq, Repr, Inhabited

/-- What a script is asked to show of a parameter. -/
structure Query where
  name : List Char
  request : Request
  /-- An empty value counts as none. -/
  skipsEmpty : Bool
  deriving DecidableEq, Repr, Inhabited

mutual

/-- A piece of a word. -/
inductive Piece where
  | char (c : Marked)
  /-- A pair of quotes with nothing between them. -/
  | nothing
  /-- What is shown of a parameter. -/
  | parameter (query : Query) (word : List Piece) (isQuoted : Bool)
  /-- What commands print. -/
  | printed (steps : List Step) (isQuoted : Bool)
  /-- The result of arithmetic. -/
  | result (expression : List Piece) (isQuoted : Bool)
  /-- The home directory. -/
  | home

/-- A change of where a command reads or writes, by the number of the
channel. -/
inductive Redirection where
  /-- To a file, which is emptied unless it is added to; an option keeps
  files from being emptied, unless that is forced. -/
  | toFile (channel : Nat) (path : List Piece) (appends forces : Bool)
  | fromFile (channel : Nat) (path : List Piece) (creates : Bool)
  /-- To where another channel goes, or to nowhere. -/
  | toChannel (channel : Nat) (other : List Piece)
  /-- From a text. -/
  | fromText (channel : Nat) (text : List Piece)

/-- A command. -/
inductive Command where
  /-- Gives parameters values, and runs a program if there are words. -/
  | simple (line : Nat) (values : List Assignment) (words : List (List Piece))
      (redirections : List Redirection)
  /-- Runs steps once for each field. -/
  | forEach (name : List Char) (words : List (List Piece)) (body : List Step)
  /-- Runs steps as long as others succeed, or as long as they fail. -/
  | repeated (untilOk : Bool) (test body : List Step)
  /-- Runs the steps of the first pattern that stands for a word. -/
  | choose (subject : List Piece) (arms : List Arm)
  | conditional (test yes no : List Step)
  | group (body : List Step)
  /-- Runs steps that keep what they change to themselves. -/
  | apart (body : List Step)
  /-- Runs steps beside the script. -/
  | beside (body : List Step)
  /-- Gives a command a name. -/
  | define (name : List Char) (body : Command)
  /-- Runs commands of which each reads what the one before prints. -/
  | pipe (commands : List Command)
  /-- Succeeds where the command fails. -/
  | negate (command : Command)
  | redirected (redirections : List Redirection) (command : Command)

/-- A value for a parameter. -/
inductive Assignment where
  | mk (name : List Char) (value : List Piece)

/-- A command in a list. Where a later step depends on how it ends, its
failure is no failure of the script. -/
inductive Step where
  | mk (condition : Condition) (isTested : Bool) (command : Command)

/-- A case of a choice. -/
inductive Arm where
  | mk (patterns : List (List Piece)) (body : List Step)

end

/-- The names of the commands that a fault in ends the script. -/
def specialNames : List String :=
  [":", ".", "break", "continue", "eval", "exec", "exit", "export", "readonly", "return", "set",
    "shift", "times", "trap", "unset", "local"]

instance : Inhabited Piece := ⟨.nothing⟩
instance : Inhabited Command := ⟨.group []⟩

end ClrListing.Script
