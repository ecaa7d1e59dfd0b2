/-
Messages of a compiler: a severity, a code and a text, with a location
in the source if one is known.

`Diagnostic.parseLine` reads the one-line form that command-line
compilers print, `file(line,column): severity code: text`, the part up
to the colon being optional; `Diagnostic.display` writes the form
without a location.
-/
import ClrListing.Source.Lexeme
import ClrListing.Text.Search

namespace ClrListing

open Source Text

-- =========================================================== severity

/-- How serious a diagnostic is. -/
inductive Severity where
  | info
  | warning
  | error
  deriving DecidableEq, Repr, Inhabited

namespace Severity

/-- The severity's name, as it opens a displayed diagnostic. -/
def name : Severity → String
  | .info => "Info"
  | .warning => "Warning"
  | .error => "Error"

/-- The lower-case form of an ASCII letter, any other character as it is. -/
def lowerAscii (c : Char) : Char :=
  if 'A' ≤ c && c ≤ 'Z' then Char.ofNat (c.toNat + 32) else c

/-- Reads a severity in any mix of letter cases. -/
def ofWord? (word : List Char) : Option Severity :=
  let lowered := word.map lowerAscii
  if lowered = ['i', 'n', 'f', 'o'] then some .info
  else if lowered = ['w', 'a', 'r', 'n', 'i', 'n', 'g'] then some .warning
  else if lowered = ['e', 'r', 'r', 'o', 'r'] then some .error
  else none

end Severity

-- ======================================================== diagnostics

/-- One message of a compiler. -/
structure Diagnostic where
  /-- How serious it is. -/
  severity : Severity
  /-- The message's code, such as `CS1002`. -/
  code : String
  /-- The text for the reader. -/
  message : String
  /-- Where in the source it applies, if known. -/
  location : Option Location
  deriving DecidableEq, Repr, Inhabited

namespace Diagnostic

/-- An error without a location. -/
def error (code message : String) : Diagnostic := ⟨.error, code, message, none⟩

/-- The diagnostic, anchored at `location`. -/
def located (d : Diagnostic) (location : Location) : Diagnostic :=
  { d with location := some location }

/-- Severity, code and text on one line. -/
def display (d : Diagnostic) : String :=
  d.severity.name ++ " " ++ d.code ++ ": " ++ d.message

/-- The end of a location that stands before a diagnostic. -/
def locationEnd : List Char := [')', ':', ' ']

/-- Reads `line,column` after the last opening parenthesis; what follows
a second comma is ignored. -/
def readLocation (before : List Char) : Option Location := do
  let coordinates ← afterLast '(' before
  match splitAll ',' coordinates with
  | line :: column :: _ =>
    let l ← readBounded 0x100000000 (trim line)
    let c ← readBounded 0x100000000 (trim column)
    pure ⟨l, c⟩
  | _ => none

/-- Reads `severity code: text`. -/
def readBody (location : Option Location) (body : List Char) : Option Diagnostic := do
  let (head, message) ← splitOnce [':', ' '] body
  match words head with
  | [severity, code] =>
    let s ← Severity.ofWord? severity
    pure ⟨s, String.ofList code, String.ofList message, location⟩
  | _ => none

/-- Reads one line of compiler output; `none` if it is not a diagnostic. -/
def parseLine (line : String) : Option Diagnostic :=
  let text := trim line.toList
  match splitOnce locationEnd text with
  | some (before, body) => do
    let location ← readLocation before
    readBody (some location) body
  | none => readBody none text

end Diagnostic

/-- The diagnostics of one run, in the order they were reported. -/
abbrev Diagnostics := List Diagnostic

namespace Diagnostics

/-- Whether any of them is an error. -/
def hasErrors (ds : Diagnostics) : Bool := ds.any fun d => d.severity = .error

/-- One line per diagnostic. -/
def display (ds : Diagnostics) : String :=
  String.intercalate "\n" (ds.map Diagnostic.display)

end Diagnostics

end ClrListing
