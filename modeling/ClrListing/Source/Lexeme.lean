/-
Where things stand in a source text, and the lexical units it is made of.

Offsets and spans count bytes of the UTF-8 form; a location counts lines
and the characters of a line, both from one.

The lexical units are told apart as far as declarations need it: keywords
that shape declarations have kinds of their own, and whatever can only
occur inside a body falls into a few coarse kinds.
-/

namespace ClrListing.Source

-- ============================================================== spans

/-- A range of byte offsets, `stop` not included. -/
structure Span where
  /-- Offset of the first byte. -/
  start : Nat
  /-- Offset just after the last byte. -/
  stop : Nat
  deriving DecidableEq, Repr, Inhabited

/-- The size of a text in bytes. -/
def byteSize : List Char → Nat
  | [] => 0
  | c :: rest => c.utf8Size + byteSize rest

/-- What is left of `s` once the characters that start below byte offset
`offset` are gone. -/
def dropBytes (offset : Nat) : List Char → List Char
  | [] => []
  | c :: rest => if offset = 0 then c :: rest else dropBytes (offset - c.utf8Size) rest

/-- The characters of `s` that start below byte offset `offset`. -/
def takeBytes (offset : Nat) : List Char → List Char
  | [] => []
  | c :: rest => if offset = 0 then [] else c :: takeBytes (offset - c.utf8Size) rest

/-- The text a span covers; none if the span runs backwards. -/
def Span.textOf (span : Span) (source : String) : String :=
  String.ofList (takeBytes (span.stop - span.start) (dropBytes span.start source.toList))

-- ========================================================== locations

/-- A line and a column, both counted from one. -/
structure Location where
  /-- Line, counted from one. -/
  line : Nat
  /-- Column in characters, counted from one. -/
  column : Nat
  deriving DecidableEq, Repr, Inhabited

namespace Location

/-- The top of a file. -/
def first : Location := ⟨1, 1⟩

/-- The location just after the character `c` at `here`: a line feed
opens the next line. -/
def after (here : Location) (c : Char) : Location :=
  if c = '\n' then ⟨here.line + 1, 1⟩ else ⟨here.line, here.column + 1⟩

/-- The largest column; no place in a line counts as further on. -/
def lastColumn : Nat := 0xffffffff

/-- The location with a column that is not past the last. -/
def capped (here : Location) : Location :=
  { here with column := min here.column lastColumn }

/-- The location of byte offset `offset`; offsets past the end count as
the end. -/
def ofOffset (source : String) (offset : Nat) : Location :=
  ((takeBytes offset source.toList).foldl after first).capped

/-- The location the way compilers print it. -/
def display (here : Location) : String :=
  "(" ++ here.line.repr ++ "," ++ here.column.repr ++ ")"

end Location

-- ============================================================== lexemes

/-- The kind of a lexeme. -/
inductive LexemeKind where
  | kwUsing | kwNamespace | kwExtern | kwClass | kwStruct | kwInterface | kwEnum
  | kwDelegate | kwEvent | kwOperator | kwImplicit | kwExplicit | kwThis | kwBase
  /-- A keyword that modifies a declaration. -/
  | modifier
  /-- `ref`, `out`, `in` or `params`. -/
  | passing
  /-- A keyword that names a type. -/
  | predefined
  | identifier
  | number
  | string
  | char
  | lbrace | rbrace | lparen | rparen | lbracket | rbracket | lt | gt
  | comma | semicolon | colon | doubleColon | dot | assign | arrow | question | star | tilde
  /-- Any other operator. -/
  | punctuation
  /-- The end of the text. -/
  | endOfText
  deriving DecidableEq, Repr, Inhabited

/-- A lexeme: what it is, how it is written and where it stands. -/
structure Lexeme where
  /-- What it is. -/
  kind : LexemeKind
  /-- How it is written. -/
  text : String
  /-- Where it stands. -/
  span : Span
  deriving DecidableEq, Repr, Inhabited

-- =========================================================== keywords

/-- Keywords that modify a declaration. -/
def modifierKeywords : List String :=
  ["public", "private", "protected", "internal", "static", "abstract", "sealed", "virtual",
    "override", "readonly", "unsafe", "new", "const", "volatile", "fixed"]

/-- Keywords that say how a parameter is passed. -/
def passingKeywords : List String := ["ref", "out", "in", "params"]

/-- Keywords that name a type. -/
def predefinedKeywords : List String :=
  ["bool", "byte", "sbyte", "char", "short", "ushort", "int", "uint", "long", "ulong",
    "float", "double", "decimal", "string", "object", "void"]

/-- Every keyword with its kind. -/
def keywords : List (String × LexemeKind) :=
  [("using", .kwUsing), ("namespace", .kwNamespace), ("extern", .kwExtern),
    ("class", .kwClass), ("struct", .kwStruct), ("interface", .kwInterface),
    ("enum", .kwEnum), ("delegate", .kwDelegate), ("event", .kwEvent),
    ("operator", .kwOperator), ("implicit", .kwImplicit), ("explicit", .kwExplicit),
    ("this", .kwThis), ("base", .kwBase)]
    ++ modifierKeywords.map (·, .modifier)
    ++ passingKeywords.map (·, .passing)
    ++ predefinedKeywords.map (·, .predefined)

/-- The kind of a word: the keyword it is, or an identifier. -/
def wordKind (word : String) : LexemeKind :=
  (keywords.lookup word).getD .identifier

-- ======================================================== punctuation

/-- The brace that opens a block. -/
def leftBrace : Char := Char.ofNat 0x7b

/-- The brace that closes a block. -/
def rightBrace : Char := Char.ofNat 0x7d

/-- Operators and brackets by their spelling, longer spellings before
their own beginnings. -/
def operators : List (List Char × LexemeKind) :=
  [(['<', '<', '='], .punctuation), (['?', '?', '='], .punctuation),
    ([':', ':'], .doubleColon), (['=', '>'], .arrow),
    (['=', '='], .punctuation), (['!', '='], .punctuation), (['<', '='], .punctuation),
    (['>', '='], .punctuation), (['&', '&'], .punctuation), (['|', '|'], .punctuation),
    (['+', '+'], .punctuation), (['-', '-'], .punctuation), (['<', '<'], .punctuation),
    (['?', '?'], .punctuation), (['?', '.'], .punctuation), (['-', '>'], .punctuation),
    (['.', '.'], .punctuation), (['+', '='], .punctuation), (['-', '='], .punctuation),
    (['*', '='], .punctuation), (['/', '='], .punctuation), (['%', '='], .punctuation),
    (['&', '='], .punctuation), (['|', '='], .punctuation), (['^', '='], .punctuation),
    ([leftBrace], .lbrace), ([rightBrace], .rbrace),
    (['('], .lparen), ([')'], .rparen), (['['], .lbracket), ([']'], .rbracket),
    (['<'], .lt), (['>'], .gt), ([','], .comma), ([';'], .semicolon), ([':'], .colon),
    (['.'], .dot), (['='], .assign), (['?'], .question), (['*'], .star), (['~'], .tilde),
    (['+'], .punctuation), (['-'], .punctuation), (['/'], .punctuation),
    (['%'], .punctuation), (['&'], .punctuation), (['|'], .punctuation),
    (['^'], .punctuation), (['!'], .punctuation)]

/-- The longest operator that `s` opens with. -/
def operatorAt? (s : List Char) : Option (List Char × LexemeKind) :=
  operators.find? fun op => op.1.isPrefixOf s

end ClrListing.Source
