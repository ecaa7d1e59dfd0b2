/-
Reading scripts.

Each function takes what it reads off the front of a text. Words, commands
and lists of commands may hold each other; a unit of `fuel` is used up for
each, so that some times as many as there are characters are enough.

Where a command starts, a word may be an alias. Its text is put in its
place and read on from there, and until the end of that text the alias is
a word like others.
-/
import ClrListing.Script.Basic

namespace ClrListing.Script

-- ================================================================ faults

/-- What is wrong with a script. -/
inductive SyntaxFault where
  /-- Something stands where it may not, or where something else has to. -/
  | unexpected (token : String) (expected : Option String)
  /-- Quotes are not closed. -/
  | openQuotes
  /-- Backquotes are not closed. -/
  | openBackquotes
  /-- What closes a parameter or arithmetic is missing. -/
  | missing (sign : String)
  /-- A loop is over something that is no name. -/
  | loopName
  /-- A function is given something that is no name for one. -/
  | functionName
  /-- Too much of it stands in other parts of it. -/
  | tooDeep
  deriving DecidableEq, Repr, Inhabited

/-- What is told of a fault in a script. -/
def SyntaxFault.message : SyntaxFault → String
  | unexpected token none => token ++ " unexpected"
  | unexpected token (some other) => token ++ " unexpected (expecting " ++ other ++ ")"
  | openQuotes => "Unterminated quoted string"
  | openBackquotes => "EOF in backquote substitution"
  | missing sign => "Missing \x27" ++ sign ++ "\x27"
  | loopName => "Bad for loop variable"
  | functionName => "Bad function name"
  | tooDeep => "too deep"

/-- A fault, and the line that it is found in. -/
structure Broken where
  line : Nat
  fault : SyntaxFault
  deriving DecidableEq, Repr, Inhabited

-- =============================================================== reading

/-- A script that is read. -/
structure Unread where
  /-- What is left of it. -/
  text : List Char
  /-- The number of its line. -/
  line : Nat
  /-- The texts that stand for words where a command starts. -/
  aliases : List (List Char × List Char)
  /-- The aliases whose texts were put in, each with how many characters
  there are behind its text. -/
  inUse : List (List Char × Nat)
  deriving DecidableEq, Repr, Inhabited

namespace Unread

/-- A text of which nothing is read yet. -/
def ofText (text : List Char) (line : Nat) (aliases : List (List Char × List Char)) : Unread :=
  ⟨text, line, aliases, []⟩

/-- A text that stands within another. -/
def inner (u : Unread) (text : List Char) : Unread := ofText text u.line u.aliases

end Unread

/-- A step that reads from the front of a text; it fails if the text is not
well formed. -/
abbrev Reader := StateT Unread (Except Broken)

namespace Reader

/-- The text is not well formed. -/
def fail (fault : SyntaxFault) : Reader α := fun u => .error ⟨u.line, fault⟩

/-- What is left of the text. -/
def rest : Reader (List Char) := do return (← get).text

/-- The next character, which is left. -/
def peek? : Reader (Option Char) := do return (← rest).head?

/-- Takes the next `count` characters off. -/
def drop (count : Nat) : Reader Unit := modify fun u => { u with
  text := u.text.drop count
  line := u.line + (u.text.take count).count '\n' }

/-- Takes a text off if it comes next, and tells whether it did. -/
def take (text : String) : Reader Bool := do
  if text.toList.isPrefixOf (← rest) then
    drop text.length
    return true
  else return false

/-- Takes a text off that must come next. -/
def expect (text : String) (fault : SyntaxFault) : Reader Unit := do
  if !(← take text) then fail fault

/-- Takes the longest run of such characters off. -/
def takeWhile (p : Char → Bool) : Reader (List Char) := do
  let run := (← rest).takeWhile p
  drop run.length
  return run

end Reader

-- ============================================================ characters

/-- The blanks between words. -/
def isBlank (c : Char) : Bool := c = ' ' || c = '\t'

/-- The characters that end a word. -/
def endsWord (c : Char) : Bool :=
  isBlank c || c = '\n' || c = ';' || c = '|' || c = '&' || c = '<' || c = '>' || c = '('
    || c = ')'

/-- The characters that a name starts with. -/
def startsName (c : Char) : Bool := c.isAlpha || c = '_'

/-- The characters of a name. -/
def isInName (c : Char) : Bool := startsName c || c.isDigit

/-- Whether a text is a name. -/
def isName (s : List Char) : Bool := s.head?.any startsName && s.all isInName

/-- The parameters that have no name: the arguments, how many there are,
the last status, the options and the numbers of processes. -/
def isSpecial (c : Char) : Bool :=
  c = '@' || c = '*' || c = '#' || c = '?' || c = '$' || c = '!' || c = '-' || c.isDigit

/-- Takes blanks and broken line ends off; a step is used up for each
break. -/
def skipBreaks : (fuel : Nat) → Reader Unit
  | 0 => return ()
  | fuel + 1 => do
    let _ ← Reader.takeWhile isBlank
    if ← Reader.take "\\\n" then skipBreaks fuel

/-- Takes blanks off, and a comment after them. -/
def skipBlanks : Reader Unit := do
  skipBreaks (← Reader.rest).length
  if (← Reader.peek?) = some '#' then
    let _ ← Reader.takeWhile (· ≠ '\n')

/-- Takes blanks, comments and line ends off; a step is used up for each
line. -/
def skipLines : (fuel : Nat) → Reader Unit
  | 0 => skipBlanks
  | fuel + 1 => do
    skipBlanks
    if ← Reader.take "\n" then skipLines fuel

/-- The word that comes next, as it is written, if it has no quotes; it is
left. -/
def peekWord : Reader (List Char) := do
  return (← Reader.rest).takeWhile fun c => !endsWord c

/-- The words that start or end a command of other commands. -/
def keywords : List String :=
  ["!", "\x7b", "\x7d", "case", "do", "done", "elif", "else", "esac", "fi", "for", "if", "in",
    "then", "until", "while"]

/-- The words that end a list of commands. -/
def closingWords : List String := ["do", "done", "esac", "then", "elif", "else", "fi", "\x7d"]

/-- Whether a list of commands ends here. -/
def isAtEnd : Reader Bool := do
  let s ← Reader.rest
  let word := String.ofList (← peekWord)
  return s.isEmpty || s.head? = some ')' || ";;".toList.isPrefixOf s || closingWords.contains word

/-- Takes a given word off if it comes next. -/
def takeWord (word : String) : Reader Bool := do
  if (← peekWord) = word.toList then
    Reader.drop word.length
    return true
  else return false

-- ========================================================== redirections

/-- A sign for a redirection. -/
inductive Arrow where
  | write (forces : Bool)
  | append
  | read
  | readWrite
  | copy
  | document (dropsTabs : Bool)
  deriving DecidableEq, Repr, Inhabited

/-- The signs by their texts, a longer one before one that it starts
with; those after the first four read. -/
def arrows : List (String × Arrow × Nat) :=
  [(">>", .append, 1), (">&", .copy, 1), (">|", .write true, 1), (">", .write false, 1),
    ("<<-", .document true, 0), ("<<", .document false, 0), ("<&", .copy, 0),
    ("<>", .readWrite, 0), ("<", .read, 0)]

/-- The sign for a redirection that a text starts with, if it starts with
one: how many characters it has, and the number of the channel. The number
has one digit. -/
def arrowAt? (s : List Char) : Option (Nat × Arrow × Nat) := do
  let digits := s.takeWhile Char.isDigit
  let (text, arrow, channel) ← arrows.find? fun a => a.1.toList.isPrefixOf (s.drop digits.length)
  match digits with
  | [] => return (text.length, arrow, channel)
  | [digit] => return (text.length + 1, arrow, digit.toNat - '0'.toNat)
  | _ => none

/-- Takes a sign for a redirection off, if one comes next, and the number
of the channel. -/
def readArrow? : Reader (Option (Arrow × Nat)) := do
  match arrowAt? (← Reader.rest) with
  | some (size, arrow, channel) =>
    Reader.drop size
    return some (arrow, channel)
  | none => return none

-- ================================================================ tokens

/-- The signs between commands, a longer one before one that it starts
with. -/
def commandSigns : List String := ["&&", "&", "||", "|", ";;", ";", "(", ")"]

/-- A text in double quotes. -/
def inQuotes (text : String) : String := "\x22" ++ text ++ "\x22"

/-- The sign between commands that comes next, if one does. -/
def peekSign? : Reader (Option String) := do
  let s ← Reader.rest
  return commandSigns.find? fun sign => sign.toList.isPrefixOf s

/-- Whether a word comes next. -/
def isAtWord : Reader Bool := do
  skipBlanks
  let s ← Reader.rest
  return s.head?.any (fun c => !endsWord c) && (arrowAt? s).isNone

/-- Fails, since something comes next that may not stand here. A keyword
is told of by itself where it counts as one. -/
def unexpected (expected : Option String) (countsKeywords : Bool) : Reader α := do
  skipBlanks
  let s ← Reader.rest
  let fail (token : String) : Reader α := Reader.fail (.unexpected token expected)
  if s.isEmpty then fail "end of file"
  else if ← Reader.take "\n" then fail "newline"
  else if (arrowAt? s).isSome then fail "redirection"
  else match ← peekSign? with
    | some sign => fail (inQuotes sign)
    | none =>
      let word := String.ofList (← peekWord)
      fail (if countsKeywords && keywords.contains word then inQuotes word else "word")

/-- Takes a given word off that must come next. -/
def expectWord (word : String) : Reader Unit := do
  if !(← takeWord word) then unexpected (some (inQuotes word)) true

/-- Takes a given sign off that must come next. -/
def expectSign (sign : String) (countsKeywords : Bool) : Reader Unit := do
  if (← peekSign?) = some sign then Reader.drop sign.length
  else unexpected (some (inQuotes sign)) countsKeywords

-- =============================================================== aliases

/-- Puts the texts of aliases in the places of the words that come next,
as long as these are aliases whose texts are not read; at most so many
are. -/
def replaceAliases : (bound : Nat) → Reader Unit
  | 0 => return ()
  | bound + 1 => do
    skipBlanks
    let word ← peekWord
    let u ← get
    let inUse := u.inUse.filter fun a => a.2 < u.text.length
    set { u with inUse := inUse }
    if keywords.contains (String.ofList word) || inUse.any (fun a => a.1 = word) then return ()
    else match u.aliases.lookup word with
      | none => return ()
      | some text =>
        let rest := u.text.drop word.length
        set { u with text := text ++ rest, inUse := (word, rest.length) :: inUse }
        replaceAliases bound

/-- Puts texts of aliases in where the text of an alias ended that ends
with a blank. -/
def replaceNextAlias : Reader Unit := do
  skipBlanks
  let u ← get
  let ended := u.inUse.filter fun a => u.text.length ≤ a.2
  let goesOn := ended.any fun a =>
    ((u.aliases.lookup a.1).bind List.getLast?).any isBlank
  if goesOn then replaceAliases (u.aliases.length + 1)

-- ================================================================ pieces

/-- Where pieces stand. -/
inductive Context where
  /-- In a word. -/
  | plain
  /-- Between double quotes. -/
  | quotes
  /-- In a text that is read line by line. -/
  | document
  /-- In the braces of a parameter; these may stand in quotes. -/
  | braces (inQuotes : Bool)
  /-- In the pattern that a parameter is cut by. -/
  | pattern
  /-- In arithmetic, in so many parentheses. -/
  | arithmetic (depth : Nat)
  deriving DecidableEq, Repr, Inhabited

namespace Context

/-- Whether characters are quoted. -/
def isQuoted : Context → Bool
  | plain | pattern | braces false => false
  | _ => true

/-- Whether a character ends the pieces. -/
def endsAt : Context → Char → Bool
  | plain, c => endsWord c
  | quotes, c => c = '\x22'
  | document, _ => false
  | braces _, c | pattern, c => c = '\x7d'
  | arithmetic _, _ => false

/-- Whether a backslash quotes a character; elsewhere it stands for
itself. -/
def escapes : Context → Char → Bool
  | plain, _ | pattern, _ | braces false, _ => true
  | document, c | arithmetic _, c => c = '$' || c = '\x60' || c = '\\'
  | quotes, c => c = '$' || c = '\x60' || c = '\x22' || c = '\\'
  | braces true, c => c = '$' || c = '\x60' || c = '\x22' || c = '\\' || c = '\x7d'

/-- Whether double quotes quote. -/
def hasQuotes : Context → Bool
  | plain | braces _ | pattern => true
  | _ => false

/-- Whether single quotes quote. -/
def hasVerbatim : Context → Bool
  | plain | braces false | pattern => true
  | _ => false

end Context

/-- Takes a backslash and the character after it off; both are dropped
before a line end. -/
def readEscape (context : Context) : Reader (List Piece) := do
  Reader.drop 1
  match ← Reader.peek? with
  | none => return [.char ⟨'\\', true⟩]
  | some c =>
    Reader.drop 1
    if c = '\n' then return []
    else if context.escapes c then return [.char ⟨c, true⟩]
    else return [.char ⟨'\\', true⟩, .char ⟨c, true⟩]

/-- Takes what stands between single quotes off. -/
def readVerbatim : Reader (List Piece) := do
  Reader.drop 1
  let inner ← Reader.takeWhile (· ≠ '\x27')
  Reader.expect "\x27" .openQuotes
  return if inner.isEmpty then [.nothing] else inner.map fun c => .char ⟨c, true⟩

/-- Takes the name of a parameter off, if one comes next. A number has one
digit, unless it stands in braces. -/
def readName? (inBraces : Bool) : Reader (Option (List Char)) := do
  match ← Reader.peek? with
  | none => return none
  | some c =>
    if startsName c then return some (← Reader.takeWhile isInName)
    else if inBraces && c.isDigit then return some (← Reader.takeWhile Char.isDigit)
    else if isSpecial c then
      Reader.drop 1
      return some [c]
    else return none

/-- Takes the sign for what is asked of a parameter off: the request, and
whether an empty value counts as none. -/
def readRequest : Reader (Request × Bool) := do
  if ← Reader.take "##" then return (.cut .longestStart, false)
  else if ← Reader.take "#" then return (.cut .shortestStart, false)
  else if ← Reader.take "%%" then return (.cut .longestEnd, false)
  else if ← Reader.take "%" then return (.cut .shortestEnd, false)
  else
    let skipsEmpty ← Reader.take ":"
    if ← Reader.take "-" then return (.orElse, skipsEmpty)
    else if ← Reader.take "=" then return (.orAssign, skipsEmpty)
    else if ← Reader.take "?" then return (.orFail, skipsEmpty)
    else if ← Reader.take "+" then return (.ifGiven, skipsEmpty)
    else return (.unknown, false)

/-- Takes what stands between backquotes off, without the backslashes that
it is quoted with. -/
def readBackquoted (inQuotes : Bool) : (fuel : Nat) → Reader (List Char)
  | 0 => Reader.fail .tooDeep
  | fuel + 1 => do
    match ← Reader.rest with
    | [] => Reader.fail .openBackquotes
    | '\x60' :: _ =>
      Reader.drop 1
      return []
    | '\\' :: c :: _ =>
      Reader.drop 2
      let later ← readBackquoted inQuotes fuel
      if c = '\x60' || c = '\\' || c = '$' || (inQuotes && c = '\x22') then return c :: later
      else return '\\' :: c :: later
    | c :: _ =>
      Reader.drop 1
      return c :: (← readBackquoted inQuotes fuel)

-- ============================================================= documents

/-- The end of a document as it is written, where blanks may stand in
quotes. -/
def documentWord : (quote : Option Char) → List Char → List Char
  | _, [] => []
  | quote, c :: rest =>
    match quote with
    | some q => c :: documentWord (if c = q then none else quote) rest
    | none =>
      if endsWord c then []
      else c :: documentWord (if c = '\x27' || c = '\x22' then some c else none) rest

/-- The end of a document, without its quotes, and whether there are
some. -/
def documentEnd (word : List Char) : List Char × Bool :=
  let kept := word.filter fun c => c ≠ '\x27' && c ≠ '\x22' && c ≠ '\\'
  (kept, kept ≠ word)

/-- How many characters there are up to the end of a line, where the line
ends in quotes do not count. -/
def lineLength : (quote : Option Char) → List Char → Nat
  | _, [] => 0
  | quote, '\\' :: _ :: rest => lineLength quote rest + 2
  | quote, c :: rest =>
    match quote with
    | none =>
      if c = '\n' then 0
      else if c = '\x27' || c = '\x22' then lineLength (some c) rest + 1
      else lineLength none rest + 1
    | some q => lineLength (if c = q then none else some q) rest + 1

/-- The lines of a document up to its end, and what stands after it; a
step is used up for each line. -/
def documentLines (dropsTabs : Bool) (ending : List Char) :
    (fuel : Nat) → List Char → List Char × List Char
  | 0, s => ([], s)
  | fuel + 1, s =>
    if s.isEmpty then ([], [])
    else
      let line := s.takeWhile (· ≠ '\n')
      let after := s.drop (line.length + 1)
      let kept := if dropsTabs then line.dropWhile (· = '\t') else line
      if kept = ending then ([], after)
      else
        let isLast := line.length = s.length
        let (lines, after) := documentLines dropsTabs ending fuel after
        (kept ++ (if isLast then [] else ['\n']) ++ lines, after)

/-- Takes a document out of the text behind the line that it is asked for
in. -/
def takeDocument (dropsTabs : Bool) (ending : List Char) : Reader (List Char) := do
  let s ← Reader.rest
  let length := lineLength none s
  let (document, after) := documentLines dropsTabs ending (s.length + 1) (s.drop (length + 1))
  modify fun u => { u with text := s.take length ++ '\n' :: after }
  return document

-- ================================================================ values

/-- Takes a name and an equals sign off, if they come next. -/
def readAssigned? : Reader (Option (List Char)) := do
  let word ← peekWord
  let name := word.takeWhile isInName
  if isName name && (word.drop name.length).head? = some '=' then
    Reader.drop (name.length + 1)
    return some name
  else return none

/-- The text of a word without quotes in which nothing is replaced. -/
def plainText? (word : List Piece) : Option (List Char) :=
  word.mapM fun piece => match piece with
    | .char ⟨c, false⟩ => some c
    | _ => none

/-- The pieces of a word that a parameter is given: a tilde at the start
stands for the home directory. -/
def withHome (pieces : List Piece) : List Piece :=
  match pieces with
  | .char ⟨'~', false⟩ :: rest =>
    match rest with
    | [] | .char ⟨'/', false⟩ :: _ => .home :: rest
    | _ => pieces
  | _ => pieces

/-- The pieces of a value: a tilde at its start or after a colon stands for
the home directory. -/
def withHomes : (starts : Bool) → List Piece → List Piece
  | _, [] => []
  | starts, piece :: rest =>
    match piece with
    | .char ⟨'~', false⟩ =>
      let ends := match rest with
        | [] | .char ⟨'/', false⟩ :: _ | .char ⟨':', false⟩ :: _ => true
        | _ => false
      (if starts && ends then .home else piece) :: withHomes false rest
    | .char ⟨':', false⟩ => piece :: withHomes true rest
    | _ => piece :: withHomes false rest

/-- What is wrong if the braces of a parameter are not closed; within
quotes these are not closed either. -/
def openBraces (isQuoted : Bool) : SyntaxFault := if isQuoted then .openQuotes else .missing "\x7d"

-- ============================================================== commands

mutual

/-- Reads the pieces of a word, or of what stands between quotes or in
braces, up to its end. -/
def readPieces : (fuel : Nat) → Context → Reader (List Piece)
  | 0, _ => Reader.fail .tooDeep
  | fuel + 1, context => do
    match ← Reader.peek? with
    | none => return []
    | some c =>
      if context.endsAt c then return []
      else
        let pieces ←
          if c = '\\' then readEscape context
          else if c = '$' then readDollar fuel context
          else if c = '\x60' then do
            Reader.drop 1
            let inner ← readBackquoted (context = .quotes) ((← Reader.rest).length + 1)
            pure [.printed (← readInner fuel inner) context.isQuoted]
          else if c = '\x22' && context.hasQuotes then readQuotes fuel
          else if c = '\x27' && context.hasVerbatim then readVerbatim
          else do
            Reader.drop 1
            pure [.char ⟨c, context.isQuoted⟩]
        return pieces ++ (← readPieces fuel context)

/-- Reads the pieces of arithmetic up to the parentheses that close it. -/
def readResult : (fuel : Nat) → (depth : Nat) → Reader (List Piece)
  | 0, _ => Reader.fail .tooDeep
  | fuel + 1, depth => do
    match ← Reader.peek? with
    | none => Reader.fail (.missing "))")
    | some c =>
      if c = ')' && depth = 0 && "))".toList.isPrefixOf (← Reader.rest) then
        Reader.drop 2
        return []
      else
        let pieces ←
          if c = '\\' then readEscape (.arithmetic depth)
          else if c = '$' then readDollar fuel (.arithmetic depth)
          else if c = '\x60' then do
            Reader.drop 1
            let inner ← readBackquoted false ((← Reader.rest).length + 1)
            pure [.printed (← readInner fuel inner) true]
          else do
            Reader.drop 1
            pure [.char ⟨c, true⟩]
        let depth := if c = '(' then depth + 1 else if c = ')' then depth - 1 else depth
        return pieces ++ (← readResult fuel depth)

/-- Reads the commands of a text of their own. -/
def readInner : (fuel : Nat) → List Char → Reader (List Step)
  | 0, _ => Reader.fail .tooDeep
  | fuel + 1, text => do
    let outer ← get
    set (outer.inner text)
    let steps ← readSteps fuel true
    set outer
    return steps

/-- Reads what stands between double quotes. -/
def readQuotes : (fuel : Nat) → Reader (List Piece)
  | 0 => Reader.fail .tooDeep
  | fuel + 1 => do
    Reader.drop 1
    let inner ← readPieces fuel .quotes
    Reader.expect "\x22" .openQuotes
    return if inner.isEmpty then [.nothing] else inner

/-- Reads what is asked of a parameter up to the closing brace. -/
def readBraces : (fuel : Nat) → (isQuoted : Bool) → Reader Piece
  | 0, _ => Reader.fail .tooDeep
  | fuel + 1, isQuoted => do
    let s ← Reader.rest
    if s.head? = some '#' && !("#\x7d".toList.isPrefixOf s) then do
      Reader.drop 1
      match ← readName? true with
      | some name =>
        if ← Reader.take "\x7d" then return .parameter ⟨name, .length, false⟩ [] isQuoted
        else do
          modify fun u => { u with text := s.drop 1 }
          readRequested fuel ['#'] isQuoted
      | none => readRequested fuel ['#'] isQuoted
    else
      match ← readName? true with
      | some name =>
        if ← Reader.take "\x7d" then return .parameter ⟨name, .value, false⟩ [] isQuoted
        else readRequested fuel name isQuoted
      | none => do
        let _ ← readPieces fuel (.braces isQuoted)
        Reader.expect "\x7d" (openBraces isQuoted)
        return .parameter ⟨[], .unknown, false⟩ [] isQuoted

/-- Reads a request for a parameter with its word, and the closing
brace. -/
def readRequested : (fuel : Nat) → (name : List Char) → (isQuoted : Bool) → Reader Piece
  | 0, _, _ => Reader.fail .tooDeep
  | fuel + 1, name, isQuoted => do
    let (request, skipsEmpty) ← readRequest
    let context := match request with
      | .cut _ => Context.pattern
      | _ => .braces isQuoted
    let word ← readPieces fuel context
    Reader.expect "\x7d" (openBraces isQuoted)
    return .parameter ⟨name, request, skipsEmpty⟩ (if isQuoted then word else withHome word)
      isQuoted

/-- Reads what starts with a dollar sign, which stands for itself if
nothing fits. -/
def readDollar : (fuel : Nat) → Context → Reader (List Piece)
  | 0, _ => Reader.fail .tooDeep
  | fuel + 1, context => do
    Reader.drop 1
    if ← Reader.take "((" then return [.result (← readResult fuel 0) context.isQuoted]
    else if ← Reader.take "(" then
      let steps ← readSteps fuel true
      skipLines fuel
      expectSign ")" true
      return [.printed steps context.isQuoted]
    else if ← Reader.take "\x7b" then return [← readBraces fuel context.isQuoted]
    else
      match ← readName? false with
      | some name => return [.parameter ⟨name, .value, false⟩ [] context.isQuoted]
      | none => return [.char ⟨'$', true⟩]

/-- Reads a word, which must come next. -/
def readWord : (fuel : Nat) → (expected : Option String) → Reader (List Piece)
  | 0, _ => Reader.fail .tooDeep
  | fuel + 1, expected => do
    if ← isAtWord then return withHome (← readPieces fuel .plain)
    else unexpected expected false

/-- Reads what a redirection goes to. -/
def readTarget : (fuel : Nat) → Arrow → (channel : Nat) → Reader Redirection
  | 0, _, _ => Reader.fail .tooDeep
  | fuel + 1, arrow, channel => do
    match arrow with
    | .write forces => return .toFile channel (← readWord fuel none) false forces
    | .append => return .toFile channel (← readWord fuel none) true false
    | .read => return .fromFile channel (← readWord fuel none) false
    | .readWrite => return .fromFile channel (← readWord fuel none) true
    | .copy => return .toChannel channel (← readWord fuel none)
    | .document dropsTabs =>
      if !(← isAtWord) then unexpected none false
      let word := documentWord none (← Reader.rest)
      let (ending, isQuoted) := documentEnd word
      Reader.drop word.length
      let text ← takeDocument dropsTabs ending
      if isQuoted then return .fromText channel (text.map fun c => .char ⟨c, true⟩)
      else
        let outer ← get
        set (outer.inner text)
        let pieces ← readPieces fuel .document
        set outer
        return .fromText channel pieces

/-- Reads redirections. -/
def readRedirections : (fuel : Nat) → Reader (List Redirection)
  | 0 => Reader.fail .tooDeep
  | fuel + 1 => do
    skipBlanks
    match ← readArrow? with
    | some (arrow, channel) =>
      let first ← readTarget fuel arrow channel
      return first :: (← readRedirections fuel)
    | none => return []

/-- Reads words. -/
def readWords : (fuel : Nat) → Reader (List (List Piece))
  | 0 => Reader.fail .tooDeep
  | fuel + 1 => do
    if ← isAtWord then
      let word ← readWord fuel none
      return word :: (← readWords fuel)
    else return []

/-- Reads the words and redirections of a command up to its end. -/
def readArguments : (fuel : Nat) → Reader (List (List Piece) × List Redirection)
  | 0 => Reader.fail .tooDeep
  | fuel + 1 => do
    replaceNextAlias
    match ← readArrow? with
    | some (arrow, channel) =>
      let first ← readTarget fuel arrow channel
      let (words, redirections) ← readArguments fuel
      return (words, first :: redirections)
    | none =>
      if ← isAtWord then
        let word ← readWord fuel none
        let (words, redirections) ← readArguments fuel
        return (word :: words, redirections)
      else return ([], [])

/-- Reads values for parameters with redirections among them, and then the
words of a command. -/
def readAssignments : (fuel : Nat) →
    Reader (List Assignment × List (List Piece) × List Redirection)
  | 0 => Reader.fail .tooDeep
  | fuel + 1 => do
    replaceAliases fuel
    match ← readArrow? with
    | some (arrow, channel) =>
      let first ← readTarget fuel arrow channel
      let (values, words, redirections) ← readAssignments fuel
      return (values, words, first :: redirections)
    | none =>
      match ← readAssigned? with
      | some name =>
        let value := withHomes true (← readPieces fuel .plain)
        let (values, words, redirections) ← readAssignments fuel
        return (.mk name value :: values, words, redirections)
      | none =>
        let (words, redirections) ← readArguments fuel
        return ([], words, redirections)

/-- Reads a command that consists of no others, or what a function is
to do. -/
def readSimple : (fuel : Nat) → Reader Command
  | 0 => Reader.fail .tooDeep
  | fuel + 1 => do
    let line := (← get).line
    let (values, words, redirections) ← readAssignments fuel
    match values, words, redirections with
    | [], [word], [] =>
      if ← Reader.take "(" then do
        skipBlanks
        expectSign ")" false
        match plainText? word with
        | some name =>
          if !isName name || specialNames.contains (String.ofList name) then
            Reader.fail .functionName
          skipLines fuel
          return .define name (← readCommand fuel)
        | none => Reader.fail .functionName
      else return .simple line values words redirections
    | _, _, _ => return .simple line values words redirections

/-- Reads the patterns of an arm and the parenthesis after them. -/
def readPatterns : (fuel : Nat) → Reader (List (List Piece))
  | 0 => Reader.fail .tooDeep
  | fuel + 1 => do
    if !(← isAtWord) then
      Reader.drop (((← peekSign?).map String.length).getD 1)
      unexpected (some (inQuotes ")")) false
    let pattern ← readWord fuel none
    skipBlanks
    if (← peekSign?) = some "|" then
      Reader.drop 1
      return pattern :: (← readPatterns fuel)
    else do
      expectSign ")" false
      return [pattern]

/-- Reads the arms of a choice and its end. -/
def readArms : (fuel : Nat) → Reader (List Arm)
  | 0 => Reader.fail .tooDeep
  | fuel + 1 => do
    skipLines fuel
    if ← takeWord "esac" then return []
    else do
      let _ ← Reader.take "("
      let patterns ← readPatterns fuel
      let body ← readSteps fuel true
      skipLines fuel
      if ← takeWord "esac" then return [.mk patterns body]
      else do
        expectSign ";;" true
        return .mk patterns body :: (← readArms fuel)

/-- Reads a loop over fields after its first word. -/
def readLoop : (fuel : Nat) → Reader Command
  | 0 => Reader.fail .tooDeep
  | fuel + 1 => do
    skipBlanks
    let name ← peekWord
    if !isName name then Reader.fail .loopName
    Reader.drop name.length
    skipLines fuel
    let words ←
      if ← takeWord "in" then do
        let words ← readWords fuel
        if (← Reader.peek?) ≠ some '\n' && (← peekSign?) ≠ some ";" then unexpected none false
        pure words
      else pure [[.parameter ⟨['@'], .value, false⟩ [] true]]
    if (← peekSign?) = some ";" then Reader.drop 1
    skipLines fuel
    expectWord "do"
    let body ← readBody fuel
    expectWord "done"
    return .forEach name words body

/-- Reads a condition after its first word. -/
def readConditional : (fuel : Nat) → Reader Command
  | 0 => Reader.fail .tooDeep
  | fuel + 1 => do
    let test ← readBody fuel
    expectWord "then"
    let yes ← readBody fuel
    if ← takeWord "elif" then
      return .conditional test yes [.mk .always false (← readConditional fuel)]
    else if ← takeWord "else" then do
      let no ← readBody fuel
      expectWord "fi"
      return .conditional test yes no
    else do
      expectWord "fi"
      return .conditional test yes []

/-- Reads a command that consists of others, if one comes next. -/
def readCompound? : (fuel : Nat) → Reader (Option Command)
  | 0 => Reader.fail .tooDeep
  | fuel + 1 => do
    if ← takeWord "for" then return some (← readLoop fuel)
    else if ← takeWord "case" then do
      let subject ← readWord fuel (some "word")
      skipLines fuel
      expectWord "in"
      return some (.choose subject (← readArms fuel))
    else if ← takeWord "if" then return some (← readConditional fuel)
    else
      let loops ← takeWord "while"
      let waits ← if loops then pure false else takeWord "until"
      if loops || waits then do
        let test ← readBody fuel
        expectWord "do"
        let body ← readBody fuel
        expectWord "done"
        return some (.repeated waits test body)
      else if ← takeWord "\x7b" then do
        let body ← readBody fuel
        expectWord "\x7d"
        return some (.group body)
      else if ← Reader.take "(" then do
        let body ← readBody fuel
        expectSign ")" true
        return some (.apart body)
      else return none

/-- Reads a command. -/
def readCommand : (fuel : Nat) → Reader Command
  | 0 => Reader.fail .tooDeep
  | fuel + 1 => do
    replaceAliases fuel
    match ← readCompound? fuel with
    | some command =>
      let redirections ← readRedirections fuel
      if redirections.isEmpty then return command else return .redirected redirections command
    | none =>
      let startsOther := keywords.contains (String.ofList (← peekWord))
        || (← peekSign?).isSome || (← Reader.peek?).all (· = '\n')
      if startsOther then unexpected none true else readSimple fuel

/-- Reads commands of which each reads what the one before prints. -/
def readPipe : (fuel : Nat) → Reader (List Command)
  | 0 => Reader.fail .tooDeep
  | fuel + 1 => do
    let first ← readCommand fuel
    skipBlanks
    if (← peekSign?) = some "|" then do
      Reader.drop 1
      skipLines fuel
      return first :: (← readPipe fuel)
    else return [first]

/-- Reads a command of a list, which may be negated. -/
def readNegated : (fuel : Nat) → Reader Command
  | 0 => Reader.fail .tooDeep
  | fuel + 1 => do
    replaceAliases fuel
    let isNegated ← takeWord "!"
    let command ← match ← readPipe fuel with
      | [command] => pure command
      | commands => pure (.pipe commands)
    return if isNegated then .negate command else command

/-- Reads steps that depend on each other, the first of them with a
condition. -/
def readChain : (fuel : Nat) → Condition → Reader (List Step)
  | 0, _ => Reader.fail .tooDeep
  | fuel + 1, condition => do
    let command ← readNegated fuel
    skipBlanks
    if ← Reader.take "&&" then
      skipLines fuel
      return .mk condition true command :: (← readChain fuel .ifOk)
    else if ← Reader.take "||" then
      skipLines fuel
      return .mk condition true command :: (← readChain fuel .ifFailed)
    else return [.mk condition false command]

/-- Reads steps that depend on each other, and tells whether a sign after
them lets more follow. -/
def readEnded : (fuel : Nat) → Reader (List Step × Bool)
  | 0 => Reader.fail .tooDeep
  | fuel + 1 => do
    let steps ← readChain fuel .always
    skipBlanks
    match ← peekSign? with
    | some "&" =>
      Reader.drop 1
      return ([.mk .always false (.beside steps)], true)
    | some ";" =>
      Reader.drop 1
      return (steps, true)
    | _ => return (steps, false)

/-- Reads a list of commands up to what cannot belong to it; it may be
empty if it `mayEnd` at once. -/
def readSteps : (fuel : Nat) → (mayEnd : Bool) → Reader (List Step)
  | 0, _ => Reader.fail .tooDeep
  | fuel + 1, mayEnd => do
    skipLines fuel
    if (← Reader.rest).isEmpty || (mayEnd && (← isAtEnd)) then return []
    else
      let (steps, continues) ← readEnded fuel
      skipBlanks
      if continues || (← Reader.peek?) = some '\n' then return steps ++ (← readSteps fuel true)
      else return steps

/-- Reads a list of commands that must not be empty. -/
def readBody : (fuel : Nat) → Reader (List Step)
  | 0 => Reader.fail .tooDeep
  | fuel + 1 => readSteps fuel false

/-- Reads the commands of a line. -/
def readLine : (fuel : Nat) → Reader (List Step)
  | 0 => Reader.fail .tooDeep
  | fuel + 1 => do
    let (steps, continues) ← readEnded fuel
    skipBlanks
    let next ← Reader.peek?
    if next.isNone || next = some '\n' then return steps
    else if continues then return steps ++ (← readLine fuel)
    else unexpected none true

end

/-- The pieces of a text in which parameters are replaced as they are between
quotes; of a text that is not well formed, its characters. -/
def textPieces (text : List Char) (line : Nat) : List Piece :=
  match (readPieces (12 * text.length + 64) .document).run (Unread.ofText text line []) with
  | .ok (pieces, _) => pieces
  | .error _ => text.map fun c => .char ⟨c, true⟩

/-- What a script starts with: nothing but blanks, or the commands of a
line with what is left after it. -/
inductive Opening where
  | ended
  | line (steps : List Step) (rest : Unread)
  | broken (broken : Broken)

/-- The start of a script. No more than some nested steps are taken for a
character, and some at its end. -/
def Opening.of (u : Unread) : Opening :=
  let size := (u.aliases.map fun a => a.2.length).foldl (· + ·) 1 * (u.text.length + 1)
  let fuel := 12 * size + 64
  let read : Reader (List Step) := do
    skipLines fuel
    if (← Reader.rest).isEmpty then return [] else readLine fuel
  match read.run u with
  | .error b => .broken b
  | .ok ([], _) => .ended
  | .ok (steps, rest) => .line steps rest

end ClrListing.Script
