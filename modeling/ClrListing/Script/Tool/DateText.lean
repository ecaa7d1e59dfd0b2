/-
Moments in words: dates, times of day, days of the week, zones, and how
much later or earlier, in any order.

A text is cut into tokens, and items are read off these one after the
other; of each kind there is at most one, but any number of amounts. What
an item leaves open is as it is now, or as the day starts.
-/
import ClrListing.Script.Calendar
import ClrListing.Text.Search

namespace ClrListing.Script

open Text

-- ================================================================ tokens

/-- A span of time. -/
inductive TimeUnit where
  | year
  | month
  | day
  | hour
  | minute
  | second
  deriving DecidableEq, Repr, Inhabited

/-- A part of a text that tells a moment. -/
inductive DateToken where
  /-- A number, and how many digits it has. -/
  | number (value digits : Nat)
  | signed (isNegative : Bool) (value digits : Nat)
  /-- A number with a part less than one, in parts of a milliard. -/
  | fraction (isSigned : Bool) (value : Int) (parts : Nat)
  /-- A month and a day of the week, by their numbers. -/
  | month (number : Nat)
  | weekday (number : Nat)
  /-- A span, so many times. -/
  | span (unit : TimeUnit) (count : Nat)
  | ordinal (number : Int)
  /-- So many days from now. -/
  | dayShift (count : Int)
  | ago
  | half (isAfternoon : Bool)
  /-- How many seconds clocks of a zone are ahead. -/
  | zone (ahead : Int)
  | summer
  | sign (c : Char)
  deriving DecidableEq, Repr, Inhabited

/-- The months and the days of the week. -/
def monthNames : List String :=
  ["january", "february", "march", "april", "may", "june", "july", "august", "september",
    "october", "november", "december"]

/-- The days of the week. -/
def weekdayNames : List String :=
  ["sunday", "monday", "tuesday", "wednesday", "thursday", "friday", "saturday"]

/-- The names of zones, with how many hours their clocks are ahead. -/
def zoneNames : List (String × Int) :=
  [("gmt", 0), ("ut", 0), ("utc", 0), ("wet", 0), ("west", 1), ("bst", 1), ("art", -3), ("brt", -3),
    ("brst", -2), ("ast", -4), ("adt", -3), ("clt", -4), ("clst", -3), ("est", -5), ("edt", -4),
    ("cst", -6), ("cdt", -5), ("mst", -7), ("mdt", -6), ("pst", -8), ("pdt", -7), ("akst", -9),
    ("akdt", -8), ("hst", -10), ("sst", -12), ("wat", 1), ("cet", 1), ("cest", 2), ("met", 1),
    ("mez", 1), ("mest", 2), ("mesz", 2), ("eet", 2), ("eest", 3), ("cat", 2), ("sast", 2),
    ("eat", 3), ("msk", 3), ("msd", 4), ("sgt", 8), ("kst", 9), ("jst", 9), ("gst", 10),
    ("nzst", 12), ("nzdt", 13)]

/-- The numbers that have names of their own. -/
def ordinalNames : List (String × Int) :=
  [("last", -1), ("this", 0), ("next", 1), ("first", 1), ("third", 3), ("fourth", 4), ("fifth", 5),
    ("sixth", 6), ("seventh", 7), ("eighth", 8), ("ninth", 9), ("tenth", 10), ("eleventh", 11),
    ("twelfth", 12)]

/-- The spans by their names. -/
def spanNames : List (String × TimeUnit × Nat) :=
  [("year", .year, 1), ("month", .month, 1), ("fortnight", .day, 14), ("week", .day, 7),
    ("day", .day, 1), ("hour", .hour, 1), ("minute", .minute, 1), ("min", .minute, 1),
    ("second", .second, 1), ("sec", .second, 1)]

/-- The place of a name in a list of names, of which three letters are
enough. -/
def namePlace? (names : List String) (word : String) : Option Nat :=
  names.findIdx? fun name =>
    name = word || String.ofList (name.toList.take 3) = word

/-- How many hours clocks are ahead in the zone of a letter. -/
def letterHours? (c : Char) : Option Int :=
  if c = 'z' then some 0
  else if 'a' ≤ c && c ≤ 'i' then some (c.toNat - 'a'.toNat + 1 : Nat)
  else if 'k' ≤ c && c ≤ 'm' then some (c.toNat - 'k'.toNat + 10 : Nat)
  else if 'n' ≤ c && c ≤ 'y' then some (-((c.toNat - 'n'.toNat + 1 : Nat) : Int))
  else none

/-- What a word stands for where clocks are set for a zone. -/
def dateWord? (here : Zone) (letters : List Char) : Option DateToken :=
  let small := letters.map Char.toLower
  let bare := small.filter (· ≠ '.')
  let word := String.ofList bare
  let singular := if bare.getLast? = some 's' then String.ofList bare.dropLast else word
  let named := (here.usual :: (here.summer.map Prod.fst).toList).find? fun s =>
    s.name = bare.map Char.toUpper
  if word = "am" then some (.half false)
  else if word = "pm" then some (.half true)
  else if word = "dst" then some .summer
  else if word = "sept" then some (.month 9)
  else if word = "tues" then some (.weekday 2)
  else if word = "wednes" then some (.weekday 3)
  else if word = "thur" || word = "thurs" then some (.weekday 4)
  else match namePlace? monthNames word, namePlace? weekdayNames word with
    | some n, _ => some (.month (n + 1))
    | none, some n => some (.weekday n)
    | none, none =>
      match zoneNames.lookup word with
      | some hours => some (.zone (3600 * hours))
      | none =>
        match named with
        | some setting => some (.zone setting.ahead)
        | none =>
          match spanNames.lookup word <|> spanNames.lookup singular with
          | some (unit, count) => some (.span unit count)
          | none =>
            match ordinalNames.lookup word with
            | some n => some (.ordinal n)
            | none =>
              match word with
              | "tomorrow" => some (.dayShift 1)
              | "yesterday" => some (.dayShift (-1))
              | "today" | "now" => some (.dayShift 0)
              | "ago" => some .ago
              | _ =>
                match bare with
                | ['t'] => some (.sign 't')
                | ['j'] => some (.zone here.usual.ahead)
                | [c] => (letterHours? c).map fun hours => .zone (3600 * hours)
                | _ => none

/-- A text after the end of a remark in parentheses, which may have remarks
in it. -/
def afterRemark : (depth : Nat) → List Char → List Char
  | _, [] => []
  | depth, '(' :: rest => afterRemark (depth + 1) rest
  | depth, ')' :: rest => if depth ≤ 1 then rest else afterRemark (depth - 1) rest
  | depth, _ :: rest => afterRemark depth rest

/-- The number that a text opens with, maybe after a sign. -/
def numberToken (sign : Option Bool) (s : List Char) : DateToken × List Char :=
  let digits := s.takeWhile Char.isDigit
  let value := ((readDigits? 10 digits).map Prod.fst).getD 0
  let rest := s.drop digits.length
  let isNegative := sign.getD false
  let parts := match rest with
    | c :: rest => if c = '.' || c = ',' then rest.takeWhile Char.isDigit else []
    | [] => []
  if parts.isEmpty then
    (match sign with
      | none => .number value digits.length
      | some isNegative => .signed isNegative value digits.length, rest)
  else
    let milliard := ((readDigits? 10 (parts.take 9 ++ List.replicate (9 - parts.length) '0')).map
      Prod.fst).getD 0
    let rest := rest.drop (parts.length + 1)
    if isNegative && milliard > 0 then
      (.fraction true (-(value : Int) - 1) (1000000000 - milliard), rest)
    else (.fraction sign.isSome (if isNegative then -(value : Int) else value) milliard, rest)

/-- The tokens of a text of at most so many characters. -/
def dateTokens? (here : Zone) : (bound : Nat) → List Char → Option (List DateToken)
  | 0, _ => some []
  | _, [] => some []
  | bound + 1, c :: rest =>
    if isSpace c then dateTokens? here bound rest
    else if c = '(' then dateTokens? here bound (afterRemark 1 rest)
    else if c.isDigit then
      let (token, rest) := numberToken none (c :: rest)
      (dateTokens? here bound rest).map fun tokens => token :: tokens
    else if c = '-' || c = '+' then
      let after := rest.dropWhile isSpace
      if after.head?.any Char.isDigit then
        let (token, rest) := numberToken (some (c = '-')) after
        (dateTokens? here bound rest).map fun tokens => token :: tokens
      else dateTokens? here bound after
    else if c.isAlpha then
      let letters := (c :: rest).takeWhile fun c => c.isAlpha || c = '.'
      match dateWord? here letters with
      | some token =>
        (dateTokens? here bound ((c :: rest).drop letters.length)).map fun tokens =>
          token :: tokens
      | none => none
    else (dateTokens? here bound rest).map fun tokens => .sign c :: tokens

-- ================================================================= items

/-- What a text tells about a moment. -/
structure DateNotes where
  times : List (Int × Int × Int × Nat)
  dates : List CivilDay
  /-- Whether the year was told with a date; it may follow. -/
  hasYear : Bool
  /-- Days of the week, with how many of them to pass. -/
  weekdays : List (Int × Nat)
  /-- How many seconds clocks are ahead where the moment is told. -/
  zones : List Int
  /-- How much later it is, by years, months, days and seconds. -/
  years : Int
  months : Int
  days : Int
  seconds : Int
  parts : Nat
  isShifted : Bool
  deriving DecidableEq, Repr, Inhabited

namespace DateNotes

/-- Nothing is told. -/
def none : DateNotes := ⟨[], [], false, [], [], 0, 0, 0, 0, 0, false⟩

/-- The year that a number of so many digits stands for. -/
def fullYear (value digits : Nat) : Int :=
  if digits = 2 then (if value < 69 then 2000 + value else 1900 + value) else value

/-- The hour of a half of the day. -/
def hourOfHalf? (isAfternoon : Bool) (hour : Nat) : Option Nat :=
  if hour = 0 || hour > 12 then Option.none
  else some (hour % 12 + if isAfternoon then 12 else 0)

/-- The seconds that clocks are ahead by a number of hours, or of hours and
minutes, and the minutes that follow. -/
def ahead? (isNegative : Bool) (value digits : Nat) (minutes : Option Nat) : Option Int :=
  let total := match minutes with
    | some minutes => 60 * value + minutes
    | Option.none => if digits ≤ 2 then 60 * value else 60 * (value / 100) + value % 100
  if total > 1440 then Option.none
  else some (60 * if isNegative then -(total : Int) else total)

/-- The zone that tokens after a time open with, and the rest; there need
not be one. -/
def zoneAfter? : List DateToken → Option (Option Int × List DateToken)
  | .signed isNegative value digits :: .sign ':' :: .number minutes _ :: rest =>
    (ahead? isNegative value digits (some minutes)).map fun a => (some a, rest)
  | .signed isNegative value digits :: rest =>
    (ahead? isNegative value digits Option.none).map fun a => (some a, rest)
  | rest => some (Option.none, rest)

/-- The notes with a time of day more. -/
def addTime (n : DateNotes) (hour minute second : Int) (parts : Nat) (zone : Option Int) :
    DateNotes :=
  { n with times := (hour, minute, second, parts) :: n.times, zones := zone.toList ++ n.zones }

/-- The notes with a date more. -/
def addDate (n : DateNotes) (year : Option Int) (month day : Int) : DateNotes :=
  { n with
    dates := ⟨year.getD 0, month, day⟩ :: n.dates
    hasYear := n.hasYear || year.isSome }

/-- The notes with an amount more. -/
def addAmount (n : DateNotes) (unit : TimeUnit) (count : Int) : DateNotes :=
  let n := { n with isShifted := true }
  match unit with
  | .year => { n with years := n.years + count }
  | .month => { n with months := n.months + count }
  | .day => { n with days := n.days + count }
  | .hour => { n with seconds := n.seconds + 3600 * count }
  | .minute => { n with seconds := n.seconds + 60 * count }
  | .second => { n with seconds := n.seconds + count }

/-- A number with the sign that it has. -/
def withSign (isNegative : Bool) (value : Nat) : Int :=
  if isNegative then -(value : Int) else value

/-- The notes with an amount more, which is earlier if that follows. -/
def addSpan (n : DateNotes) (unit : TimeUnit) (count : Int) (rest : List DateToken) :
    Option (DateNotes × List DateToken) :=
  match rest with
  | .ago :: rest => some (n.addAmount unit (-count), rest)
  | rest => some (n.addAmount unit count, rest)

/-- The notes with a number that stands alone: a year, a date or a time. -/
def addNumber (n : DateNotes) (value digits : Nat) : DateNotes :=
  match n.dates with
  | d :: others =>
    if !n.hasYear && !n.isShifted && (!n.times.isEmpty || digits > 2) then
      { n with dates := { d with year := fullYear value digits } :: others, hasYear := true }
    else other
  | [] => other
where
  other : DateNotes :=
    if digits > 4 then
      n.addDate (some (fullYear (value / 10000) (digits - 4))) (value / 100 % 100 : Nat)
        (value % 100 : Nat)
    else if digits ≤ 2 then n.addTime value 0 0 0 Option.none
    else n.addTime (value / 100 : Nat) (value % 100 : Nat) 0 0 Option.none

/-- The notes with a time of hours, minutes and seconds, and what follows:
the half of the day, or a zone. -/
def addClock (n : DateNotes) (hour minute : Nat) (second : Int) (parts : Nat) :
    List DateToken → Option (DateNotes × List DateToken)
  | .half isAfternoon :: rest =>
    (hourOfHalf? isAfternoon hour).map fun hour =>
      (n.addTime hour minute second parts Option.none, rest)
  | rest =>
    if hour > 23 then Option.none
    else (zoneAfter? rest).map fun r => (n.addTime hour minute second parts r.1, r.2)

/-- The notes with the item that tokens open with, and the rest. -/
def addItem (n : DateNotes) : List DateToken → Option (DateNotes × List DateToken)
  | .number hour _ :: .sign ':' :: .number minute _ :: .sign ':' :: .number second _ :: rest =>
    n.addClock hour minute second 0 rest
  | .number hour _ :: .sign ':' :: .number minute _ :: .sign ':' ::
      .fraction false second parts :: rest =>
    n.addClock hour minute second parts rest
  | .number hour _ :: .sign ':' :: .number minute _ :: rest => n.addClock hour minute 0 0 rest
  | .number hour _ :: .half isAfternoon :: rest => n.addClock hour 0 0 0 (.half isAfternoon :: rest)
  | .number year digits :: .signed true month _ :: .signed true day _ :: rest =>
    let n := n.addDate (some (fullYear year digits)) month day
    match rest with
    | .sign 't' :: .number h d :: rest =>
      match rest with
      | .sign ':' :: _ | .signed _ _ _ :: _ => some (n, .number h d :: rest)
      | _ => Option.none
    | rest => some (n, rest)
  | .number a digits :: .sign '/' :: .number b _ :: .sign '/' :: .number c cDigits :: rest =>
    if digits ≥ 4 then some (n.addDate (some (fullYear a digits)) b c, rest)
    else some (n.addDate (some (fullYear c cDigits)) a b, rest)
  | .number month _ :: .sign '/' :: .number day _ :: rest =>
    some (n.addDate Option.none month day, rest)
  | .number day _ :: .month month :: .signed _ year digits :: rest =>
    some (n.addDate (some (fullYear year digits)) month day, rest)
  | .number day _ :: .month month :: .number year digits :: rest =>
    some (n.addDate (some (fullYear year digits)) month day, rest)
  | .number day _ :: .month month :: rest => some (n.addDate Option.none month day, rest)
  | .month month :: .signed _ day _ :: .signed _ year digits :: rest =>
    some (n.addDate (some (fullYear year digits)) month day, rest)
  | .month month :: .number day _ :: .sign ',' :: .number year digits :: rest =>
    some (n.addDate (some (fullYear year digits)) month day, rest)
  | .month month :: .number day _ :: rest => some (n.addDate Option.none month day, rest)
  | .number count _ :: .span unit times :: rest => n.addSpan unit (count * times : Nat) rest
  | .signed isNegative count _ :: .span unit times :: rest =>
    n.addSpan unit (withSign isNegative (count * times)) rest
  | .ordinal count :: .span unit times :: rest => n.addSpan unit (count * times) rest
  | .fraction _ second parts :: .span .second _ :: rest =>
    n.addSpan .second second rest |>.map fun r => ({ r.1 with parts := r.1.parts + parts }, r.2)
  | .span unit times :: rest => n.addSpan unit times rest
  | .dayShift count :: rest => some (n.addAmount .day count, rest)
  | .weekday day :: .sign ',' :: rest => some ({ n with weekdays := (0, day) :: n.weekdays }, rest)
  | .weekday day :: rest => some ({ n with weekdays := (0, day) :: n.weekdays }, rest)
  | .ordinal count :: .weekday day :: rest =>
    some ({ n with weekdays := (count, day) :: n.weekdays }, rest)
  | .number count _ :: .weekday day :: rest =>
    some ({ n with weekdays := (count, day) :: n.weekdays }, rest)
  | .zone ahead :: .summer :: rest =>
    some ({ n with zones := (ahead + 3600) :: n.zones }, rest)
  | .zone ahead :: .signed isNegative count _ :: .span unit times :: rest =>
    { n with zones := ahead :: n.zones }.addSpan unit (withSign isNegative (count * times)) rest
  | .zone ahead :: rest =>
    (zoneAfter? rest).map fun r => ({ n with zones := (ahead + r.1.getD 0) :: n.zones }, r.2)
  | .sign 't' :: rest => some ({ n with zones := -25200 :: n.zones }, rest)
  | .number value digits :: .signed isNegative count _ :: .span unit times :: rest =>
    (n.addNumber value digits).addSpan unit (withSign isNegative (count * times)) rest
  | .number hour digits :: .signed isNegative value d :: rest =>
    if digits > 2 || hour > 23 then Option.none
    else (zoneAfter? (.signed isNegative value d :: rest)).map fun r =>
      (n.addTime hour 0 0 0 r.1, r.2)
  | .number value digits :: rest => some (n.addNumber value digits, rest)
  | _ => Option.none

/-- The notes with all items of tokens, of which there are at most so
many. -/
def addItems? : (bound : Nat) → DateNotes → List DateToken → Option DateNotes
  | _, n, [] => some n
  | 0, _, _ => Option.none
  | bound + 1, n, tokens => (n.addItem tokens).bind fun r => addItems? bound r.1 r.2

/-- The seconds, with parts of a milliard of one more, that the notes tell
where clocks now show a moment; only proper moments are told. -/
def seconds? (n : DateNotes) (here : Zone) (now : Int) : Option (Int × Nat) := do
  if n.times.length > 1 || n.dates.length > 1 || n.weekdays.length > 1 || n.zones.length > 1 then
    Option.none
  let today := here.momentAt now
  let date := match n.dates.head? with
    | some d => if n.hasYear then d else { d with year := today.date.year }
    | Option.none => today.date
  let isTimed := !n.times.isEmpty || (n.isShifted && n.dates.isEmpty && n.weekdays.isEmpty)
  let moment : Moment := match n.times.head?, isTimed with
    | some (hour, minute, second, _), _ => ⟨date, hour, minute, second⟩
    | Option.none, true => { today with date := date }
    | Option.none, false => ⟨date, 0, 0, 0⟩
  let parts := n.parts + (n.times.head?.map fun t => t.2.2.2).getD 0
  if !moment.isProper then Option.none
  if n.zones.isEmpty && here.momentAt (here.secondsOf moment) ≠ moment then Option.none
  let toDay := match n.dates, n.weekdays with
    | [], (count, day) :: _ =>
      let isOther := date.weekday ≠ day
      ((day + 7 - date.weekday) % 7 : Nat) + 7 * (count - if count > 0 && isOther then 1 else 0)
    | _, _ => 0
  let shifted : CivilDay :=
    ⟨date.year + n.years, date.month + n.months, date.day + toDay + n.days⟩
  let moment := { moment with date := .ofNumber shifted.number }
  let start := match n.zones.head? with
    | some ahead => moment.seconds - ahead
    | Option.none => here.secondsOf moment
  return (start + n.seconds + (parts / 1000000000 : Nat), parts % 1000000000)

end DateNotes

/-- The seconds, with parts of a milliard of one more, that a text tells in a
zone at a time. After an at sign there are the seconds themselves, and
before all else there may be another zone. -/
def dateSeconds? (here : Zone) (now : Int) (s : List Char) : Option (Int × Nat) :=
  let s := s.dropWhile isSpace
  let (here, s) := match if "TZ=\x22".toList.isPrefixOf s then splitOnce ['\x22'] (s.drop 4)
      else none with
    | some (zone, rest) => (Zone.ofText zone, rest.dropWhile isSpace)
    | none => (here, s)
  match s with
  | '@' :: rest =>
    match dateTokens? here (rest.length + 1) rest with
    | some [.number value _] => some (value, 0)
    | some [.signed isNegative value _] => some (DateNotes.withSign isNegative value, 0)
    | some [.fraction _ value parts] => some (value, parts)
    | _ => none
  | s => do
    let tokens ← dateTokens? here (s.length + 1) s
    let notes ← DateNotes.none.addItems? tokens.length tokens
    notes.seconds? here now

end ClrListing.Script
