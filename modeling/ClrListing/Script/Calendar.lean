/-
The calendar and the clock: days by their numbers, moments of a day, and
how far clocks are ahead in places of the world.

Days are counted from the first of January 1970, which is day zero, and
seconds from its start. A year counts from March on, so that the day that
some years have more is its last; four hundred years always have as many
days.
-/
import ClrListing.Script.Number

namespace ClrListing.Script

open Text

-- ================================================================== days

/-- A day of a month of a year. -/
structure CivilDay where
  year : Int
  /-- From one to twelve. -/
  month : Int
  /-- From one on. -/
  day : Int
  deriving DecidableEq, Repr, Inhabited

namespace CivilDay

/-- The number of a day. Months and days may be more or fewer than there
are, and then count on into other years and months. -/
def number (d : CivilDay) : Int :=
  let months := 12 * d.year + d.month - 1
  let year := months.fdiv 12
  let month := months.fmod 12 + 1
  let year := if month ≤ 2 then year - 1 else year
  let century := year.fdiv 400
  let inCentury := year.fmod 400
  let monthDays := (153 * (month + 9).fmod 12 + 2).fdiv 5
  century * 146097 + inCentury * 365 + inCentury.fdiv 4 - inCentury.fdiv 100 + monthDays +
    d.day - 1 - 719468

/-- The day of a number. -/
def ofNumber (n : Int) : CivilDay :=
  let shifted := n + 719468
  let century := shifted.fdiv 146097
  let inCentury := shifted.fmod 146097
  let year := (inCentury - inCentury.fdiv 1460 + inCentury.fdiv 36524 -
    inCentury.fdiv 146096).fdiv 365
  let inYear := inCentury - (365 * year + year.fdiv 4 - year.fdiv 100)
  let index := (5 * inYear + 2).fdiv 153
  let month := if index < 10 then index + 3 else index - 9
  ⟨year + 400 * century + (if month ≤ 2 then 1 else 0), month,
    inYear - (153 * index + 2).fdiv 5 + 1⟩

/-- Whether there is such a day. -/
def isProper (d : CivilDay) : Bool := ofNumber d.number = d

/-- The day of the week, from zero for Sunday. -/
def weekday (d : CivilDay) : Nat := ((d.number + 4).fmod 7).toNat

/-- How many days of the year come before. -/
def yearDay (d : CivilDay) : Nat := (d.number - (CivilDay.mk d.year 1 1).number).toNat

/-- The week of the year, and the year that it counts for: a week starts
with Monday and counts for the year that its Thursday is in. -/
def week (d : CivilDay) : Int × Nat :=
  let thursday := ofNumber (d.number + 3 - ((d.weekday + 6) % 7 : Nat))
  (thursday.year, thursday.yearDay / 7 + 1)

end CivilDay

-- =============================================================== moments

/-- A moment on a clock. -/
structure Moment where
  date : CivilDay
  hour : Int
  minute : Int
  second : Int
  deriving DecidableEq, Repr, Inhabited

namespace Moment

/-- The seconds since the clock was at day zero. -/
def seconds (m : Moment) : Int :=
  86400 * m.date.number + 3600 * m.hour + 60 * m.minute + m.second

/-- The moment after so many seconds. -/
def ofSeconds (n : Int) : Moment :=
  let second := n.fmod 86400
  ⟨.ofNumber (n.fdiv 86400), second.fdiv 3600, (second.fdiv 60).fmod 60, second.fmod 60⟩

/-- Whether a clock shows such a moment. -/
def isProper (m : Moment) : Bool := ofSeconds m.seconds = m

end Moment

-- ================================================================= zones

/-- How clocks are set: how many seconds they are ahead, and what that is
called. -/
structure Setting where
  ahead : Int
  name : List Char
  deriving DecidableEq, Repr, Inhabited

/-- When clocks are set in a year: in a month on a day of one of its weeks,
of which the fifth is the last, at a second of the day. -/
structure Change where
  month : Nat
  week : Nat
  weekday : Nat
  second : Int
  deriving DecidableEq, Repr, Inhabited

/-- The second of a year on its clocks when these are set. -/
def Change.secondIn (c : Change) (year : Int) : Int :=
  let first : CivilDay := ⟨year, c.month, 1⟩
  let day := first.number + ((c.weekday + 7 - first.weekday) % 7 : Nat) + 7 * (c.week - 1 : Nat)
  let next : CivilDay := ⟨year, c.month + 1, 1⟩
  86400 * (if day < next.number then day else day - 7) + c.second

/-- A place of the world: how its clocks are set, and how they are set in
summer, if that differs, with when it starts and ends. -/
structure Zone where
  usual : Setting
  summer : Option (Setting × Change × Change)
  deriving DecidableEq, Repr, Inhabited

namespace Zone

/-- The zone whose clocks are not ahead. -/
def universal : Zone := ⟨⟨0, "UTC".toList⟩, none⟩

/-- How clocks are set after so many seconds. -/
def settingAt (z : Zone) (seconds : Int) : Setting :=
  match z.summer with
  | none => z.usual
  | some (summer, start, stop) =>
    let year := (Moment.ofSeconds (seconds + z.usual.ahead)).date.year
    let starts := start.secondIn year - z.usual.ahead
    let stops := stop.secondIn year - summer.ahead
    let isSummer := if starts < stops then starts ≤ seconds && seconds < stops
      else !(stops ≤ seconds && seconds < starts)
    if isSummer then summer else z.usual

/-- The moment that clocks show after so many seconds. -/
def momentAt (z : Zone) (seconds : Int) : Moment :=
  .ofSeconds (seconds + (z.settingAt seconds).ahead)

/-- The seconds after which clocks show a moment. -/
def secondsOf (z : Zone) (m : Moment) : Int :=
  let usual := m.seconds - z.usual.ahead
  let summer := m.seconds - (z.settingAt usual).ahead
  if (z.settingAt usual).ahead = (z.settingAt summer).ahead then summer else usual

/-- The name that a text opens with, and the rest: letters, or anything in
angle brackets. -/
def readName (s : List Char) : List Char × List Char :=
  match s with
  | '<' :: rest =>
    let name := rest.takeWhile (· ≠ '>')
    (name, rest.drop (name.length + 1))
  | _ =>
    let name := s.takeWhile Char.isAlpha
    (name, s.drop name.length)

/-- The time with a sign that a text opens with, in seconds, and the rest. -/
def readTime? (s : List Char) : Option (Int × List Char) := do
  let (isNegative, s) := readSign s
  let (hours, s) ← readDigits? 10 s
  let (minutes, s) := part s
  let (seconds, s) := part s
  let time := Int.ofNat (3600 * hours + 60 * minutes + seconds)
  return (if isNegative then -time else time, s)
where
  part (s : List Char) : Nat × List Char :=
    match s with
    | ':' :: rest => (readDigits? 10 rest).getD (0, s)
    | _ => (0, s)

/-- The change that a text opens with after a comma, and the rest. -/
def readChange? (s : List Char) : Option (Change × List Char) := do
  let s ← if ",M".toList.isPrefixOf s then some (s.drop 2) else none
  let (month, s) ← readDigits? 10 s
  let (week, s) ← readDigits? 10 (← if s.head? = some '.' then some s.tail else none)
  let (weekday, s) ← readDigits? 10 (← if s.head? = some '.' then some s.tail else none)
  match s with
  | '/' :: rest =>
    let (second, s) ← readTime? rest
    return (⟨month, week, weekday, second⟩, s)
  | _ => return (⟨month, week, weekday, 7200⟩, s)

/-- The zone that a rule is written for; a text that is no rule names a zone
whose clocks are not ahead. -/
def ofRule (s : List Char) : Zone :=
  let (name, rest) := readName s
  if name.isEmpty then universal
  else match readTime? rest with
    | none => ⟨⟨0, name⟩, none⟩
    | some (behind, rest) =>
      let usual : Setting := ⟨-behind, name⟩
      let (summerName, rest) := readName rest
      if summerName.isEmpty then ⟨usual, none⟩
      else
        let (behindInSummer, rest) := (readTime? rest).getD (behind - 3600, rest)
        let changes := do
          let (start, rest) ← readChange? rest
          let (stop, _) ← readChange? rest
          return (start, stop)
        let (start, stop) := changes.getD (⟨3, 2, 0, 7200⟩, ⟨11, 1, 0, 7200⟩)
        ⟨usual, some (⟨-behindInSummer, summerName⟩, start, stop)⟩

/-- Places, and the rules for their clocks. -/
def places : List (String × String) :=
  [("UTC", "UTC0"), ("Etc/UTC", "UTC0"), ("Etc/GMT", "GMT0"), ("GMT", "GMT0"),
    ("Universal", "UTC0"), ("Zulu", "UTC0"),
    ("Europe/London", "GMT0BST,M3.5.0/1,M10.5.0"), ("Europe/Dublin", "GMT0IST,M3.5.0/1,M10.5.0"),
    ("Europe/Lisbon", "WET0WEST,M3.5.0/1,M10.5.0"),
    ("Europe/Berlin", "CET-1CEST,M3.5.0,M10.5.0/3"), ("CET", "CET-1CEST,M3.5.0,M10.5.0/3"),
    ("Europe/Paris", "CET-1CEST,M3.5.0,M10.5.0/3"),
    ("Europe/Madrid", "CET-1CEST,M3.5.0,M10.5.0/3"),
    ("Europe/Rome", "CET-1CEST,M3.5.0,M10.5.0/3"),
    ("Europe/Vienna", "CET-1CEST,M3.5.0,M10.5.0/3"),
    ("Europe/Zurich", "CET-1CEST,M3.5.0,M10.5.0/3"),
    ("Europe/Amsterdam", "CET-1CEST,M3.5.0,M10.5.0/3"),
    ("Europe/Warsaw", "CET-1CEST,M3.5.0,M10.5.0/3"),
    ("Europe/Stockholm", "CET-1CEST,M3.5.0,M10.5.0/3"),
    ("Europe/Athens", "EET-2EEST,M3.5.0/3,M10.5.0/4"),
    ("Europe/Helsinki", "EET-2EEST,M3.5.0/3,M10.5.0/4"), ("Europe/Moscow", "MSK-3"),
    ("Europe/Istanbul", "<+03>-3"), ("Asia/Tokyo", "JST-9"), ("Asia/Seoul", "KST-9"),
    ("Asia/Shanghai", "CST-8"), ("Asia/Hong_Kong", "HKT-8"), ("Asia/Singapore", "<+08>-8"),
    ("Asia/Kolkata", "IST-5:30"), ("Asia/Calcutta", "IST-5:30"), ("Asia/Dubai", "<+04>-4"),
    ("Asia/Kathmandu", "<+0545>-5:45"), ("Australia/Sydney", "AEST-10AEDT,M10.1.0,M4.1.0/3"),
    ("Pacific/Auckland", "NZST-12NZDT,M9.5.0,M4.1.0/3"), ("Pacific/Honolulu", "HST10"),
    ("America/New_York", "EST5EDT,M3.2.0,M11.1.0"), ("US/Eastern", "EST5EDT,M3.2.0,M11.1.0"),
    ("America/Chicago", "CST6CDT,M3.2.0,M11.1.0"), ("US/Central", "CST6CDT,M3.2.0,M11.1.0"),
    ("America/Denver", "MST7MDT,M3.2.0,M11.1.0"), ("America/Phoenix", "MST7"),
    ("America/Los_Angeles", "PST8PDT,M3.2.0,M11.1.0"), ("US/Pacific", "PST8PDT,M3.2.0,M11.1.0"),
    ("America/Toronto", "EST5EDT,M3.2.0,M11.1.0"), ("America/Sao_Paulo", "<-03>3"),
    ("EST", "EST5"), ("MST", "MST7"), ("HST", "HST10")]

/-- The zone of a place, or of a rule. -/
def ofText (s : List Char) : Zone :=
  let s := if s.head? = some ':' then s.tail else s
  match places.lookup (String.ofList s) with
  | some rule => ofRule rule.toList
  | none => ofRule s

end Zone

end ClrListing.Script
