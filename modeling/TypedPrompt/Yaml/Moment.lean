/-
# `Yaml.Moment` — dates and times of day

A scalar that looks like a date stands for a day of the calendar, and one with a
time behind the date for a moment, to the microsecond and perhaps with its
distance from universal time.  How a moment is spelled is settled first; whether
the calendar and the clock have it is settled afterwards, and one that they do
not have is an error with a cause.
-/
import TypedPrompt.Number.Numeral

namespace TypedPrompt.Yaml

/-- A day of the calendar. -/
structure Date where
  year : Nat
  month : Nat
  day : Nat
  deriving DecidableEq, Repr

/-- A time of day. -/
structure Clock where
  hour : Nat
  minute : Nat
  second : Nat
  microsecond : Nat
  deriving DecidableEq, Repr

/-- A day, or a time on a day.  The zone is how many minutes the clock is ahead of
universal time, if that is known. -/
inductive Moment where
  | day (date : Date)
  | time (date : Date) (clock : Clock) (zone : Option Int)
  deriving DecidableEq, Repr

/-- Why there is no such moment. -/
inductive MomentFault where
  | year (n : Nat)
  | month
  | day
  | hour
  | minute
  | second
  /-- a zone of a day or more -/
  | zone (minutes : Int)
  deriving DecidableEq, Repr

/-! ## The calendar and the clock -/

/-- A year of 366 days. -/
def isLeapYear (year : Nat) : Bool :=
  year % 4 == 0 && (year % 100 != 0 || year % 400 == 0)

/-- The number of days of a month. -/
def daysIn (year month : Nat) : Nat :=
  if month = 2 then (if isLeapYear year then 29 else 28)
  else if month ∈ [4, 6, 9, 11] then 30 else 31

/-- What is wrong with a day. -/
def Date.fault? (d : Date) : Option MomentFault :=
  if d.year = 0 then some (.year d.year)
  else if d.month = 0 ∨ 12 < d.month then some .month
  else if d.day = 0 ∨ daysIn d.year d.month < d.day then some .day
  else none

/-- What is wrong with a time of day. -/
def Clock.fault? (c : Clock) : Option MomentFault :=
  if 23 < c.hour then some .hour
  else if 59 < c.minute then some .minute
  else if 59 < c.second then some .second
  else none

/-- What is wrong with a zone. -/
def zoneFault? (zone : Option Int) : Option MomentFault :=
  match zone with
  | some minutes => if minutes.natAbs < 24 * 60 then none else some (.zone minutes)
  | none => none

/-- What is wrong with a moment: the zone counts first, then the day. -/
def Moment.fault? : Moment → Option MomentFault
  | day d => d.fault?
  | time d c zone => (zoneFault? zone).or (d.fault?.or c.fault?)

/-! ## Spelling -/

/-- At least `least` and at most `most` digits off the front of a text, as many as there are. -/
def takeNumber (least most : Nat) (cs : List Char) : Option (Nat × List Char) :=
  let ds := (cs.take most).takeWhile Text.isDigit
  if ds.length < least then none else some (natOfDigits ds, cs.drop ds.length)

/-- The text behind a character that has to be there. -/
def behind (c : Char) : List Char → Option (List Char)
  | d :: cs => if d = c then some cs else none
  | [] => none

/-- A space or a tab. -/
def isBlank (c : Char) : Bool := c == ' ' || c == '\t'

/-- The text behind what separates a date from a time: a letter, or blanks. -/
def behindSeparator : List Char → Option (List Char)
  | c :: cs =>
      if c = 'T' ∨ c = 't' then some cs
      else if isBlank c then some (cs.dropWhile isBlank)
      else none
  | [] => none

/-- The microseconds behind the point of a second, if there are any. -/
def takeMicroseconds : List Char → Nat × List Char
  | '.' :: cs =>
      let ds := cs.takeWhile Text.isDigit
      (natOfDigits (ds.take 6) * Nat.pow 10 (6 - ds.length), cs.drop ds.length)
  | cs => (0, cs)

/-- The minutes of a zone behind its hours. -/
def zoneMinutes : List Char → Option Nat
  | [] => some 0
  | cs => do
      let (minutes, rest) ← takeNumber 2 2 (← behind ':' cs)
      if rest.isEmpty then some minutes else none

/-- The zone at the end of a time. -/
def zoneOf? (cs : List Char) : Option (Option Int) :=
  match cs with
  | [] => some none
  | _ =>
    match cs.dropWhile isBlank with
    | ['Z'] => some (some 0)
    | sign :: rest =>
        if sign = '+' ∨ sign = '-' then do
          let (hours, rest) ← takeNumber 1 2 rest
          let ahead : Int := hours * 60 + (← zoneMinutes rest)
          some (some (if sign = '-' then -ahead else ahead))
        else none
    | [] => none

/-- The time of day and the zone at the end of a text. -/
def clockOf? (cs : List Char) : Option (Clock × Option Int) := do
  let (hour, rest) ← takeNumber 1 2 cs
  let (minute, rest) ← takeNumber 2 2 (← behind ':' rest)
  let (second, rest) ← takeNumber 2 2 (← behind ':' rest)
  let (microsecond, rest) := takeMicroseconds rest
  some (⟨hour, minute, second, microsecond⟩, ← zoneOf? rest)

/-- The moment that a text spells, be there such a moment or not. -/
def Moment.spelled? (cs : List Char) : Option Moment := do
  let (year, rest) ← takeNumber 4 4 cs
  let (month, rest) ← takeNumber 1 2 (← behind '-' rest)
  let (d, rest) ← takeNumber 1 2 (← behind '-' rest)
  if rest.isEmpty then some (.day ⟨year, month, d⟩)
  else
    let (clock, zone) ← clockOf? (← behindSeparator rest)
    some (.time ⟨year, month, d⟩ clock zone)

/-- A text that spells a moment by itself: a date alone must have all its digits. -/
def looksLikeMoment (cs : List Char) : Bool :=
  match Moment.spelled? cs with
  | some (.day _) => cs.length == 10
  | some (.time ..) => true
  | none => false

/-! ## Words -/

/-- The text of a length of time in a message: days, and what is left in seconds. -/
def displaySpan (minutes : Int) : String :=
  let days := minutes.fdiv (24 * 60)
  let seconds := 60 * minutes.fmod (24 * 60)
  let parts := (if days = 0 then [] else ["days=" ++ toString days])
    ++ (if seconds = 0 then [] else ["seconds=" ++ toString seconds])
  "datetime.timedelta(" ++ (if parts.isEmpty then "0" else ", ".intercalate parts) ++ ")"

/-- The text of a zone in a message. -/
def displayZone (minutes : Int) : String :=
  if minutes = 0 then "datetime.timezone.utc"
  else "datetime.timezone(" ++ displaySpan minutes ++ ")"

/-- The numbers of a time of day in a message; zeros at the end are left out from
the seconds on. -/
def Clock.numbers (c : Clock) : List Nat :=
  [c.hour, c.minute]
    ++ (if c.microsecond ≠ 0 then [c.second, c.microsecond]
      else if c.second ≠ 0 then [c.second] else [])

/-- The text of a moment in a message. -/
def Moment.display : Moment → String
  | day d => "datetime.date(" ++ ", ".intercalate ([d.year, d.month, d.day].map toString) ++ ")"
  | time d c zone =>
      let numbers := ([d.year, d.month, d.day] ++ c.numbers).map toString
      let zoneParts := (zone.map fun minutes => "tzinfo=" ++ displayZone minutes).toList
      "datetime.datetime(" ++ ", ".intercalate (numbers ++ zoneParts) ++ ")"

/-- The words for what is wrong with a moment. -/
def MomentFault.message : MomentFault → String
  | year n => "year " ++ toString n ++ " is out of range"
  | month => "month must be in 1..12"
  | day => "day is out of range for month"
  | hour => "hour must be in 0..23"
  | minute => "minute must be in 0..59"
  | second => "second must be in 0..59"
  | zone minutes =>
      "offset must be a timedelta strictly between -timedelta(hours=24) and "
        ++ "timedelta(hours=24), not " ++ displaySpan minutes ++ "."

end TypedPrompt.Yaml
