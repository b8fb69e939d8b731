import BoardConfig.Text.Digits

/-! Dates and times as TOML documents write them. -/

namespace BoardConfig.Toml

/-- A day of the calendar. -/
structure Date where
  /-- The year, of four digits. -/
  year : Nat
  month : Nat
  /-- The day of the month, from one. -/
  day : Nat
  deriving DecidableEq, Repr

/-- A time of day. -/
structure Time where
  /-- The hour, below 24. -/
  hour : Nat
  /-- The minute, below 60. -/
  minute : Nat
  /-- The second, up to 60 for a leap second. -/
  second : Nat
  /-- The fraction of the second, in nanoseconds. -/
  nanosecond : Nat
  deriving DecidableEq, Repr

/-- The distance of a local time from universal time. -/
inductive ZoneOffset
  /-- Universal time itself. -/
  | utc
  /-- A number of minutes east. -/
  | minutes (east : Int)
  deriving DecidableEq, Repr

/-- A point in time, as precise as it was written. -/
inductive Datetime
  | date (date : Date)
  | time (time : Time)
  /-- A time on a day, with or without its zone. -/
  | both (date : Date) (time : Time) (zone : Option ZoneOffset)
  deriving DecidableEq, Repr

/-- The length of a month, where each fourth year is a leap year and three of four centuries are not. -/
def daysInMonth (year month : Nat) : Nat :=
  -- Every fourth century is a leap year after all.
  let leap := year % 4 = 0 ∧ (year % 100 ≠ 0 ∨ year % 400 = 0)
  if month = 2 then (if leap then 29 else 28)
  else if month = 4 ∨ month = 6 ∨ month = 9 ∨ month = 11 then 30
  else 31

/-- A number of exactly `count` decimal digits between two bounds, and the text after it. -/
def readFixed (count low high : Nat) (text : List Char) : Option (Nat × List Char) := do
  let digits := text.take count
  -- Fewer characters than the count are no number of this width.
  guard (digits.length = count)
  let value ← number? 10 digits
  guard (low ≤ value ∧ value ≤ high)
  return (value, text.drop count)

/-- A day and the text after it. -/
def readDate (text : List Char) : Option (Date × List Char) := do
  let (year, text) ← readFixed 4 0 9999 text
  let '-' :: text := text | none
  let (month, text) ← readFixed 2 1 12 text
  let '-' :: text := text | none
  -- The length of the month bounds the day.
  let (day, text) ← readFixed 2 1 (daysInMonth year month) text
  return (⟨year, month, day⟩, text)

/-- The nanoseconds of an optional fraction of a second, of which nine digits count. -/
def readFraction : List Char → Option (Nat × List Char)
  | '.' :: text => do
    let digits := text.takeWhile (isDigitOf 10)
    let value ← number? 10 (digits.take 9)
    -- Fewer than nine digits are filled up with zeros, and further ones are dropped.
    return (value * Nat.pow 10 (9 - digits.length), text.dropWhile (isDigitOf 10))
  | text => some (0, text)

/-- A time of day and the text after it. -/
def readTime (text : List Char) : Option (Time × List Char) := do
  let (hour, text) ← readFixed 2 0 23 text
  let ':' :: text := text | none
  let (minute, text) ← readFixed 2 0 59 text
  let ':' :: text := text | none
  let (second, text) ← readFixed 2 0 60 text
  let (nanosecond, text) ← readFraction text
  return (⟨hour, minute, second, nanosecond⟩, text)

/-- The hours and minutes of a zone after its sign. -/
def readZoneDistance (text : List Char) : Option (Nat × List Char) := do
  let (hour, text) ← readFixed 2 0 23 text
  let ':' :: text := text | none
  let (minute, text) ← readFixed 2 0 59 text
  return (hour * 60 + minute, text)

/-- An optional zone and the text after it. -/
def readZone : List Char → Option (Option ZoneOffset × List Char)
  | 'Z' :: text | 'z' :: text => some (some .utc, text)
  | '+' :: text => (readZoneDistance text).map fun (east, rest) => (some (.minutes east), rest)
  | '-' :: text => (readZoneDistance text).map fun (west, rest) => (some (.minutes (-west)), rest)
  | text => some (none, text)

/-- A time after the mark that joins it to a day, if there is one. -/
def readJoinedTime : List Char → Option (Time × List Char)
  | 'T' :: text | 't' :: text | ' ' :: text => readTime text
  | _ => none

/-- A point in time and the text after it. -/
def readDatetime (text : List Char) : Option (Datetime × List Char) :=
  match readDate text with
  | some (date, text) =>
    match readJoinedTime text with
    | some (time, text) => (readZone text).map fun (zone, rest) => (.both date time zone, rest)
    -- Without a time the text behind the day is left for others.
    | none => some (.date date, text)
  -- A time alone has no zone.
  | none => (readTime text).map fun (time, rest) => (.time time, rest)

/-- The point in time that a text is from its first character to its last. -/
def Datetime.ofText? (text : String) : Option Datetime :=
  match readDatetime text.toList with
  -- Characters behind the point in time are refused.
  | some (datetime, []) => some datetime
  | _ => none

/-- A number with zeros in front up to a width. -/
def padded (width n : Nat) : String :=
  String.ofList (zeroPadded width (Nat.toDigits 10 n))

/-- The text of a day. -/
def Date.display (date : Date) : String :=
  s!"{padded 4 date.year}-{padded 2 date.month}-{padded 2 date.day}"

/-- The digits of a fraction of a second without the zeros at its end. -/
def fractionDigits (nanosecond : Nat) : List Char :=
  ((zeroPadded 9 (Nat.toDigits 10 nanosecond)).reverse.dropWhile (· = '0')).reverse

/-- The text of a time of day, with a fraction only where there is one. -/
def Time.display (time : Time) : String :=
  let fraction :=
    if time.nanosecond = 0 then "" else String.ofList ('.' :: fractionDigits time.nanosecond)
  s!"{padded 2 time.hour}:{padded 2 time.minute}:{padded 2 time.second}{fraction}"

/-- The text of a zone. -/
def ZoneOffset.display : ZoneOffset → String
  | .utc => "Z"
  | .minutes east =>
    let sign := if east < 0 then "-" else "+"
    s!"{sign}{padded 2 (east.natAbs / 60)}:{padded 2 (east.natAbs % 60)}"

/-- The text of a point in time, joined by `T`. -/
def Datetime.display : Datetime → String
  | .date day => day.display
  | .time clock => clock.display
  | .both day clock zone => day.display ++ "T" ++ clock.display ++ (zone.map (·.display)).getD ""

end BoardConfig.Toml
