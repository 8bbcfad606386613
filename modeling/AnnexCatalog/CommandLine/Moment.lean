/-! # Moments

A point in time as a date and a time of day, in the calendar that is in use and without a time zone.
Years are counted from March, so that the day that some years have more comes last.
-/

namespace AnnexCatalog.CommandLine

/-- A date with a time of day. -/
structure Moment where
  year : Nat
  month : Nat
  day : Nat
  hour : Nat
  minute : Nat
  second : Nat
  millisecond : Nat
deriving DecidableEq, Repr

namespace Moment

/-- Days from the first of March of the year 0 to the first of January 1970. -/
def epochDays : Nat := 719468

/-- Days in four hundred years. -/
def eraDays : Nat := 146097

/-- The year within an era of four hundred years, and the day of that year from March on. -/
def yearAndDay (dayOfEra : Nat) : Nat × Nat :=
  let year := (dayOfEra - dayOfEra / 1460 + dayOfEra / 36524 - dayOfEra / 146096) / 365
  (year, dayOfEra - (365 * year + year / 4 - year / 100))

/-- The moment that is a number of milliseconds after the beginning of 1970. -/
def ofMilliseconds (milliseconds : Nat) : Moment :=
  let seconds := milliseconds / 1000
  let days := seconds / 86400 + epochDays
  let (yearOfEra, dayOfYear) := yearAndDay (days % eraDays)
  let fromMarch := (5 * dayOfYear + 2) / 153
  { year := days / eraDays * 400 + yearOfEra + (if fromMarch < 10 then 0 else 1)
    month := if fromMarch < 10 then fromMarch + 3 else fromMarch - 9
    day := dayOfYear - (153 * fromMarch + 2) / 5 + 1
    hour := seconds / 3600 % 24
    minute := seconds / 60 % 60
    second := seconds % 60
    millisecond := milliseconds % 1000 }

/-- A number with zeros before it up to a width. -/
def padded (width value : Nat) : String :=
  let digits := Nat.toDigits 10 value
  String.ofList (List.replicate (width - digits.length) '0' ++ digits)

def date (moment : Moment) : String :=
  padded 4 moment.year ++ "-" ++ padded 2 moment.month ++ "-" ++ padded 2 moment.day

/-- The time of day, to the second. -/
def clock (moment : Moment) : String :=
  padded 2 moment.hour ++ ":" ++ padded 2 moment.minute ++ ":" ++ padded 2 moment.second

def shown (moment : Moment) : String :=
  moment.date ++ " " ++ moment.clock ++ " UTC"

/-- The form for documents, with milliseconds where there are any. -/
def stamp (moment : Moment) : String :=
  let part := if moment.millisecond = 0 then "" else "." ++ padded 3 moment.millisecond
  moment.date ++ "T" ++ moment.clock ++ part ++ "Z"

end Moment

end AnnexCatalog.CommandLine
