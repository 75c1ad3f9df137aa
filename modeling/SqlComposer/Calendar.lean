import SqlComposer.Decimal.Fixed
import SqlComposer.Term

/-!
# Dates, times and identifiers as text

Dates and times are given as they stand in the calendar. A second that has a billion nanoseconds
or more is a leap second and shows as the next one.
-/

namespace SqlComposer.Calendar

structure Date where
  year : Int
  month : Nat
  day : Nat
deriving DecidableEq, Repr

structure Time where
  hour : Nat
  minute : Nat
  second : Nat
  nanos : Nat
deriving DecidableEq, Repr

def twoDigits (n : Nat) : String := Decimal.padded 2 n

/-- A year of at least four digits, with a sign when it has more or is negative. -/
def yearText (year : Int) : String :=
  (if year < 0 then "-" else if 9999 < year then "+" else "") ++ Decimal.padded 4 year.natAbs

def Date.text (d : Date) : String :=
  yearText d.year ++ "-" ++ twoDigits d.month ++ "-" ++ twoDigits d.day

def Time.text (t : Time) : String :=
  twoDigits t.hour ++ ":" ++ twoDigits t.minute ++ ":" ++
    twoDigits (t.second + t.nanos / Duration.perSecond)

/-- The fraction of a second in three, six or nine digits, the fewest that are exact. -/
def Time.fraction (t : Time) : String :=
  let nanos := t.nanos % Duration.perSecond
  if nanos = 0 then ""
  else if nanos % 1000000 = 0 then "." ++ Decimal.padded 3 (nanos / 1000000)
  else if nanos % 1000 = 0 then "." ++ Decimal.padded 6 (nanos / 1000)
  else "." ++ Decimal.padded 9 nanos

def dateTimeText (d : Date) (t : Time) : String := d.text ++ " " ++ t.text

/-- An offset from universal time, given in seconds, to the nearest minute. -/
def offsetText (seconds : Int) : String :=
  let minutes := (seconds.natAbs + 30) / 60
  (if seconds < 0 then "-" else "+") ++ twoDigits (minutes / 60) ++ ":" ++ twoDigits (minutes % 60)

/-- A date and a time of the place that has the offset, in the form of the internet standard. -/
def stampText (d : Date) (t : Time) (offset : Int) : String :=
  d.text ++ "T" ++ t.text ++ t.fraction ++ offsetText offset

/-! ## Universal identifiers -/

/-- The 32 digits of an identifier in lower case, with dashes between its groups. -/
def uuidText (digits : List Char) : String :=
  let s := (digits.filter (· ≠ '-')).map Char.toLower
  let group (start count : Nat) : String := String.ofList ((s.drop start).take count)
  "-".intercalate [group 0 8, group 8 4, group 12 4, group 16 4, group 20 12]

end SqlComposer.Calendar
