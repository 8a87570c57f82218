/-!
# Calendar days

Days of the proleptic Gregorian calendar, with the year zero and years before it.  A day is
valid when its month and its day of the month exist and its year lies between -262143 and
262142.  `next?` and `previous?` step over month and year ends and stop at the ends of the
calendar.
-/

namespace DeviceProvisioning.Time

/-- A day of the calendar. -/
structure Date where
  year : Int
  month : Nat
  day : Nat
deriving DecidableEq

namespace Date

/-- The first year of the calendar. -/
def minYear : Int := -262143

/-- The last year of the calendar. -/
def maxYear : Int := 262142

/-- Every fourth year, except three of every four centuries. -/
def isLeapYear (year : Int) : Bool :=
  year % 4 == 0 && (year % 100 != 0 || year % 400 == 0)

/-- The number of days in a month. -/
def daysInMonth (year : Int) (month : Nat) : Nat :=
  if month = 2 then (if isLeapYear year then 29 else 28)
  else if month = 4 ∨ month = 6 ∨ month = 9 ∨ month = 11 then 30
  else 31

/-- Whether the day exists. -/
def isValid (d : Date) : Bool :=
  minYear ≤ d.year && d.year ≤ maxYear && 1 ≤ d.month && d.month ≤ 12
    && 1 ≤ d.day && d.day ≤ daysInMonth d.year d.month

/-- The day after. -/
def next? (d : Date) : Option Date :=
  if d.day < daysInMonth d.year d.month then some { d with day := d.day + 1 }
  else if d.month < 12 then some { d with month := d.month + 1, day := 1 }
  else if d.year < maxYear then some { year := d.year + 1, month := 1, day := 1 }
  else none

/-- The day before. -/
def previous? (d : Date) : Option Date :=
  if 1 < d.day then some { d with day := d.day - 1 }
  else if 1 < d.month then
    some { d with month := d.month - 1, day := daysInMonth d.year (d.month - 1) }
  else if minYear < d.year then some { year := d.year - 1, month := 12, day := 31 }
  else none

end Date
end DeviceProvisioning.Time
