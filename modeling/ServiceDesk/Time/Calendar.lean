/-!
The proleptic Gregorian calendar. Days are counted from 1 January of year 0, and the count before
a year has the usual leap days in it: one every four years, none every hundred, one every four
hundred.
-/

namespace ServiceDesk.Time

structure Date where
  year : Int
  month : Nat
  day : Nat
  deriving DecidableEq, Repr

def isLeapYear (year : Int) : Bool :=
  year % 4 == 0 && (year % 100 != 0 || year % 400 == 0)

def monthLengths (year : Int) : List Nat :=
  [31, if isLeapYear year then 29 else 28, 31, 30, 31, 30, 31, 31, 30, 31, 30, 31]

def daysBeforeYear (year : Int) : Int :=
  365 * year + (year + 3) / 4 - (year + 99) / 100 + (year + 399) / 400

/-- The year that holds a day. The mean length of a year leads to it or to a neighbour. -/
def yearOfDay (day : Int) : Int :=
  let near := 400 * day / 146097
  if day < daysBeforeYear near then near - 1
  else if daysBeforeYear (near + 1) ≤ day then near + 1
  else near

/-- Walk along month lengths: the number of whole months passed and the days left over. -/
def splitMonths : List Nat → Nat → Nat × Nat
  | [], days => (0, days)
  | length :: rest, days =>
    if days < length then (0, days)
    else
      let next := splitMonths rest (days - length)
      (next.1 + 1, next.2)

def totalDays : List Nat → Nat
  | [] => 0
  | length :: rest => length + totalDays rest

/-- The day count of 1 January 1970. -/
def epochDay : Int := 719528

def Date.ofDay (day : Int) : Date :=
  let year := yearOfDay day
  let split := splitMonths (monthLengths year) (day - daysBeforeYear year).toNat
  ⟨year, split.1 + 1, split.2 + 1⟩

def Date.toDay (date : Date) : Int :=
  daysBeforeYear date.year + totalDays ((monthLengths date.year).take (date.month - 1)) +
    date.day - 1

def Date.isValid (date : Date) : Bool :=
  decide (1 ≤ date.month) && decide (date.month ≤ 12) && decide (1 ≤ date.day) &&
    decide (date.day ≤ (monthLengths date.year)[date.month - 1]?.getD 0)

end ServiceDesk.Time
