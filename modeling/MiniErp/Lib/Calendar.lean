import Mathlib.Tactic.NormNum

/-! The proleptic Gregorian calendar, with the weeks of ISO 8601. Days are counted from
1970-01-01, a Thursday. -/
namespace MiniErp.Calendar

/-- The first of January of a year. -/
def firstDay (year : Int) : Int := 365*(year-1970)+(year-1)/4-(year-1)/100+(year-1)/400-477

/-- The mean year has 146097/400 days, so the guess is off by at most one. -/
def yearOf (day : Int) : Int :=
  let guess := 1970+400*day/146097
  if day<firstDay guess then guess-1
  else if day<firstDay (guess+1) then guess
  else guess+1

/-- The day of the year, from 1. -/
def ordinal (day : Int) : Int := day-firstDay (yearOf day)+1

def isLeap (year : Int) : Bool := firstDay (year+1)-firstDay year=366

def monthLengths (year : Int) : List Int :=
  [31,if isLeap year then 29 else 28,31,30,31,30,31,31,30,31,30,31]

/-- The month in which the n-th day lies. -/
def monthFrom (n : Int) : Int → List Int → Int
  | month, [] => month
  | month, length::rest => if n≤length then month else monthFrom (n-length) (month+1) rest

def monthOf (day : Int) : Int := monthFrom (ordinal day) 1 (monthLengths (yearOf day))

/-- Monday is 1. -/
def weekday (day : Int) : Int := (day+3)%7+1

/-- A week begins on Monday. -/
def weekOf (day : Int) : Int := (day+3)/7

/-- A year with 53 Thursdays has 53 weeks. -/
def weeksInYear (year : Int) : Int :=
  if weekday (firstDay year)=4 ∨ isLeap year ∧ weekday (firstDay year)=3 then 53 else 52

def isoWeek (day : Int) : Int :=
  let week := (ordinal day+10-weekday day)/7
  if week=0 then weeksInYear (yearOf day-1)
  else if week=53 ∧ weeksInYear (yearOf day)=52 then 1
  else week

end MiniErp.Calendar
