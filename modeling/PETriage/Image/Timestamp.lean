import PETriage.Image.Names

/-!
# Link times

A link time counts seconds from the start of 1970. It is shown as a date and time of the
proleptic Gregorian calendar, from the year 1 to the end of the year 9999; zero and every
other count are unknown.
-/
namespace PETriage.Image

def isLeap (year : Nat) : Bool :=
  year % 4 == 0 && (year % 100 != 0 || year % 400 == 0)

def yearLength (year : Nat) : Nat := if isLeap year then 366 else 365

theorem yearLength_pos (year : Nat) : 0 < yearLength year := by
  unfold yearLength
  split <;> decide

def monthLengths (year : Nat) : List Nat :=
  [31, if isLeap year then 29 else 28, 31, 30, 31, 30, 31, 31, 30, 31, 30, 31]

/-- The year that a count of days from the start of `year` reaches, and the days left. -/
def splitYear (year days : Nat) : Nat × Nat :=
  if days < yearLength year then (year, days)
  else splitYear (year + 1) (days - yearLength year)
termination_by days
decreasing_by
  have := yearLength_pos year
  omega

/-- The month and the day of the month, both from one on. -/
def splitMonth : List Nat → Nat → Nat → Nat × Nat
  | [], month, days => (month, days + 1)
  | len :: rest, month, days =>
    if days < len then (month, days + 1) else splitMonth rest (month + 1) (days - len)

structure DateTime where
  year : Nat
  month : Nat
  day : Nat
  hour : Nat
  minute : Nat
  second : Nat
  deriving DecidableEq, Repr

namespace DateTime

/-- The time so many seconds after the start of the year 1. -/
def ofSeconds (seconds : Nat) : DateTime :=
  let (year, dayOfYear) := splitYear 1 (seconds / 86400)
  let (month, day) := splitMonth (monthLengths year) 1 dayOfYear
  let rest := seconds % 86400
  ⟨year, month, day, rest / 3600, rest / 60 % 60, rest % 60⟩

def twoDigits (n : Nat) : List Char := (Nat.toDigits 10 n).leftpad 2 '0'

def text (t : DateTime) : String :=
  String.ofList (Nat.toDigits 10 t.year ++ '-' :: twoDigits t.month ++ '-' :: twoDigits t.day ++
    'T' :: twoDigits t.hour ++ ':' :: twoDigits t.minute ++ ':' :: twoDigits t.second ++
    ['.', '0', '0', '0', 'Z'])

end DateTime

/-- Seconds from the start of the year 1 to the start of 1970. -/
def epoch : Nat := 62135596800

/-- Seconds from the start of 1970 to the last second of the year 9999. -/
def lastSecond : Nat := 253402300799

def timestampText (t : Int) : String :=
  if t = 0 ∨ t < -epoch ∨ lastSecond < t then unknown
  else (DateTime.ofSeconds (t + epoch).toNat).text

end PETriage.Image
