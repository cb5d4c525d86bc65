namespace SpecVerdict

def isLeapYear (year : Nat) : Bool := year % 4 == 0 && (year % 100 != 0 || year % 400 == 0)

def daysInMonth (year month : Nat) : Nat :=
  if month == 2 then if isLeapYear year then 29 else 28
  else if month == 4 || month == 6 || month == 9 || month == 11 then 30
  else 31

def daysBeforeYear (year : Nat) : Nat :=
  let y := year - 1
  y * 365 + y / 4 - y / 100 + y / 400

def daysBeforeMonth (year month : Nat) : Nat :=
  ((List.range (month - 1)).map fun m => daysInMonth year (m + 1)).foldr (· + ·) 0

structure Date where
  year : Nat
  month : Nat
  day : Nat
  deriving DecidableEq, Repr

namespace Date

def isValid (d : Date) : Bool :=
  1 ≤ d.year && d.year ≤ 9999 && 1 ≤ d.month && d.month ≤ 12 && 1 ≤ d.day &&
    d.day ≤ daysInMonth d.year d.month

def number (d : Date) : Nat := daysBeforeYear d.year + daysBeforeMonth d.year d.month + d.day

def monthDay (year : Nat) : Nat → Nat → Nat → Nat × Nat
  | 0, month, day => (month, day)
  | fuel + 1, month, day =>
    if day ≤ daysInMonth year month then (month, day)
    else monthDay year fuel (month + 1) (day - daysInMonth year month)

def ofNumber (n : Nat) : Date :=
  let estimate := (n - 1) / 366 + 1
  let year := (List.range ((n - 1) / 365 + 1 - estimate + 1)).foldl
    (fun found k => if daysBeforeYear (estimate + k) < n then estimate + k else found) estimate
  let (month, day) := monthDay year 12 1 (n - daysBeforeYear year)
  ⟨year, month, day⟩

end Date

/-- The number of the Monday that starts the first week of a year: the week of its first
Thursday. -/
def firstMonday (year : Nat) : Int :=
  let first : Int := daysBeforeYear year + 1
  let weekday := (first + 6) % 7
  if weekday > 3 then first - weekday + 7 else first - weekday

/-- Whether a year has a 53rd week: it starts on a Thursday, or is a leap year that starts on a
Wednesday. -/
def hasLongWeekYear (year : Nat) : Bool :=
  let weekday := (daysBeforeYear year + 7) % 7
  weekday == 3 || (weekday == 2 && isLeapYear year)

def dateOfWeek? (year week day : Nat) : Option Date :=
  if (1 ≤ week && week ≤ 52 || week == 53 && hasLongWeekYear year) && 1 ≤ day && day ≤ 7 then
    let n := firstMonday year + ((week - 1) * 7 + day - 1 : Nat)
    if year == 0 || n < 1 then none
    else
      let d := Date.ofNumber n.toNat
      if d.isValid then some d else none
  else none

end SpecVerdict
