/-!
# The calendar

Lengths of months, and days counted from the first day of the year zero.
-/
namespace PolicyLint.Time
set_option autoImplicit false

def isLeapYear (year : Nat) : Bool := year % 4 = 0 && (year % 100 ≠ 0 || year % 400 = 0)

def daysIn (year month : Nat) : Nat :=
  if month = 2 then (if isLeapYear year then 29 else 28)
  else if month = 4 ∨ month = 6 ∨ month = 9 ∨ month = 11 then 30
  else 31

def isDate (year month day : Nat) : Bool :=
  1 ≤ month && month ≤ 12 && 1 ≤ day && day ≤ daysIn year month

def daysBeforeYear (year : Nat) : Nat := 365 * year + (year + 3) / 4 - (year + 99) / 100 + (year + 399) / 400

def dayNumber (year month day : Nat) : Nat :=
  daysBeforeYear year + (List.range (month - 1)).foldl (fun n m => n + daysIn year (m + 1)) 0 + (day - 1)

/-- The year of a day. Up to the year 9999 the first guess is at most 31 years too low. -/
def yearOfDay (days : Nat) : Nat :=
  let guess := days / 366
  ((List.range 32).map (guess + ·)).foldl (fun best y => if daysBeforeYear y ≤ days then y else best) guess

/-- The month and the day in it, both from one, of the day that comes `day` days after the start of
`month`. -/
def monthOfDay (year : Nat) : (monthsLeft day month : Nat) → Nat × Nat
  | 0, day, month => (month, day + 1)
  | left + 1, day, month =>
    if day < daysIn year month then (month, day + 1)
    else monthOfDay year left (day - daysIn year month) (month + 1)

end PolicyLint.Time
