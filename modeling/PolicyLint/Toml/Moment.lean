import PolicyLint.Text.Digits
import PolicyLint.Time.Calendar

/-!
# Dates and times in TOML

A date, a time of day, or both, and then perhaps an offset from universal time. The day must exist in its
month. Seconds may be left out; a second may be 60.
-/
namespace PolicyLint.Toml
open Text Time
set_option autoImplicit false

def date? (cs : List Char) : Option (List Char) :=
  match fixedNumber 4 0 cs with
  | some (year, '-' :: cs) =>
    match fixedNumber 2 0 cs with
    | some (month, '-' :: cs) =>
      match fixedNumber 2 0 cs with
      | some (day, rest) =>
        if isDate year month day then some rest else none
      | none => none
    | _ => none
  | _ => none

/-- The fraction of a second: nine digits at most, and without zeros at the end but for a single one. -/
def fractionText (ds : List Char) : List Char :=
  match (ds.take 9).reverse.dropWhile (· == '0') with
  | [] => ['.', '0']
  | last :: more => '.' :: (last :: more).reverse

def timeOfDay? (cs : List Char) : Option (List Char × List Char) :=
  match fixedNumber 2 0 cs with
  | some (hour, ':' :: tail) =>
    match fixedNumber 2 0 tail with
    | some (minute, rest) =>
      if hour > 23 ∨ minute > 59 then none
      else
        match rest with
        | ':' :: tail =>
          match fixedNumber 2 0 tail with
          | some (second, rest) =>
            if second > 60 then none
            else
              match rest with
              | '.' :: tail =>
                let ds := tail.takeWhile Char.isDigit
                if ds.isEmpty then none
                else some (cs.take 8 ++ fractionText ds, tail.dropWhile Char.isDigit)
              | _ => some (cs.take 8, rest)
          | none => none
        | _ => some (cs.take 5, rest)
    | none => none
  | _ => none

/-- An offset from universal time, or nothing. No offset is not negative. -/
def offset? : List Char → Option (List Char)
  | [] => some []
  | ['Z'] | ['z'] => some ['Z']
  | c :: cs =>
    if c = '+' ∨ c = '-' then
      match fixedNumber 2 0 cs with
      | some (hour, ':' :: tail) =>
        match fixedNumber 2 0 tail with
        | some (minute, []) =>
          if hour > 23 ∨ minute > 59 then none
          else some ((if hour = 0 ∧ minute = 0 then '+' else c) :: cs)
        | _ => none
      | _ => none
    else none

/-- The uniform text of a date, a time or both. -/
def moment? (cs : List Char) : Option (List Char) :=
  match date? cs with
  | some [] => some cs
  | some (c :: rest) =>
    if c = 'T' ∨ c = 't' ∨ c = ' ' then
      match timeOfDay? rest with
      | some (time, rest) => (offset? rest).map fun o => cs.take 10 ++ 'T' :: time ++ o
      | none => none
    else none
  | none =>
    match timeOfDay? cs with
    | some (time, []) => some time
    | _ => none

end PolicyLint.Toml
