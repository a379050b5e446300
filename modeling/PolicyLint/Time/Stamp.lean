import PolicyLint.Text.Digits
import PolicyLint.Time.Calendar

/-!
# Time stamps

A moment to the nanosecond with its offset from universal time, and the form in which reports write it. A
leap second is read as the last nanosecond before it.
-/
namespace PolicyLint.Time
open Text
set_option autoImplicit false

/-- A date and time at a place whose clocks are `offset` minutes ahead of universal time. -/
structure Stamp where
  year : Nat
  month : Nat
  day : Nat
  hour : Nat
  minute : Nat
  second : Nat
  nanosecond : Nat
  offset : Int
  deriving DecidableEq, Repr, Inhabited

inductive StampFault where
  | part (name : String)
  | mark
  | trailing
  /-- A number is out of range, perhaps only beside the others. -/
  | range (name : String) (beside : Bool)
  deriving DecidableEq, Repr

def StampFault.message : StampFault → String
  | part name => "the '" ++ name ++ "' component could not be parsed"
  | mark => "a character literal was not valid"
  | trailing => "unexpected trailing characters; the end of input was expected"
  | range name beside =>
    name ++ " was not in range" ++ (if beside then " given values of other parameters" else "")

namespace Stamp

/-- The first of the parts that is out of its range; the offset is not looked at. -/
def outOfRange? (s : Stamp) : Option StampFault :=
  if s.month = 0 ∨ 12 < s.month then some (.range "month" false)
  else if !isDate s.year s.month s.day then some (.range "day" true)
  else if 23 < s.hour then some (.range "hour" false)
  else if 59 < s.minute then some (.range "minute" false)
  else if 59 < s.second then some (.range "second" false)
  else none

/-- Nanoseconds of universal time from the first day of the year zero. -/
def nanoseconds (s : Stamp) : Int :=
  (((dayNumber s.year s.month s.day * 24 + s.hour : Nat) * 60 + s.minute - s.offset) * 60 + s.second) *
    1000000000 + s.nanosecond

/-- The whole milliseconds from one stamp to a later one; none if it is not later. -/
def millisecondsTo (start finish : Stamp) : Nat := ((finish.nanoseconds - start.nanoseconds) / 1000000).toNat

/-- The part `name` of so many digits. -/
def digits (name : String) (count : Nat) (cs : List Char) : Except StampFault (Nat × List Char) :=
  match fixedNumber count 0 cs with
  | some found => .ok found
  | none => .error (.part name)

def mark (c : Char) : List Char → Except StampFault (List Char)
  | [] => .error .mark
  | d :: cs => if d = c then .ok cs else .error .mark

/-- The nanoseconds that the digits behind a point stand for; digits from the tenth on do not count. -/
def fractionValue (ds : List Char) : Nat :=
  ((ds.take 9) ++ List.replicate (9 - ds.length) '0').foldl (fun n c => n * 10 + (c.toNat - 48)) 0

/-- The fraction of a second, if there is one, and what follows it. -/
def fraction : List Char → Except StampFault (Nat × List Char)
  | '.' :: cs =>
    let ds := cs.takeWhile Char.isDigit
    if ds.isEmpty then .error (.part "subsecond") else .ok (fractionValue ds, cs.dropWhile Char.isDigit)
  | cs => .ok (0, cs)

def offsetMinutes : List Char → Except StampFault (Int × List Char)
  | [] => .error (.part "offset hour")
  | c :: cs =>
    if c = 'Z' ∨ c = 'z' then .ok (0, cs)
    else if c = '+' ∨ c = '-' then do
      let (hours, cs) ← digits "offset hour" 2 cs
      if 23 < hours then .error (.part "offset hour") else
      let (minutes, cs) ← digits "offset minute" 2 (← mark ':' cs)
      if 59 < minutes then .error (.range "offset minute" false) else
      let total : Int := (hours * 60 + minutes : Nat)
      return (if c = '-' then -total else total, cs)
    else .error (.part "offset hour")

/-- Whether a leap second may follow: it is the last second of a month in universal time. -/
def endsMonth (s : Stamp) : Bool :=
  let minutes : Int := (s.hour * 60 + s.minute : Nat) - s.offset
  s.second == 59 &&
  (if minutes < 0 then minutes == -1 && s.day == 1
    else if minutes < 24 * 60 then minutes == 24 * 60 - 1 && s.day == daysIn s.year s.month
    else minutes == 2 * 24 * 60 - 1 && s.day + 1 == daysIn s.year s.month)

/-- The separator of date and time, any one byte; a longer character ends in the hour. -/
def separator : List Char → Except StampFault (List Char)
  | [] => .error (.part "separator")
  | c :: cs => if c.utf8Size = 1 then .ok cs else .error (.part "hour")

/-- The stamp in a text, without a look at its ranges; a second may be 60. -/
def scan (cs : List Char) : Except StampFault Stamp := do
  let (year, cs) ← digits "year" 4 cs
  let (month, cs) ← digits "month" 2 (← mark '-' cs)
  let (day, cs) ← digits "day" 2 (← mark '-' cs)
  let (hour, cs) ← digits "hour" 2 (← separator cs)
  let (minute, cs) ← digits "minute" 2 (← mark ':' cs)
  let (second, cs) ← digits "second" 2 (← mark ':' cs)
  let (nanosecond, cs) ← fraction cs
  let (offset, cs) ← offsetMinutes cs
  if cs.isEmpty then return ⟨year, month, day, hour, minute, second, nanosecond, offset⟩
  else .error .trailing

/-- The last nanosecond before a leap second; other stamps stay. -/
def settle (s : Stamp) : Stamp :=
  if s.second = 60 then { s with second := 59, nanosecond := 999999999 } else s

def parse (s : String) : Except StampFault Stamp := do
  let scanned ← scan s.toList
  match scanned.settle.outOfRange? with
  | some fault => .error fault
  | none =>
    if scanned.second = 60 ∧ !scanned.settle.endsMonth then .error (.range "second" true)
    else return scanned.settle

/-- The nine digits of a fraction without the zeros at its end. -/
def fractionDigits (nanosecond : Nat) : List Char :=
  ((padded 9 nanosecond).reverse.dropWhile (· == '0')).reverse

/-- The written form; universal time has a `Z` in place of an offset. -/
def render (s : Stamp) : String :=
  let fraction := if s.nanosecond = 0 then [] else '.' :: fractionDigits s.nanosecond
  let offset :=
    if s.offset = 0 then ['Z']
    else (if s.offset < 0 then '-' else '+') ::
      (padded 2 (s.offset.natAbs / 60) ++ ':' :: padded 2 (s.offset.natAbs % 60))
  String.ofList (padded 4 s.year ++ '-' :: padded 2 s.month ++ '-' :: padded 2 s.day ++ 'T' ::
    padded 2 s.hour ++ ':' :: padded 2 s.minute ++ ':' :: padded 2 s.second ++ fraction ++ offset)

/-- The days from the first day of the year zero to the start of the year 1970. -/
def epochDay : Nat := dayNumber 1970 1 1

/-- The stamp of so many seconds and nanoseconds after the start of the year 1970. -/
def ofEpoch (seconds nanosecond : Nat) : Stamp :=
  let days := epochDay + seconds / 86400
  let rest := seconds % 86400
  let year := yearOfDay days
  let (month, day) := monthOfDay year 11 (days - daysBeforeYear year) 1
  ⟨year, month, day, rest / 3600, rest / 60 % 60, rest % 60, nanosecond, 0⟩

end Stamp

end PolicyLint.Time
