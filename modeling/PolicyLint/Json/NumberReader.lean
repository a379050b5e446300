import PolicyLint.Decimal.Bounds
import PolicyLint.Json.Fault
import PolicyLint.Json.Value

/-!
# Reading JSON numbers

A whole number of 64 bits is exact. For any other number the leading digits that fit a 64 bit word are taken
as a floating point number and scaled once by a power of ten, so the result may miss the nearest number by a
little. A number beyond the range is refused; one too small is zero.
-/
namespace PolicyLint.Json
open Decimal
set_option autoImplicit false

/-- A number being read: the digits that fitted a word, and the power of ten they are scaled by. -/
structure Scaled where
  significand : Nat
  exponent : Int
  deriving DecidableEq, Repr

def wordLimit : Nat := word64 - 1

def digitOf (c : Char) : Nat := c.toNat - 48

/-- The leading digits that fit a word, how many digits did not, and the rest. -/
def wholeDigits (significand : Nat) : List Char → Nat × Nat × List Char
  | [] => (significand, 0, [])
  | c :: cs =>
    if c.isDigit then
      if significand * 10 + digitOf c > wordLimit then
        (significand, 1 + (cs.takeWhile Char.isDigit).length, cs.dropWhile Char.isDigit)
      else wholeDigits (significand * 10 + digitOf c) cs
    else (significand, 0, c :: cs)

/-- The digits behind the point; those from the first that does not fit on are dropped. -/
def fractionDigits (s : Scaled) : List Char → Scaled × List Char
  | [] => (s, [])
  | c :: cs =>
    if c.isDigit then
      if s.significand * 10 + digitOf c > wordLimit then (s, cs.dropWhile Char.isDigit)
      else fractionDigits ⟨s.significand * 10 + digitOf c, s.exponent - 1⟩ cs
    else (s, c :: cs)

/-- A double scaled by a power of ten within the table of the format. -/
def scaleOnce (x : Binary64) (exponent : Int) : Binary64 :=
  let power := Binary64.ofDecimal false 1 exponent.natAbs
  if exponent < 0 then x.div power else x.mul power

/-- The number for scaled digits, if it is in range. Very small ones are divided in steps. -/
def Scaled.toFloat? (negative : Bool) (s : Scaled) : Option Binary64 :=
  let x := Binary64.ofNat false s.significand
  let result :=
    if s.exponent > 308 then if s.significand = 0 then x else .infinite false
    else if s.exponent ≥ -308 then scaleOnce x s.exponent
    else
      let step := x.div (Binary64.ofDecimal false 1 308)
      if s.exponent ≥ -616 then scaleOnce step (s.exponent + 308) else Binary64.zero false
  if result.isFinite then some (if negative then result.neg else result) else none

/-- The number for scaled digits at the end of a number, before what follows it. -/
def Scaled.finish (negative : Bool) (s : Scaled) (rest : List Char) : Except Stop (Number × List Char) :=
  match s.toFloat? negative with
  | some x => .ok (.float x, rest)
  | none => .error (Cause.numberRange.before rest)

/-- The value of the digits of an exponent behind those of `n`, and what follows them; or what follows the
digit that takes the value beyond 31 bits. -/
def exponentDigits (n : Nat) : List Char → Except (List Char) (Nat × List Char)
  | [] => .ok (n, [])
  | c :: cs =>
    if c.isDigit then
      if n * 10 + digitOf c > half32 - 1 then .error cs else exponentDigits (n * 10 + digitOf c) cs
    else .ok (n, c :: cs)

/-- An exponent and its end; without digits it is malformed. One beyond 31 bits makes a number zero or too
large. -/
def readExponent (negative : Bool) (s : Scaled) (cs : List Char) : Except Stop (Number × List Char) :=
  let (minus, body) : Bool × List Char :=
    match cs with
    | '+' :: cs => (false, cs)
    | '-' :: cs => (true, cs)
    | cs => (false, cs)
  match body with
  | [] => .error (Cause.endInValue.before [])
  | c :: _ =>
    if !c.isDigit then .error (Cause.number.at_ body)
    else
      match exponentDigits 0 body with
      | .ok (e, rest) =>
        Scaled.finish negative ⟨s.significand, if minus then s.exponent - e else s.exponent + e⟩ rest
      | .error more =>
        if s.significand ≠ 0 && !minus then .error (Cause.numberRange.before more)
        else .ok (.float (Binary64.zero negative), more.dropWhile Char.isDigit)

/-- What follows the whole digits of a number that is no longer whole. -/
def readTail (negative : Bool) (s : Scaled) (cs : List Char) : Except Stop (Number × List Char) :=
  match cs with
  | c :: cs' => if c = 'e' ∨ c = 'E' then readExponent negative s cs' else s.finish negative cs
  | [] => s.finish negative cs

/-- A whole number of 64 bits; minus zero and what is below the range become floating point. -/
def wholeNumber (negative : Bool) (n : Nat) : Number :=
  if negative then
    if n = 0 ∨ n > half64 then .float (Binary64.ofNat true n) else .negative (n - 1)
  else .natural n

def readUnsigned (negative : Bool) (cs : List Char) : Except Stop (Number × List Char) :=
  match cs with
  | [] => .error (Cause.endInValue.before [])
  | c :: _ =>
    if !c.isDigit then .error (Cause.number.at_ cs)
    else
      let (significand, dropped, rest) : Nat × Nat × List Char :=
        if c = '0' then (0, 0, cs.drop 1) else wholeDigits 0 cs
      if c = '0' && rest.head?.any Char.isDigit then .error (Cause.number.at_ rest)
      else
        match rest with
        | '.' :: tail =>
          if tail.head?.any Char.isDigit then
            let (s, rest) := fractionDigits ⟨significand, dropped⟩ tail
            readTail negative s rest
          else .error ((if tail.isEmpty then Cause.endInValue else Cause.number).at_ tail)
        | d :: _ =>
          if d = 'e' ∨ d = 'E' ∨ dropped > 0 then readTail negative ⟨significand, dropped⟩ rest
          else .ok (wholeNumber negative significand, rest)
        | [] =>
          if dropped > 0 then readTail negative ⟨significand, dropped⟩ rest
          else .ok (wholeNumber negative significand, rest)

def readNumber : List Char → Except Stop (Number × List Char)
  | '-' :: cs => readUnsigned true cs
  | cs => readUnsigned false cs

end PolicyLint.Json
