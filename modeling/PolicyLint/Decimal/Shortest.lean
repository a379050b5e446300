import PolicyLint.Decimal.Binary64

/-!
# Shortest decimal digits

The fewest digits that read back as the same number. Among the decimals of that length the nearest one
to the number is taken. For each length only the two neighbours of the number on the decimal grid need
to be tried, since a grid that meets the interval of reals rounding to the number meets it there.
-/
namespace PolicyLint.Decimal
set_option autoImplicit false

/-- The place of the decimal point: the `p` with `10 ^ (p - 1) ≤ num / den < 10 ^ p`. -/
def pointOf (num den : Nat) : Int :=
  if den ≤ num then (Nat.toDigits 10 (num / den)).length
  else
    let t := (Nat.toDigits 10 (den / num)).length
    if num * Nat.pow 10 (t - 1) = den then 2 - (t : Int) else 1 - (t : Int)

/-- The digits of a number, and where its point stands before the first of them. -/
structure Digits where
  digits : List Char
  point : Int
  deriving DecidableEq, Repr

/-- The reals that round to `mantissa * 2 ^ exponent`, in quarters of `2 ^ exponent`: the lower end,
the number and the upper end. The ends belong to it for an even mantissa. -/
structure Interval where
  low : Nat
  value : Nat
  high : Nat
  closed : Bool

def Interval.of (mantissa : Nat) (exponent : Int) : Interval where
  low :=
    if mantissa = Binary64.leadingBit ∧ exponent > Binary64.leastExponent then 4 * mantissa - 1
    else 4 * mantissa - 2
  value := 4 * mantissa
  high := 4 * mantissa + 2
  closed := mantissa % 2 = 0

/-- Removes the zeros at the end. -/
def stripZeros (digits : List Char) : List Char := (digits.reverse.dropWhile (· == '0')).reverse

/-- Tries `length` digits and then more, up to the seventeen that always suffice. -/
def shortestFrom (tieUp : Bool) (i : Interval) (exponent point : Int) : (left length : Nat) → Digits
  | 0, _ => ⟨['0'], 1⟩
  | left + 1, length =>
    let (un, ud) := shift 1 4 exponent
    let scale : Int := point - length
    let (gn, gd) : Nat × Nat :=
      if scale < 0 then (1, Nat.pow 10 scale.natAbs) else (Nat.pow 10 scale.toNat, 1)
    let unit := un * gd
    let grid := gn * ud
    let lower := i.value * unit / grid
    let inside (c : Nat) : Bool :=
      if i.closed then i.low * unit ≤ c * grid && c * grid ≤ i.high * unit
      else i.low * unit < c * grid && c * grid < i.high * unit
    let below := i.value * unit - lower * grid
    let above := (lower + 1) * grid - i.value * unit
    let preferUpper := if below = above then tieUp || lower % 2 == 1 else above < below
    let chosen : Option Nat :=
      if inside lower && inside (lower + 1) then some (if preferUpper then lower + 1 else lower)
      else if inside lower then some lower
      else if inside (lower + 1) then some (lower + 1)
      else none
    match chosen with
    | some c =>
      let ds := Nat.toDigits 10 c
      ⟨stripZeros ds, scale + ds.length⟩
    | none => shortestFrom tieUp i exponent point left (length + 1)

/-- The shortest digits of a positive `mantissa * 2 ^ exponent`; `tieUp` says whether an exact tie
between two of them goes to the greater one or to the even one. -/
def shortest (tieUp : Bool) (mantissa : Nat) (exponent : Int) : Digits :=
  let (n, d) := shift mantissa 1 exponent
  shortestFrom tieUp (Interval.of mantissa exponent) exponent (pointOf n d) 17 1

end PolicyLint.Decimal
