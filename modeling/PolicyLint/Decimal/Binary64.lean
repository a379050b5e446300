/-!
# Binary floating point

The numbers of the IEEE binary64 format as exact fractions. Every operation rounds the exact result once,
to the nearest number and on a tie to the even mantissa.
-/
namespace PolicyLint.Decimal
set_option autoImplicit false

/-- Finite numbers are `± mantissa * 2 ^ exponent`, with the mantissa below `2 ^ 53` and at least
`2 ^ 52` unless the exponent is the least one, -1074. -/
inductive Binary64 where
  | nan
  | infinite (negative : Bool)
  | finite (negative : Bool) (mantissa : Nat) (exponent : Int)
  deriving DecidableEq, Repr, Inhabited

/-- The quotient of two numbers to the nearest whole number, a half to the even neighbour. -/
def roundDiv (num den : Nat) : Nat :=
  let q := num / den
  let r := num % den
  if 2 * r < den then q else if 2 * r > den then q + 1 else if q % 2 = 0 then q else q + 1

def shift (num den : Nat) (exponent : Int) : Nat × Nat :=
  if exponent < 0 then (num, den * Nat.pow 2 exponent.natAbs) else (num * Nat.pow 2 exponent.toNat, den)

theorem two_mul_roundDiv_le (num den : Nat) : 2 * (roundDiv num den * den) ≤ 2 * num + den := by
  have h := Nat.div_add_mod num den
  have hc : num / den * den = den * (num / den) := Nat.mul_comm _ _
  unfold roundDiv
  dsimp only
  split
  · omega
  · split
    · rw [Nat.add_mul]; omega
    · split
      · omega
      · rw [Nat.add_mul]; omega

namespace Binary64

/-- Two to the 52. -/
def leadingBit : Nat := 4503599627370496

def leastExponent : Int := -1074

def zero (negative : Bool) : Binary64 := .finite negative 0 leastExponent

/-- The number nearest to `± num / den`. -/
def ofRatio (negative : Bool) (num den : Nat) : Binary64 :=
  if num = 0 then zero negative
  else
    let low : Int := (Nat.log2 num : Int) - Nat.log2 den - 53
    let (n, d) := shift num den (-low)
    let fitted := if n / d < 2 * leadingBit then low else low + 1
    let exponent := max fitted leastExponent
    let (n, d) := shift num den (-exponent)
    let m := roundDiv n d
    let (m, exponent) := if m = 2 * leadingBit then (leadingBit, exponent + 1) else (m, exponent)
    if exponent > 971 then .infinite negative else .finite negative m exponent

def ofNat (negative : Bool) (n : Nat) : Binary64 := ofRatio negative n 1

def ofInt (i : Int) : Binary64 := ofNat (decide (i < 0)) i.natAbs

/-- The number nearest to `± significand * 10 ^ exponent`. -/
def ofDecimal (negative : Bool) (significand : Nat) (exponent : Int) : Binary64 :=
  if significand = 0 then zero negative
  else
    let point : Int := (Nat.toDigits 10 significand).length + exponent
    if point > 310 then .infinite negative
    else if point < -330 then zero negative
    else if exponent < 0 then ofRatio negative significand (Nat.pow 10 exponent.natAbs)
    else ofRatio negative (significand * Nat.pow 10 exponent.toNat) 1

/-- The absolute value as a fraction, for a finite number. -/
def fraction : Binary64 → Option (Nat × Nat)
  | finite _ m e => some (shift m 1 e)
  | _ => none

def isNegative : Binary64 → Bool
  | finite negative _ _ => negative
  | infinite negative => negative
  | nan => false

def isFinite : Binary64 → Bool
  | finite _ _ _ => true
  | _ => false

/-- The rounded product of two finite numbers; anything else gives no number. -/
def mul (a b : Binary64) : Binary64 :=
  match a.fraction, b.fraction with
  | some (n, d), some (n', d') => ofRatio (a.isNegative != b.isNegative) (n * n') (d * d')
  | _, _ => nan

/-- The rounded quotient of two finite numbers, the second not zero; anything else gives no number. -/
def div (a b : Binary64) : Binary64 :=
  match a.fraction, b.fraction with
  | some (n, d), some (n', d') =>
    if n' = 0 then nan else ofRatio (a.isNegative != b.isNegative) (n * d') (d * n')
  | _, _ => nan

def neg : Binary64 → Binary64
  | nan => nan
  | infinite negative => infinite !negative
  | finite negative m e => finite (!negative) m e

/-- Whether the number lies between zero and one, both included; a negative zero does. -/
def inUnit : Binary64 → Bool
  | finite negative m e => m == 0 || (!negative && (let (n, d) := shift m 1 e; decide (n ≤ d)))
  | _ => false

end Binary64

end PolicyLint.Decimal
