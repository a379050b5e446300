/-!
# Numbers of a fixed width

Dates and times write each number with a known count of decimal digits.
-/
namespace PolicyLint.Text
set_option autoImplicit false

/-- A number of exactly `count` further digits behind those of `value`, and what follows it. -/
def fixedNumber : (count value : Nat) → List Char → Option (Nat × List Char)
  | 0, value, cs => some (value, cs)
  | _ + 1, _, [] => none
  | count + 1, value, c :: cs =>
    if c.isDigit then fixedNumber count (value * 10 + (c.toNat - 48)) cs else none

/-- A number in at least `width` digits. -/
def padded (width n : Nat) : List Char :=
  let ds := Nat.toDigits 10 n
  List.replicate (width - ds.length) '0' ++ ds

end PolicyLint.Text
