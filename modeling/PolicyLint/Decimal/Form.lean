import PolicyLint.Decimal.Shortest

/-!
# Written forms of numbers

The plain form writes a number without an exponent, however long it gets. The pointed form adds `.0` to
a plain whole number. The compact form, used in reports, has an exponent outside `1e-5 … 1e16`.
-/
namespace PolicyLint.Decimal
set_option autoImplicit false

def zeros (n : Nat) : List Char := List.replicate n '0'

/-- Digits with a point among them and no exponent; `whole` follows a number without fraction. -/
def Digits.positional (d : Digits) (whole : List Char) : List Char :=
  if d.point ≤ 0 then ['0', '.'] ++ zeros d.point.natAbs ++ d.digits
  else
    let p := d.point.toNat
    if d.digits.length ≤ p then d.digits ++ zeros (p - d.digits.length) ++ whole
    else d.digits.take p ++ '.' :: d.digits.drop p

/-- One digit before the point, and the exponent with its sign. -/
def Digits.scientific (d : Digits) : List Char :=
  let e := d.point - 1
  let mantissa :=
    match d.digits with
    | [] => []
    | [c] => [c]
    | c :: cs => c :: '.' :: cs
  mantissa ++ ['e', if e < 0 then '-' else '+'] ++ Nat.toDigits 10 e.natAbs

namespace Binary64

def signChars (negative : Bool) : List Char := if negative then ['-'] else []

/-- Whole numbers have no point, and there is never an exponent. -/
def plain : Binary64 → String
  | nan => "NaN"
  | infinite negative => String.ofList (signChars negative ++ "inf".toList)
  | finite negative m e =>
    String.ofList (signChars negative ++ if m = 0 then ['0'] else (shortest true m e).positional [])

/-- As the plain form, with `.0` behind a finite whole number. -/
def pointed (x : Binary64) : String :=
  let s := x.plain
  if x.isFinite && !s.toList.contains '.' then s ++ ".0" else s

/-- Whole numbers have a `.0`; an exponent is written outside `1e-5 … 1e16`. -/
def compact : Binary64 → String
  | nan => "null"
  | infinite _ => "null"
  | finite negative m e =>
    let body : List Char :=
      if m = 0 then ['0', '.', '0']
      else
        let d := shortest false m e
        if -5 < d.point ∧ d.point ≤ 16 then d.positional ['.', '0'] else d.scientific
    String.ofList (signChars negative ++ body)

end Binary64

end PolicyLint.Decimal
