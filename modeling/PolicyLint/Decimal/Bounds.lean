/-!
# Bounds of machine words

How many values a word of some bits has, and how many of them are negative if it has a sign.
-/
namespace PolicyLint.Decimal
set_option autoImplicit false

def word32 : Nat := 4294967296

def word64 : Nat := 18446744073709551616

def half32 : Nat := 2147483648

def half64 : Nat := 9223372036854775808

def word128 : Nat := 340282366920938463463374607431768211456

def half128 : Nat := 170141183460469231731687303715884105728

/-- Whether a whole number fits into a signed word, of whose values `half` are negative. -/
def fitsSigned (half : Nat) (n : Int) : Bool :=
  match n with
  | .ofNat m => m < half
  | .negSucc m => m < half

/-- Whether a whole number fits into an unsigned word of `size` values. -/
def fitsUnsigned (size : Nat) (n : Int) : Bool :=
  match n with
  | .ofNat m => m < size
  | .negSucc _ => false

end PolicyLint.Decimal
