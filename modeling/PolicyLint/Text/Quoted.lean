import PolicyLint.Text.Printable

/-!
# Quoted texts

Texts and characters as messages show them: between quotes, with a backslash before the quote and
before itself, short names for the common controls, and a number for any character without a glyph.
-/
namespace PolicyLint.Text
set_option autoImplicit false

/-- The digits of `n` to base sixteen, in lower case. -/
def hexDigits (n : Nat) : List Char := Nat.toDigits 16 n

/-- One character between quotes of the kind `quote`. -/
def quotedChar (quote c : Char) : List Char :=
  if c = quote || c = '\\' then ['\\', c]
  else if c = '\x00' then ['\\', '0']
  else if c = '\t' then ['\\', 't']
  else if c = '\n' then ['\\', 'n']
  else if c = '\r' then ['\\', 'r']
  else if isNumbered c then ['\\', 'u', '\x7b'] ++ hexDigits c.toNat ++ ['\x7d']
  else [c]

def quoted (s : String) : String :=
  String.ofList ('"' :: s.toList.flatMap (quotedChar '"') ++ ['"'])

def quotedOne (c : Char) : String := String.ofList ('\'' :: quotedChar '\'' c ++ ['\''])

def quotedList (xs : List String) : String := "[" ++ String.intercalate ", " (xs.map quoted) ++ "]"

end PolicyLint.Text
