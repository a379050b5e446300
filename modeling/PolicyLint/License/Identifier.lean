import PolicyLint.Text.Split

/-!
# License identifiers

The written form of SPDX identifiers: a plain name, a `LicenseRef-` name, or a `LicenseRef-` name
inside a `DocumentRef-`. Whether a name is on a license list is not asked.
-/
namespace PolicyLint.License
open Text
set_option autoImplicit false

/-- Letters, digits, the point and the hyphen of ASCII. -/
def isIdChar (c : Char) : Bool := c.isAlphanum || c == '.' || c == '-'

def isIdString (cs : List Char) : Bool := !cs.isEmpty && cs.all isIdChar

/-- Whether a text is `mark` followed by a name. -/
def isMarked (mark : String) (cs : List Char) : Bool :=
  match stripFront mark.toList cs with
  | some rest => isIdString rest
  | none => false

/-- Accepts `name`, `LicenseRef-name` and `DocumentRef-name:LicenseRef-name`. -/
def isIdentifier (cs : List Char) : Bool :=
  match cutAt (· == ':') cs with
  | some (document, license) => isMarked "DocumentRef-" document && isMarked "LicenseRef-" license
  | none =>
    match stripFront "LicenseRef-".toList cs with
    | some rest => isIdString rest
    | none => isIdString cs

def isValidId (id : String) : Bool := isIdentifier id.toList

theorem isIdString_iff (cs : List Char) :
    isIdString cs = true ↔ cs ≠ [] ∧ ∀ c ∈ cs, isIdChar c = true := by
  cases cs <;> simp [isIdString]

end PolicyLint.License
