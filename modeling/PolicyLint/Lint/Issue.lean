import PolicyLint.Json.Value
import PolicyLint.Lint.Check
import PolicyLint.Policy.Model

/-!
# Issues

What a check says about one entry of a policy, before severity, path and fingerprint are added. The subject
identifies the entry across runs: a package, a license or a key.
-/
namespace PolicyLint.Lint
open Text Policy
set_option autoImplicit false

structure Issue where
  code : Code
  subject : String
  message : String
  line : Option Nat
  help : String
  /-- The members of the payload. -/
  data : List (String × Json.Value)

def ticked (s : String) : String := "'" ++ s ++ "'"

def entryLabel (list : String) (index : Nat) : String := list ++ "[" ++ toString index ++ "]"

/-- The trimmed name of a package; a blank name counts as none. -/
def packageName (name : Option (Spanned String)) : Option String :=
  match name with
  | some s => if isAllBlank s.value then none else some (trim s.value)
  | none => none

def spanOf (value : Option (Spanned String)) : Option Span := value.map Spanned.span

def Issue.missingName (entry subject help : String) (line : Option Nat) : Issue where
  code := .missingName
  subject := subject
  message := entry ++ " does not name a package"
  line := line
  help := help
  data := [("entry", .string entry)]

end PolicyLint.Lint
