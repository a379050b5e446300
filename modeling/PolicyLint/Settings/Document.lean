import PolicyLint.Lint.Severity

/-!
# Linter settings

What a settings file says: a profile to start from, and changes to it. All of it is optional.
-/
namespace PolicyLint.Settings
open Lint
set_option autoImplicit false

inductive Profile where
  | strict | warn | compat
  deriving DecidableEq, Repr, Inhabited

namespace Profile

def name : Profile → String
  | strict => "strict"
  | warn => "warn"
  | compat => "compat"

def all : List Profile := [strict, warn, compat]

def ofName? (s : String) : Option Profile := all.find? fun p => p.name == s

theorem ofName?_name (p : Profile) : ofName? p.name = some p := by cases p <;> rfl

end Profile

structure CheckSettings where
  enabled : Option Bool := none
  severity : Option Severity := none
  allow : List String := []
  deriving DecidableEq, Repr, Inhabited

structure Document where
  schema : Option String := none
  profile : Option Profile := none
  failOn : Option FailOn := none
  maxFindings : Option Nat := none
  /-- By the name of the check, in byte order. -/
  checks : List (String × CheckSettings) := []
  deriving DecidableEq, Repr, Inhabited

end PolicyLint.Settings
