import PolicyLint.Decimal.Bounds
import PolicyLint.Lint.Fingerprint
import PolicyLint.Lint.Issue
import PolicyLint.Lint.Severity

/-!
# Findings

A finding as reports list it. Names of checks and codes are texts, because a report may come from another
version; the order of findings in a report is fixed by what they say.
-/
namespace PolicyLint.Lint
open Policy
set_option autoImplicit false

structure Location where
  path : FilePath
  line : Option Nat := none
  column : Option Nat := none
  deriving DecidableEq, Repr, Inhabited

structure Finding where
  severity : Severity
  check : String
  code : String
  message : String
  location : Option Location := none
  help : Option String := none
  url : Option String := none
  fingerprint : Option String := none
  data : Json.Value := .null
  deriving Inhabited

def Issue.finding (check : Check) (severity : Severity) (path : FilePath) (i : Issue) : Finding where
  severity := severity
  check := check.name
  code := i.code.name
  message := i.message
  location := some { path := path, line := i.line }
  help := some i.help
  fingerprint := some (Lint.fingerprint check.name i.code.name path.text i.subject)
  data := .ofMembers i.data

namespace Finding

/-- The path by which a finding is ordered; one without a place comes last. -/
def orderPath (f : Finding) : String :=
  match f.location with
  | some l => l.path.text
  | none => "~"

/-- The line by which a finding is ordered; one without a line comes last. -/
def orderLine (f : Finding) : Nat := (f.location.bind Location.line).getD (Decimal.word32 - 1)

/-- Errors come first; then the path, the line, the check, the code and the message decide. -/
def order : Finding → Finding → Ordering :=
  compareLex (compareOn fun f : Finding => f.severity.rank) <|
  compareLex (compareOn orderPath) <|
  compareLex (compareOn orderLine) <|
  compareLex (compareOn check) <|
  compareLex (compareOn code) (compareOn message)

def notAfter (a b : Finding) : Bool := (order a b).isLE

end Finding

/-- Findings in the order of a report; equal ones keep their order. -/
def sortFindings (fs : List Finding) : List Finding := fs.mergeSort Finding.notAfter

def Counts.of (fs : List Finding) : Counts := .ofSeverities (fs.map Finding.severity)

end PolicyLint.Lint
