import PolicyLint.Text.Bytes
import PolicyLint.Lint.Check
import PolicyLint.Lint.Severity

/-!
# Plans

How a run is set up: which checks it makes, how severe their findings are, whom they pass over, when the run
fails and how many findings it lists.
-/
namespace PolicyLint.Lint
open Text
set_option autoImplicit false

/-- How one check runs. The globs in `allow` are matched against what a finding is about. -/
structure Rule where
  enabled : Bool := true
  severity : Severity
  allow : List String := []
  deriving DecidableEq, Repr, Inhabited

/-- Rules by the name of their check, in byte order. -/
abbrev Rules := List (String × Rule)

namespace Rules

def insert (name : String) (rule : Rule) : Rules → Rules
  | [] => [(name, rule)]
  | r :: rs =>
    if name = r.1 then (name, rule) :: rs
    else if before name r.1 then (name, rule) :: r :: rs
    else r :: insert name rule rs

def ofList (rs : List (String × Rule)) : Rules := rs.foldl (fun acc (name, rule) => insert name rule acc) []

def find? (name : String) (rs : Rules) : Option Rule := rs.lookup name

end Rules

structure Plan where
  profile : String
  failOn : FailOn
  maxFindings : Nat
  rules : Rules
  deriving DecidableEq, Repr, Inhabited

namespace Plan

def defaultMaxFindings : Nat := 200

def uniform (profile : String) (severity : Severity) (failOn : FailOn) : Plan where
  profile := profile
  failOn := failOn
  maxFindings := defaultMaxFindings
  rules := .ofList (Check.allNames.map fun name => (name, { severity := severity }))

def rule? (p : Plan) (check : Check) : Option Rule := (p.rules.find? check.name).filter Rule.enabled

/-- How many rules are on, also those of checks that are not known. -/
def enabledChecks (p : Plan) : Nat := p.rules.countP fun r => r.2.enabled

end Plan

end PolicyLint.Lint
