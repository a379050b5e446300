import PolicyLint.Glob.Match
import PolicyLint.Lint.Checks.Clarifications
import PolicyLint.Lint.Checks.ConfidenceThreshold
import PolicyLint.Lint.Checks.Exceptions
import PolicyLint.Lint.Checks.LicenseLists
import PolicyLint.Lint.Checks.SkipEntries
import PolicyLint.Lint.Checks.UnknownKeys
import PolicyLint.Lint.Finding
import PolicyLint.Lint.Plan

/-!
# Runs

A run makes the planned checks on a policy, orders the findings, and cuts the list at the planned length.
Counts and verdict are those of all findings, also of the ones that are cut off.
-/
namespace PolicyLint.Lint
open Policy
set_option autoImplicit false

structure Summary where
  profile : String
  policyPath : FilePath
  sections : List String := []
  licensesDeclared : Nat := 0
  clarifications : Nat := 0
  skipEntries : Nat := 0
  findingsTotal : Nat := 0
  findingsEmitted : Nat := 0
  truncatedReason : Option String := none
  deriving DecidableEq, Repr, Inhabited

structure Evaluation where
  verdict : Verdict
  counts : Counts
  findings : List Finding
  summary : Summary
  deriving Inhabited

/-- The issues of one check, without those about what is allowed. -/
def Check.issues (m : Model) (allowed : String → Bool) : Check → List Issue
  | licenseLists => LicenseLists.issues m allowed
  | confidenceThreshold => ConfidenceThreshold.issues m
  | exceptions => Exceptions.issues m allowed
  | clarifications => Clarifications.issues m allowed
  | skipEntries => SkipEntries.issues m allowed
  | unknownKeys => UnknownKeys.issues m allowed

/-- The findings of one check; none if the plan leaves it out. -/
def Check.findings (m : Model) (plan : Plan) (check : Check) : List Finding :=
  match plan.rule? check with
  | some rule =>
    (check.issues m (Glob.anyMatches rule.allow)).map (Issue.finding check rule.severity m.path)
  | none => []

def findingsOf (m : Model) (plan : Plan) (checks : List Check) : List Finding :=
  checks.flatMap (Check.findings m plan)

def truncationText (maxFindings : Nat) : String :=
  "findings truncated to max_findings=" ++ toString maxFindings

def evaluateChecks (m : Model) (plan : Plan) (checks : List Check) : Evaluation :=
  let all := sortFindings (findingsOf m plan checks)
  let counts := Counts.of all
  let listed := all.take plan.maxFindings
  { verdict := plan.failOn.verdict counts
    counts := counts
    findings := listed
    summary :=
      { profile := plan.profile
        policyPath := m.path
        sections := m.document.sectionNames
        licensesDeclared := m.document.declaredLicenses
        clarifications := m.document.clarifications
        skipEntries := m.document.skipEntries
        findingsTotal := all.length
        findingsEmitted := listed.length
        truncatedReason :=
          if plan.maxFindings < all.length then some (truncationText plan.maxFindings) else none } }

def evaluate (m : Model) (plan : Plan) : Evaluation := evaluateChecks m plan Check.all

end PolicyLint.Lint
