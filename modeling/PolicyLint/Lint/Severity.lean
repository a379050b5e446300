/-!
# Severities and verdicts

A finding has a severity, a run has a verdict. The verdict depends on how many errors and warnings were
found and on the lowest severity that fails the run; notes never matter to it.
-/
namespace PolicyLint.Lint
set_option autoImplicit false

inductive Severity where
  | info | warning | error
  deriving DecidableEq, Repr, Inhabited

def Severity.name : Severity → String
  | info => "info"
  | warning => "warning"
  | error => "error"

/-- The place of a severity in a report: errors come first. -/
def Severity.rank : Severity → Nat
  | error => 0
  | warning => 1
  | info => 2

inductive Verdict where
  | pass | warn | fail
  deriving DecidableEq, Repr, Inhabited

def Verdict.name : Verdict → String
  | pass => "pass"
  | warn => "warn"
  | fail => "fail"

/-- A failed run exits with two, any other with zero. -/
def Verdict.exitCode : Verdict → Nat
  | fail => 2
  | _ => 0

/-- The lowest severity that makes a run fail. -/
inductive FailOn where
  | error | warning
  deriving DecidableEq, Repr, Inhabited

def FailOn.name : FailOn → String
  | error => "error"
  | warning => "warning"

structure Counts where
  info : Nat := 0
  warn : Nat := 0
  error : Nat := 0
  deriving DecidableEq, Repr, Inhabited

def Counts.ofSeverities (severities : List Severity) : Counts where
  info := severities.count .info
  warn := severities.count .warning
  error := severities.count .error

def FailOn.verdict (failOn : FailOn) (counts : Counts) : Verdict :=
  if counts.error > 0 then .fail
  else if counts.warn > 0 then
    match failOn with
    | warning => .fail
    | error => .warn
  else .pass

theorem FailOn.verdict_eq_fail_iff (failOn : FailOn) (counts : Counts) :
    failOn.verdict counts = .fail ↔ counts.error > 0 ∨ (counts.warn > 0 ∧ failOn = .warning) := by
  unfold verdict
  by_cases he : counts.error > 0 <;> by_cases hw : counts.warn > 0 <;> cases failOn <;> simp [he, hw]

theorem FailOn.verdict_eq_pass_iff (failOn : FailOn) (counts : Counts) :
    failOn.verdict counts = .pass ↔ counts.error = 0 ∧ counts.warn = 0 := by
  unfold verdict
  by_cases he : counts.error > 0 <;> by_cases hw : counts.warn > 0 <;> cases failOn <;>
    simp [he, hw] <;> omega

theorem Verdict.exitCode_eq_two_iff (v : Verdict) : v.exitCode = 2 ↔ v = .fail := by
  cases v <;> simp [exitCode]

end PolicyLint.Lint
