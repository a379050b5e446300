import PolicyLint.Lint.Run
import PolicyLint.Time.Stamp

/-!
# Reports

What a run leaves behind: the outcome together with the tool and the time of the run. A run that could not be
made leaves a report as well, with one finding that says why.
-/
namespace PolicyLint
open Lint Policy Time
set_option autoImplicit false

structure Tool where
  name : String
  version : String
  deriving DecidableEq, Repr, Inhabited

/-- When a run began and ended, and the whole milliseconds between. -/
structure RunTimes where
  started : Stamp
  finished : Stamp
  milliseconds : Nat
  deriving DecidableEq, Repr, Inhabited

structure Report where
  schema : String
  tool : Tool
  run : RunTimes
  verdict : Verdict
  counts : Counts
  findings : List Finding
  summary : Summary
  deriving Inhabited

def Tool.current : Tool := ⟨"denylint", "0.1.0"⟩

def RunTimes.between (started finished : Stamp) : RunTimes :=
  ⟨started, finished, started.millisecondsTo finished⟩

namespace Report

/-- The schema of the reports that are written and read. -/
def schemaName : String := "denylint.report.v1"

def ofEvaluation (run : RunTimes) (e : Evaluation) : Report where
  schema := schemaName
  tool := Tool.current
  run := run
  verdict := e.verdict
  counts := e.counts
  findings := e.findings
  summary := e.summary

/-- The name of the check that stands for faults of the run itself. -/
def toolCheck : String := "tool.runtime"

def ofFailure (now : Stamp) (path : FilePath) (profile : String) (finding : Finding) : Report where
  schema := schemaName
  tool := Tool.current
  run := ⟨now, now, 0⟩
  verdict := .fail
  counts := { error := 1 }
  findings := [finding]
  summary := { profile := profile, policyPath := path, findingsTotal := 1, findingsEmitted := 1 }

def runtimeError (now : Stamp) (path : FilePath) (message : String) : Report :=
  ofFailure now path "unknown" {
    severity := .error
    check := toolCheck
    code := "runtime_error"
    message := message
    help := some "Fix the tool error and re-run denylint." }

/-- The report on a policy that could not be loaded, with the line of the fault if it is known. -/
def policyFailure (now : Stamp) (path : FilePath) (profile : String) (line : Option Nat) (message : String) :
    Report :=
  ofFailure now path profile {
    severity := .error
    check := toolCheck
    code := "policy_parse"
    message := message
    location := some { path := path, line := line }
    help := some "Fix the TOML syntax or the value type at the reported line."
    data := .object [("line", .ofOption .ofNat line)] }

def policyError (now : Stamp) (path : FilePath) (profile : String) (error : LoadError) : Report :=
  policyFailure now path profile (some error.line) error.message

def isFailure (r : Report) : Bool := r.findings.any fun f => f.check == toolCheck

end Report

end PolicyLint
