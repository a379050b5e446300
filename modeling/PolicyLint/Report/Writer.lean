import PolicyLint.Json.Printer
import PolicyLint.Report.Basic

/-!
# Writing reports

A report is written as indented JSON with its fields in a fixed order. Absent fields are left out, and so is
a payload of null.
-/
namespace PolicyLint.Lint
open Json
set_option autoImplicit false

/-- A member that is left out if there is no value. -/
def optionalMember {α : Type} (key : String) (f : α → Value) : Option α → List (String × Value)
  | some a => [(key, f a)]
  | none => []

def strings (xs : List String) : Value := .array (xs.map .string)

def Location.toJson (l : Location) : Value :=
  .object ([("path", .string l.path.text)] ++ optionalMember "line" .ofNat l.line ++
    optionalMember "col" .ofNat l.column)

/-- The payload of a finding, unless it is null. -/
def dataMember : Value → List (String × Value)
  | .null => []
  | v => [("data", v)]

def Finding.toJson (f : Finding) : Value :=
  .object (
    [("severity", .string f.severity.name), ("check_id", .string f.check), ("code", .string f.code),
      ("message", .string f.message)] ++
    optionalMember "location" Location.toJson f.location ++ optionalMember "help" .string f.help ++
    optionalMember "url" .string f.url ++ optionalMember "fingerprint" .string f.fingerprint ++
    dataMember f.data)

def Counts.toJson (c : Counts) : Value :=
  .object [("info", .ofNat c.info), ("warn", .ofNat c.warn), ("error", .ofNat c.error)]

def Summary.toJson (s : Summary) : Value :=
  .object (
    [("profile", .string s.profile), ("policy_path", .string s.policyPath.text),
      ("sections", strings s.sections), ("licenses_declared", .ofNat s.licensesDeclared),
      ("clarifications", .ofNat s.clarifications), ("skip_entries", .ofNat s.skipEntries),
      ("findings_total", .ofNat s.findingsTotal), ("findings_emitted", .ofNat s.findingsEmitted)] ++
    optionalMember "truncated_reason" .string s.truncatedReason)

end PolicyLint.Lint

namespace PolicyLint
open Json

def Tool.toJson (t : Tool) : Value := .object [("name", .string t.name), ("version", .string t.version)]

def RunTimes.toJson (r : RunTimes) : Value :=
  .object [("started_at", .string r.started.render), ("finished_at", .string r.finished.render),
    ("duration_ms", .ofNat r.milliseconds)]

namespace Report

def toJson (r : Report) : Value :=
  .object [("schema", .string r.schema), ("tool", r.tool.toJson), ("run", r.run.toJson),
    ("verdict", .string r.verdict.name), ("counts", r.counts.toJson),
    ("findings", .array (r.findings.map Lint.Finding.toJson)), ("data", r.summary.toJson)]

def serialize (r : Report) : String := r.toJson.pretty 0 ++ "\n"

end Report

end PolicyLint
