import PolicyLint.Json.Reader
import PolicyLint.Json.Shape
import PolicyLint.Report.Basic
import PolicyLint.Text.Trail

/-!
# Reading reports

A report is read from JSON whose schema is the known one. Members that are not known are passed over, absent
optional ones may be null, and the first fault in the order of the text counts.
-/
namespace PolicyLint
open Json Json.Decode Text Lint Policy Time
set_option autoImplicit false

inductive ReportFault where
  | notJson (fault : Json.Fault)
  | schema (found : String)
  | shape (mismatch : Mismatch)
  deriving DecidableEq, Repr

def ReportFault.trail : ReportFault → Trail
  | notJson fault => ⟨"parse report json", [fault.message]⟩
  | schema found =>
    ⟨"unknown report schema: " ++ quoted found ++ " (expected " ++ Report.schemaName ++ ")", []⟩
  | shape mismatch => ⟨"parse denylint report", [mismatch.message]⟩

namespace Report

def severity : Decode Severity :=
  choice (([.info, .warning, .error] : List Severity).map fun s => (s.name, s))

def verdictChoice : Decode Verdict :=
  choice (([.pass, .warn, .fail] : List Verdict).map fun v => (v.name, v))

def filePath : Decode FilePath := fun v => (text v).map FilePath.mk

def stamp : Decode Stamp
  | .string s =>
    match Stamp.parse s with
    | .ok stamp => .ok stamp
    | .error fault => .error (.malformed fault.message)
  | v => Json.wrongType "an RFC3339-formatted `OffsetDateTime`" v

def any : Decode Value := .ok

def toolRecord : Record Tool where
  wanted := "struct ToolMeta"
  fields := [
    field "name" .required text fun t v => { t with name := v },
    field "version" .required text fun t v => { t with version := v }]
  initial := default

def runRecord : Record RunTimes where
  wanted := "struct RunMeta"
  fields := [
    field "started_at" .required stamp fun r v => { r with started := v },
    field "finished_at" .required stamp fun r v => { r with finished := v },
    field "duration_ms" .required natural64 fun r v => { r with milliseconds := v }]
  initial := default

def countsRecord : Record Counts where
  wanted := "struct VerdictCounts"
  fields := [
    field "info" .required natural32 fun c v => { c with info := v },
    field "warn" .required natural32 fun c v => { c with warn := v },
    field "error" .required natural32 fun c v => { c with error := v }]
  initial := {}

def locationRecord : Record Location where
  wanted := "struct Location"
  fields := [
    field "path" .required filePath fun l v => { l with path := v },
    field "line" .positional (optional natural32) fun l v => { l with line := v },
    field "col" .positional (optional natural32) fun l v => { l with column := v }]
  initial := default

def findingRecord : Record Finding where
  wanted := "struct Finding"
  fields := [
    field "severity" .required severity fun f v => { f with severity := v },
    field "check_id" .required text fun f v => { f with check := v },
    field "code" .required text fun f v => { f with code := v },
    field "message" .required text fun f v => { f with message := v },
    field "location" .positional (optional locationRecord.read) fun f v => { f with location := v },
    field "help" .positional (optional text) fun f v => { f with help := v },
    field "url" .positional (optional text) fun f v => { f with url := v },
    field "fingerprint" .positional (optional text) fun f v => { f with fingerprint := v },
    field "data" .defaulted any fun f v => { f with data := v }]
  initial := { severity := .info, check := "", code := "", message := "" }

def summaryRecord : Record Summary where
  wanted := "struct DenylintData"
  fields := [
    field "profile" .required text fun s v => { s with profile := v },
    field "policy_path" .required filePath fun s v => { s with policyPath := v },
    field "sections" .defaulted (list text) fun s v => { s with sections := v },
    field "licenses_declared" .required natural32 fun s v => { s with licensesDeclared := v },
    field "clarifications" .required natural32 fun s v => { s with clarifications := v },
    field "skip_entries" .required natural32 fun s v => { s with skipEntries := v },
    field "findings_total" .required natural32 fun s v => { s with findingsTotal := v },
    field "findings_emitted" .required natural32 fun s v => { s with findingsEmitted := v },
    field "truncated_reason" .positional (optional text) fun s v => { s with truncatedReason := v }]
  initial := { profile := "", policyPath := .default }

def record : Record Report where
  wanted := "struct DenylintReport"
  fields := [
    field "schema" .required text fun r v => { r with schema := v },
    field "tool" .required toolRecord.read fun r v => { r with tool := v },
    field "run" .required runRecord.read fun r v => { r with run := v },
    field "verdict" .required verdictChoice fun r v => { r with verdict := v },
    field "counts" .required countsRecord.read fun r v => { r with counts := v },
    field "findings" .required (list findingRecord.read) fun r v => { r with findings := v },
    field "data" .required summaryRecord.read fun r v => { r with summary := v }]
  initial := default

/-- The schema that a value names; the empty one if it names none. -/
def schemaOf (v : Value) : String := ((v.get? "schema").bind Value.string?).getD ""

def ofJson (v : Value) : Except ReportFault Report :=
  if schemaOf v = schemaName then
    match record.read v with
    | .ok r => .ok r
    | .error mismatch => .error (.shape mismatch)
  else .error (.schema (schemaOf v))

def parse (s : String) : Except ReportFault Report :=
  match Json.parse s with
  | .ok v => ofJson v
  | .error fault => .error (.notJson fault)

end Report

end PolicyLint
