import PolicyLint.Json.Value
import PolicyLint.Lint.Severity
import PolicyLint.Settings.Document

/-!
# Schemas

Machine-readable descriptions of settings files and of reports, as JSON Schema.
-/
namespace PolicyLint.Schema
open Json Lint Settings
set_option autoImplicit false

inductive Kind where
  | config | report
  deriving DecidableEq, Repr

def Kind.name : Kind → String
  | config => "config"
  | report => "report"

def Kind.ofName? (s : String) : Option Kind := [Kind.config, .report].find? fun k => k.name == s

def dialect : String := "https://json-schema.org/draft/2020-12/schema"

abbrev Parts := List (String × Value)

def typed (name : String) : Parts := [("type", .string name)]

def typedOrNull (name : String) : Parts := [("type", .array [.string name, .string "null"])]

def described (text : String) : Parts := [("description", .string text)]

def plain (name : String) : Value := .ofMembers (typed name)

def plainOrNull (name : String) : Value := .ofMembers (typedOrNull name)

def reference (name : String) : Value := .ofMembers [("$ref", .string ("#/$defs/" ++ name))]

def referenceOrNull (name : String) : Value :=
  .ofMembers [("anyOf", .array [reference name, plain "null"])]

/-- Whole numbers from zero up, of a number of bits. -/
def whole (format : String) : Parts := [("format", .string format), ("minimum", .ofNat 0)]

def natural (format : String) : Value := .ofMembers (whole format ++ typed "integer")

def naturalOrNull (format : String) : Value := .ofMembers (whole format ++ typedOrNull "integer")

def listOf (item : Value) : Parts := ("items", item) :: typed "array"

def initiallyEmpty : Parts := [("default", .array [])]

def choiceOf (names : List String) : Parts := ("enum", .array (names.map .string)) :: typed "string"

def alternative (name meaning : String) : Value :=
  .ofMembers (("const", .string name) :: (described meaning ++ typed "string"))

def record (properties : List (String × Value)) : Parts :=
  ("properties", .ofMembers properties) :: typed "object"

def closed : Parts := [("additionalProperties", .boolean false)]

def requiring (names : List String) : Parts := [("required", .array (names.map .string))]

/-- A whole schema: its title, its meaning, the definitions it refers to and the rest. -/
def document (title meaning : String) (definitions : List (String × Parts)) (parts : Parts) : Value :=
  .ofMembers (("$schema", .string dialect) :: ("title", .string title) ::
    ("$defs", .ofMembers (definitions.map fun (name, d) => (name, .ofMembers d))) ::
    (described meaning ++ parts))

def severityNames : List String := ([.info, .warning, .error] : List Severity).map Severity.name

def checkSettings : Parts :=
  closed ++ record [
    ("allow", .ofMembers (initiallyEmpty ++ described
      "Glob patterns matched against the package name, license id, or key a finding is\nabout. Matching findings are suppressed."
      ++ listOf (plain "string"))),
    ("enabled", plainOrNull "boolean"),
    ("severity", referenceOrNull "SeverityLevel")]

def profileChoice : Parts :=
  described "Preset profile." ++ [("oneOf", .array [
    alternative Profile.strict.name "Every check reports errors.",
    alternative Profile.warn.name "Every check reports warnings, and warnings fail the run.",
    alternative Profile.compat.name
      "Warnings that do not fail the run; unknown keys are informational."])]

def config : Value :=
  document "DenylintConfigV1"
    "`denylint.toml` schema v1.\n\nEvery key is optional: an empty file (or no file at all) means the `strict` profile.\nMisspelled keys are rejected rather than ignored."
    [("CheckConfig", checkSettings),
      ("FailOnLevel", described "Lowest severity that fails the run." ++
        choiceOf (([.error, .warning] : List FailOn).map FailOn.name)),
      ("ProfileName", profileChoice),
      ("SeverityLevel", choiceOf severityNames)]
    (closed ++ record [
      ("checks", .ofMembers (
        [("additionalProperties", reference "CheckConfig"), ("default", .object [])] ++
        described "Per-check settings keyed by check id, e.g. `[checks.\"bans.skip\"]`." ++
        typed "object")),
      ("fail_on", referenceOrNull "FailOnLevel"),
      ("max_findings", .ofMembers (
        described "How many findings the report lists. The verdict always counts all of them." ++
        whole "uint32" ++ typedOrNull "integer")),
      ("profile", referenceOrNull "ProfileName"),
      ("schema", .ofMembers (
        described "Optional schema string for tooling (`denylint.config.v1`)." ++
        typedOrNull "string"))])

def filePath : Parts :=
  described
    "Canonical path of a policy file as it appears in findings and reports.\n\nNormalization rules are intentionally simple and deterministic:\n- always forward slashes (`/`)\n- no leading `./`\n- empty input becomes `deny.toml`"
    ++ typed "string"

def summary : Parts :=
  described "Denylint-specific summary payload for the report." ++
  requiring ["profile", "policy_path", "licenses_declared", "clarifications", "skip_entries",
    "findings_total", "findings_emitted"] ++
  record [
    ("clarifications", natural "uint32"),
    ("findings_emitted", natural "uint32"),
    ("findings_total", natural "uint32"),
    ("licenses_declared", natural "uint32"),
    ("policy_path", reference "ConfigPath"),
    ("profile", plain "string"),
    ("sections", .ofMembers (initiallyEmpty ++
      described "Top-level sections present in the policy file, in schema order." ++
      listOf (plain "string"))),
    ("skip_entries", natural "uint32"),
    ("truncated_reason", plainOrNull "string")]

def finding : Parts :=
  requiring ["severity", "check_id", "code", "message"] ++
  record [
    ("check_id", plain "string"),
    ("code", plain "string"),
    ("data", .ofMembers (described
      "Check-specific structured payload (kept open-ended for forward compatibility).")),
    ("fingerprint", .ofMembers (described
      "Stable identifier intended for dedup and trending: a hash of\n`check_id + code + policy path + subject`."
      ++ typedOrNull "string")),
    ("help", plainOrNull "string"),
    ("location", referenceOrNull "Location"),
    ("message", plain "string"),
    ("severity", reference "Severity"),
    ("url", plainOrNull "string")]

def location : Parts :=
  requiring ["path"] ++
  record [
    ("col", naturalOrNull "uint32"),
    ("line", naturalOrNull "uint32"),
    ("path", reference "ConfigPath")]

def runTimes : Parts :=
  requiring ["started_at", "finished_at", "duration_ms"] ++
  record [
    ("duration_ms", natural "uint64"),
    ("finished_at", plain "string"),
    ("started_at", plain "string")]

def counts : Parts :=
  requiring ["info", "warn", "error"] ++
  record [("error", natural "uint32"), ("info", natural "uint32"), ("warn", natural "uint32")]

def tool : Parts :=
  requiring ["name", "version"] ++ record [("name", plain "string"), ("version", plain "string")]

def report : Value :=
  document "DenylintReport" "The report envelope written by `denylint check`."
    [("ConfigPath", filePath),
      ("DenylintData", summary),
      ("Finding", finding),
      ("Location", location),
      ("RunMeta", runTimes),
      ("Severity", described "Severity is intentionally small: it maps cleanly to CI signals." ++
        choiceOf severityNames),
      ("ToolMeta", tool),
      ("Verdict", choiceOf (([.pass, .warn, .fail] : List Verdict).map Verdict.name)),
      ("VerdictCounts", counts)]
    (requiring ["schema", "tool", "run", "verdict", "counts", "findings", "data"] ++
      record [
        ("counts", reference "VerdictCounts"),
        ("data", reference "DenylintData"),
        ("findings", .ofMembers (listOf (reference "Finding"))),
        ("run", reference "RunMeta"),
        ("schema", .ofMembers (
          described "Versioned schema identifier for the envelope shape." ++ typed "string")),
        ("tool", reference "ToolMeta"),
        ("verdict", reference "Verdict")])

def ofKind : Kind → Value
  | .config => config
  | .report => report

end PolicyLint.Schema
