import PolicyLint.Settings.Document
import PolicyLint.Text.Blank
import PolicyLint.Toml.Document
import PolicyLint.Toml.Excerpt
import PolicyLint.Toml.Shape

/-!
# Loading settings

A settings file refuses keys that it does not know, so that a misspelled setting is not passed over in
silence. A file of nothing but blanks is the one without settings.
-/
namespace PolicyLint.Settings
open Text Toml Toml.Decode Lint
set_option autoImplicit false

/-- The schema that a settings file may name. -/
def schemaName : String := "denylint.config.v1"

inductive LoadFault where
  | form (fault : Fault)
  | wrongType (fault : TypeFault)
  | schema (found : String)
  deriving Repr

/-- The message about a fault of the text `source`. -/
def LoadFault.message (source : String) : LoadFault → String
  | form fault => excerpt source fault.span fault.message
  | wrongType fault => excerpt source fault.span fault.message
  | schema found => "unsupported config schema: " ++ found ++ " (expected " ++ schemaName ++ ")"

def profile : Decode Profile :=
  choice (Profile.all.map Profile.name) (Profile.all.map fun p => (p.name, p))

def failOn : Decode FailOn :=
  choice ["error", "warn", "warning"] [("error", .error), ("warn", .warning), ("warning", .warning)]

def severity : Decode Severity :=
  choice ["info", "warn", "warning", "error"]
    [("info", .info), ("warn", .warning), ("warning", .warning), ("error", .error)]

def checkRecord : Record CheckSettings where
  wanted := "struct CheckConfig"
  fields := [
    field "enabled" (optional boolean) fun c v => { c with enabled := v },
    field "severity" (optional severity) fun c v => { c with severity := v },
    field "allow" (list text) fun c v => { c with allow := v }]
  initial := {}
  strict := true

/-- Settings by the name of a check. A date or time counts as a table whose only value is a text. -/
def checks : Decode (List (String × CheckSettings))
  | .table _ _ entries => entries.mapM fun (key, node) => (checkRecord.read node).map (key.name, ·)
  | .moment span text => (checkRecord.read (.string span text)).map fun c => [(momentKey, c)]
  | node => Toml.wrongType "a map" node

def documentRecord : Record Document where
  wanted := "struct DenylintConfigV1"
  fields := [
    field "schema" (optional text) fun d v => { d with schema := v },
    field "profile" (optional profile) fun d v => { d with profile := v },
    field "fail_on" (optional failOn) fun d v => { d with failOn := v },
    field "max_findings" (optional natural32) fun d v => { d with maxFindings := v },
    field "checks" checks fun d v => { d with checks := v }]
  initial := {}
  strict := true

/-- A schema that is named must be the known one. -/
def Document.checkSchema (d : Document) : Except LoadFault Document :=
  match d.schema with
  | some s => if s = schemaName then .ok d else .error (.schema s)
  | none => .ok d

def load (s : String) : Except LoadFault Document :=
  if isAllBlank s then .ok {}
  else
    match Toml.parse s with
    | .error fault => .error (.form fault)
    | .ok tree =>
      match documentRecord.read tree with
      | .error fault => .error (.wrongType fault)
      | .ok document => document.checkSchema

end PolicyLint.Settings
