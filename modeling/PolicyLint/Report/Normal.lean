import PolicyLint.Json.Value

/-!
# Normal forms of reports

Two runs on the same policy differ in their times and perhaps in the version of the tool. The normal form of
a report has fixed values there, so that reports can be compared.
-/
namespace PolicyLint.Report
open Json
set_option autoImplicit false

/-- Sets a member that is there. -/
def overwrite (key : String) (v : Value) (ms : Members) : Members := ms.modify key fun _ => v

/-- Changes the members of an object; other values stay as they are. -/
def onMembers (f : Members → Members) : Value → Value
  | .object ms => .object (f ms)
  | v => v

def normalTool : Value → Value := onMembers (overwrite "version" (.string "__VERSION__"))

def normalRun : Value → Value :=
  onMembers fun ms =>
    overwrite "duration_ms" (.ofNat 0)
      (overwrite "finished_at" (.string "__TIMESTAMP__")
        (overwrite "started_at" (.string "__TIMESTAMP__") ms))

def normalize : Value → Value :=
  onMembers fun ms => Members.modify "run" normalRun (Members.modify "tool" normalTool ms)

/-- A finding by its check, its code and its line. -/
structure Triple where
  check : String
  code : String
  line : Option Nat
  deriving DecidableEq, Repr

/-- The text of a member; empty if it is not there or no text. -/
def textMember (key : String) (v : Value) : String := ((v.get? key).bind Value.string?).getD ""

def tripleOf (finding : Value) : Triple where
  check := textMember "check_id" finding
  code := textMember "code" finding
  line := ((finding.get? "location").bind (Value.get? "line")).bind Value.natural?

/-- The findings of a value that may be a report. -/
def triples (v : Value) : List Triple :=
  match v.get? "findings" with
  | some (.array findings) => findings.map tripleOf
  | _ => []

end PolicyLint.Report
