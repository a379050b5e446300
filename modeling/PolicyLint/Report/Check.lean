import PolicyLint.Report.Basic
import PolicyLint.Settings.Load
import PolicyLint.Settings.Resolve

/-!
# Checking a policy

From the text of a policy and the text of the settings to a report. Faults of the settings stop the run; a
policy that cannot be loaded is reported like any other finding.
-/
namespace PolicyLint
open Lint Policy Settings Text Time
set_option autoImplicit false

inductive SettingsFault where
  | load (fault : LoadFault)
  | resolve (fault : ResolveFault)
  deriving Repr

/-- The fault of a run with the settings `source`. -/
def SettingsFault.trail (source : String) : SettingsFault → Trail
  | load fault => ⟨"parse config", [fault.message source]⟩
  | resolve fault => fault.trail.within "resolve config"

def planOf (settings : String) (overrides : Overrides) : Except SettingsFault Plan :=
  match Settings.load settings with
  | .error fault => .error (.load fault)
  | .ok document =>
    match Settings.resolve document overrides with
    | .error fault => .error (.resolve fault)
    | .ok plan => .ok plan

namespace Report

/-- The report of a planned run, from when it started to when it finished. -/
def ofLoaded (started finished : Stamp) (path : FilePath) (plan : Plan) :
    Except LoadError Model → Report
  | .ok model => ofEvaluation (.between started finished) (evaluate model plan)
  | .error error => policyError finished path plan.profile error

def check (started finished : Stamp) (path : FilePath) (policy settings : String)
    (overrides : Overrides) : Except SettingsFault Report :=
  (planOf settings overrides).map fun plan =>
    ofLoaded started finished path plan (Model.ofSource path policy)

end Report

end PolicyLint
