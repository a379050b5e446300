import PolicyLint.Glob.Pattern
import PolicyLint.Lint.Plan
import PolicyLint.Settings.Document
import PolicyLint.Text.Trail

/-!
# From settings to a plan

A plan starts from a profile; the settings file changes it, and overrides change it further. Of several
faults the first in a fixed order counts: the profile, then each check with its globs, then the threshold.
-/
namespace PolicyLint.Settings
open Lint Text
set_option autoImplicit false

structure Overrides where
  profile : Option String := none
  failOn : Option String := none
  maxFindings : Option Nat := none
  deriving DecidableEq, Repr, Inhabited

inductive ResolveFault where
  | unknownProfile (name : String)
  | unknownCheck (name : String)
  | invalidGlob (check glob : String) (fault : Glob.Fault)
  | unknownFailOn (name : String)
  deriving DecidableEq, Repr

def ResolveFault.trail : ResolveFault → Trail
  | unknownProfile name => ⟨"unknown profile: " ++ name ++ " (expected strict|warn|compat)", []⟩
  | unknownCheck name => ⟨"unknown check id in config: " ++ name, []⟩
  | invalidGlob check glob fault =>
    ⟨"invalid allow glob for " ++ check ++ ": " ++ glob,
      ["error parsing glob '" ++ glob ++ "': " ++ fault.message]⟩
  | unknownFailOn name => ⟨"unknown fail_on: " ++ name ++ " (expected error|warning)", []⟩

def preset (profile : Profile) : Plan :=
  match profile with
  | .strict => .uniform profile.name .error .error
  | .warn => .uniform profile.name .warning .warning
  | .compat =>
    let plan := Plan.uniform profile.name .warning .error
    { plan with rules := plan.rules.insert Check.unknownKeys.name { severity := .info } }

def CheckSettings.apply (c : CheckSettings) (rule : Rule) : Rule where
  enabled := c.enabled.getD rule.enabled
  severity := c.severity.getD rule.severity
  allow := if c.allow.isEmpty then rule.allow else c.allow

/-- The first glob of a list that cannot be read. -/
def firstBadGlob (globs : List String) : Option (String × Glob.Fault) :=
  globs.findSome? fun glob =>
    match Glob.parse glob with
    | .ok _ => none
    | .error fault => some (glob, fault)

/-- The rules with the settings of one check. -/
def applyCheck (rules : Rules) (entry : String × CheckSettings) : Except ResolveFault Rules :=
  match rules.find? entry.1 with
  | none => .error (.unknownCheck entry.1)
  | some rule =>
    match firstBadGlob entry.2.allow with
    | some (glob, fault) => .error (.invalidGlob entry.1 glob fault)
    | none => .ok (rules.insert entry.1 (entry.2.apply rule))

def applyChecks (rules : Rules) (checks : List (String × CheckSettings)) : Except ResolveFault Rules :=
  checks.foldlM applyCheck rules

def chosenProfile (d : Document) (o : Overrides) : Except ResolveFault Profile :=
  match o.profile with
  | none => .ok (d.profile.getD .strict)
  | some name =>
    match Profile.ofName? name with
    | some profile => .ok profile
    | none => .error (.unknownProfile name)

/-- An override may also say `warn`. -/
def failOnOfName? (s : String) : Option FailOn :=
  if s = "error" then some .error else if s = "warning" ∨ s = "warn" then some .warning else none

def chosenFailOn (d : Document) (o : Overrides) : Except ResolveFault (Option FailOn) :=
  match o.failOn with
  | none => .ok d.failOn
  | some name =>
    match failOnOfName? name with
    | some failOn => .ok (some failOn)
    | none => .error (.unknownFailOn name)

def resolve (d : Document) (o : Overrides) : Except ResolveFault Plan := do
  let profile ← chosenProfile d o
  let base := preset profile
  let rules ← applyChecks base.rules d.checks
  let failOn ← chosenFailOn d o
  return {
    profile := profile.name
    failOn := failOn.getD base.failOn
    maxFindings := (o.maxFindings.or d.maxFindings).getD base.maxFindings
    rules := rules }

end PolicyLint.Settings
