import PolicyLint.CommandLine.Arguments
import PolicyLint.CommandLine.Host
import PolicyLint.CommandLine.LogFilter
import PolicyLint.Json.Printer
import PolicyLint.Lint.Explanation
import PolicyLint.Report.Annotations
import PolicyLint.Report.Check
import PolicyLint.Report.Markdown
import PolicyLint.Report.Reader
import PolicyLint.Report.Writer

/-!
# The program

The commands of the command line over any host. A check always leaves a report, also when it fails; it exits
with one if the policy could not be checked, and with two if the verdict is a failure.
-/
namespace PolicyLint.CommandLine
open Lint Policy Text
set_option autoImplicit false

structure Console where
  out : String := ""
  err : String := ""
  deriving DecidableEq, Repr, Inhabited

/-- Steps on a host that write to the console. -/
abbrev Act (m : Type → Type) := StateT Console m

abbrev Attempt (m : Type → Type) := ExceptT Trail (Act m)

structure Session (m : Type → Type) where
  host : Host m
  filter : Filter

namespace Session

variable {m : Type → Type} [Monad m]

def print (text : String) : Act m Unit := modify fun c => { c with out := c.out ++ text }

def printError (text : String) : Act m Unit := modify fun c => { c with err := c.err ++ text }

def log (s : Session m) (e : Event) : Act m Unit :=
  if s.filter.admits e then printError e.line else pure ()

def logAll (s : Session m) : List Event → Act m Unit
  | [] => pure ()
  | e :: es => do
    s.log e
    s.logAll es

def ask {α : Type} (step : m α) : Act m α := StateT.lift step

/-- Steps that do not fail, among steps that may. -/
def always {α : Type} (a : Act m α) : Attempt m α := ExceptT.lift a

/-- Makes a step of the host; an error is the cause of a failure. -/
def attempt {α : Type} (headline : String) (step : m (Except SystemError α)) : Attempt m α := do
  match ← always (ask step) with
  | .ok a => return a
  | .error error => throw ⟨headline, [error.message]⟩

/-- Tells a failure as the cause of a wider one. -/
def within {α : Type} (headline : String) (a : Attempt m α) : Attempt m α :=
  ExceptT.mk do
    match ← a.run with
    | .ok x => return .ok x
    | .error trail => return .error (trail.within headline)

/-- Makes the directory of a file, unless the path is a single name. -/
def makeParent (s : Session m) (path : String) : Attempt m Unit :=
  match parentOf path with
  | some parent =>
    if parent.isEmpty then pure ()
    else attempt ("create directory: " ++ parent) (s.host.makeDirectories parent)
  | none => pure ()

def writeFile (s : Session m) (kind path content : String) : Attempt m Unit := do
  s.makeParent path
  attempt ("write " ++ kind ++ ": " ++ path) (s.host.write path content)

/-- The settings file; one that is not there is empty. -/
def readSettings (s : Session m) (path : String) : Attempt m String := do
  match ← always (ask (s.host.read path)) with
  | .ok text => return text
  | .error error =>
    if error.isNotFound then
      always (s.log ⟨.warn, .program, "config file not found; using defaults", [("path", path)]⟩)
      return ""
    else throw ⟨"read config: " ++ path, [error.message]⟩

def planned (plan : Plan) : Event :=
  ⟨.debug, .check, "resolved config", [("profile", plan.profile),
    ("max_findings", toString plan.maxFindings), ("fail_on", quoted plan.failOn.name),
    ("checks", toString plan.enabledChecks)]⟩

def verdictWord : Verdict → String
  | .pass => "Pass"
  | .warn => "Warn"
  | .fail => "Fail"

/-- What the log says about a policy and the report on it. -/
def checkEvents (path : FilePath) (report : Report) : Except LoadError Model → List Event
  | .error error => [⟨.info, .check, "policy file failed to load",
      [("policy", path.text), ("error", error.message)]⟩]
  | .ok model => [
    ⟨.debug, .check, "loaded policy", [("sections", quotedList model.document.sectionNames),
      ("unknown_keys", toString model.unknownKeys.length)]⟩,
    ⟨.info, .check, "check finished", [("verdict", verdictWord report.verdict),
      ("errors", toString report.counts.error), ("warnings", toString report.counts.warn),
      ("info", toString report.counts.info)]⟩]

/-- The report on the text of a policy. -/
def checkText (s : Session m) (o : Options) (policy settings : String) : Attempt m Report := do
  let path := FilePath.ofText o.policy
  let started ← always (ask s.host.now)
  match planOf settings o.overrides with
  | .error fault => throw (fault.trail settings)
  | .ok plan =>
    always (s.log (planned plan))
    let loaded := Model.ofSource path policy
    let finished ← always (ask s.host.now)
    let report := Report.ofLoaded started finished path plan loaded
    always (s.logAll (checkEvents path report loaded))
    return report

def writeReport (s : Session m) (path : String) (report : Report) : Attempt m Unit :=
  s.writeFile "report" path report.serialize

def failureLines (report : Report) : String :=
  String.join (report.findings.map fun f => "denylint error: " ++ f.message ++ "\n")

def exitCode (report : Report) : Nat := if report.isFailure then 1 else report.verdict.exitCode

/-- A check from files to files. -/
def checkFiles (s : Session m) (o : Options) (reportOut : String) (markdownOut : Option String) :
    Attempt m Nat := do
  let policy ← attempt ("read policy file: " ++ o.policy) (s.host.read o.policy)
  let settings ← s.readSettings o.config
  let report ← s.checkText o policy settings
  within "write report json" (s.writeReport reportOut report)
  always (s.log ⟨.debug, .program, "wrote report", [("path", reportOut)]⟩)
  match markdownOut with
  | some path =>
    within "write markdown" (s.writeFile "text" path report.markdown)
    always (s.log ⟨.debug, .program, "wrote markdown", [("path", path)]⟩)
  | none => pure ()
  if report.isFailure then always (printError (failureLines report))
  return exitCode report

/-- Leaves a report of a failure where the report of the check would be. -/
def reportFailure (s : Session m) (o : Options) (reportOut : String) (trail : Trail) : Act m Nat := do
  let now ← ask s.host.now
  let report := Report.runtimeError now (.ofText o.policy) trail.line
  match ← (s.writeReport reportOut report).run with
  | .ok _ => pure ()
  | .error fault =>
    s.log ⟨.warn, .program, "could not write runtime-error report", [("error", fault.headline)]⟩
  printError ("denylint error: " ++ trail.line ++ "\n")
  return 1

def check (s : Session m) (o : Options) (reportOut : String) (markdownOut : Option String) :
    Act m Nat := do
  match ← (s.checkFiles o reportOut markdownOut).run with
  | .ok code => return code
  | .error trail => s.reportFailure o reportOut trail

def readReport (s : Session m) (path : String) : Attempt m Report := do
  let text ← attempt ("read report: " ++ path) (s.host.read path)
  match Report.parse text with
  | .ok report => return report
  | .error fault => throw fault.trail

def markdown (s : Session m) (path : String) (output : Option String) : Attempt m Unit := do
  let report ← s.readReport path
  match output with
  | some out => within "write markdown output" (s.writeFile "text" out report.markdown)
  | none => always (print report.markdown)

def annotations (s : Session m) (path : String) (max : Nat) : Attempt m Unit := do
  let report ← s.readReport path
  always (print (String.join ((report.annotations max).map (· ++ "\n"))))

/-- Shows a failure, if there is one. -/
def conclude (a : Attempt m Unit) : Act m Nat := do
  match ← a.run with
  | .ok _ => return 0
  | .error trail =>
    printError ("Error: " ++ trail.block ++ "\n")
    return 1

def explain (identifier : String) : Act m Nat := do
  match Explanation.find? identifier with
  | some e =>
    print e.render
    return 0
  | none =>
    printError (Explanation.notFound identifier)
    return 1

def perform (s : Session m) (o : Options) : Command → Act m Nat
  | .check reportOut writeMarkdown markdownOut =>
    s.check o reportOut (if writeMarkdown then some markdownOut else none)
  | .markdown report output => conclude (s.markdown report output)
  | .annotations report max => conclude (s.annotations report max)
  | .explain identifier => Session.explain identifier
  | .schema kind => do
    print ((Schema.ofKind kind).pretty 0 ++ "\n")
    return 0

end Session

structure Outcome where
  exitCode : Nat
  console : Console
  deriving DecidableEq, Repr, Inhabited

def Shown.text : Shown → String
  | version => Tool.current.name ++ " " ++ Tool.current.version ++ "\n"
  | help => "Usage: " ++ Tool.current.name ++ " [OPTIONS] <COMMAND>\n\nCommands: " ++
    String.intercalate ", " (commands.map Prod.fst) ++ "\n"

/-- The filter that the environment sets, or else the option, and the notes about it. -/
def chooseFilter (environment : Option String) (logLevel : String) : Filter × String :=
  match environment with
  | some s =>
    if Filter.notes s = "" then (Filter.ofText s, "")
    else (Filter.ofText logLevel, Filter.notes logLevel)
  | none => (Filter.ofText logLevel, Filter.notes logLevel)

/-- Answers a request. `environment` is a log filter that wins over the option. -/
def Request.answer {m : Type → Type} [Monad m] (host : Host m) (environment : Option String) :
    Request → m Outcome
  | .information what => return ⟨0, { out := what.text }⟩
  | .run options command => do
    let (filter, notes) := chooseFilter environment options.logLevel
    let (code, console) ← (Session.perform ⟨host, filter⟩ options command).run { err := notes }
    return ⟨code, console⟩

/-- Runs the program. A command line that makes no request exits with two. -/
def run {m : Type → Type} [Monad m] (host : Host m) (environment : Option String)
    (args : List String) : m Outcome :=
  match Request.ofArguments args with
  | .ok request => request.answer host environment
  | .error fault => return ⟨2, { err := fault.message ++ "\n" }⟩

end PolicyLint.CommandLine
