import PolicyLint.Proofs.CommandLine.Steps
import PolicyLint.Proofs.Lint.Provenance

/-!
# What the exit code tells

On a system where files can be read and written, a check always leaves a report, and exit code, verdict and
report agree. The exit code tells three kinds of runs apart: those that could not check the policy, those
that found enough to fail, and the others. It is found by looking for the failure of the tool among the
listed findings, which no check can report.
-/
namespace PolicyLint.CommandLine
open Lint Policy Text
set_option autoImplicit false

/-- The system lets the policy and the settings be read, as long as nothing is written, and keeps every
file. -/
structure Serves {σ : Type} (host : Host (StateM σ)) (written : σ → Files) (o : Options)
    (policy settings : String) : Prop where
  readPolicy : Leads written (host.read o.policy) [] fun r after => r = .ok policy ∧ after = []
  readSettings : Leads written (host.read o.config) [] fun r after => r = .ok settings ∧ after = []
  now : ∀ before, Leads written host.now before fun _ after => after = before
  makeDirectories : ∀ path before, Leads written (host.makeDirectories path) before fun r after =>
    r = .ok () ∧ after = before
  write : ∀ path content before, Leads written (host.write path content) before fun r after =>
    r = .ok () ∧ after = (path, content) :: before

/-- What checking the two texts comes to. -/
inductive Checked (o : Options) (policy settings : String) : Except Trail Report → Prop
  | unplanned (fault : SettingsFault) (h : planOf settings o.overrides = .error fault) :
    Checked o policy settings (.error (fault.trail settings))
  | planned (started finished : Time.Stamp) (plan : Plan) (h : planOf settings o.overrides = .ok plan) :
    Checked o policy settings (.ok (Report.ofLoaded started finished (.ofText o.policy) plan
      (Model.ofSource (.ofText o.policy) policy)))

def markdownFiles (out : Option String) (report : Report) : Files :=
  out.toList.map fun path => (path, report.markdown)

variable {σ : Type} {written : σ → Files} {o : Options} {policy settings : String} {before : Files}
  {s : Session (StateM σ)}

namespace Serves

theorem makeParent (h : Serves s.host written o policy settings) (path : String) :
    AttemptLeads written (s.makeParent path) before fun r after => ∃ x, r = .ok x ∧ after = before := by
  rw [Session.makeParent]
  split
  · split
    · exact .pure ⟨(), rfl, rfl⟩
    · exact (AttemptLeads.attempt (h.makeDirectories _ before)).mono fun _ _ ⟨x, hx, _, hAfter⟩ =>
        ⟨x, hx, hAfter⟩
  · exact .pure ⟨(), rfl, rfl⟩

theorem writeFile (h : Serves s.host written o policy settings) (kind path content : String) :
    AttemptLeads written (s.writeFile kind path content) before fun r after =>
      ∃ x, r = .ok x ∧ after = (path, content) :: before := by
  rw [Session.writeFile]
  refine (h.makeParent path).bind_ok ?_
  rintro _ _ rfl
  exact (AttemptLeads.attempt (h.write path content _)).mono fun _ _ ⟨x, hx, _, hAfter⟩ => ⟨x, hx, hAfter⟩

theorem settingsText (h : Serves s.host written o policy settings) :
    AttemptLeads written (s.readSettings o.config) [] fun r after =>
      ∃ x, r = .ok x ∧ x = settings ∧ after = [] := by
  rw [Session.readSettings]
  refine (AttemptLeads.always (.ask h.readSettings)).bind_ok ?_
  rintro _ _ ⟨rfl, rfl⟩
  exact .pure ⟨_, rfl, rfl, rfl⟩

theorem checkText (h : Serves s.host written o policy settings) :
    AttemptLeads written (s.checkText o policy settings) before fun r after =>
      Checked o policy settings r ∧ after = before := by
  rw [Session.checkText]
  refine (AttemptLeads.always (.ask (h.now before))).bind_ok ?_
  rintro started _ rfl
  split
  · rename_i fault hFault
    exact .throw ⟨.unplanned fault hFault, rfl⟩
  · rename_i plan hPlan
    refine (AttemptLeads.always (.log s _)).bind_ok ?_
    rintro _ _ rfl
    refine (AttemptLeads.always (.ask (h.now _))).bind_ok ?_
    rintro finished _ rfl
    refine (AttemptLeads.always (.logAll s _)).bind_ok ?_
    rintro _ _ rfl
    exact .pure ⟨.planned started finished plan hPlan, rfl⟩

theorem checkFiles (h : Serves s.host written o policy settings) (reportOut : String)
    (markdownOut : Option String) :
    AttemptLeads written (s.checkFiles o reportOut markdownOut) [] fun r after =>
      match r with
      | .ok code => ∃ report, Checked o policy settings (.ok report) ∧ code = Session.exitCode report ∧
          after = markdownFiles markdownOut report ++ [(reportOut, report.serialize)]
      | .error trail => Checked o policy settings (.error trail) ∧ after = [] := by
  rw [Session.checkFiles]
  refine (AttemptLeads.attempt h.readPolicy).bind_ok ?_
  rintro _ _ ⟨rfl, rfl⟩
  refine h.settingsText.bind_ok ?_
  rintro _ _ ⟨rfl, rfl⟩
  refine h.checkText.bind ?_ ?_
  · rintro report _ ⟨hChecked, rfl⟩
    refine (AttemptLeads.within (h.writeFile _ _ _)).bind_ok ?_
    rintro _ _ rfl
    refine (AttemptLeads.always (.log s _)).bind_ok ?_
    rintro _ _ rfl
    have hExit : ∀ files, AttemptLeads written
        (do if report.isFailure then Session.always (Session.printError (Session.failureLines report))
            return Session.exitCode report) files fun r after =>
          r = .ok (Session.exitCode report) ∧ after = files := by
      intro files
      split
      · refine (AttemptLeads.always (.printError _)).bind_ok ?_
        rintro _ _ rfl
        exact .pure ⟨rfl, rfl⟩
      · exact .pure ⟨rfl, rfl⟩
    cases markdownOut with
    | none =>
      refine (hExit _).mono ?_
      rintro _ _ ⟨rfl, rfl⟩
      exact ⟨report, hChecked, rfl, rfl⟩
    | some path =>
      refine (AttemptLeads.within (h.writeFile _ _ _)).bind_ok ?_
      rintro _ _ rfl
      refine (AttemptLeads.always (.log s _)).bind_ok ?_
      rintro _ _ rfl
      refine (hExit _).mono ?_
      rintro _ _ ⟨rfl, rfl⟩
      exact ⟨report, hChecked, rfl, rfl⟩
  · rintro trail _ ⟨hChecked, rfl⟩
    exact ⟨hChecked, rfl⟩

theorem reportFailure (h : Serves s.host written o policy settings) (reportOut : String) (trail : Trail) :
    ActLeads written (s.reportFailure o reportOut trail) before fun code after =>
      code = 1 ∧ ∃ now, after =
        (reportOut, (Report.runtimeError now (.ofText o.policy) trail.line).serialize) :: before := by
  rw [Session.reportFailure]
  refine (ActLeads.ask (h.now before)).bind ?_
  rintro now _ rfl
  refine ActLeads.bind (h.writeFile _ _ _) ?_
  rintro _ _ ⟨x, rfl, rfl⟩
  refine (ActLeads.printError _).bind ?_
  rintro _ _ rfl
  exact .pure ⟨rfl, now, rfl⟩

end Serves

/-- The report of a check, the code it exits with and the files it leaves. -/
inductive Ends (o : Options) (policy settings reportOut : String) (markdownOut : Option String) :
    Report → Nat → Files → Prop
  | unplanned (fault : SettingsFault) (now : Time.Stamp) (report : Report)
    (hPlan : planOf settings o.overrides = .error fault)
    (hReport : report = .runtimeError now (.ofText o.policy) (fault.trail settings).line) :
    Ends o policy settings reportOut markdownOut report 1 [(reportOut, report.serialize)]
  | planned (plan : Plan) (started finished : Time.Stamp) (report : Report)
    (hPlan : planOf settings o.overrides = .ok plan)
    (hReport : report = .ofLoaded started finished (.ofText o.policy) plan
      (Model.ofSource (.ofText o.policy) policy)) :
    Ends o policy settings reportOut markdownOut report (Session.exitCode report)
      (markdownFiles markdownOut report ++ [(reportOut, report.serialize)])

theorem Serves.check (h : Serves s.host written o policy settings) (reportOut : String)
    (markdownOut : Option String) :
    ActLeads written (s.check o reportOut markdownOut) [] fun code after =>
      ∃ report, Ends o policy settings reportOut markdownOut report code after := by
  rw [Session.check]
  refine ActLeads.bind (h.checkFiles reportOut markdownOut) ?_
  rintro (trail | code) after hFiles
  · obtain ⟨hChecked, rfl⟩ := hFiles
    cases hChecked with
    | unplanned fault hPlan =>
      refine (h.reportFailure reportOut _).mono ?_
      rintro _ _ ⟨rfl, now, rfl⟩
      exact ⟨_, .unplanned fault now _ hPlan rfl⟩
  · obtain ⟨report, hChecked, rfl, rfl⟩ := hFiles
    cases hChecked with
    | planned started finished plan hPlan =>
      exact .pure ⟨_, .planned plan started finished _ hPlan rfl⟩

/-- The settings cannot be read or resolved, or the policy cannot be loaded. -/
def Unchecked (o : Options) (policy settings : String) : Prop :=
  (∃ fault, Settings.load settings = .error fault) ∨
  (∃ document fault, Settings.load settings = .ok document ∧
    Settings.resolve document o.overrides = .error fault) ∨
  ∃ fault, load policy = .error fault

/-- Among all findings there is an error, or a warning that counts as one. -/
def Fails (m : Model) (plan : Plan) : Prop :=
  ∃ f ∈ findingsOf m plan Check.all,
    f.severity = .error ∨ (f.severity = .warning ∧ plan.failOn = .warning)

theorem exists_planOf_eq_error_iff {overrides : Settings.Overrides} :
    (∃ fault, planOf settings overrides = .error fault) ↔
      (∃ fault, Settings.load settings = .error fault) ∨
      ∃ document fault, Settings.load settings = .ok document ∧
        Settings.resolve document overrides = .error fault := by
  rw [planOf]
  cases Settings.load settings with
  | error fault => simp
  | ok document => cases h : Settings.resolve document overrides <;> simp [h]

theorem unchecked_iff :
    Unchecked o policy settings ↔ (∃ fault, planOf settings o.overrides = .error fault) ∨
      ∃ fault, Model.ofSource (.ofText o.policy) policy = .error fault := by
  rw [Unchecked, ← or_assoc, ← exists_planOf_eq_error_iff, Model.ofSource]
  cases load policy <;> simp [Except.map]

theorem verdict_evaluate_eq_fail_iff (m : Model) (plan : Plan) :
    (evaluate m plan).verdict = .fail ↔ Fails m plan := by
  rw [(accounts_evaluate m plan).verdict, FailOn.verdict_eq_fail_iff, gt_iff_lt, gt_iff_lt,
    Counts.error_pos_iff, Counts.warn_pos_iff, Fails]
  constructor
  · rintro (⟨f, hf, hError⟩ | ⟨⟨f, hf, hWarning⟩, hFailOn⟩)
    · exact ⟨f, hf, .inl hError⟩
    · exact ⟨f, hf, .inr ⟨hWarning, hFailOn⟩⟩
  · rintro ⟨f, hf, hError | ⟨hWarning, hFailOn⟩⟩
    · exact .inl ⟨f, hf, hError⟩
    · exact .inr ⟨⟨f, hf, hWarning⟩, hFailOn⟩

end PolicyLint.CommandLine

namespace PolicyLint.Report
open Lint Policy

theorem isFailure_iff (r : Report) : r.isFailure ↔ ∃ f ∈ r.findings, f.check = toolCheck := by
  simp [isFailure]

theorem toolCheck_ne_name (check : Check) : check.name ≠ toolCheck := by
  cases check <;> decide

/-- No check reports a failure of the tool, so none is listed, wherever the list is cut. -/
theorem not_isFailure_ofEvaluation (run : RunTimes) (m : Model) (plan : Plan) :
    (ofEvaluation run (evaluate m plan)).isFailure = false := by
  rw [← Bool.not_eq_true, isFailure_iff]
  rintro ⟨f, hf, hCheck⟩
  obtain ⟨check, rule, -, i, -, rfl⟩ := mem_findingsOf_iff.mp (mem_findingsOf_of_mem_findings hf)
  exact toolCheck_ne_name check hCheck

end PolicyLint.Report

namespace PolicyLint.CommandLine
open Lint Policy Text

variable {o : Options} {policy settings : String}

/-- Exit code, verdict and listed findings agree with each other and with the two texts. -/
structure Tells (o : Options) (policy settings : String) (report : Report) (code : Nat) : Prop where
  one : code = 1 ↔ Unchecked o policy settings
  two : code = 2 ↔ ∃ plan model, planOf settings o.overrides = .ok plan ∧
    Model.ofSource (.ofText o.policy) policy = .ok model ∧ Fails model plan
  other : code = 0 ∨ code = 1 ∨ code = 2
  verdict : report.verdict = .fail ↔ code ≠ 0
  runtime : (∃ f ∈ report.findings, f.check = Report.toolCheck) ↔ code = 1

theorem Tells.of_unchecked {report : Report} (h : Unchecked o policy settings)
    (hVerdict : report.verdict = .fail) (hFailure : report.isFailure) :
    Tells o policy settings report 1 where
  one := iff_of_true rfl h
  two := by
    refine iff_of_false (by decide) ?_
    rintro ⟨plan, model, hPlan, hModel, -⟩
    rcases unchecked_iff.mp h with ⟨fault, hFault⟩ | ⟨fault, hFault⟩
    · cases hPlan.symm.trans hFault
    · cases hModel.symm.trans hFault
  other := .inr (.inl rfl)
  verdict := iff_of_true hVerdict (by decide)
  runtime := iff_of_true ((Report.isFailure_iff report).mp hFailure) rfl

theorem Tells.of_evaluated {plan : Plan} {model : Model} {run : RunTimes}
    (hPlan : planOf settings o.overrides = .ok plan)
    (hModel : Model.ofSource (.ofText o.policy) policy = .ok model) :
    Tells o policy settings (.ofEvaluation run (evaluate model plan))
      (evaluate model plan).verdict.exitCode where
  one := by
    refine iff_of_false (by cases (evaluate model plan).verdict <;> decide) ?_
    intro h
    rcases unchecked_iff.mp h with ⟨fault, hFault⟩ | ⟨fault, hFault⟩
    · cases hPlan.symm.trans hFault
    · cases hModel.symm.trans hFault
  two := by
    rw [Verdict.exitCode_eq_two_iff, verdict_evaluate_eq_fail_iff]
    constructor
    · exact fun hFails => ⟨plan, model, hPlan, hModel, hFails⟩
    · rintro ⟨plan', model', hPlan', hModel', hFails⟩
      cases hPlan.symm.trans hPlan'
      cases hModel.symm.trans hModel'
      exact hFails
  other := by cases (evaluate model plan).verdict <;> decide
  verdict := by
    show (evaluate model plan).verdict = .fail ↔ _
    cases (evaluate model plan).verdict <;> decide
  runtime := by
    rw [← Report.isFailure_iff, Report.not_isFailure_ofEvaluation]
    refine iff_of_false (by decide) ?_
    cases (evaluate model plan).verdict <;> decide

theorem Ends.tells {reportOut : String} {markdownOut : Option String} {report : Report} {code : Nat}
    {files : Files} (h : Ends o policy settings reportOut markdownOut report code files) :
    Tells o policy settings report code := by
  cases h with
  | unplanned fault now _ hPlan hReport =>
    rw [hReport]
    exact .of_unchecked (unchecked_iff.mpr (.inl ⟨fault, hPlan⟩)) rfl rfl
  | planned plan started finished _ hPlan hReport =>
    rw [hReport]
    cases hModel : Model.ofSource (.ofText o.policy) policy with
    | error fault => exact .of_unchecked (unchecked_iff.mpr (.inr ⟨fault, hModel⟩)) rfl rfl
    | ok model =>
      rw [Report.ofLoaded, Session.exitCode, Report.not_isFailure_ofEvaluation]
      exact .of_evaluated hPlan hModel

theorem Ends.exists_files {reportOut : String} {markdownOut : Option String} {report : Report} {code : Nat}
    {files : Files} (h : Ends o policy settings reportOut markdownOut report code files) :
    ∃ more, files = more ++ [(reportOut, report.serialize)] ∧ more ⊆ markdownFiles markdownOut report := by
  cases h with
  | unplanned => exact ⟨[], rfl, List.nil_subset _⟩
  | planned => exact ⟨_, rfl, List.Subset.refl _⟩

/-- A check leaves a report first, and perhaps a rendering of it, and exit code, verdict and report agree. -/
theorem answer_check {σ : Type} (host : Host (StateM σ)) (written : σ → Files) (environment : Option String)
    (o : Options) (reportOut markdownOut : String) (writeMarkdown : Bool) (policy settings : String)
    (hServes : Serves host written o policy settings) (start : σ) (hStart : written start = []) :
    let ending := ((Request.run o (.check reportOut writeMarkdown markdownOut)).answer host environment).run start
    ∃ report more, written ending.2 = more ++ [(reportOut, report.serialize)] ∧
      more ⊆ markdownFiles (if writeMarkdown then some markdownOut else none) report ∧
      Tells o policy settings report ending.1.exitCode := by
  have hSession : Serves (Session.host ⟨host, (chooseFilter environment o.logLevel).1⟩) written o policy settings :=
    hServes
  obtain ⟨report, hEnds⟩ := hSession.check reportOut (if writeMarkdown then some markdownOut else none)
    { err := (chooseFilter environment o.logLevel).2 } start hStart
  obtain ⟨more, hFiles, hMore⟩ := hEnds.exists_files
  exact ⟨report, more, hFiles, hMore, hEnds.tells⟩

def Files.read (files : Files) (path : String) : Except SystemError String :=
  match files.lookup path with
  | some content => .ok content
  | none => .error .notFound

/-- A system of a list of files, where every path can be written to. -/
def listHost (files : Files) (now : Time.Stamp) : Host (StateM Files) where
  read path := do return Files.read ((← get) ++ files) path
  write path content := do
    modify ((path, content) :: ·)
    return .ok ()
  makeDirectory _ := return .ok ()
  isDirectory _ := return true
  now := return now

theorem serves_listHost {o : Options} (policy settings : String) (now : Time.Stamp) (h : o.policy ≠ o.config) :
    Serves (listHost [(o.policy, policy), (o.config, settings)] now) id o policy settings where
  readPolicy := by
    rintro _ rfl
    have hRead : Files.read [(o.policy, policy), (o.config, settings)] o.policy = .ok policy := by
      simp [Files.read]
    exact ⟨hRead, rfl⟩
  readSettings := by
    rintro _ rfl
    have hRead : Files.read [(o.policy, policy), (o.config, settings)] o.config = .ok settings := by
      simp [Files.read, List.lookup, beq_false_of_ne h.symm]
    exact ⟨hRead, rfl⟩
  now := fun _ _ hs => hs
  makeDirectories := by
    rintro path _ s rfl
    rw [Host.makeDirectories]
    cases withAncestors (path.length + 1) path <;> exact ⟨rfl, rfl⟩
  write := by
    rintro path content _ s rfl
    exact ⟨rfl, rfl⟩

theorem planOf_blank : planOf "" {} = .ok (Settings.preset .strict) := rfl

theorem fails_typoModel : Fails typoModel (Settings.preset .strict) := by
  have hAll : findingsOf typoModel (Settings.preset .strict) Check.all = [typoFinding] := rfl
  exact ⟨typoFinding, hAll ▸ List.mem_singleton_self typoFinding, .inl rfl⟩

/-- A key that the schema does not know fails a check without settings. -/
theorem answer_check_typoPolicy :
    let host := listHost [("deny.toml", typoPolicy), ("denylint.toml", "")] (.ofEpoch 0 0)
    let ending := ((Request.run {} (.check "out.json" true "out.md")).answer host none).run []
    ending.1.exitCode = 2 ∧
      ∃ report, ("out.json", Report.serialize report) ∈ ending.2 ∧ report.verdict = .fail := by
  have hServes := serves_listHost (o := {}) typoPolicy "" (.ofEpoch 0 0) (by decide)
  obtain ⟨report, more, hFiles, -, hTells⟩ :=
    answer_check _ _ none {} "out.json" "out.md" true _ _ hServes [] rfl
  have hCode := hTells.two.mpr ⟨_, typoModel, planOf_blank, ofSource_typoPolicy, fails_typoModel⟩
  refine ⟨hCode, report, ?_, hTells.verdict.mpr (by rw [hCode]; decide)⟩
  exact (congrArg (_ ∈ ·) hFiles).mpr List.mem_concat_self

end PolicyLint.CommandLine
