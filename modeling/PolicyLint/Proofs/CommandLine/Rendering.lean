import PolicyLint.Proofs.CommandLine.ExitCode
import PolicyLint.Proofs.Report.Runs

/-!
# Written reports are rendered alike

The commands that render a report read it from a file first. What they make of the written form of a report
is what they would make of the report itself. A step that is known to end, from one state of the system and
of the console, in another is replaced by its result; the commands are gone through that way.
-/
namespace PolicyLint.CommandLine
open Lint Text
set_option autoImplicit false

variable {σ α β : Type} {start mid last : σ} {before between : Console}

namespace Act

theorem run_bind {a : Act (StateM σ) α} {f : α → Act (StateM σ) β} {x : α}
    (h : (a.run before).run start = ((x, between), mid)) :
    ((a >>= f).run before).run start = ((f x).run between).run mid :=
  congrArg (fun r : (α × Console) × σ => ((f r.1.1).run r.1.2).run r.2) h

theorem run_ask {step : StateM σ α} {x : α} (h : step.run start = (x, mid)) :
    ((Session.ask step : Act (StateM σ) α).run before).run start = ((x, before), mid) :=
  congrArg (fun r : α × σ => ((r.1, before), r.2)) h

end Act

namespace Attempt

theorem run_always {a : Act (StateM σ) α} {x : α} (h : (a.run before).run start = ((x, between), mid)) :
    ((Session.always a).run.run before).run start = ((.ok x, between), mid) :=
  congrArg (fun r : (α × Console) × σ => (((.ok r.1.1 : Except Trail α), r.1.2), r.2)) h

theorem run_bind {a : Attempt (StateM σ) α} {f : α → Attempt (StateM σ) β} {x : α}
    (h : (a.run.run before).run start = ((.ok x, between), mid)) :
    ((a >>= f).run.run before).run start = ((f x).run.run between).run mid :=
  congrArg (fun r : (Except Trail α × Console) × σ => ((ExceptT.bindCont f r.1.1).run r.1.2).run r.2) h

theorem run_attempt {headline : String} {step : StateM σ (Except SystemError α)} {x : α}
    (h : step.run start = (.ok x, mid)) :
    ((Session.attempt headline step).run.run before).run start = ((.ok x, before), mid) := by
  rw [Session.attempt, run_bind (run_always (Act.run_ask h))]
  rfl

theorem run_within {headline : String} {a : Attempt (StateM σ) α} {x : α}
    (h : (a.run.run before).run start = ((.ok x, between), mid)) :
    ((Session.within headline a).run.run before).run start = ((.ok x, between), mid) := by
  rw [Session.within, ExceptT.run_mk, Act.run_bind h]
  rfl

end Attempt

theorem run_readReport {s : Session (StateM σ)} {path : String} {r : Report}
    (hRead : (s.host.read path).run start = (.ok r.serialize, mid)) (hParse : Report.parse r.serialize = .ok r) :
    ((s.readReport path).run.run before).run start = ((.ok r, before), mid) := by
  rw [Session.readReport, Attempt.run_bind (Attempt.run_attempt hRead), hParse]
  rfl

theorem run_conclude {a : Attempt (StateM σ) Unit} (h : (a.run.run before).run start = ((.ok (), between), mid)) :
    ((Session.conclude a).run before).run start = ((0, between), mid) := by
  rw [Session.conclude, Act.run_bind h]
  rfl

theorem run_answer {host : Host (StateM σ)} {environment : Option String} {o : Options} {command : Command}
    {code : Nat} (h : ((Session.perform ⟨host, (chooseFilter environment o.logLevel).1⟩ o command).run
      { err := (chooseFilter environment o.logLevel).2 }).run start = ((code, between), mid)) :
    ((Request.run o command).answer host environment).run start = (⟨code, between⟩, mid) :=
  congrArg (fun r : (Nat × Console) × σ => (Outcome.mk r.1.1 r.1.2, r.2)) h

theorem run_markdown {s : Session (StateM σ)} {path notes : String} {r : Report}
    (hRead : (s.host.read path).run start = (.ok r.serialize, mid)) (hParse : Report.parse r.serialize = .ok r) :
    ((s.markdown path none).run.run { err := notes }).run start =
      ((.ok (), { out := r.markdown, err := notes }), mid) := by
  rw [Session.markdown, Attempt.run_bind (run_readReport hRead hParse), ← String.empty_append (s := r.markdown)]
  rfl

theorem run_markdown_output {s : Session (StateM σ)} {path out : String} {r : Report}
    (hRead : (s.host.read path).run start = (.ok r.serialize, mid)) (hParse : Report.parse r.serialize = .ok r)
    (hWrite : ((s.writeFile "text" out r.markdown).run.run before).run mid = ((.ok (), between), last)) :
    ((s.markdown path (some out)).run.run before).run start = ((.ok (), between), last) := by
  rw [Session.markdown, Attempt.run_bind (run_readReport hRead hParse)]
  exact Attempt.run_within hWrite

theorem run_annotations {s : Session (StateM σ)} {path notes : String} {r : Report}
    (hRead : (s.host.read path).run start = (.ok r.serialize, mid)) (hParse : Report.parse r.serialize = .ok r)
    (max : Nat) :
    ((s.annotations path max).run.run { err := notes }).run start =
      ((.ok (), { out := String.join ((r.annotations max).map (· ++ "\n")), err := notes }), mid) := by
  rw [Session.annotations, Attempt.run_bind (run_readReport hRead hParse),
    ← String.empty_append (s := String.join _)]
  rfl

/-- A report that a run leaves is read back from its written form. So the commands that render a written
report print, or write to a file, what they would make of the report itself. -/
theorem parse_serialize_of_made {r : Report} (hMade : r.Made) (hFits : r.Fits) :
    Report.parse r.serialize = .ok r ∧
    ∀ {σ : Type} (host : Host (StateM σ)) (environment : Option String) (o : Options) (path : String)
      (start after : σ), (host.read path).run start = (.ok r.serialize, after) →
      let (filter, notes) := chooseFilter environment o.logLevel
      ((Request.run o (.markdown path none)).answer host environment).run start =
        (⟨0, { out := r.markdown, err := notes }⟩, after) ∧
      (∀ out last, ((Session.writeFile ⟨host, filter⟩ "text" out r.markdown).run.run { err := notes }).run after =
          ((.ok (), { err := notes }), last) →
        ((Request.run o (.markdown path (some out))).answer host environment).run start =
          (⟨0, { err := notes }⟩, last)) ∧
      ∀ max, ((Request.run o (.annotations path max)).answer host environment).run start =
        (⟨0, { out := String.join ((r.annotations max).map (· ++ "\n")), err := notes }⟩, after) := by
  have hParse := Report.parse_serialize_of_writable (hMade.writable hFits)
  refine ⟨hParse, fun {σ} host environment o path start after hRead => ?_⟩
  have hSession : ((Session.mk host (chooseFilter environment o.logLevel).1).host.read path).run start =
      (.ok r.serialize, after) := hRead
  refine ⟨run_answer ?_, fun out last hWrite => run_answer ?_, fun max => run_answer ?_⟩
  · exact run_conclude (run_markdown hSession hParse)
  · exact run_conclude (run_markdown_output hSession hParse hWrite)
  · exact run_conclude (run_annotations hSession hParse max)

/-- The report on a key that the schema does not know. -/
def typoReport : Report :=
  .ofEvaluation (.between (.ofEpoch 0 0) (.ofEpoch 1 0)) (evaluate typoModel (Settings.preset .strict))

theorem made_typoReport : typoReport.Made := by
  refine .check Time.Stamp.isUniversal_ofEpoch_zero Time.Stamp.isUniversal_ofEpoch_one .default typoPolicy "" {} ?_
  rw [Report.check, planOf_blank, Except.map, ofSource_typoPolicy]
  rfl

theorem fits_typoReport : typoReport.Fits := by
  have hAll : findingsOf typoModel (Settings.preset .strict) Check.all = [typoFinding] := rfl
  have hOnly : ∀ f ∈ typoReport.findings, f = typoFinding := by
    intro f hf
    have hMem := mem_findingsOf_of_mem_findings hf
    rw [hAll] at hMem
    exact List.mem_singleton.mp hMem
  have hTotal : typoReport.summary.findingsTotal = 1 := by
    have hLength := (accounts_evaluate typoModel (Settings.preset .strict)).total
    rw [hAll] at hLength
    exact hLength
  exact {
    total := by
      rw [hTotal]
      decide
    licensesDeclared := by decide
    clarifications := by decide
    skipEntries := by decide
    line := by
      intro f hf place hPlace n hn
      rw [hOnly f hf] at hPlace
      cases hPlace
      cases hn
      decide
    offset := by
      intro f hf n hOffset
      rw [hOnly f hf] at hOffset
      have hNone : typoFinding.data.get? "offset" = none :=
        Json.Members.find?_ofList_eq_none (by simp [UnknownKeys.issue])
      cases hNone.symm.trans hOffset }

/-- What is printed of a file with the report on a misspelled key. -/
theorem answer_markdown_typoReport :
    typoReport.Made ∧ typoReport.Fits ∧ Report.parse typoReport.serialize = .ok typoReport ∧
    ((Request.run {} (.markdown "out.json" none)).answer
        (listHost [("out.json", typoReport.serialize)] (.ofEpoch 0 0)) none).run [] =
      (⟨0, { out := typoReport.markdown }⟩, []) := by
  have hRead : ((listHost [("out.json", typoReport.serialize)] (.ofEpoch 0 0)).read "out.json").run [] =
      (.ok typoReport.serialize, []) := rfl
  obtain ⟨hParse, hCommands⟩ := parse_serialize_of_made made_typoReport fits_typoReport
  exact ⟨made_typoReport, fits_typoReport, hParse, (hCommands _ none {} "out.json" [] [] hRead).1⟩

end PolicyLint.CommandLine
