import PolicyLint.Proofs.Lint.Truncation
import PolicyLint.Report.Check

/-!
# Reports are consistent

What a report says in one place agrees with what it says in another: the summary with the list of findings,
the counts with both, and the verdict with the counts. This holds of the report of a planned run, wherever
its list is cut, and of the reports of runs that could not be made.
-/
namespace PolicyLint
open Lint Policy Settings Time
set_option autoImplicit false

namespace Lint

def Counts.count (c : Counts) : Severity → Nat
  | .info => c.info
  | .warning => c.warn
  | .error => c.error

theorem Counts.count_of (fs : List Finding) (severity : Severity) :
    (Counts.of fs).count severity = (fs.map Finding.severity).count severity := by
  cases severity <;> rfl

theorem Counts.length_eq (fs : List Finding) :
    fs.length = (Counts.of fs).error + (Counts.of fs).warn + (Counts.of fs).info := by
  induction fs with
  | nil => rfl
  | cons f fs ih =>
    simp only [Counts.of, Counts.ofSeverities, List.map_cons, List.count_cons, List.length_cons] at ih ⊢
    cases f.severity <;> simp <;> omega

end Lint

namespace Report

structure Consistent (r : Report) : Prop where
  emitted : r.findings.length = r.summary.findingsEmitted
  emitted_le : r.summary.findingsEmitted ≤ r.summary.findingsTotal
  total : r.summary.findingsTotal = r.counts.error + r.counts.warn + r.counts.info
  truncated : r.summary.truncatedReason.isSome ↔ r.summary.findingsEmitted < r.summary.findingsTotal
  listed_le : ∀ severity, (Counts.of r.findings).count severity ≤ r.counts.count severity
  listed_eq : r.summary.findingsEmitted = r.summary.findingsTotal → Counts.of r.findings = r.counts
  fail : 0 < r.counts.error → r.verdict = .fail
  notPass : 0 < r.counts.warn → r.verdict ≠ .pass

theorem consistent_ofEvaluation (run : RunTimes) (m : Model) (plan : Plan) :
    (ofEvaluation run (evaluate m plan)).Consistent := by
  have hAccounts := accounts_evaluate m plan
  obtain ⟨dropped, hCut⟩ : ∃ dropped,
      ((evaluate m plan).findings ++ dropped).Perm (findingsOf m plan Check.all) := by
    refine ⟨(sortFindings (findingsOf m plan Check.all)).drop plan.maxFindings, ?_⟩
    have hListed : (evaluate m plan).findings =
        (sortFindings (findingsOf m plan Check.all)).take plan.maxFindings := rfl
    rw [hListed, List.take_append_drop]
    exact sortFindings_perm _
  have hLength := hCut.length_eq
  rw [List.length_append, ← hAccounts.total] at hLength
  exact {
    emitted := rfl
    emitted_le := by
      simp only [ofEvaluation, hAccounts.emitted]
      omega
    total := by
      simp only [ofEvaluation, hAccounts.total, hAccounts.counts]
      exact Counts.length_eq _
    truncated := by
      have hShown := hAccounts.length
      simp only [ofEvaluation, hAccounts.truncated, hAccounts.emitted]
      omega
    listed_le := by
      intro severity
      have hCount := (hCut.map Finding.severity).count_eq severity
      rw [List.map_append, List.count_append] at hCount
      simp only [ofEvaluation, hAccounts.counts, Counts.count_of]
      omega
    listed_eq := by
      intro hAll
      simp only [ofEvaluation, hAccounts.emitted] at hAll
      obtain rfl : dropped = [] := List.eq_nil_of_length_eq_zero (by omega)
      rw [List.append_nil] at hCut
      simp only [ofEvaluation, hAccounts.counts]
      exact Counts.of_perm hCut
    fail := by
      intro hError
      simp only [ofEvaluation, hAccounts.verdict, hAccounts.counts] at hError ⊢
      exact (FailOn.verdict_eq_fail_iff _ _).mpr (.inl hError)
    notPass := by
      intro hWarn hPass
      simp only [ofEvaluation, hAccounts.verdict, hAccounts.counts] at hWarn hPass
      exact hWarn.ne' ((FailOn.verdict_eq_pass_iff _ _).mp hPass).2 }

theorem consistent_ofFailure (now : Stamp) (path : FilePath) (profile : String) {finding : Finding}
    (h : finding.severity = .error) : (ofFailure now path profile finding).Consistent where
  emitted := rfl
  emitted_le := le_rfl
  total := rfl
  truncated := by simp [ofFailure]
  listed_le := by
    intro severity
    simp only [ofFailure, Counts.count_of, List.map_cons, List.map_nil, h]
    cases severity <;> decide
  listed_eq := by
    intro _
    simp only [ofFailure, Counts.of, List.map_cons, List.map_nil, h]
    rfl
  fail := fun _ => rfl
  notPass := by
    intro hWarn
    cases hWarn

/-- A check whose settings can be read and resolved ends with a consistent report, whether the policy can be
loaded or not. So does a run that fails. -/
theorem consistent_check (started finished now : Stamp) (path : FilePath) (policy settings message : String)
    (overrides : Overrides) :
    ((∃ fault, planOf settings overrides = .error fault ∧
        check started finished path policy settings overrides = .error fault) ∨
      ∃ report, check started finished path policy settings overrides = .ok report ∧ report.Consistent) ∧
    (runtimeError now path message).Consistent := by
  refine ⟨?_, consistent_ofFailure now path "unknown" rfl⟩
  cases hPlan : planOf settings overrides with
  | error fault => exact .inl ⟨fault, rfl, by rw [check, hPlan]; rfl⟩
  | ok plan =>
    refine .inr ⟨ofLoaded started finished path plan (Model.ofSource path policy), by rw [check, hPlan]; rfl, ?_⟩
    cases Model.ofSource path policy with
    | ok m => exact consistent_ofEvaluation _ m plan
    | error fault => exact consistent_ofFailure finished path plan.profile rfl

end Report

end PolicyLint
