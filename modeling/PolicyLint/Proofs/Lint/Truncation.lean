import PolicyLint.Proofs.Lint.Order

/-!
# Truncation

How many findings a run may list makes no difference to its outcome: verdict, counts and total are those of
all findings. A run that lists fewer of them lists the first ones, and says so if some are missing.
-/
namespace PolicyLint.Lint
open Policy
set_option autoImplicit false

theorem Counts.of_perm {fs fs' : List Finding} (h : fs.Perm fs') : Counts.of fs = Counts.of fs' := by
  have hSeverities := h.map Finding.severity
  simp only [Counts.of, Counts.ofSeverities, hSeverities.count_eq]

/-- What a planned run says about the findings `found`, of which it may list only some. -/
structure Evaluation.Accounts (e : Evaluation) (plan : Plan) (found : List Finding) : Prop where
  counts : e.counts = Counts.of found
  verdict : e.verdict = plan.failOn.verdict (Counts.of found)
  total : e.summary.findingsTotal = found.length
  length : e.findings.length = min plan.maxFindings e.summary.findingsTotal
  emitted : e.summary.findingsEmitted = e.findings.length
  truncated : e.summary.truncatedReason.isSome ↔ plan.maxFindings < e.summary.findingsTotal

theorem accounts_evaluate (m : Model) (plan : Plan) :
    (evaluate m plan).Accounts plan (findingsOf m plan Check.all) := by
  have hPerm := sortFindings_perm (findingsOf m plan Check.all)
  exact {
    counts := Counts.of_perm hPerm
    verdict := congrArg plan.failOn.verdict (Counts.of_perm hPerm)
    total := hPerm.length_eq
    length := List.length_take
    emitted := rfl
    truncated := by
      simp only [evaluate, evaluateChecks]
      split <;> simp_all }

/-- Two runs that differ only in how many findings they may list have the same outcome. -/
theorem evaluate_maxFindings (m : Model) (plan : Plan) {fewer more : Nat} (h : fewer ≤ more) :
    let first := evaluate m { plan with maxFindings := fewer }
    let second := evaluate m { plan with maxFindings := more }
    first.verdict = second.verdict ∧ first.verdict.exitCode = second.verdict.exitCode ∧
      first.counts = second.counts ∧ first.summary.findingsTotal = second.summary.findingsTotal ∧
      first.findings <+: second.findings ∧
      first.Accounts { plan with maxFindings := fewer } (findingsOf m plan Check.all) ∧
      second.Accounts { plan with maxFindings := more } (findingsOf m plan Check.all) := by
  intro first second
  have hFirst : first.Accounts { plan with maxFindings := fewer } (findingsOf m plan Check.all) :=
    accounts_evaluate m _
  have hSecond : second.Accounts { plan with maxFindings := more } (findingsOf m plan Check.all) :=
    accounts_evaluate m _
  have hVerdict : first.verdict = second.verdict := hFirst.verdict.trans hSecond.verdict.symm
  have hFindings : first.findings <+: second.findings := List.take_prefix_take_left h
  exact ⟨hVerdict, congrArg Verdict.exitCode hVerdict, hFirst.counts.trans hSecond.counts.symm,
    hFirst.total.trans hSecond.total.symm, hFindings, hFirst, hSecond⟩

/-- One license three times, twice in one list. -/
def repeatedPolicy : Model :=
  .ofDocument .default {
    licenses := some {
      allow := [⟨"(MIT)", ⟨0, 0⟩⟩, ⟨"MIT", ⟨0, 0⟩⟩]
      deny := [⟨"MIT", ⟨0, 0⟩⟩] } }

def strictPlan : Plan := Plan.uniform "oss" .error .error

theorem findings_repeatedPolicy : Counts.of (findingsOf repeatedPolicy strictPlan Check.all) = ⟨0, 0, 2⟩ ∧
    (findingsOf repeatedPolicy strictPlan Check.all).length = 2 := by
  decide +kernel

theorem evaluate_repeatedPolicy : 0 ≤ 1 ∧
    let first := evaluate repeatedPolicy { strictPlan with maxFindings := 0 }
    let second := evaluate repeatedPolicy { strictPlan with maxFindings := 1 }
    first.verdict = second.verdict ∧ second.verdict = .fail ∧ first.counts = second.counts ∧
      second.counts = ⟨0, 0, 2⟩ ∧ first.findings <+: second.findings ∧ second.findings.length = 1 ∧
      second.summary.truncatedReason.isSome := by
  obtain ⟨hCounts, hTotal⟩ := findings_repeatedPolicy
  obtain ⟨hVerdict, -, hSameCounts, -, hFindings, -, hSecond⟩ :=
    evaluate_maxFindings repeatedPolicy strictPlan (Nat.zero_le 1)
  have hSecondTotal := hSecond.total.trans hTotal
  refine ⟨Nat.zero_le 1, hVerdict, ?_, hSameCounts, hSecond.counts.trans hCounts, hFindings, ?_, ?_⟩
  · rw [hSecond.verdict, hCounts]
    rfl
  · rw [hSecond.length, hSecondTotal]
    rfl
  · rw [hSecond.truncated, hSecondTotal]
    decide

end PolicyLint.Lint
