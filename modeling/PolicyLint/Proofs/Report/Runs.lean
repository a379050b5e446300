import PolicyLint.Proofs.Lint.Provenance
import PolicyLint.Proofs.Policy.Checksums
import PolicyLint.Proofs.Report.Consistency
import PolicyLint.Proofs.Report.RoundTrip

/-!
# Reports of runs can be written

Whatever a run ends with, its report can be written and read back. The counts are bounded by the total of the
findings, as reports are consistent. The payloads of all findings are flat, and a checksum in one is that of a
policy that was loaded.
-/
namespace PolicyLint.Report
open Json Lint Policy Settings Text Time
set_option autoImplicit false

/-- Reports of checks, of policies that could not be loaded, and of runs that failed, all at moments of
universal time. -/
inductive Made : Report → Prop
  | check {started finished : Stamp} (hStarted : started.IsUniversal) (hFinished : finished.IsUniversal)
    (path : FilePath) (policy settings : String) (overrides : Overrides) {r : Report}
    (h : check started finished path policy settings overrides = .ok r) : Made r
  | policyFailure {now : Stamp} (hNow : now.IsUniversal) (path : FilePath) (profile : String)
    (line : Option Nat) (message : String) : Made (policyFailure now path profile line message)
  | runtimeError {now : Stamp} (hNow : now.IsUniversal) (path : FilePath) (message : String) :
    Made (runtimeError now path message)

/-- What is counted, and the lines and offsets in the policy, have the widths of their fields. -/
structure Fits (r : Report) : Prop where
  total : r.summary.findingsTotal < Decimal.word32
  licensesDeclared : r.summary.licensesDeclared < Decimal.word32
  clarifications : r.summary.clarifications < Decimal.word32
  skipEntries : r.summary.skipEntries < Decimal.word32
  line : ∀ f ∈ r.findings, ∀ place ∈ f.location, ∀ n ∈ place.line, n < Decimal.word32
  offset : ∀ f ∈ r.findings, ∀ n, f.data.get? "offset" = some (.ofNat n) → n < Decimal.word64

end PolicyLint.Report

namespace PolicyLint.Lint
open Json Policy

theorem Payload.isWord {m : Model} {member : String × Value} (h : Payload m member)
    (hChecksums : m.document.HasWords) (hOffset : ∀ n, member = ("offset", .ofNat n) → n < Decimal.word64) :
    ∀ n, member.2 = .number n → n.IsWord := by
  cases h with
  | text => rintro n ⟨⟩
  | null => rintro n ⟨⟩
  | offset n =>
    rintro _ ⟨⟩
    exact hOffset n rfl
  | checksum key hClarify hFile =>
    rw [Model.licenses] at hClarify
    cases hLicenses : m.document.licenses with
    | none =>
      rw [hLicenses] at hClarify
      cases hClarify
    | some l =>
      rw [hLicenses] at hClarify
      exact Value.isWord_ofInt (hChecksums l hLicenses _ hClarify _ hFile)

theorem Issue.Common.hasWords {m : Model} {i : Issue} (h : i.Common m) (hChecksums : m.document.HasWords)
    (hOffset : ∀ n, (Value.ofMembers i.data).get? "offset" = some (.ofNat n) → n < Decimal.word64) :
    (Value.ofMembers i.data).HasWords := by
  intro member hMember
  refine (h.data member (Members.mem_of_mem_ofList hMember)).isWord hChecksums ?_
  rintro n rfl
  exact hOffset n ((Members.sorted_ofList i.data).find?_eq hMember)

end PolicyLint.Lint

namespace PolicyLint.Report
open Json Lint Policy Settings Text Time

theorem writable_ofEvaluation {started finished : Stamp} (hStarted : started.IsUniversal)
    (hFinished : finished.IsUniversal) {m : Model} (hChecksums : m.document.HasWords) (plan : Plan)
    (hFits : (ofEvaluation (.between started finished) (evaluate m plan)).Fits) :
    (ofEvaluation (.between started finished) (evaluate m plan)).Writable := by
  have hConsistent := consistent_ofEvaluation (.between started finished) m plan
  have hTotal := hConsistent.total ▸ hFits.total
  exact {
    schema := rfl
    run := ⟨hStarted, hFinished, hStarted.millisecondsTo_lt hFinished⟩
    counts := ⟨by omega, by omega, by omega⟩
    findings := by
      intro f hf
      obtain ⟨check, rule, -, i, hi, rfl⟩ := mem_findingsOf_iff.mp (mem_findingsOf_of_mem_findings hf)
      have hLocation : ∀ place ∈ (i.finding check rule.severity m.path).location, place.Writable := by
        intro place hPlace
        refine ⟨hFits.line _ hf place hPlace, ?_⟩
        -- Checks never tell a column.
        cases hPlace
        rintro n ⟨⟩
      have hCommon := Check.common_of_mem hi
      have hFlat := Value.isFlat_ofMembers fun member hMember => (hCommon.data member hMember).isLeaf
      exact ⟨hLocation, hFlat, hCommon.hasWords hChecksums (hFits.offset _ hf)⟩
    summary := {
      licensesDeclared := hFits.licensesDeclared
      clarifications := hFits.clarifications
      skipEntries := hFits.skipEntries
      total := hFits.total
      emitted := Nat.lt_of_le_of_lt hConsistent.emitted_le hFits.total } }

theorem writable_ofFailure {now : Stamp} (hNow : now.IsUniversal) (path : FilePath) (profile : String)
    {finding : Finding} (hFinding : finding.Writable) : (ofFailure now path profile finding).Writable := by
  have hZero : 0 < Decimal.word32 := by decide
  have hOne : 1 < Decimal.word32 := by decide
  exact {
    schema := rfl
    run := ⟨hNow, hNow, Nat.zero_lt_succ _⟩
    counts := ⟨hZero, hZero, hOne⟩
    findings := List.forall_mem_singleton.mpr hFinding
    summary := ⟨hZero, hZero, hZero, hOne, hOne⟩ }

theorem writable_policyFailure {now : Stamp} (hNow : now.IsUniversal) (path : FilePath) (profile : String)
    (line : Option Nat) (message : String) (hFits : (policyFailure now path profile line message).Fits) :
    (policyFailure now path profile line message).Writable := by
  have hLine : ∀ n ∈ line, n < Decimal.word32 := hFits.line _ List.mem_cons_self _ rfl
  have hFlat : (Value.object [("line", .ofOption .ofNat line)]).IsFlat := by
    refine .object _ (List.pairwise_singleton _ _) (List.forall_mem_singleton.mpr ?_)
    cases line <;> trivial
  have hWords : (Value.object [("line", .ofOption .ofNat line)]).HasWords := by
    refine List.forall_mem_singleton.mpr fun n hn => ?_
    cases line with
    | none => cases hn
    | some line =>
      cases hn
      exact Nat.lt_trans (hLine line rfl) (by decide)
  refine writable_ofFailure hNow path profile ⟨?_, hFlat, hWords⟩
  rintro place ⟨⟩
  refine ⟨hLine, ?_⟩
  rintro n ⟨⟩

theorem writable_runtimeError {now : Stamp} (hNow : now.IsUniversal) (path : FilePath) (message : String) :
    (runtimeError now path message).Writable := by
  refine writable_ofFailure hNow path "unknown" ⟨?_, .null, trivial⟩
  rintro place ⟨⟩

theorem Made.writable {r : Report} (h : r.Made) (hFits : r.Fits) : r.Writable := by
  cases h with
  | check hStarted hFinished path policy settings overrides h =>
    rw [Report.check, Outcome.map_eq_ok_iff] at h
    obtain ⟨plan, -, rfl⟩ := h
    cases hModel : Model.ofSource path policy with
    | ok m =>
      rw [hModel] at hFits
      exact writable_ofEvaluation hStarted hFinished (Model.hasWords_of_ofSource hModel) plan hFits
    | error fault =>
      rw [hModel] at hFits
      exact writable_policyFailure hFinished path plan.profile _ _ hFits
  | policyFailure hNow path profile line message => exact writable_policyFailure hNow path profile line message hFits
  | runtimeError hNow path message => exact writable_runtimeError hNow path message

end PolicyLint.Report
