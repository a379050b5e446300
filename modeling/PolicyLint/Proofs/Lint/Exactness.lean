import PolicyLint.Lint.Run
import PolicyLint.Proofs.Lint.Clarifications
import PolicyLint.Proofs.Lint.LicenseLists
import PolicyLint.Proofs.Lint.PackageLists

/-!
# The linter is exact

A run that makes all checks and passes over nothing has no finding if and only if the policy is well
formed.
-/
namespace PolicyLint.Lint
open Text Policy License
set_option autoImplicit false

namespace ConfidenceThreshold

theorem issues_eq_nil_iff {m : Model} :
    issues m = [] ↔ ∀ t ∈ m.licenses.confidenceThreshold, InUnit t.value := by
  rw [issues]
  split
  · rename_i t ht
    simp [ht, InUnit, ← Decimal.Binary64.inUnit_iff]
  · rename_i hNone
    simp [hNone]

end ConfidenceThreshold

namespace UnknownKeys

theorem issues_eq_nil_iff {m : Model} : issues m (fun _ => false) = [] ↔ m.unknownKeys = [] := by
  have hAll : m.unknownKeys.filter (fun _ => !false) = m.unknownKeys := List.filter_eq_self.mpr fun _ _ => rfl
  rw [issues, hAll, List.map_eq_nil_iff]

end UnknownKeys

theorem anyMatches_nil : Glob.anyMatches [] = fun _ => false := rfl

theorem Check.findings_eq_nil_iff {m : Model} {plan : Plan} (h : plan.ChecksAll) (check : Check) :
    check.findings m plan = [] ↔ check.issues m (fun _ => false) = [] := by
  obtain ⟨rule, hRule, hAllow⟩ := h check
  simp only [findings, hRule, hAllow, anyMatches_nil, List.map_eq_nil_iff]

theorem wellFormed_iff {m : Model} :
    WellFormed m ↔ ∀ check : Check, check.issues m (fun _ => false) = [] := by
  constructor
  · intro h check
    cases check with
    | licenseLists => exact LicenseLists.issues_eq_nil_iff.mpr h.licenses
    | confidenceThreshold => exact ConfidenceThreshold.issues_eq_nil_iff.mpr h.threshold
    | exceptions => exact Exceptions.issues_eq_nil_iff.mpr ⟨h.exceptions, h.exceptionPackages⟩
    | clarifications => exact Clarifications.issues_eq_nil_iff.mpr h.clarifications
    | skipEntries =>
      exact SkipEntries.issues_eq_nil_iff.mpr ⟨⟨h.skips, h.treeSkips⟩, h.skipPackages, h.treeSkipPackages⟩
    | unknownKeys => exact UnknownKeys.issues_eq_nil_iff.mpr h.keys
  · intro h
    obtain ⟨hExceptions, hExceptionPackages⟩ := Exceptions.issues_eq_nil_iff.mp (h .exceptions)
    obtain ⟨⟨hSkips, hTreeSkips⟩, hSkipPackages, hTreeSkipPackages⟩ :=
      SkipEntries.issues_eq_nil_iff.mp (h .skipEntries)
    exact {
      licenses := LicenseLists.issues_eq_nil_iff.mp (h .licenseLists)
      threshold := ConfidenceThreshold.issues_eq_nil_iff.mp (h .confidenceThreshold)
      exceptions := hExceptions
      exceptionPackages := hExceptionPackages
      clarifications := Clarifications.issues_eq_nil_iff.mp (h .clarifications)
      skips := hSkips
      skipPackages := hSkipPackages
      treeSkips := hTreeSkips
      treeSkipPackages := hTreeSkipPackages
      keys := UnknownKeys.issues_eq_nil_iff.mp (h .unknownKeys) }

/-- Sorting the findings and cutting their list leaves the total as it is. -/
theorem findingsTotal_eq (m : Model) (plan : Plan) :
    (evaluate m plan).summary.findingsTotal = (findingsOf m plan Check.all).length :=
  List.length_mergeSort _

theorem findingsOf_all_eq_nil_iff {m : Model} {plan : Plan} :
    findingsOf m plan Check.all = [] ↔ ∀ check : Check, check.findings m plan = [] := by
  rw [findingsOf, List.flatMap_eq_nil_iff]
  constructor
  · intro h check
    exact h check check.mem_all
  · intro h check _
    exact h check

/-- Nothing is found if and only if the policy is well formed. -/
theorem evaluate_findingsTotal_eq_zero_iff (m : Model) (plan : Plan) (h : plan.ChecksAll) :
    (evaluate m plan).summary.findingsTotal = 0 ↔ WellFormed m := by
  rw [findingsTotal_eq, List.length_eq_zero_iff, findingsOf_all_eq_nil_iff, wellFormed_iff]
  apply forall_congr'
  intro check
  exact Check.findings_eq_nil_iff h check

namespace Rules

theorem find?_insert (name other : String) (rule : Rule) (rules : Rules) :
    (insert name rule rules).find? other = if other = name then some rule else rules.find? other := by
  have hLookup : ∀ (r : String × Rule) (rs : Rules),
      find? other (r :: rs) = if other = r.1 then some r.2 else rs.find? other := by
    intro r rs
    rw [find?, List.lookup_cons]
    split
    · rename_i h
      rw [if_pos (beq_iff_eq.mp h)]
    · rename_i h
      rw [if_neg (ne_of_beq_false h), find?]
  induction rules with
  | nil => exact hLookup _ _
  | cons r rules ih =>
    rw [insert]
    split
    · rename_i hSame
      rw [hLookup, hLookup, ← hSame]
      split <;> rfl
    · rename_i hOther
      split
      · exact hLookup _ _
      · rw [hLookup, hLookup, ih]
        by_cases h : other = name
        · have hNe : other ≠ r.1 := h ▸ hOther
          simp [h, hOther]
        · simp [h]

theorem find?_foldl_insert {name : String} {rule : Rule} {names : List String} {rules : Rules}
    (h : name ∈ names ∨ rules.find? name = some rule) :
    ((names.map fun n => (n, rule)).foldl (fun acc (n, rule) => insert n rule acc) rules).find? name =
      some rule := by
  induction names generalizing rules with
  | nil => exact h.resolve_left List.not_mem_nil
  | cons n names ih =>
    apply ih
    rw [find?_insert]
    rcases h with h | h
    · rcases List.mem_cons.mp h with rfl | h
      · exact .inr (if_pos rfl)
      · exact .inl h
    · rw [h, ite_self]
      exact .inr rfl

end Rules

theorem Plan.checksAll_uniform (profile : String) (severity : Severity) (failOn : FailOn) :
    (Plan.uniform profile severity failOn).ChecksAll := by
  intro check
  have hFind : (Plan.uniform profile severity failOn).rules.find? check.name =
      some { severity := severity } := by
    have hName : check.name ∈ Check.allNames := List.mem_map_of_mem check.mem_all
    have hFold := @Rules.find?_foldl_insert check.name { severity := severity } Check.allNames [] (.inl hName)
    simp only [uniform, Rules.ofList]
    exact hFold
  refine ⟨{ severity := severity }, ?_, rfl⟩
  rw [rule?, hFind, Option.filter_some, if_pos rfl]

/-- Two entries for one package, but not for the same version, and a third one in the other list. -/
def skipPolicy : Model :=
  .ofDocument .default {
    bans := some {
      skip := [
        { name := some ⟨"syn", ⟨0, 0⟩⟩, version := some ⟨"1", ⟨0, 0⟩⟩ },
        { name := some ⟨" syn", ⟨0, 0⟩⟩ }]
      skipTree := [{ name := some ⟨"syn", ⟨0, 0⟩⟩ }] } }

theorem isVersion_one : IsVersion "1" := by
  have hParse : Version.parse "1" = .ok [⟨.caret, 1, none, none, ""⟩] := by decide +kernel
  exact ⟨_, hParse⟩

theorem wellFormed_skipPolicy : WellFormed skipPolicy where
  licenses := ⟨[], .nil, rfl⟩
  threshold := by rintro t ⟨⟩
  exceptions := by rintro e ⟨⟩
  exceptionPackages := .nil
  clarifications := by rintro c ⟨⟩
  skips := by
    rintro s (_ | ⟨_, _ | ⟨_, ⟨⟩⟩⟩)
    · exact ⟨by decide, by rintro v ⟨⟩; exact isVersion_one⟩
    · exact ⟨by decide, by rintro v ⟨⟩⟩
  skipPackages := by decide
  treeSkips := by
    rintro s (_ | ⟨_, ⟨⟩⟩)
    exact ⟨by decide, by rintro v ⟨⟩⟩
  treeSkipPackages := by decide
  keys := rfl

theorem evaluate_skipPolicy : (Plan.uniform "oss" .warning .error).ChecksAll ∧
    (evaluate skipPolicy (Plan.uniform "oss" .warning .error)).summary.findingsTotal = 0 := by
  have hChecks := Plan.checksAll_uniform "oss" .warning .error
  exact ⟨hChecks, (evaluate_findingsTotal_eq_zero_iff skipPolicy _ hChecks).mpr wellFormed_skipPolicy⟩

end PolicyLint.Lint
