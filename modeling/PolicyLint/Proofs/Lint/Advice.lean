import PolicyLint.Lint.Run
import PolicyLint.Proofs.Lint.Walks
import PolicyLint.Proofs.Text.Lines

/-!
# Advice

What a check advises depends on the code of the issue only. Two kinds of issue are met in two ways, and each has
its own advice: a license may be listed twice in one list or in both, and the expression of a clarification may be
missing or malformed.
-/
namespace PolicyLint.Lint
open Text Policy License
set_option autoImplicit false

/-- The help texts of a check, by code. -/
def Check.advice : Check → Code → List String
  | .licenseLists, .invalidLicenseId =>
    ["Use the exact SPDX short identifier, e.g. `Apache-2.0` or `Apache-2.0 WITH LLVM-exception`."]
  | .licenseLists, .duplicateLicense =>
    ["Remove the duplicate entry.", "Keep each license in exactly one of `allow` or `deny`."]
  | .confidenceThreshold, .thresholdOutOfRange => ["Use a fraction such as 0.93 instead of a percentage."]
  | .exceptions, .missingName => ["Add `name = \"<crate>\"` to the exception."]
  | .exceptions, .invalidVersion => ["Use a semver requirement such as `0.17` or `=0.17.8`."]
  | .exceptions, .duplicateException => ["Merge the `allow` lists into a single exception."]
  | .exceptions, .emptyAllow => ["List the extra licenses the package may use, or remove the exception."]
  | .exceptions, .invalidLicenseId => ["Use the exact SPDX short identifier."]
  | .clarifications, .missingName => ["Add `name = \"<crate>\"` to the clarification."]
  | .clarifications, .invalidVersion => ["Use a semver requirement such as `0.17` or `=0.17.8`."]
  | .clarifications, .invalidExpression =>
    ["Add `expression = \"<SPDX expression>\"`.", "Use SPDX identifiers joined by upper-case AND, OR, and WITH."]
  | .clarifications, .missingLicenseFiles =>
    ["List the files the expression was derived from in `license-files`."]
  | .clarifications, .invalidLicenseFile => ["Use a path relative to the package root and a 32-bit content hash."]
  | .skipEntries, .missingName => ["Add `name = \"<crate>\"` to the entry."]
  | .skipEntries, .invalidVersion => ["Use a semver requirement such as `1`, `0.3.2`, or `=0.3.2`."]
  | .skipEntries, .duplicateSkip => ["Remove the duplicate entry."]
  | .unknownKeys, .unknownKey => ["Check the spelling against the policy schema or remove the key."]
  | _, _ => []

section

variable {m : Model} {allowed : String → Bool} {i : Issue}

theorem LicenseLists.help_mem (h : i ∈ issues m allowed) : i.help ∈ Check.licenseLists.advice i.code := by
  cases origin_of_mem_walk h with
  | invalid e fault hFault => exact List.mem_singleton_self _
  | duplicate e license list hFirst =>
    by_cases hAgain : list = e.list <;> simp [duplicate, Check.advice, hAgain]

theorem ConfidenceThreshold.help_mem (h : i ∈ issues m) : i.help ∈ Check.confidenceThreshold.advice i.code := by
  rw [issues] at h
  split at h
  · split at h
    · cases h
    · rw [List.mem_singleton.mp h]
      exact List.mem_singleton_self _
  · cases h

namespace Exceptions

theorem Named.help_mem {again : Bool} {e : Named} (h : i ∈ e.issues m again) :
    i.help ∈ Check.exceptions.advice i.code := by
  simp only [issues, List.mem_append, List.mem_filterMap] at h
  rcases h with ((h | h) | h) | ⟨license, -, h⟩
  · rw [invalidVersion] at h
    split at h
    · cases h
    · split at h
      · cases h
      · rw [List.mem_singleton.mp h]
        exact List.mem_singleton_self _
  · split at h
    · rw [List.mem_singleton.mp h]
      exact List.mem_singleton_self _
    · cases h
  · rw [emptyAllow] at h
    split at h
    · rw [List.mem_singleton.mp h]
      exact List.mem_singleton_self _
    · cases h
  · rw [invalidLicense] at h
    split at h
    · cases h
    · cases h
      exact List.mem_singleton_self _

theorem help_mem (h : i ∈ issues m allowed) : i.help ∈ Check.exceptions.advice i.code := by
  obtain ⟨⟨e, index⟩, -, seen, hi⟩ := (isSequential_walk m).exists_of_mem h
  cases hName : packageName e.name with
  | none =>
    rw [walk_unnamed hName, List.mem_singleton] at hi
    rw [hi]
    exact List.mem_singleton_self _
  | some name =>
    rw [walk_named hName] at hi
    exact Named.help_mem hi

end Exceptions

namespace Clarifications

theorem Placed.help_mem {c : Placed} (h : i ∈ c.issues m) : i.help ∈ Check.clarifications.advice i.code := by
  simp only [issues, List.mem_append, List.mem_filterMap] at h
  rcases h with (((h | h) | h) | h) | ⟨file, -, h⟩
  · rw [nameIssues] at h
    split at h
    · cases h
    · rw [List.mem_singleton.mp h]
      exact List.mem_singleton_self _
  · rw [versionIssues] at h
    split at h
    · cases h
    · split at h
      · cases h
      · rw [List.mem_singleton.mp h]
        exact List.mem_singleton_self _
  · rw [expressionIssues] at h
    split at h
    · rw [List.mem_singleton.mp h]
      exact List.mem_cons_self
    · split at h
      · cases h
      · rw [List.mem_singleton.mp h]
        exact List.mem_cons_of_mem _ List.mem_cons_self
  · rw [noFilesIssues] at h
    split at h
    · rw [List.mem_singleton.mp h]
      exact List.mem_singleton_self _
    · cases h
  · obtain ⟨problem, -, rfl⟩ := Option.map_eq_some_iff.mp h
    exact List.mem_singleton_self _

theorem help_mem (h : i ∈ issues m allowed) : i.help ∈ Check.clarifications.advice i.code := by
  obtain ⟨⟨c, index⟩, -, hi⟩ := List.mem_flatMap.mp h
  exact Placed.help_mem hi

end Clarifications

theorem SkipEntries.help_mem (h : i ∈ issues m allowed) : i.help ∈ Check.skipEntries.advice i.code := by
  obtain ⟨e, -, seen, hi⟩ := (isSequential_walk m).exists_of_mem h
  cases hName : packageName e.name with
  | none =>
    rw [walk_unnamed hName, List.mem_singleton] at hi
    rw [hi]
    exact List.mem_singleton_self _
  | some name =>
    rw [walk_named hName, List.mem_append] at hi
    rcases hi with hi | hi
    · rw [Entry.invalidVersion] at hi
      split at hi
      · cases hi
      · split at hi
        · cases hi
        · rw [List.mem_singleton.mp hi]
          exact List.mem_singleton_self _
    · split at hi
      · rw [List.mem_singleton.mp hi]
        exact List.mem_singleton_self _
      · cases hi

theorem UnknownKeys.help_mem (h : i ∈ issues m allowed) : i.help ∈ Check.unknownKeys.advice i.code := by
  obtain ⟨key, -, rfl⟩ := List.mem_map.mp h
  exact List.mem_singleton_self _

theorem Check.help_mem {check : Check} (h : i ∈ check.issues m allowed) : i.help ∈ check.advice i.code := by
  cases check with
  | licenseLists => exact LicenseLists.help_mem h
  | confidenceThreshold => exact ConfidenceThreshold.help_mem h
  | exceptions => exact Exceptions.help_mem h
  | clarifications => exact Clarifications.help_mem h
  | skipEntries => exact SkipEntries.help_mem h
  | unknownKeys => exact UnknownKeys.help_mem h

end

theorem Check.isOneLine_advice (check : Check) (code : Code) : ∀ help ∈ check.advice code, IsOneLine help := by
  cases check <;> cases code <;> decide +kernel

/-- The kinds of issue with two help texts. -/
def twofold : List (Check × Code) := [(.licenseLists, .duplicateLicense), (.clarifications, .invalidExpression)]

def twofoldModel : Model :=
  let mit : Spanned String := ⟨"MIT", ⟨0, 0⟩⟩
  .ofDocument .default { licenses := some {
    allow := [mit, mit]
    deny := [mit]
    clarify := [{}, { expression := some ⟨"", ⟨0, 0⟩⟩ }] } }

/-- Both texts of these kinds are in use. -/
theorem exists_issue_of_mem_twofold : ∀ kind ∈ twofold, ∀ help ∈ kind.1.advice kind.2,
    ∃ i ∈ kind.1.issues twofoldModel fun _ => false, i.code = kind.2 ∧ i.help = help := by
  decide +kernel

theorem Check.advice_unique (check : Check) (code : Code) (h : (check, code) ∉ twofold) :
    ∀ help ∈ check.advice code, ∀ help' ∈ check.advice code, help = help' := by
  revert h
  cases check <;> cases code <;> decide

theorem Check.help_eq {m : Model} {allowed : String → Bool} {check : Check} {i j : Issue}
    (hi : i ∈ check.issues m allowed) (hj : j ∈ check.issues m allowed) (hCode : i.code = j.code)
    (hOne : (check, i.code) ∉ twofold) : i.help = j.help :=
  check.advice_unique i.code hOne _ (help_mem hi) _ (hCode ▸ help_mem hj)

end PolicyLint.Lint
