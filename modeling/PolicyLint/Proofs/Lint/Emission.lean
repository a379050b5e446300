import PolicyLint.Lint.Run
import PolicyLint.Proofs.Json.Flat
import PolicyLint.Proofs.Lint.Walks
import PolicyLint.Proofs.Policy.Walk

/-!
# What checks emit

Every issue points at a line of the policy, through the span of a value or through an unknown key, and its
payload holds little: texts, offsets in a license expression and checksums of the policy. The checks are gone
through once here, so that facts about all findings need not do it again.
-/
namespace PolicyLint.Lint
open Text Policy License
set_option autoImplicit false

/-- A member of a payload. -/
inductive Payload (m : Model) : String × Json.Value → Prop
  | text (key s : String) : Payload m (key, .string s)
  | null (key : String) : Payload m (key, .null)
  | offset (n : Nat) : Payload m ("offset", .ofNat n)
  | checksum (key : String) {c : Clarification} (hClarify : c ∈ m.licenses.clarify) {file : LicenseFile}
    (hFile : file ∈ c.licenseFiles) : Payload m (key, .ofInt file.hash.value)

namespace Payload

attribute [simp] text offset

@[simp] theorem ofOption {m : Model} (key : String) (s : Option String) : Payload m (key, .ofOption .string s) := by
  cases s with
  | none => exact .null key
  | some s => exact .text key s

theorem isLeaf {m : Model} {member : String × Json.Value} (h : Payload m member) : member.2.IsLeaf := by
  cases h with
  | text | null | offset => trivial
  | checksum => exact Json.Value.isLeaf_ofInt _

end Payload

/-- What all issues of a policy have in common. -/
structure Issue.Common (m : Model) (i : Issue) : Prop where
  line : (∃ span, i.line = m.lineOf span) ∨ ∃ key ∈ m.unknownKeys, i.line = some key.line
  data : ∀ member ∈ i.data, Payload m member

theorem Issue.Common.of_span {m : Model} {i : Issue} (span : Option Span) (hLine : i.line = m.lineOf span)
    (hData : ∀ member ∈ i.data, Payload m member) : i.Common m :=
  ⟨.inl ⟨span, hLine⟩, hData⟩

variable {m : Model} {allowed : String → Bool} {i : Issue}

theorem Issue.common_missingName (entry subject help : String) (span : Option Span) :
    (Issue.missingName entry subject help (m.lineOf span)).Common m :=
  .of_span span rfl (by simp [Issue.missingName])

theorem LicenseLists.common_of_mem (h : i ∈ issues m allowed) : i.Common m := by
  cases origin_of_mem_walk h with
  | invalid e fault hFault => exact .of_span (some e.license.span) rfl (by simp [invalid])
  | duplicate e license first hFirst =>
    refine .of_span (some e.license.span) rfl ?_
    simp only [duplicate]
    split <;> simp

theorem ConfidenceThreshold.common_of_mem (h : i ∈ issues m) : i.Common m := by
  rw [issues] at h
  split at h
  · rename_i threshold _
    split at h
    · cases h
    · rw [List.mem_singleton.mp h]
      exact .of_span (some threshold.span) rfl (by simp [outOfRange])
  · cases h

namespace Exceptions

variable {e : Named}

theorem Named.common_invalidVersion (h : i ∈ e.invalidVersion m) : i.Common m := by
  rw [invalidVersion] at h
  split at h
  · cases h
  · rename_i version _
    split at h
    · cases h
    · rw [List.mem_singleton.mp h]
      exact .of_span (some version.span) rfl (by simp [place])

theorem Named.common_emptyAllow (h : i ∈ e.emptyAllow m) : i.Common m := by
  rw [emptyAllow] at h
  split at h
  · rw [List.mem_singleton.mp h]
    exact .of_span _ rfl (by simp [place])
  · cases h

theorem Named.common_invalidLicense {license : Spanned String} (h : e.invalidLicense m license = some i) :
    i.Common m := by
  rw [invalidLicense] at h
  split at h
  · cases h
  · cases h
    exact .of_span (some license.span) rfl (by simp [place])

theorem Named.common_of_mem {again : Bool} (h : i ∈ e.issues m again) : i.Common m := by
  simp only [issues, List.mem_append, List.mem_filterMap] at h
  rcases h with ((h | h) | h) | ⟨license, -, h⟩
  · exact common_invalidVersion h
  · split at h
    · rw [List.mem_singleton.mp h]
      exact .of_span _ rfl (by simp [duplicate, place])
    · cases h
  · exact common_emptyAllow h
  · exact common_invalidLicense h

theorem common_of_mem (h : i ∈ issues m allowed) : i.Common m := by
  obtain ⟨⟨e, index⟩, -, seen, hi⟩ := (isSequential_walk m).exists_of_mem h
  cases hName : packageName e.name with
  | none =>
    rw [walk_unnamed hName, List.mem_singleton] at hi
    exact hi ▸ Issue.common_missingName _ _ _ _
  | some name =>
    rw [walk_named hName] at hi
    exact Named.common_of_mem hi

end Exceptions

namespace Clarifications

variable {c : Placed}

theorem Placed.common_issue {code : Code} {span : Option Span} {remark help : String}
    {data : List (String × Json.Value)} (hData : ∀ member ∈ data, Payload m member) :
    (c.issue m code span remark help data).Common m :=
  .of_span span rfl (List.forall_mem_cons.mpr ⟨.text _ _, hData⟩)

theorem Placed.common_of_mem (hClarify : c.entry ∈ m.licenses.clarify) (h : i ∈ c.issues m) : i.Common m := by
  simp only [issues, List.mem_append, List.mem_filterMap] at h
  rcases h with (((h | h) | h) | h) | ⟨file, hFile, h⟩
  · rw [nameIssues] at h
    split at h
    · cases h
    · rw [List.mem_singleton.mp h]
      exact Issue.common_missingName _ _ _ _
  · rw [versionIssues] at h
    split at h
    · cases h
    · split at h
      · cases h
      · rw [List.mem_singleton.mp h]
        exact common_issue (by simp)
  · rw [expressionIssues] at h
    split at h
    · rw [List.mem_singleton.mp h]
      exact common_issue (by simp)
    · split at h
      · cases h
      · rw [List.mem_singleton.mp h]
        exact common_issue (by simp)
  · rw [noFilesIssues] at h
    split at h
    · rw [List.mem_singleton.mp h]
      exact common_issue (by simp)
    · cases h
  · obtain ⟨problem, -, rfl⟩ := Option.map_eq_some_iff.mp h
    exact common_issue (by simp [Payload.checksum _ hClarify hFile])

theorem common_of_mem (h : i ∈ issues m allowed) : i.Common m := by
  obtain ⟨⟨c, index⟩, hc, hi⟩ := List.mem_flatMap.mp h
  exact Placed.common_of_mem (List.fst_mem_of_mem_zipIdx (List.mem_of_mem_filter hc)) hi

end Clarifications

namespace SkipEntries

theorem Entry.common_invalidVersion {e : Entry} {name : String} (h : i ∈ e.invalidVersion m name) :
    i.Common m := by
  rw [invalidVersion] at h
  split at h
  · cases h
  · rename_i version _
    split at h
    · cases h
    · rw [List.mem_singleton.mp h]
      exact .of_span (some version.span) rfl (by simp [place])

theorem common_of_mem (h : i ∈ issues m allowed) : i.Common m := by
  obtain ⟨e, -, seen, hi⟩ := (isSequential_walk m).exists_of_mem h
  cases hName : packageName e.name with
  | none =>
    rw [walk_unnamed hName, List.mem_singleton] at hi
    exact hi ▸ Issue.common_missingName _ _ _ _
  | some name =>
    rw [walk_named hName, List.mem_append] at hi
    rcases hi with hi | hi
    · exact Entry.common_invalidVersion hi
    · split at hi
      · rw [List.mem_singleton.mp hi]
        exact .of_span _ rfl (by simp [Entry.duplicate, Entry.place])
      · cases hi

end SkipEntries

theorem UnknownKeys.common_of_mem (h : i ∈ issues m allowed) : i.Common m := by
  obtain ⟨key, hKey, rfl⟩ := List.mem_map.mp h
  exact ⟨.inr ⟨key, List.mem_of_mem_filter hKey, rfl⟩, by simp [issue]⟩

theorem Check.common_of_mem {check : Check} (h : i ∈ check.issues m allowed) : i.Common m := by
  cases check with
  | licenseLists => exact LicenseLists.common_of_mem h
  | confidenceThreshold => exact ConfidenceThreshold.common_of_mem h
  | exceptions => exact Exceptions.common_of_mem h
  | clarifications => exact Clarifications.common_of_mem h
  | skipEntries => exact SkipEntries.common_of_mem h
  | unknownKeys => exact UnknownKeys.common_of_mem h

end PolicyLint.Lint
