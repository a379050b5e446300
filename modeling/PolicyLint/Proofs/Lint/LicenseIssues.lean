import PolicyLint.Lint.Run
import PolicyLint.Proofs.Lint.LicenseLists
import PolicyLint.Proofs.Lint.Walks

/-!
# What is said of each license

The check on the license lists says at most one thing of an entry: that it is no license, or that an earlier
entry reads as the same license. The check compares licenses by how they are written; here they are compared
as they are read.
-/
namespace PolicyLint.Lint
open Text Policy License
set_option autoImplicit false

namespace LicenseLists

/-- The entries that a run looks at. -/
def remaining (m : Model) (allowed : String → Bool) : List Entry :=
  (entries m.licenses).filter fun e => !e.isAllowed allowed

/-- What there is to say of an entry behind others. Of the entries that read as the same license, the first
one is named. -/
def Entry.issueAfter (m : Model) (before : List Entry) (e : Entry) : Option Issue :=
  match Requirement.parse e.license.value with
  | .error fault => some (invalid m e fault)
  | .ok license =>
    (before.find? fun b => Requirement.parse b.license.value = .ok license).map fun first =>
      duplicate m e license first.list

theorem Entry.issueAfter_of_error {m : Model} {before : List Entry} {e : Entry} {fault : Fault}
    (h : Requirement.parse e.license.value = .error fault) : e.issueAfter m before = some (invalid m e fault) := by
  rw [issueAfter, h]

theorem Entry.issueAfter_of_ok {m : Model} {before : List Entry} {e : Entry} {license : Requirement}
    (h : Requirement.parse e.license.value = .ok license) : e.issueAfter m before =
      (before.find? fun b => Requirement.parse b.license.value = .ok license).map fun first =>
        duplicate m e license first.list := by
  rw [issueAfter, h]

/-- Entries that read as a license are those that are written like it, since writing is injective. -/
theorem Entry.written_eq_some_render_iff {s : String} {license : Requirement}
    (h : Requirement.parse s = .ok license) (e : Entry) :
    e.written = some license.render ↔ Requirement.parse e.license.value = .ok license := by
  rw [written]
  cases hParse : Requirement.parse e.license.value with
  | error fault => simp
  | ok other => rw [Option.some.injEq, Requirement.render_eq_iff hParse h, Except.ok.injEq]

theorem walk_singleton (m : Model) (before : List Entry) (e : Entry) :
    walk m (before.foldl remember []) [e] = (e.issueAfter m before).toList := by
  cases hParse : Requirement.parse e.license.value with
  | error fault => simp only [walk, hParse, Entry.issueAfter_of_error hParse, Option.toList_some]
  | ok license =>
    have hSeen : (before.foldl remember []).lookup license.render =
        (before.find? fun b => Requirement.parse b.license.value = .ok license).map Entry.list := by
      rw [lookup_remember]
      simp only [Entry.written_eq_some_render_iff hParse]
    rw [Entry.issueAfter_of_ok hParse]
    simp only [walk, hParse, hSeen]
    cases before.find? fun b => Requirement.parse b.license.value = .ok license <;> rfl

theorem issues_eq_eachAfter (m : Model) (allowed : String → Bool) :
    issues m allowed = eachAfter (Entry.issueAfter m) (remaining m allowed) :=
  (isSequential_walk m).eq_eachAfter (walk_singleton m) _

/-- Of the entries that are not passed over, the check says in turn what there is to say behind the earlier
ones, and nothing of an entry that reads as a license for the first time. -/
theorem findings_eq_map_eachAfter (m : Model) {plan : Plan} {rule : Rule} (hRule : rule ∈ plan.rule? .licenseLists) :
    Check.licenseLists.findings m plan =
      (eachAfter (Entry.issueAfter m) (remaining m (Glob.anyMatches rule.allow))).map
        (Issue.finding .licenseLists rule.severity m.path) ∧
    ∀ (before : List Entry) (e : Entry) (license : Requirement), Requirement.parse e.license.value = .ok license →
      (e.issueAfter m before = none ↔ ∀ b ∈ before, Requirement.parse b.license.value ≠ .ok license) := by
  constructor
  · rw [Check.findings, Option.mem_def.mp hRule]
    simp only [Check.issues, issues_eq_eachAfter]
  · intro before e license hParse
    rw [Entry.issueAfter_of_ok hParse, Option.map_eq_none_iff, List.find?_eq_none]
    simp only [decide_eq_true_eq, ne_eq]

/-- One license in both lists and in two spellings, behind an entry that is none and one that is passed over. -/
def respelledPolicy : Model :=
  .ofDocument .default {
    licenses := some {
      allow := [⟨"(ISC)", ⟨0, 0⟩⟩, ⟨"(MIT)", ⟨0, 0⟩⟩, ⟨"GPL-2.0 WITH Font", ⟨0, 0⟩⟩]
      deny := [⟨" GPL-2.0  WITH Font", ⟨0, 0⟩⟩] } }

/-- Only the license lists are checked, and some licenses are allowed. -/
def allowingPlan (globs : List String) : Plan where
  profile := "oss"
  failOn := .error
  maxFindings := 200
  rules := [("licenses.allow_identifiers", { severity := .error, allow := globs })]

theorem findings_respelledPolicy :
    let rule : Rule := { severity := .error, allow := ["(ISC)"] }
    rule ∈ (allowingPlan ["(ISC)"]).rule? .licenseLists ∧
    Check.licenseLists.findings respelledPolicy (allowingPlan ["(ISC)"]) =
      (eachAfter (Entry.issueAfter respelledPolicy) (remaining respelledPolicy (Glob.anyMatches rule.allow))).map
        (Issue.finding .licenseLists rule.severity .default) ∧
    (Check.licenseLists.findings respelledPolicy (allowingPlan ["(ISC)"])).map Finding.code =
      ["invalid_license_id", "duplicate_license"] ∧
    (Check.licenseLists.findings respelledPolicy (allowingPlan ["(ISC)"])).map Finding.message =
      ["licenses.allow entry '(MIT)' is not a valid SPDX license identifier: `(` joins licenses; expected a single license",
        "license 'GPL-2.0 WITH Font' is listed in both licenses.allow and licenses.deny"] := by
  intro rule
  have hRule : rule ∈ (allowingPlan ["(ISC)"]).rule? .licenseLists := rfl
  exact ⟨hRule, (findings_eq_map_eachAfter respelledPolicy hRule).1, by decide +kernel, by decide +kernel⟩

end LicenseLists

end PolicyLint.Lint
