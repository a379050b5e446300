import Mathlib.Data.List.Forall2
import PolicyLint.Proofs.Lint.Stability

/-!
# Entries that are passed over have no influence

An entry that the globs of its check match is left out before anything is said or remembered of it. So a run
cannot tell two policies apart that differ in such entries only, and what it says of the other entries, be it
about duplicates, is the same.
-/
namespace PolicyLint.Lint
open Text Policy License
set_option autoImplicit false

/-- Two lists that differ in elements only that are hidden in both. -/
def DifferHidden {α : Type} (hidden : α → Bool) (l l' : List α) : Prop :=
  List.Forall₂ (fun a b => a = b ∨ hidden a = true ∧ hidden b = true) l l'

namespace DifferHidden

variable {α β : Type} {hidden : α → Bool} {l l' : List α}

theorem length_eq (h : DifferHidden hidden l l') : l.length = l'.length := List.Forall₂.length_eq h

theorem filter_eq (h : DifferHidden hidden l l') :
    (l.filter fun a => !hidden a) = l'.filter fun a => !hidden a := by
  induction h with
  | nil => rfl
  | cons hHead _ ih =>
    rcases hHead with rfl | ⟨ha, hb⟩
    · rw [List.filter_cons, List.filter_cons, ih]
    · rw [List.filter_cons_of_neg (by simp [ha]), List.filter_cons_of_neg (by simp [hb]), ih]

theorem map (f : α → β) {hidden : β → Bool} (h : DifferHidden (fun a => hidden (f a)) l l') :
    DifferHidden hidden (l.map f) (l'.map f) := by
  rw [DifferHidden, List.forall₂_map_left_iff, List.forall₂_map_right_iff]
  exact h.imp fun a b hab => hab.imp_left (congrArg f)

theorem append {k k' : List α} (h : DifferHidden hidden l l') (h' : DifferHidden hidden k k') :
    DifferHidden hidden (l ++ k) (l' ++ k') :=
  List.rel_append h h'

theorem zipIdx (h : DifferHidden hidden l l') (n : Nat) :
    DifferHidden (fun p : α × Nat => hidden p.1) (l.zipIdx n) (l'.zipIdx n) := by
  induction h generalizing n with
  | nil => exact .nil
  | cons hHead _ ih => exact .cons (hHead.imp_left (congrArg (·, n))) (ih (n + 1))

end DifferHidden

theorem IsSequential.eq_of_singleton {σ α β : Type} {walk walk' : σ → List α → List β} {next : σ → α → σ}
    (h : IsSequential walk next) (h' : IsSequential walk' next) (hOne : ∀ s a, walk s [a] = walk' s [a]) (s : σ)
    (l : List α) : walk s l = walk' s l := by
  induction l generalizing s with
  | nil => rw [h.nil, h'.nil]
  | cons a l ih => rw [h.cons, h'.cons, hOne, ih]

section

variable {m m' : Model} (hLines : m.lineOf = m'.lineOf)

include hLines

theorem LicenseLists.walk_eq_of_lineOf_eq (seen : Seen) (es : List Entry) : walk m seen es = walk m' seen es := by
  refine (isSequential_walk m).eq_of_singleton (isSequential_walk m') ?_ seen es
  intro seen e
  simp only [walk, invalid, duplicate, hLines]

theorem Exceptions.Named.issues_eq_of_lineOf_eq (again : Bool) (e : Named) : e.issues m again = e.issues m' again := by
  have hLicense : e.invalidLicense m = e.invalidLicense m' := by
    funext license
    simp only [invalidLicense, hLines]
  simp only [issues, invalidVersion, duplicate, emptyAllow, hLicense, hLines]

theorem Exceptions.walk_eq_of_lineOf_eq (seen : List PackageKey) (es : List (Exception × Nat)) :
    walk m seen es = walk m' seen es := by
  refine (isSequential_walk m).eq_of_singleton (isSequential_walk m') ?_ seen es
  rintro seen ⟨e, index⟩
  simp only [walk, Named.issues_eq_of_lineOf_eq hLines, hLines]

theorem Clarifications.Placed.issues_eq_of_lineOf_eq (c : Placed) : c.issues m = c.issues m' := by
  have hFile : c.fileIssue m = c.fileIssue m' := by
    funext file
    simp only [fileIssue, issue, hLines]
  simp only [issues, nameIssues, versionIssues, expressionIssues, noFilesIssues, issue, hFile, hLines]

theorem SkipEntries.walk_eq_of_lineOf_eq (seen : Seen) (es : List Entry) : walk m seen es = walk m' seen es := by
  refine (isSequential_walk m).eq_of_singleton (isSequential_walk m') ?_ seen es
  intro seen e
  simp only [walk, Entry.invalidVersion, Entry.duplicate, hLines]

theorem ListCheck.issuesAfter_eq_of_lineOf_eq (c : ListCheck) (before es : List c.Entry) :
    c.issuesAfter m before es = c.issuesAfter m' before es := by
  cases c with
  | licenseLists => exact LicenseLists.walk_eq_of_lineOf_eq hLines _ es
  | exceptions => exact Exceptions.walk_eq_of_lineOf_eq hLines _ es
  | clarifications =>
    exact List.flatMap_congr fun e _ => Clarifications.Placed.issues_eq_of_lineOf_eq hLines ⟨e.2, e.1⟩
  | skipEntries => exact SkipEntries.walk_eq_of_lineOf_eq hLines _ es

end

/-- Whether the globs of a check match a text, be the check on or off. -/
def Plan.passesOver (plan : Plan) (check : Check) : String → Bool :=
  Glob.anyMatches (((plan.rules.find? check.name).map Rule.allow).getD [])

theorem Plan.passesOver_eq {plan : Plan} {check : Check} {rule : Rule} (h : rule ∈ plan.rule? check) :
    plan.passesOver check = Glob.anyMatches rule.allow := by
  obtain ⟨hFind, -⟩ := Option.filter_eq_some_iff.mp h
  rw [passesOver, hFind, Option.map_some, Option.getD_some]

/-- A plan makes nothing of the difference between two policies: they have the same path, the same lines and the
same sections, and of the entries only those differ that the globs of their check match in both. -/
structure DifferPassedOver (plan : Plan) (m m' : Model) : Prop where
  path : m.path = m'.path
  lines : ∀ span, m.lineOf span = m'.lineOf span
  sections : m.document.sectionNames = m'.document.sectionNames
  threshold : m.licenses.confidenceThreshold = m'.licenses.confidenceThreshold
  allow : DifferHidden (fun license => plan.passesOver .licenseLists (trim license.value)) m.licenses.allow
    m'.licenses.allow
  deny : DifferHidden (fun license => plan.passesOver .licenseLists (trim license.value)) m.licenses.deny
    m'.licenses.deny
  exceptions : DifferHidden (fun e => allowsPackage (plan.passesOver .exceptions) e.name) m.licenses.exceptions
    m'.licenses.exceptions
  clarify : DifferHidden (fun c => allowsPackage (plan.passesOver .clarifications) c.name) m.licenses.clarify
    m'.licenses.clarify
  skip : DifferHidden (fun s => allowsPackage (plan.passesOver .skipEntries) s.name) m.bans.skip m'.bans.skip
  skipTree : DifferHidden (fun s => allowsPackage (plan.passesOver .skipEntries) s.name) m.bans.skipTree
    m'.bans.skipTree

namespace DifferPassedOver

variable {plan : Plan} {m m' : Model} (h : DifferPassedOver plan m m')

include h

theorem entries (c : ListCheck) :
    DifferHidden (c.isPassedOver (plan.passesOver c.check)) (c.entries m) (c.entries m') := by
  cases c with
  | licenseLists =>
    exact DifferHidden.append (h.allow.map (LicenseLists.Entry.mk .allow)) (h.deny.map (LicenseLists.Entry.mk .deny))
  | exceptions => exact h.exceptions.zipIdx 0
  | clarifications => exact h.clarify.zipIdx 0
  | skipEntries =>
    exact DifferHidden.append
      ((h.skip.zipIdx 0).map fun p : Skip × Nat => (⟨.skip, p.2, p.1.name, p.1.version⟩ : SkipEntries.Entry))
      ((h.skipTree.zipIdx 0).map fun p : TreeSkip × Nat =>
        (⟨.skipTree, p.2, p.1.name, p.1.version⟩ : SkipEntries.Entry))

theorem findings_eq (c : ListCheck) : c.check.findings m plan = c.check.findings m' plan := by
  rw [Check.findings, Check.findings]
  cases hRule : plan.rule? c.check with
  | none => rfl
  | some rule =>
    -- What is remembered of entries, to find duplicates, is remembered of those that are left.
    have hEntries := (h.entries c).filter_eq
    rw [Plan.passesOver_eq hRule] at hEntries
    simp only [ListCheck.issues_eq, hEntries, h.path, ListCheck.issuesAfter_eq_of_lineOf_eq (funext h.lines)]

theorem confidenceThreshold_findings_eq :
    Check.confidenceThreshold.findings m plan = Check.confidenceThreshold.findings m' plan := by
  rw [Check.findings, Check.findings]
  cases plan.rule? .confidenceThreshold with
  | none => rfl
  | some rule =>
    simp only [Check.issues, ConfidenceThreshold.issues, ConfidenceThreshold.outOfRange, h.threshold, h.path, h.lines]

theorem unknownKeys_findings_eq (hKeys : m.unknownKeys = m'.unknownKeys) :
    Check.unknownKeys.findings m plan = Check.unknownKeys.findings m' plan := by
  rw [Check.findings, Check.findings]
  cases plan.rule? .unknownKeys with
  | none => rfl
  | some rule => simp only [Check.issues, UnknownKeys.issues, hKeys, h.path]

theorem findingsOf_eq (hKeys : m.unknownKeys = m'.unknownKeys) (checks : List Check) :
    findingsOf m plan checks = findingsOf m' plan checks := by
  apply List.flatMap_congr
  intro check _
  cases check with
  | licenseLists => exact h.findings_eq .licenseLists
  | confidenceThreshold => exact h.confidenceThreshold_findings_eq
  | exceptions => exact h.findings_eq .exceptions
  | clarifications => exact h.findings_eq .clarifications
  | skipEntries => exact h.findings_eq .skipEntries
  | unknownKeys => exact h.unknownKeys_findings_eq hKeys

end DifferPassedOver

section

variable (m : Model)

theorem declaredLicenses_eq :
    m.document.declaredLicenses = m.licenses.allow.length + m.licenses.deny.length := by
  rw [Model.licenses, Document.declaredLicenses]
  cases m.document.licenses <;> rfl

theorem clarifications_eq : m.document.clarifications = m.licenses.clarify.length := by
  rw [Model.licenses, Document.clarifications]
  cases m.document.licenses <;> rfl

theorem skipEntries_eq : m.document.skipEntries = m.bans.skip.length + m.bans.skipTree.length := by
  rw [Model.bans, Document.skipEntries]
  cases m.document.bans <;> rfl

end

/-- Policies that differ in entries only that are passed over have the same findings about entries. A run lists
the same of them, unless lists are cut off, and it is the same run altogether if the unknown keys are the same. -/
theorem runs_eq_of_differPassedOver {plan : Plan} {m m' : Model} (h : DifferPassedOver plan m m') :
    (∀ c : ListCheck, c.check.findings m plan = c.check.findings m' plan) ∧
    ((evaluate m plan).summary.findingsTotal ≤ plan.maxFindings →
      (evaluate m' plan).summary.findingsTotal ≤ plan.maxFindings → ∀ c : ListCheck,
        ((evaluate m plan).findings.filter fun f => f.check = c.check.name) =
          (evaluate m' plan).findings.filter fun f => f.check = c.check.name) ∧
    (m.unknownKeys = m'.unknownKeys → evaluate m plan = evaluate m' plan) := by
  refine ⟨h.findings_eq, fun hFits hFits' c => ?_, fun hKeys => ?_⟩
  · rw [findings_eq_sortFindings hFits, findings_eq_sortFindings hFits', filter_sortFindings_comm,
      filter_sortFindings_comm, filter_findingsOf_check, filter_findingsOf_check, h.findings_eq]
  · -- What is counted of a policy are lengths of lists, and these are the same with the hidden entries in them.
    simp only [evaluate, evaluateChecks, h.findingsOf_eq hKeys, h.path, h.sections, declaredLicenses_eq,
      clarifications_eq, skipEntries_eq, h.allow.length_eq, h.deny.length_eq, h.clarify.length_eq,
      h.skip.length_eq, h.skipTree.length_eq]

/-- One package is skipped twice, and so is another one, once with a version that is none. -/
def skippingPolicy (other : String) : Model :=
  let named (name : String) : Skip := { name := some ⟨name, ⟨0, 0⟩⟩ }
  .ofDocument .default { bans := some {
    skip := [named other, named "syn", { named other with version := some ⟨"new", ⟨0, 0⟩⟩ }, named other,
      named "syn"] } }

def skippingPlan : Plan :=
  { strictPlan with rules := strictPlan.rules.insert "bans.skip" { severity := .error, allow := ["log", "ring"] } }

theorem differPassedOver_skippingPolicy :
    DifferPassedOver skippingPlan (skippingPolicy "log") (skippingPolicy "ring") where
  path := rfl
  lines := by
    rintro (_ | span) <;> rfl
  sections := rfl
  threshold := rfl
  allow := .nil
  deny := .nil
  exceptions := .nil
  clarify := .nil
  skip := by
    have hLog : skippingPlan.passesOver .skipEntries "log" = true := by decide +kernel
    have hRing : skippingPlan.passesOver .skipEntries "ring" = true := by decide +kernel
    exact .cons (.inr ⟨hLog, hRing⟩) <| .cons (.inl rfl) <| .cons (.inr ⟨hLog, hRing⟩) <|
      .cons (.inr ⟨hLog, hRing⟩) <| .cons (.inl rfl) .nil
  skipTree := .nil

theorem codes_skippingPolicy :
    (Check.skipEntries.findings (skippingPolicy "log") skippingPlan).map Finding.code = ["duplicate_skip"] ∧
    (Check.skipEntries.findings (skippingPolicy "log") strictPlan).map Finding.code =
      ["invalid_version_req", "duplicate_skip", "duplicate_skip"] := by
  decide +kernel

theorem runs_eq_skippingPolicy :
    DifferPassedOver skippingPlan (skippingPolicy "log") (skippingPolicy "ring") ∧
    (skippingPolicy "log").document ≠ (skippingPolicy "ring").document ∧
    (Check.skipEntries.findings (skippingPolicy "log") strictPlan).map Finding.code =
      ["invalid_version_req", "duplicate_skip", "duplicate_skip"] ∧
    (Check.skipEntries.findings (skippingPolicy "ring") skippingPlan).map Finding.code = ["duplicate_skip"] ∧
    evaluate (skippingPolicy "log") skippingPlan = evaluate (skippingPolicy "ring") skippingPlan := by
  obtain ⟨hCodes, hLoud⟩ := codes_skippingPolicy
  obtain ⟨hFindings, -, hRuns⟩ := runs_eq_of_differPassedOver differPassedOver_skippingPolicy
  refine ⟨differPassedOver_skippingPolicy, by decide, hLoud, ?_, hRuns rfl⟩
  exact hFindings .skipEntries ▸ hCodes

end PolicyLint.Lint
