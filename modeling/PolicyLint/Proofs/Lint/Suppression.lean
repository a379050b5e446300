import PolicyLint.Proofs.Lint.Exactness
import PolicyLint.Proofs.Lint.Truncation

/-!
# Suppression never makes a run worse

Turning checks off, lowering severities, allowing more and failing later never leads to a worse verdict. A
check that passes over more entries may find other duplicates than before, but it finds none where there
were none, because what it walks is a part of what it walked before.
-/
namespace PolicyLint.Lint
open Text Policy License
set_option autoImplicit false

theorem NewTo.sublist {κ : Type} {seen keys keys' : List κ} (h : NewTo seen keys)
    (hSub : keys'.Sublist keys) : NewTo seen keys' :=
  ⟨h.1.sublist hSub, fun k hk => h.2 k (hSub.subset hk)⟩

theorem sublist_filter_not {α : Type} {p q : α → Bool} (h : ∀ a, p a = true → q a = true) (l : List α) :
    (l.filter fun a => !q a).Sublist (l.filter fun a => !p a) := by
  apply List.monotone_filter_right
  intro a ha
  rw [Bool.not_eq_true'] at ha ⊢
  exact Bool.eq_false_iff.mpr fun hp => Bool.eq_false_iff.mp ha (h a hp)

theorem LicenseLists.Fresh.sublist {seen : Seen} {es es' : List Entry} (h : Fresh seen es)
    (hSub : es'.Sublist es) : Fresh seen es' := by
  obtain ⟨rs, hEq, hNew⟩ := h
  have hParsed := hSub.map fun e => Requirement.parse e.license.value
  rw [hEq, List.sublist_map_iff] at hParsed
  obtain ⟨rs', hSub', hEq'⟩ := hParsed
  exact ⟨rs', hEq', hNew.sublist (hSub'.map _)⟩

section

variable {m : Model} {allowed allowed' : String → Bool} (hAllowed : ∀ s, allowed s = true → allowed' s = true)

include hAllowed

theorem allowsPackage_mono (name : Option (Spanned String)) (h : allowsPackage allowed name = true) :
    allowsPackage allowed' name = true := by
  rw [allowsPackage] at h ⊢
  split at h
  · exact hAllowed _ h
  · cases h

theorem LicenseLists.issues_eq_nil_of_allowed (h : issues m allowed = []) : issues m allowed' = [] := by
  rw [issues, walk_eq_nil_iff] at h ⊢
  exact h.sublist (sublist_filter_not (fun e => hAllowed _) _)

theorem Exceptions.issues_eq_nil_of_allowed (h : issues m allowed = []) : issues m allowed' = [] := by
  have hSub := sublist_filter_not (p := fun e : Exception × Nat => allowsPackage allowed e.1.name)
    (fun e => allowsPackage_mono hAllowed e.1.name) m.licenses.exceptions.zipIdx
  rw [issues, walk_eq_nil_iff] at h ⊢
  exact ⟨fun e he => h.1 e (hSub.subset he), h.2.sublist (hSub.map _)⟩

theorem Clarifications.issues_eq_nil_of_allowed (h : issues m allowed = []) : issues m allowed' = [] := by
  have hSub := sublist_filter_not (p := fun c : Clarification × Nat => allowsPackage allowed c.1.name)
    (fun c => allowsPackage_mono hAllowed c.1.name) m.licenses.clarify.zipIdx
  rw [issues, List.flatMap_eq_nil_iff] at h ⊢
  exact fun c hc => h c (hSub.subset hc)

theorem SkipEntries.issues_eq_nil_of_allowed (h : issues m allowed = []) : issues m allowed' = [] := by
  have hSub := sublist_filter_not (p := fun e : Entry => allowsPackage allowed e.name)
    (fun e => allowsPackage_mono hAllowed e.name) (entries m.bans)
  rw [issues, walk_eq_nil_iff] at h ⊢
  exact ⟨fun e he => h.1 e (hSub.subset he), h.2.sublist (hSub.map _)⟩

theorem UnknownKeys.issues_eq_nil_of_allowed (h : issues m allowed = []) : issues m allowed' = [] := by
  have hSub := sublist_filter_not (p := fun k : UnknownKey => allowed k.path) (fun k => hAllowed k.path)
    m.unknownKeys
  rw [issues, List.map_eq_nil_iff] at h ⊢
  exact List.sublist_nil.mp (h ▸ hSub)

/-- A check that says nothing says nothing when it passes over more. -/
theorem Check.issues_eq_nil_of_allowed {check : Check} (h : check.issues m allowed = []) :
    check.issues m allowed' = [] := by
  cases check with
  | licenseLists => exact LicenseLists.issues_eq_nil_of_allowed hAllowed h
  | confidenceThreshold => exact h
  | exceptions => exact Exceptions.issues_eq_nil_of_allowed hAllowed h
  | clarifications => exact Clarifications.issues_eq_nil_of_allowed hAllowed h
  | skipEntries => exact SkipEntries.issues_eq_nil_of_allowed hAllowed h
  | unknownKeys => exact UnknownKeys.issues_eq_nil_of_allowed hAllowed h

end

/-- The place of a verdict, from the best to the worst. -/
def Verdict.rank : Verdict → Nat
  | pass => 0
  | warn => 1
  | fail => 2

instance : LE Verdict := ⟨fun v w => v.rank ≤ w.rank⟩

instance (v w : Verdict) : Decidable (v ≤ w) := inferInstanceAs (Decidable (_ ≤ _))

theorem Verdict.le_iff {v w : Verdict} : v ≤ w ↔ (v = .fail → w = .fail) ∧ (w = .pass → v = .pass) := by
  cases v <;> cases w <;> decide

theorem Verdict.exitCode_mono {v w : Verdict} (h : v ≤ w) : v.exitCode ≤ w.exitCode := by
  revert h
  cases v <;> cases w <;> decide

theorem FailOn.verdict_mono {failOn failOn' : FailOn} {counts counts' : Counts}
    (hFailOn : failOn' = failOn ∨ failOn' = .error) (hError : 0 < counts'.error → 0 < counts.error)
    (hWarn : 0 < counts'.warn → 0 < counts.warn ∨ 0 < counts.error) :
    failOn'.verdict counts' ≤ failOn.verdict counts := by
  rw [Verdict.le_iff, verdict_eq_fail_iff, verdict_eq_fail_iff, verdict_eq_pass_iff, verdict_eq_pass_iff]
  constructor
  · rintro (hCount | ⟨hCount, hWarning⟩)
    · exact .inl (hError hCount)
    -- A warning fails a run only under `failOn' = .warning`, so `failOn` is the same.
    · rcases hWarn hCount with hCount | hCount
      · subst hWarning
        exact .inr ⟨hCount, (hFailOn.resolve_right (by decide)).symm⟩
      · exact .inl hCount
  · rintro ⟨hNoError, hNoWarn⟩
    constructor
    · exact Nat.eq_zero_of_not_pos fun hCount => (hError hCount).ne' hNoError
    · exact Nat.eq_zero_of_not_pos fun hCount =>
        (hWarn hCount).elim (fun h => h.ne' hNoWarn) fun h => h.ne' hNoError

/-- A plan that suppresses at least what another one does: it makes no further checks, finds nothing more
severe, allows no less, and fails no sooner. -/
structure Plan.Eases (plan' plan : Plan) : Prop where
  failOn : plan'.failOn = plan.failOn ∨ plan'.failOn = .error
  rules : ∀ check, ∀ rule' ∈ plan'.rule? check, ∃ rule ∈ plan.rule? check,
    rule'.severity ≤ rule.severity ∧ rule.allow ⊆ rule'.allow

/-- The globs of each check can be compiled together. -/
def Plan.Compiles (plan : Plan) : Prop :=
  ∀ check, ∀ rule ∈ plan.rule? check, ∀ glob ∈ rule.allow, Glob.isShallow glob = true

theorem anyMatches_mono {globs globs' : List String} (hGlobs : globs ⊆ globs')
    (hCompiles : ∀ glob ∈ globs', Glob.isShallow glob = true) (s : String)
    (h : Glob.anyMatches globs s = true) : Glob.anyMatches globs' s = true := by
  rw [Glob.anyMatches_eq_true_iff] at h ⊢
  obtain ⟨-, glob, hGlob, hMatches⟩ := h
  exact ⟨hCompiles, glob, hGlobs hGlob, hMatches⟩

theorem mem_findingsOf_iff {m : Model} {plan : Plan} {f : Finding} :
    f ∈ findingsOf m plan Check.all ↔ ∃ check : Check, ∃ rule ∈ plan.rule? check,
      ∃ i ∈ check.issues m (Glob.anyMatches rule.allow), i.finding check rule.severity m.path = f := by
  rw [findingsOf, List.mem_flatMap]
  apply exists_congr
  intro check
  rw [and_iff_right check.mem_all, Check.findings]
  cases plan.rule? check <;> simp

/-- Whatever is found, the plan that suppresses less finds something at least as severe. -/
theorem Plan.Eases.exists_finding {m : Model} {plan plan' : Plan} (h : plan'.Eases plan)
    (hCompiles : plan'.Compiles) {f' : Finding} (hf' : f' ∈ findingsOf m plan' Check.all) :
    ∃ f ∈ findingsOf m plan Check.all, f'.severity ≤ f.severity := by
  obtain ⟨check, rule', hRule', i', hi', rfl⟩ := mem_findingsOf_iff.mp hf'
  obtain ⟨rule, hRule, hSeverity, hAllow⟩ := h.rules check rule' hRule'
  -- The issue of `f'` itself may be new: only that the check is not silent carries over.
  have hIssues : check.issues m (Glob.anyMatches rule.allow) ≠ [] := fun hNil =>
    List.ne_nil_of_mem hi' (Check.issues_eq_nil_of_allowed
      (anyMatches_mono hAllow (hCompiles check rule' hRule')) hNil)
  obtain ⟨i, hi⟩ := List.exists_mem_of_ne_nil _ hIssues
  exact ⟨_, mem_findingsOf_iff.mpr ⟨check, rule, hRule, i, hi, rfl⟩, hSeverity⟩

theorem Counts.error_pos_iff {fs : List Finding} :
    0 < (Counts.of fs).error ↔ ∃ f ∈ fs, f.severity = .error := by
  rw [Counts.of, Counts.ofSeverities, List.count_pos_iff, List.mem_map]

theorem Counts.warn_pos_iff {fs : List Finding} :
    0 < (Counts.of fs).warn ↔ ∃ f ∈ fs, f.severity = .warning := by
  rw [Counts.of, Counts.ofSeverities, List.count_pos_iff, List.mem_map]

theorem Severity.warning_le_iff {s : Severity} : .warning ≤ s ↔ s = .warning ∨ s = .error := by
  cases s <;> decide

/-- A plan that suppresses more leads to no worse verdict and no higher exit code. -/
theorem evaluate_verdict_le (m : Model) {plan plan' : Plan} (h : plan'.Eases plan)
    (hCompiles : plan'.Compiles) : (evaluate m plan').verdict ≤ (evaluate m plan).verdict ∧
      (evaluate m plan').verdict.exitCode ≤ (evaluate m plan).verdict.exitCode := by
  have hVerdict : (evaluate m plan').verdict ≤ (evaluate m plan).verdict := by
    rw [(accounts_evaluate m plan').verdict, (accounts_evaluate m plan).verdict]
    apply FailOn.verdict_mono h.failOn
    · rw [Counts.error_pos_iff, Counts.error_pos_iff]
      rintro ⟨f', hf', hError⟩
      obtain ⟨f, hf, hSeverity⟩ := h.exists_finding hCompiles hf'
      rw [hError, Severity.error_le_iff] at hSeverity
      exact ⟨f, hf, hSeverity⟩
    · rw [Counts.warn_pos_iff, Counts.warn_pos_iff, Counts.error_pos_iff]
      rintro ⟨f', hf', hWarning⟩
      obtain ⟨f, hf, hSeverity⟩ := h.exists_finding hCompiles hf'
      rw [hWarning, Severity.warning_le_iff] at hSeverity
      exact hSeverity.imp (fun hWarn => ⟨f, hf, hWarn⟩) fun hError => ⟨f, hf, hError⟩
  exact ⟨hVerdict, Verdict.exitCode_mono hVerdict⟩

def loudPlan : Plan where
  profile := "oss"
  failOn := .warning
  maxFindings := 200
  rules := [("bans.skip", { severity := .warning }), ("licenses.allow_identifiers", { severity := .error })]

/-- One check less, and of the repeated license the first entry is passed over. -/
def quietPlan : Plan where
  profile := "oss"
  failOn := .error
  maxFindings := 200
  rules := [("bans.skip", { enabled := false, severity := .warning }),
    ("licenses.allow_identifiers", { severity := .warning, allow := ["(MIT)"] })]

theorem quietPlan_eases : quietPlan.Eases loudPlan where
  failOn := .inr rfl
  rules := by
    rintro (_ | _ | _ | _ | _ | _) rule' hRule'
    · cases hRule'
      exact ⟨_, rfl, by decide, List.nil_subset _⟩
    all_goals cases hRule'

theorem quietPlan_compiles : quietPlan.Compiles := by
  rintro (_ | _ | _ | _ | _ | _) rule hRule glob hGlob
  · cases hRule
    obtain rfl := List.mem_singleton.mp hGlob
    decide +kernel
  all_goals cases hRule

theorem evaluate_quietPlan : (quietPlan.Eases loudPlan ∧ quietPlan.Compiles) ∧
    (evaluate repeatedPolicy quietPlan).verdict ≤ (evaluate repeatedPolicy loudPlan).verdict ∧
      (evaluate repeatedPolicy quietPlan).verdict.exitCode ≤
        (evaluate repeatedPolicy loudPlan).verdict.exitCode ∧
      (evaluate repeatedPolicy quietPlan).verdict = .warn ∧
        (evaluate repeatedPolicy loudPlan).verdict = .fail := by
  obtain ⟨hVerdict, hExit⟩ := evaluate_verdict_le repeatedPolicy quietPlan_eases quietPlan_compiles
  have hQuiet : (evaluate repeatedPolicy quietPlan).verdict = .warn :=
    (accounts_evaluate _ _).verdict.trans (by decide +kernel)
  have hLoud : (evaluate repeatedPolicy loudPlan).verdict = .fail :=
    (accounts_evaluate _ _).verdict.trans (by decide +kernel)
  exact ⟨⟨quietPlan_eases, quietPlan_compiles⟩, hVerdict, hExit, hQuiet, hLoud⟩

end PolicyLint.Lint
