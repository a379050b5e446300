import PolicyLint.Proofs.Glob.Effects
import PolicyLint.Proofs.Lint.Fingerprints
import PolicyLint.Proofs.Lint.Stability

/-!
# Checks that are silenced

With a glob that matches every text, a check on entries finds nothing but what is wrong with entries that name no
package. For this the globs of its rule must be compiled, and the check must heed them: the check on the
confidence threshold does not.
-/
namespace PolicyLint.Lint
open Text Policy License
set_option autoImplicit false

/-- A finding is due to an entry that names no package. -/
def DueToUnnamed (m : Model) (plan : Plan) (f : Finding) : Prop :=
  ∃ (c : ListCheck) (k : Nat) (e : c.Entry), (c.entries m)[k]? = some e ∧ ¬c.IsNamed e ∧ f ∈ c.findingsAt m plan k

/-- A run lists nothing of a check but findings due to entries that name no package. -/
def Check.IsSilent (m : Model) (plan : Plan) (check : Check) : Prop :=
  ∀ f ∈ (evaluate m plan).findings, f.check = check.name → DueToUnnamed m plan f

def Plan.withoutGlobs (plan : Plan) (check : Check) (rule : Rule) : Plan :=
  { plan with rules := plan.rules.insert check.name { rule with allow := [] } }

theorem ListCheck.not_isNamed_of_isPassedOver {c : ListCheck} {e : c.Entry}
    (h : c.isPassedOver (fun _ => true) e = false) : ¬c.IsNamed e := by
  have hPackage : ∀ name : Option (Spanned String),
      allowsPackage (fun _ => true) name = false → ¬packageName name ≠ none := by
    intro name hName
    rw [allowsPackage] at hName
    split at hName
    · cases hName
    · rename_i hNone
      simp [hNone]
  cases c with
  | licenseLists => cases h
  | exceptions => exact hPackage e.1.name h
  | clarifications => exact hPackage e.1.name h
  | skipEntries => exact hPackage (SkipEntries.Entry.name e) h

theorem ListCheck.dueToUnnamed_of_mem {m : Model} {plan : Plan} {c : ListCheck} {rule : Rule}
    (hRule : plan.rule? c.check = some rule) (hAll : Glob.anyMatches rule.allow = fun _ => true) {f : Finding}
    (h : f ∈ c.check.findings m plan) : DueToUnnamed m plan f := by
  rw [findings_eq_flatMap_findingsAt, List.mem_flatMap] at h
  obtain ⟨k, -, hf⟩ := h
  have hAt := hf
  simp only [findingsAt, hRule, hAll, List.mem_map] at hAt
  obtain ⟨i, hi, -⟩ := hAt
  -- Nothing is said where no entry is left.
  cases hEntry : (c.entries m)[k]? with
  | none => simp [issuesAt, hEntry, issuesAfter_nil] at hi
  | some e =>
    refine ⟨c, k, e, hEntry, ?_, hf⟩
    cases hPassed : c.isPassedOver (fun _ => true) e with
    | false => exact not_isNamed_of_isPassedOver hPassed
    | true => simp [issuesAt, hEntry, hPassed, issuesAfter_nil] at hi

theorem Check.dueToUnnamed_of_mem {m : Model} {plan : Plan} {check : Check} {rule : Rule}
    (hRule : plan.rule? check = some rule) (hAll : Glob.anyMatches rule.allow = fun _ => true)
    (hCheck : check ≠ .confidenceThreshold) {f : Finding} (h : f ∈ check.findings m plan) :
    DueToUnnamed m plan f := by
  cases check with
  | licenseLists => exact ListCheck.dueToUnnamed_of_mem (c := .licenseLists) hRule hAll h
  | confidenceThreshold => exact absurd rfl hCheck
  | exceptions => exact ListCheck.dueToUnnamed_of_mem (c := .exceptions) hRule hAll h
  | clarifications => exact ListCheck.dueToUnnamed_of_mem (c := .clarifications) hRule hAll h
  | skipEntries => exact ListCheck.dueToUnnamed_of_mem (c := .skipEntries) hRule hAll h
  | unknownKeys =>
    rw [findings, hRule] at h
    simp [hAll, issues, UnknownKeys.issues] at h

theorem Plan.rule?_withoutGlobs_self (plan : Plan) {check : Check} {rule : Rule}
    (h : plan.rules.find? check.name = some rule) :
    (plan.withoutGlobs check rule).rule? check =
      (plan.rule? check).map fun rule => ({ rule with allow := [] } : Rule) := by
  rw [rule?, rule?, withoutGlobs, Rules.find?_insert, if_pos rfl, h]
  cases hEnabled : rule.enabled <;> simp [Option.filter, hEnabled]

theorem Plan.rule?_withoutGlobs_of_ne (plan : Plan) {check other : Check} {rule : Rule} (h : other ≠ check) :
    (plan.withoutGlobs check rule).rule? other = plan.rule? other := by
  have hName : other.name ≠ check.name := fun hSame => h (Check.name_injective hSame)
  rw [rule?, rule?, withoutGlobs, Rules.find?_insert, if_neg hName]

theorem Plan.eq_of_rule? {plan : Plan} {check : Check} {rule rule' : Rule}
    (h : plan.rules.find? check.name = some rule) (hOn : plan.rule? check = some rule') : rule = rule' :=
  Option.some.inj (h.symm.trans (Option.filter_eq_some_iff.mp hOn).1)

theorem evaluate_withoutGlobs (m : Model) {plan : Plan} {check : Check} {rule : Rule}
    (hRule : plan.rules.find? check.name = some rule)
    (h : check = .confidenceThreshold ∨ Glob.anyMatches rule.allow = fun _ => false) :
    evaluate m (plan.withoutGlobs check rule) = evaluate m plan := by
  have hFindings : ∀ other : Check, other.findings m (plan.withoutGlobs check rule) = other.findings m plan := by
    intro other
    by_cases hOther : other = check
    · subst hOther
      rw [Check.findings, Check.findings, plan.rule?_withoutGlobs_self hRule]
      cases hOn : plan.rule? other with
      | none => rfl
      | some rule' =>
        obtain rfl := Plan.eq_of_rule? hRule hOn
        rcases h with rfl | hNone
        · rfl
        · simp only [Option.map_some, hNone, anyMatches_nil]
    · exact Check.findings_eq_of_rule?_eq m (plan.rule?_withoutGlobs_of_ne hOther)
  have hAll : findingsOf m (plan.withoutGlobs check rule) Check.all = findingsOf m plan Check.all :=
    List.flatMap_congr fun other _ => hFindings other
  rw [evaluate, evaluateChecks, hAll]
  rfl

theorem mem_checkFindings_of_mem_findings {m : Model} {plan : Plan} {check : Check} {f : Finding}
    (h : f ∈ (evaluate m plan).findings) (hCheck : f.check = check.name) : f ∈ check.findings m plan := by
  rw [← filter_findingsOf_check, List.mem_filter, decide_eq_true_eq]
  exact ⟨mem_findingsOf_of_mem_findings h, hCheck⟩

/-- A glob that matches every text silences a check that heeds its globs, if all of them can be compiled. In any
other case the globs of the check are without effect. -/
theorem Check.isSilent_of_allow_matchesAll (m : Model) {plan : Plan} {check : Check} {rule : Rule} {glob : String}
    (hRule : plan.rules.find? check.name = some rule) (hGlob : glob ∈ rule.allow) (hAll : Glob.MatchesAll glob) :
    (check ≠ .confidenceThreshold ∧ (∀ g ∈ rule.allow, Glob.isShallow g = true) → check.IsSilent m plan) ∧
    (check = .confidenceThreshold ∨ (∃ g ∈ rule.allow, Glob.isShallow g = false) →
      evaluate m (plan.withoutGlobs check rule) = evaluate m plan) := by
  refine ⟨fun ⟨hHeeded, hShallow⟩ f hf hCheck => ?_, fun h => evaluate_withoutGlobs m hRule (h.imp_right ?_)⟩
  · have hMem := mem_checkFindings_of_mem_findings hf hCheck
    cases hOn : plan.rule? check with
    | none =>
      rw [findings, hOn] at hMem
      cases hMem
    | some rule' =>
      obtain rfl := Plan.eq_of_rule? hRule hOn
      exact dueToUnnamed_of_mem hOn (Glob.anyMatches_of_matchesAll hShallow hGlob hAll) hHeeded hMem
  · rintro ⟨g, hg, hDeep⟩
    exact Glob.anyMatches_of_not_isShallow hg hDeep

/-- A percentage where a fraction is wanted, an exception that allows nothing, and one without a name. -/
def percentPolicy : Model :=
  .ofDocument .default { licenses := some {
    confidenceThreshold := some ⟨.ofNat false 93, ⟨0, 0⟩⟩
    exceptions := [{ name := some ⟨"ring", ⟨0, 0⟩⟩ }, {}] } }

def starRule : Rule := { severity := .error, allow := ["*"] }

def starPlan : Plan := { strictPlan with rules := .ofList (Check.allNames.map fun name => (name, starRule)) }

theorem find?_starPlan (check : Check) : starPlan.rules.find? check.name = some starRule :=
  Rules.find?_foldl_insert (.inl (List.mem_map_of_mem check.mem_all))

theorem codes_percentPolicy :
    (Check.exceptions.findings percentPolicy strictPlan).map Finding.code = ["empty_allow", "missing_name"] ∧
    (findingsOf percentPolicy starPlan Check.all).map Finding.code = ["threshold_out_of_range", "missing_name"] ∧
    (Check.confidenceThreshold.findings percentPolicy starPlan).map Finding.code = ["threshold_out_of_range"] := by
  decide +kernel

theorem Check.isSilent_percentPolicy :
    (starPlan.rules.find? Check.exceptions.name = some starRule ∧ "*" ∈ starRule.allow ∧ Glob.MatchesAll "*") ∧
    Check.exceptions.IsSilent percentPolicy starPlan ∧
    (Check.exceptions.findings percentPolicy strictPlan).map Finding.code = ["empty_allow", "missing_name"] ∧
    evaluate percentPolicy (starPlan.withoutGlobs .confidenceThreshold starRule) =
      evaluate percentPolicy starPlan := by
  have hStar : "*" ∈ starRule.allow := List.mem_singleton_self _
  have hHeeded := isSilent_of_allow_matchesAll percentPolicy (find?_starPlan .exceptions) hStar Glob.matchesAll_star
  have hNot := isSilent_of_allow_matchesAll percentPolicy (find?_starPlan .confidenceThreshold) hStar
    Glob.matchesAll_star
  refine ⟨⟨find?_starPlan _, hStar, Glob.matchesAll_star⟩, hHeeded.1 ⟨by decide, ?_⟩, codes_percentPolicy.1,
    hNot.2 (.inl rfl)⟩
  decide +kernel

theorem DueToUnnamed.check_ne {m : Model} {plan : Plan} {f : Finding} (h : DueToUnnamed m plan f) :
    f.check ≠ Check.confidenceThreshold.name := by
  obtain ⟨c, k, e, -, -, hf⟩ := h
  have hName : c.check.name ≠ Check.confidenceThreshold.name := by
    cases c <;> decide
  rw [ListCheck.findingsAt] at hf
  split at hf
  · obtain ⟨i, -, rfl⟩ := List.mem_map.mp hf
    exact hName
  · cases hf

/-- The threshold is reported although every text is matched. -/
theorem Check.not_isSilent_percentPolicy :
    starPlan.rules.find? Check.confidenceThreshold.name = some starRule ∧ "*" ∈ starRule.allow ∧
    Glob.MatchesAll "*" ∧ ¬Check.confidenceThreshold.IsSilent percentPolicy starPlan := by
  refine ⟨find?_starPlan _, List.mem_singleton_self _, Glob.matchesAll_star, fun hSilent => ?_⟩
  obtain ⟨-, hCodes, hThreshold⟩ := codes_percentPolicy
  have hFits : (findingsOf percentPolicy starPlan Check.all).length ≤ starPlan.maxFindings := by
    rw [← List.length_map (f := Finding.code), hCodes]
    decide
  obtain ⟨f, hf, -⟩ := List.mem_map.mp (hThreshold ▸ List.mem_singleton_self _)
  have hMem : f ∈ (evaluate percentPolicy starPlan).findings :=
    (mem_findings_iff hFits).mpr (List.mem_flatMap.mpr ⟨_, Check.mem_all _, hf⟩)
  have hCheck := Check.check_eq_name hf
  exact (hSilent f hMem hCheck).check_ne hCheck

end PolicyLint.Lint
