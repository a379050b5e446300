import PolicyLint.Proofs.Lint.Exactness
import PolicyLint.Proofs.Lint.Truncation

/-!
# The checks are independent

A check reads its own rule and puts its name on all it finds, and the name is a part of the key by which
findings are ordered. So findings of two checks never stand in each other's way: neither the order in which
the checks run nor the rule of one check has any influence on what is listed of the others.
-/
namespace PolicyLint.Lint
open Policy
set_option autoImplicit false

/-- Lists in order are equal if each key has the same findings in both, in the same order. -/
theorem eq_of_filter_sortKey_eq {fs gs : List Finding}
    (hFs : fs.Pairwise fun a b => a.sortKey ≤ b.sortKey) (hGs : gs.Pairwise fun a b => a.sortKey ≤ b.sortKey)
    (h : ∀ key, fs.filter (fun f => f.sortKey = key) = gs.filter fun f => f.sortKey = key) : fs = gs := by
  induction fs generalizing gs with
  | nil =>
    cases gs with
    | nil => rfl
    | cons g gs => simpa using h g.sortKey
  | cons f fs ih =>
    cases gs with
    | nil => simpa using h f.sortKey
    | cons g gs =>
      rw [List.pairwise_cons] at hFs hGs
      -- Each head has the least key of its list, and its key occurs in the other list.
      have hLe : f.sortKey ≤ g.sortKey := by
        have hMem : g ∈ (f :: fs).filter fun a => a.sortKey = g.sortKey := by simp [h]
        rcases List.mem_cons.mp (List.mem_filter.mp hMem).1 with rfl | hMem
        · exact le_refl _
        · exact hFs.1 g hMem
      have hGe : g.sortKey ≤ f.sortKey := by
        have hMem : f ∈ (g :: gs).filter fun a => a.sortKey = f.sortKey := by simp [← h]
        rcases List.mem_cons.mp (List.mem_filter.mp hMem).1 with rfl | hMem
        · exact le_refl _
        · exact hGs.1 f hMem
      have hKey : g.sortKey = f.sortKey := le_antisymm hGe hLe
      obtain rfl : f = g := by simpa [List.filter_cons, hKey] using congrArg List.head? (h f.sortKey)
      rw [ih hFs.2 hGs.2]
      intro key
      have hTail := h key
      rw [List.filter_cons, List.filter_cons] at hTail
      split at hTail
      · exact List.tail_eq_of_cons_eq hTail
      · exact hTail

theorem sortFindings_eq_of_filter_sortKey_eq {fs gs : List Finding}
    (h : ∀ key, fs.filter (fun f => f.sortKey = key) = gs.filter fun f => f.sortKey = key) :
    sortFindings fs = sortFindings gs := by
  apply eq_of_filter_sortKey_eq (pairwise_sortFindings fs) (pairwise_sortFindings gs)
  intro key
  rw [filter_sortFindings, filter_sortFindings, h]

theorem filter_sortFindings_comm (fs : List Finding) (p : Finding → Bool) :
    (sortFindings fs).filter p = sortFindings (fs.filter p) := by
  apply eq_of_filter_sortKey_eq ((pairwise_sortFindings fs).filter p) (pairwise_sortFindings _)
  intro key
  rw [filter_sortFindings, List.filter_comm, filter_sortFindings, List.filter_comm]

theorem Check.check_eq_name {m : Model} {plan : Plan} {check : Check} {f : Finding}
    (h : f ∈ check.findings m plan) : f.check = check.name := by
  rw [findings] at h
  split at h
  · obtain ⟨i, -, rfl⟩ := List.mem_map.mp h
    rfl
  · cases h

theorem Check.findings_eq_of_rule?_eq (m : Model) {plan plan' : Plan} {check : Check}
    (h : plan'.rule? check = plan.rule? check) : check.findings m plan' = check.findings m plan := by
  rw [findings, findings, h]

/-- Where only one element contributes, the order of the elements is irrelevant. -/
theorem flatMap_eq_of_perm {α β : Type} {f : α → List β} (hOne : ∀ a b, f a ≠ [] → f b ≠ [] → a = b)
    {l l' : List α} (h : l.Perm l') : l.flatMap f = l'.flatMap f := by
  induction h with
  | nil => rfl
  | cons a _ ih => rw [List.flatMap_cons, List.flatMap_cons, ih]
  | trans _ _ ih ih' => exact ih.trans ih'
  | swap a b l =>
    simp only [List.flatMap_cons]
    by_cases ha : f a = []
    · rw [ha, List.nil_append, List.nil_append]
    · by_cases hb : f b = []
      · rw [hb, List.nil_append, List.nil_append]
      · rw [hOne a b ha hb]

/-- What a run lists and how it ends does not depend on the order of the checks. -/
theorem evaluateChecks_eq_of_perm (m : Model) (plan : Plan) {checks : List Check}
    (h : checks.Perm Check.all) : evaluateChecks m plan checks = evaluate m plan := by
  have hSorted : sortFindings (findingsOf m plan checks) = sortFindings (findingsOf m plan Check.all) := by
    apply sortFindings_eq_of_filter_sortKey_eq
    intro key
    rw [findingsOf, findingsOf, List.filter_flatMap, List.filter_flatMap]
    apply flatMap_eq_of_perm _ h
    intro a b ha hb
    obtain ⟨f, hf⟩ := List.exists_mem_of_ne_nil _ ha
    obtain ⟨g, hg⟩ := List.exists_mem_of_ne_nil _ hb
    rw [List.mem_filter, decide_eq_true_eq] at hf hg
    apply Check.name_injective
    -- The fourth part of the key is the name of the check.
    have hSame : f.check = g.check := congrArg (fun key : SortKey => key.2.2.2.1) (hf.2.trans hg.2.symm)
    rwa [Check.check_eq_name hf.1, Check.check_eq_name hg.1] at hSame
  simp only [evaluate, evaluateChecks, hSorted]

/-- One license twice and two entries without a name. Nothing here has a line. -/
def tiedPolicy : Model :=
  .ofDocument .default {
    licenses := some { allow := [⟨"MIT", ⟨0, 0⟩⟩, ⟨"MIT", ⟨0, 0⟩⟩] }
    bans := some { skip := [{}, {}] } }

theorem codes_tiedPolicy :
    (findingsOf tiedPolicy strictPlan Check.all).map Finding.code =
      ["duplicate_license", "missing_name", "missing_name"] ∧
    (findingsOf tiedPolicy strictPlan Check.all.reverse).map Finding.code =
      ["missing_name", "missing_name", "duplicate_license"] := by
  decide +kernel

theorem evaluateChecks_reverse_tiedPolicy : Check.all.reverse.Perm Check.all ∧
    findingsOf tiedPolicy strictPlan Check.all.reverse ≠ findingsOf tiedPolicy strictPlan Check.all ∧
    evaluateChecks tiedPolicy strictPlan Check.all.reverse = evaluate tiedPolicy strictPlan := by
  refine ⟨List.reverse_perm _, fun hSame => ?_, evaluateChecks_eq_of_perm _ _ (List.reverse_perm _)⟩
  have hCodes := congrArg (List.map Finding.code) hSame
  rw [codes_tiedPolicy.1, codes_tiedPolicy.2] at hCodes
  exact absurd hCodes (by decide)

/-- Two plans that differ in the rule of one check only. -/
structure Plan.AgreesExcept (plan plan' : Plan) (name : String) : Prop where
  profile : plan'.profile = plan.profile
  failOn : plan'.failOn = plan.failOn
  maxFindings : plan'.maxFindings = plan.maxFindings
  rules : ∀ other, other ≠ name → plan'.rules.find? other = plan.rules.find? other

theorem Plan.agreesExcept_insert (plan : Plan) (name : String) (rule : Rule) :
    plan.AgreesExcept { plan with rules := plan.rules.insert name rule } name where
  profile := rfl
  failOn := rfl
  maxFindings := rfl
  rules := fun other hOther => by rw [Rules.find?_insert, if_neg hOther]

theorem findings_eq_sortFindings {m : Model} {plan : Plan}
    (h : (evaluate m plan).summary.findingsTotal ≤ plan.maxFindings) :
    (evaluate m plan).findings = sortFindings (findingsOf m plan Check.all) :=
  List.take_of_length_le h

/-- The findings that are not of one check stand apart from its rule. -/
theorem filter_findingsOf_of_agreesExcept (m : Model) {plan plan' : Plan} {name : String}
    (h : plan.AgreesExcept plan' name) (checks : List Check) :
    (findingsOf m plan' checks).filter (fun f => f.check ≠ name) =
      (findingsOf m plan checks).filter fun f => f.check ≠ name := by
  rw [findingsOf, findingsOf, List.filter_flatMap, List.filter_flatMap]
  apply List.flatMap_congr
  intro check _
  by_cases hName : check.name = name
  · have hNone : ∀ p : Plan, (check.findings m p).filter (fun f => f.check ≠ name) = [] := fun p =>
      List.filter_eq_nil_iff.mpr fun f hf => by simp [Check.check_eq_name hf, hName]
    rw [hNone, hNone]
  · have hRule : plan'.rule? check = plan.rule? check := congrArg (Option.filter Rule.enabled) (h.rules _ hName)
    rw [Check.findings_eq_of_rule?_eq m hRule]

/-- A check that is off, or not known, has no finding. -/
theorem filter_findingsOf_of_disabled (m : Model) {plan : Plan} {name : String}
    (h : (plan.rules.find? name).filter Rule.enabled = none) (checks : List Check) :
    (findingsOf m plan checks).filter (fun f => f.check ≠ name) = findingsOf m plan checks := by
  rw [List.filter_eq_self]
  intro f hf
  obtain ⟨check, -, hf⟩ := List.mem_flatMap.mp hf
  rw [decide_eq_true_eq, Check.check_eq_name hf]
  rintro rfl
  have hNone : plan.rule? check = none := h
  rw [Check.findings, hNone] at hf
  cases hf

/-- The rule of one check changes nothing in what is listed of the others, and without the check the list
is the same less its findings. -/
theorem evaluate_findings_agreesExcept (m : Model) {plan plan' : Plan} {name : String}
    (h : plan.AgreesExcept plan' name)
    (hFits : (evaluate m plan).summary.findingsTotal ≤ plan.maxFindings) :
    ((evaluate m plan').summary.findingsTotal ≤ plan'.maxFindings →
      (evaluate m plan').findings.filter (fun f => f.check ≠ name) =
        (evaluate m plan).findings.filter fun f => f.check ≠ name) ∧
    ((plan'.rules.find? name).filter Rule.enabled = none →
      (evaluate m plan').findings = (evaluate m plan).findings.filter fun f => f.check ≠ name) := by
  have hOthers := filter_findingsOf_of_agreesExcept m h Check.all
  constructor
  · intro hFits'
    rw [findings_eq_sortFindings hFits, findings_eq_sortFindings hFits', filter_sortFindings_comm,
      filter_sortFindings_comm, hOthers]
  · intro hOff
    rw [filter_findingsOf_of_disabled m hOff] at hOthers
    have hFits' : (evaluate m plan').summary.findingsTotal ≤ plan'.maxFindings := by
      rw [(accounts_evaluate m plan').total, hOthers, h.maxFindings]
      rw [(accounts_evaluate m plan).total] at hFits
      exact (List.length_filter_le _ _).trans hFits
    rw [findings_eq_sortFindings hFits, findings_eq_sortFindings hFits', hOthers, filter_sortFindings_comm]

/-- The licenses are checked with another rule. -/
def withLicenseRule (rule : Rule) : Plan :=
  { strictPlan with rules := strictPlan.rules.insert "licenses.allow_identifiers" rule }

theorem evaluate_tiedPolicy_withLicenseRule :
    let mild := withLicenseRule { severity := .info }
    let silent := withLicenseRule { enabled := false, severity := .info }
    let isOther := fun f : Finding => decide (f.check ≠ "licenses.allow_identifiers")
    (strictPlan.AgreesExcept mild "licenses.allow_identifiers" ∧
      strictPlan.AgreesExcept silent "licenses.allow_identifiers" ∧
      (evaluate tiedPolicy strictPlan).summary.findingsTotal = 3 ∧
      (evaluate tiedPolicy mild).summary.findingsTotal = 3) ∧
    (evaluate tiedPolicy mild).findings.filter isOther =
      (evaluate tiedPolicy strictPlan).findings.filter isOther ∧
    (evaluate tiedPolicy silent).findings = (evaluate tiedPolicy strictPlan).findings.filter isOther ∧
    (evaluate tiedPolicy silent).findings.length = 2 := by
  intro mild silent isOther
  have hMild := Plan.agreesExcept_insert strictPlan "licenses.allow_identifiers" { severity := .info }
  have hSilent := Plan.agreesExcept_insert strictPlan "licenses.allow_identifiers"
    { enabled := false, severity := .info }
  have hTotal : (evaluate tiedPolicy strictPlan).summary.findingsTotal = 3 :=
    (accounts_evaluate _ _).total.trans (by decide +kernel)
  have hTotalMild : (evaluate tiedPolicy mild).summary.findingsTotal = 3 :=
    (accounts_evaluate _ _).total.trans (by decide +kernel)
  have hFits : (evaluate tiedPolicy strictPlan).summary.findingsTotal ≤ strictPlan.maxFindings := by
    rw [hTotal]
    decide
  have hFitsMild : (evaluate tiedPolicy mild).summary.findingsTotal ≤ mild.maxFindings := by
    rw [hTotalMild]
    decide
  have hLength : (evaluate tiedPolicy silent).findings.length = 2 := by
    rw [(accounts_evaluate _ _).length, (accounts_evaluate _ _).total]
    decide +kernel
  exact ⟨⟨hMild, hSilent, hTotal, hTotalMild⟩,
    (evaluate_findings_agreesExcept tiedPolicy hMild hFits).1 hFitsMild,
    (evaluate_findings_agreesExcept tiedPolicy hSilent hFits).2 (by decide +kernel), hLength⟩

end PolicyLint.Lint
