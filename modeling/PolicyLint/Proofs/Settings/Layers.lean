import PolicyLint.Settings.Resolve
import PolicyLint.Proofs.Lint.Exactness
import PolicyLint.Proofs.Outcome

/-!
# Layers of settings

A plan is laid in three layers: the preset of a profile, the settings file, the overrides. What is wrong with
the two upper layers is listed in the order in which it is looked at; the first of the list is what the
resolution fails with, and without any fault it yields the plan in which the upper layers win.
-/
namespace PolicyLint
open Lint Text Outcome
set_option autoImplicit false

namespace Lint

/-- Each name stands before all that follow, in the order of bytes. -/
def InByteOrder (names : List String) : Prop := names.Pairwise fun a b => before a b = true

instance (names : List String) : Decidable (InByteOrder names) :=
  inferInstanceAs (Decidable (names.Pairwise _))

theorem before_irrefl (a : String) : before a a = false := decide_eq_false (List.lt_irrefl a.toList)

theorem not_before_of_before {a b : String} (h : before a b = true) : before b a = false := by
  have hLt : a.toList < b.toList := of_decide_eq_true h
  exact decide_eq_false (List.lt_asymm hLt)

theorem InByteOrder.nodup {names : List String} (h : InByteOrder names) : names.Nodup := by
  refine List.Pairwise.imp ?_ h
  rintro a _ hBefore rfl
  rw [before_irrefl] at hBefore
  cases hBefore

namespace Rules

def names (rules : Rules) : List String := rules.map Prod.fst

theorem names_insert {name : String} (rule : Rule) {rules : Rules} (hOrder : InByteOrder rules.names)
    (h : name ∈ rules.names) : (rules.insert name rule).names = rules.names := by
  induction rules with
  | nil => cases h
  | cons r rules ih =>
    obtain ⟨hFirst, hRest⟩ := List.pairwise_cons.mp hOrder
    rw [insert]
    split
    · rename_i hSame
      rw [names, names, List.map_cons, List.map_cons, hSame]
    · rename_i hOther
      have hMem : name ∈ names rules := (List.mem_cons.mp h).resolve_left hOther
      have hAfter : before name r.1 = false := not_before_of_before (hFirst name hMem)
      rw [if_neg (by simp [hAfter])]
      exact congrArg (r.1 :: ·) (ih hRest hMem)

theorem find?_isSome_iff {name : String} {rules : Rules} : (rules.find? name).isSome ↔ name ∈ rules.names := by
  rw [find?, List.lookup_isSome_iff, names, List.mem_map]
  constructor
  · rintro ⟨r, hr, hSame⟩
    exact ⟨r, hr, (beq_iff_eq.mp hSame).symm⟩
  · rintro ⟨r, hr, rfl⟩
    exact ⟨r, hr, beq_self_eq_true _⟩

end Rules

end Lint

namespace Settings

/-- The names of all checks, as rules are ordered. -/
def orderedNames : List String :=
  ["bans.skip", "licenses.allow_identifiers", "licenses.clarify", "licenses.confidence_threshold",
    "licenses.exceptions", "schema.unknown_key"]

theorem orderedNames_perm : orderedNames.Perm Check.allNames := by decide

theorem inByteOrder_orderedNames : InByteOrder orderedNames := by decide

theorem names_preset (profile : Profile) : (preset profile).rules.names = orderedNames := by
  cases profile <;> decide

/-- How severe a check is under a profile. -/
def Profile.severity : Profile → Check → Severity
  | .strict, _ => .error
  | .warn, _ => .warning
  | .compat, .unknownKeys => .info
  | .compat, _ => .warning

theorem find?_preset (profile : Profile) (check : Check) :
    (preset profile).rules.find? check.name = some { severity := profile.severity check } := by
  cases profile <;> cases check <;> decide

/-- The globs that cannot be read, in order. -/
def globFaults (check : String) (globs : List String) : List ResolveFault :=
  globs.filterMap fun glob =>
    match Glob.parse glob with
    | .ok _ => none
    | .error fault => some (.invalidGlob check glob fault)

/-- What is wrong with the settings of one check: its name, then its globs. -/
def entryFaults (entry : String × CheckSettings) : List ResolveFault :=
  (if entry.1 ∈ Check.allNames then [] else [.unknownCheck entry.1]) ++ globFaults entry.1 entry.2.allow

def profileFaults (o : Overrides) : List ResolveFault :=
  match o.profile with
  | some name => if name ∈ ["strict", "warn", "compat"] then [] else [.unknownProfile name]
  | none => []

def failOnFaults (o : Overrides) : List ResolveFault :=
  match o.failOn with
  | some name => if name ∈ ["error", "warning", "warn"] then [] else [.unknownFailOn name]
  | none => []

/-- All that is wrong with settings and overrides: the profile, each check, the threshold. -/
def faults (d : Document) (o : Overrides) : List ResolveFault :=
  profileFaults o ++ (d.checks.flatMap entryFaults ++ failOnFaults o)

theorem Profile.ofName?_isSome_iff {name : String} :
    (Profile.ofName? name).isSome ↔ name ∈ ["strict", "warn", "compat"] := by
  rw [Profile.ofName?, List.find?_isSome]
  simp [Profile.all, Profile.name, eq_comm (a := name)]

theorem failOnOfName?_isSome_iff {name : String} :
    (failOnOfName? name).isSome ↔ name ∈ ["error", "warning", "warn"] := by
  unfold failOnOfName?
  split_ifs <;> simp_all

theorem failsFirst_chosenProfile (d : Document) (o : Overrides) :
    FailsFirst (chosenProfile d o) (profileFaults o) := by
  unfold chosenProfile profileFaults
  cases o.profile with
  | none => exact failsFirst_ok _
  | some name =>
    simp only [← Profile.ofName?_isSome_iff]
    cases Profile.ofName? name with
    | none => exact failsFirst_error _ _
    | some profile => exact failsFirst_ok _

theorem failsFirst_chosenFailOn (d : Document) (o : Overrides) :
    FailsFirst (chosenFailOn d o) (failOnFaults o) := by
  unfold chosenFailOn failOnFaults
  cases o.failOn with
  | none => exact failsFirst_ok _
  | some name =>
    simp only [← failOnOfName?_isSome_iff]
    cases failOnOfName? name with
    | none => exact failsFirst_error _ _
    | some failOn => exact failsFirst_ok _

theorem head?_globFaults (check : String) (globs : List String) :
    (globFaults check globs).head? =
      (firstBadGlob globs).map fun (glob, fault) => .invalidGlob check glob fault := by
  rw [globFaults, firstBadGlob, List.head?_filterMap]
  induction globs with
  | nil => rfl
  | cons glob globs ih =>
    rw [List.findSome?_cons, List.findSome?_cons]
    cases Glob.parse glob with
    | ok _ => exact ih
    | error fault => rfl

theorem failsFirst_applyCheck {rules : Rules} (hNames : rules.names = orderedNames)
    (entry : String × CheckSettings) : FailsFirst (applyCheck rules entry) (entryFaults entry) := by
  unfold applyCheck entryFaults
  cases hRule : rules.find? entry.1 with
  | none =>
    have hUnknown : entry.1 ∉ Check.allNames := by
      rw [← orderedNames_perm.mem_iff, ← hNames, ← Rules.find?_isSome_iff, hRule]
      simp
    rw [if_neg hUnknown]
    exact failsFirst_error _ _
  | some rule =>
    have hKnown : entry.1 ∈ Check.allNames := by
      rw [← orderedNames_perm.mem_iff, ← hNames, ← Rules.find?_isSome_iff, hRule]
      rfl
    rw [if_pos hKnown, List.nil_append]
    have hHead := head?_globFaults entry.1 entry.2.allow
    cases hBad : firstBadGlob entry.2.allow with
    | none =>
      rw [hBad, Option.map_none, List.head?_eq_none_iff] at hHead
      rw [hHead]
      exact failsFirst_ok _
    | some bad =>
      rw [hBad, Option.map_some] at hHead
      obtain ⟨rest, hFaults⟩ := List.head?_eq_some_iff.mp hHead
      rw [hFaults]
      exact failsFirst_error _ _

theorem applyCheck_eq_ok {rules rules' : Rules} {entry : String × CheckSettings}
    (h : applyCheck rules entry = .ok rules') :
    ∃ rule, rules.find? entry.1 = some rule ∧ rules' = rules.insert entry.1 (entry.2.apply rule) := by
  unfold applyCheck at h
  cases hRule : rules.find? entry.1 with
  | none =>
    rw [hRule] at h
    cases h
  | some rule =>
    rw [hRule] at h
    cases hBad : firstBadGlob entry.2.allow with
    | none =>
      rw [hBad] at h
      cases h
      exact ⟨rule, rfl, rfl⟩
    | some bad =>
      rw [hBad] at h
      cases h

theorem names_applyCheck {rules rules' : Rules} {entry : String × CheckSettings}
    (hNames : rules.names = orderedNames) (h : applyCheck rules entry = .ok rules') :
    rules'.names = orderedNames := by
  obtain ⟨rule, hRule, rfl⟩ := applyCheck_eq_ok h
  have hMem : entry.1 ∈ rules.names := Rules.find?_isSome_iff.mp (by rw [hRule]; rfl)
  rw [Rules.names_insert _ (hNames ▸ inByteOrder_orderedNames) hMem, hNames]

theorem failsFirst_applyChecks {rules : Rules} (hNames : rules.names = orderedNames)
    (checks : List (String × CheckSettings)) :
    FailsFirst (applyChecks rules checks) (checks.flatMap entryFaults) :=
  FailsFirst.foldlM (P := fun rules => rules.names = orderedNames)
    (fun entry _ h => ⟨failsFirst_applyCheck h entry, fun _ => names_applyCheck h⟩) hNames

theorem names_applyChecks {rules rules' : Rules} {checks : List (String × CheckSettings)}
    (hNames : rules.names = orderedNames) (h : applyChecks rules checks = .ok rules') :
    rules'.names = orderedNames :=
  foldlM_preserves (P := fun rules => rules.names = orderedNames) (fun _ _ _ _ hStep h => names_applyCheck h hStep)
    h hNames

/-- Each rule has the settings of its check, if there are any. -/
theorem find?_applyChecks {rules rules' : Rules} {checks : List (String × CheckSettings)}
    (hDistinct : (checks.map Prod.fst).Nodup) (h : applyChecks rules checks = .ok rules') (name : String) :
    rules'.find? name = (rules.find? name).map ((checks.lookup name).elim id CheckSettings.apply) := by
  induction checks generalizing rules with
  | nil =>
    cases h
    rw [List.lookup_nil, Option.elim_none, Option.map_id_fun, id]
  | cons entry checks ih =>
    rw [applyChecks, List.foldlM_cons] at h
    obtain ⟨next, hNext, h⟩ := bind_eq_ok_iff.mp h
    obtain ⟨hNew, hRest⟩ := List.nodup_cons.mp hDistinct
    obtain ⟨rule, hRule, rfl⟩ := applyCheck_eq_ok hNext
    rw [ih hRest h, Rules.find?_insert, List.lookup_cons]
    by_cases hSame : name = entry.1
    · subst hSame
      -- No later settings are for the same check, so what was inserted stays.
      have hNone : checks.lookup entry.1 = none := by
        rw [List.lookup_eq_none_iff]
        intro other hOther
        rw [bne_iff_ne]
        rintro hEq
        exact hNew (hEq ▸ List.mem_map_of_mem hOther)
      rw [if_pos rfl, hNone, hRule, beq_self_eq_true]
      rfl
    · rw [if_neg hSame, beq_false_of_ne hSame]

/-- The override wins over the settings file, and without either the profile is strict. -/
def effectiveProfile (d : Document) (o : Overrides) : Profile :=
  ((o.profile.bind Profile.ofName?).or d.profile).getD .strict

theorem chosenProfile_eq_ok {d : Document} {o : Overrides} {profile : Profile}
    (h : chosenProfile d o = .ok profile) : profile = effectiveProfile d o := by
  unfold chosenProfile at h
  unfold effectiveProfile
  split at h
  · rename_i hNone
    cases h
    rw [hNone, Option.bind_none, Option.none_or]
  · rename_i name hSome
    split at h
    · rename_i known hKnown
      cases h
      rw [hSome, Option.bind_some, hKnown, Option.some_or, Option.getD_some]
    · cases h

theorem chosenFailOn_eq_ok {d : Document} {o : Overrides} {failOn : Option FailOn}
    (h : chosenFailOn d o = .ok failOn) : failOn = (o.failOn.bind failOnOfName?).or d.failOn := by
  unfold chosenFailOn at h
  split at h
  · rename_i hNone
    cases h
    rw [hNone, Option.bind_none, Option.none_or]
  · rename_i name hSome
    split at h
    · rename_i known hKnown
      cases h
      rw [hSome, Option.bind_some, hKnown, Option.some_or]
    · cases h

/-- A rule under the settings of its check: what they leave open stays as it was, and the list of globs is
theirs. -/
def CheckSettings.settled (c : CheckSettings) (rule : Rule) : Rule where
  enabled := c.enabled.getD rule.enabled
  severity := c.severity.getD rule.severity
  allow := c.allow

theorem CheckSettings.apply_eq_settled (c : CheckSettings) {rule : Rule} (h : rule.allow = []) :
    c.apply rule = c.settled rule := by
  rw [apply, settled, h]
  split
  · rename_i hEmpty
    rw [List.isEmpty_iff.mp hEmpty]
  · rfl

/-- The plan is that of the effective profile, changed by the settings and these by the overrides. -/
structure Layers (d : Document) (o : Overrides) (plan : Plan) : Prop where
  profile : plan.profile = (effectiveProfile d o).name
  failOn : plan.failOn =
    ((o.failOn.bind failOnOfName?).or d.failOn).getD (preset (effectiveProfile d o)).failOn
  maxFindings : plan.maxFindings =
    (o.maxFindings.or d.maxFindings).getD (preset (effectiveProfile d o)).maxFindings
  names : plan.rules.names.Perm Check.allNames
  rule : ∀ check : Check, ∃ base, (preset (effectiveProfile d o)).rules.find? check.name = some base ∧
    plan.rules.find? check.name = some ((d.checks.lookup check.name).elim base fun c => c.settled base)

theorem failsFirst_resolve (d : Document) (o : Overrides) : FailsFirst (resolve d o) (faults d o) :=
  (failsFirst_chosenProfile d o).bind fun profile _ =>
    (failsFirst_applyChecks (names_preset profile) d.checks).bind fun _ _ => by
      rw [← List.append_nil (failOnFaults o)]
      exact (failsFirst_chosenFailOn d o).bind fun _ _ => failsFirst_ok _

theorem layers_of_resolve {d : Document} {o : Overrides} {plan : Plan}
    (hDistinct : (d.checks.map Prod.fst).Nodup) (h : resolve d o = .ok plan) : Layers d o plan := by
  obtain ⟨profile, hProfile, h⟩ := bind_eq_ok_iff.mp h
  obtain ⟨rules, hRules, h⟩ := bind_eq_ok_iff.mp h
  obtain ⟨failOn, hFailOn, h⟩ := bind_eq_ok_iff.mp h
  cases h
  obtain rfl := chosenProfile_eq_ok hProfile
  obtain rfl := chosenFailOn_eq_ok hFailOn
  exact {
    profile := rfl
    failOn := rfl
    maxFindings := rfl
    names := names_applyChecks (names_preset _) hRules ▸ orderedNames_perm
    rule := by
      intro check
      refine ⟨_, find?_preset _ check, ?_⟩
      rw [find?_applyChecks hDistinct hRules, find?_preset, Option.map_some]
      cases d.checks.lookup check.name with
      | none => rfl
      | some c => exact congrArg some (c.apply_eq_settled rfl) }

/-- Resolving settings fails with the first fault of all that is wrong with them. If nothing is wrong it yields
a plan with one rule for each check, in which an override wins over the settings file and that over the preset
of the profile. -/
theorem resolve_layers (d : Document) (o : Overrides) (hOrder : InByteOrder (d.checks.map Prod.fst)) :
    (∀ fault, resolve d o = .error fault ↔ (faults d o).head? = some fault) ∧
      (faults d o = [] → ∃ plan, resolve d o = .ok plan ∧ Layers d o plan) := by
  refine ⟨failsFirst_resolve d o, fun hNone => ?_⟩
  have hFails := failsFirst_resolve d o
  rw [hNone] at hFails
  obtain ⟨plan, hPlan⟩ := hFails.exists_ok
  exact ⟨plan, hPlan, layers_of_resolve hOrder.nodup hPlan⟩

/-- Settings for two checks, one of them with a list of globs. -/
def skipSettings (globs : List String) : Document where
  profile := some .warn
  maxFindings := some 5
  checks := [("bans.skip", { severity := some .info, allow := globs }),
    ("schema.unknown_key", { enabled := some false })]

theorem resolve_skipSettings :
    let settings := skipSettings ["windows-*"]
    let overrides : Overrides := { profile := some "compat" }
    (InByteOrder (settings.checks.map Prod.fst) ∧ faults settings overrides = []) ∧
    (∃ plan, resolve settings overrides = .ok plan ∧ Layers settings overrides plan ∧
      plan.profile = "compat" ∧ plan.maxFindings = 5 ∧
      plan.rules.find? "bans.skip" = some { severity := .info, allow := ["windows-*"] } ∧
      plan.rules.find? "licenses.clarify" = some { severity := .warning }) ∧
    resolve (skipSettings ["windows-*", "["]) { failOn := some "never" } =
      .error (.invalidGlob "bans.skip" "[" .unclosedClass) := by
  intro settings overrides
  have hOrder : ∀ globs, InByteOrder ((skipSettings globs).checks.map Prod.fst) := by
    intro globs
    exact (by decide : InByteOrder ["bans.skip", "schema.unknown_key"])
  have hNone : faults settings overrides = [] := by decide +kernel
  obtain ⟨plan, hPlan, hLayers⟩ := (resolve_layers _ _ (hOrder ["windows-*"])).2 hNone
  refine ⟨⟨hOrder _, hNone⟩, ⟨plan, hPlan, hLayers, hLayers.profile, hLayers.maxFindings, ?_, ?_⟩, ?_⟩
  · obtain ⟨base, hBase, hRule⟩ := hLayers.rule .skipEntries
    cases hBase.symm.trans (find?_preset .compat .skipEntries)
    exact hRule
  · obtain ⟨base, hBase, hRule⟩ := hLayers.rule .clarifications
    cases hBase.symm.trans (find?_preset .compat .clarifications)
    exact hRule
  · exact ((resolve_layers _ _ (hOrder ["windows-*", "["])).1 _).mpr (by decide +kernel)

end Settings

end PolicyLint
