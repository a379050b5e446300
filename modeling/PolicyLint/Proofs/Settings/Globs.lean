import PolicyLint.Proofs.Glob.Effects
import PolicyLint.Proofs.Glob.Literals
import PolicyLint.Proofs.Settings.Layers

/-!
# The globs that are read are the globs in use

Resolving settings reads every glob that they list for a check. The rule of the check has these very globs, and it
matches a text if and only if one of them does, provided that all of them can be compiled. Reading does not ask for
this: a glob that nests too deeply is accepted, and leaves the others without effect.
-/
namespace PolicyLint.Settings
open Lint Outcome
set_option autoImplicit false

/-- The globs that settings list for a check. -/
def Document.globs (d : Document) (check : Check) : List String :=
  (d.checks.lookup check.name).elim [] CheckSettings.allow

theorem globFaults_eq_nil_iff {check : String} {globs : List String} :
    globFaults check globs = [] ↔ ∀ glob ∈ globs, ∃ p, Glob.parse glob = .ok p := by
  rw [globFaults, List.filterMap_eq_nil_iff]
  apply forall₂_congr
  intro glob _
  cases Glob.parse glob <;> simp

theorem exists_parse_of_resolve {d : Document} {o : Overrides} {plan : Plan} (h : resolve d o = .ok plan)
    (check : Check) : ∀ glob ∈ d.globs check, ∃ p, Glob.parse glob = .ok p := by
  have hNone : faults d o = [] := (failsFirst_resolve d o).eq_nil h
  rw [faults, List.append_eq_nil_iff, List.append_eq_nil_iff, List.flatMap_eq_nil_iff] at hNone
  rw [Document.globs]
  cases hCheck : d.checks.lookup check.name with
  | none => simp
  | some settings =>
    obtain ⟨before, after, hChecks, -⟩ := List.lookup_eq_some_iff.mp hCheck
    have hMem : (check.name, settings) ∈ d.checks := hChecks ▸ List.mem_append_right _ List.mem_cons_self
    exact globFaults_eq_nil_iff.mp (List.append_eq_nil_iff.mp (hNone.2.1 _ hMem)).2

theorem exists_rule_of_resolve {d : Document} {o : Overrides} {plan : Plan}
    (hOrder : InByteOrder (d.checks.map Prod.fst)) (h : resolve d o = .ok plan) (check : Check) :
    ∃ rule, plan.rules.find? check.name = some rule ∧ rule.allow = d.globs check := by
  obtain ⟨base, hBase, hRule⟩ := (layers_of_resolve hOrder.nodup h).rule check
  refine ⟨_, hRule, ?_⟩
  -- A preset has no globs of its own.
  cases hBase.symm.trans (find?_preset _ check)
  rw [Document.globs]
  cases d.checks.lookup check.name <;> rfl

/-- A check passes over the texts that one of its listed globs matches, if all of these can be compiled; of a list
with a glob that cannot, none has an effect. -/
theorem anyMatches_of_resolve {d : Document} {o : Overrides} {plan : Plan}
    (hOrder : InByteOrder (d.checks.map Prod.fst)) (h : resolve d o = .ok plan) (check : Check) :
    ∃ rule patterns, plan.rules.find? check.name = some rule ∧ rule.allow = d.globs check ∧
      Glob.Reads (d.globs check) patterns ∧
      ∀ text, Glob.anyMatches rule.allow text = true ↔
        (∀ p ∈ patterns, p.isShallow = true) ∧ ∃ p ∈ patterns, p.matchesBytes text.toUTF8.toList = true := by
  obtain ⟨patterns, hReads⟩ := Glob.exists_reads (exists_parse_of_resolve h check)
  obtain ⟨rule, hRule, hAllow⟩ := exists_rule_of_resolve hOrder h check
  exact ⟨rule, patterns, hRule, hAllow, hReads, hAllow ▸ hReads.anyMatches_iff⟩

theorem exists_resolve_skipSettings {globs : List String} (h : ∀ glob ∈ globs, ∃ p, Glob.parse glob = .ok p) :
    InByteOrder ((skipSettings globs).checks.map Prod.fst) ∧ ∃ plan, resolve (skipSettings globs) {} = .ok plan := by
  have hOrder : InByteOrder ((skipSettings globs).checks.map Prod.fst) :=
    (by decide : InByteOrder ["bans.skip", "schema.unknown_key"])
  have hNone : faults (skipSettings globs) {} = [] := by
    have hGlobs : globFaults "bans.skip" globs = [] := globFaults_eq_nil_iff.mpr h
    simp only [faults, skipSettings, List.flatMap_cons, entryFaults, hGlobs]
    decide
  obtain ⟨plan, hPlan, -⟩ := (resolve_layers _ _ hOrder).2 hNone
  exact ⟨hOrder, plan, hPlan⟩

theorem anyMatches_skipSettings :
    let settings := skipSettings ["windows-*", "ring"]
    InByteOrder (settings.checks.map Prod.fst) ∧
    ∃ plan rule patterns, resolve settings {} = .ok plan ∧ plan.rules.find? "bans.skip" = some rule ∧
      rule.allow = ["windows-*", "ring"] ∧ Glob.Reads ["windows-*", "ring"] patterns ∧
      (∀ text, Glob.anyMatches rule.allow text = true ↔
        (∀ p ∈ patterns, p.isShallow = true) ∧ ∃ p ∈ patterns, p.matchesBytes text.toUTF8.toList = true) ∧
      Glob.anyMatches rule.allow "windows-sys" = true ∧ Glob.anyMatches rule.allow "rings" = false := by
  intro settings
  have hOrder : InByteOrder (settings.checks.map Prod.fst) :=
    (by decide : InByteOrder ["bans.skip", "schema.unknown_key"])
  obtain ⟨plan, hPlan, -⟩ := (resolve_layers settings {} hOrder).2 (by decide +kernel)
  obtain ⟨rule, patterns, hRule, hAllow, hReads, hMatches⟩ := anyMatches_of_resolve hOrder hPlan .skipEntries
  refine ⟨hOrder, plan, rule, patterns, hPlan, hRule, hAllow, hReads, hMatches, ?_, ?_⟩
  · rw [hAllow]
    decide +kernel
  · rw [hAllow]
    decide +kernel

/-- A glob for one name is accepted beside one that nests too deeply, and the name is not passed over. -/
theorem not_anyMatches_nested :
    let settings := skipSettings [Glob.nested 400, "b"]
    InByteOrder (settings.checks.map Prod.fst) ∧
    ∃ plan rule, resolve settings {} = .ok plan ∧ plan.rules.find? "bans.skip" = some rule ∧
      ¬(Glob.anyMatches rule.allow "b" = true ↔
        ∃ glob ∈ settings.globs .skipEntries, Glob.matchesText glob "b" = true) := by
  intro settings
  have hDeep : Glob.isShallow (Glob.nested 400) = false := by
    rw [Bool.eq_false_iff, Ne, Glob.isShallow_nested_iff]
    decide
  have hParse : ∀ glob ∈ [Glob.nested 400, "b"], ∃ p, Glob.parse glob = .ok p := by
    simp only [List.forall_mem_cons, Glob.parse_nested]
    exact ⟨⟨_, rfl⟩, ⟨_, Glob.parse_escaped "b"⟩, by simp⟩
  obtain ⟨hOrder, plan, hPlan⟩ := exists_resolve_skipSettings hParse
  obtain ⟨rule, hRule, hAllow⟩ := exists_rule_of_resolve hOrder hPlan .skipEntries
  refine ⟨hOrder, plan, rule, hPlan, hRule, fun hIff => ?_⟩
  have hMem : Glob.nested 400 ∈ rule.allow := hAllow ▸ List.mem_cons_self
  have hNone := Glob.anyMatches_of_not_isShallow hMem hDeep
  have hOne := hIff.mpr ⟨"b", List.mem_cons_of_mem _ List.mem_cons_self, by decide +kernel⟩
  rw [hNone] at hOne
  cases hOne

end PolicyLint.Settings
