import PolicyLint.Proofs.Lint.Advice
import PolicyLint.Proofs.Lint.Fingerprints
import PolicyLint.Proofs.Policy.IgnoredKeys
import PolicyLint.Proofs.Report.Tables
import PolicyLint.Report.Check

/-!
# The help in a report

A report in Markdown gives help once for each check and code: the help of the first finding of that kind. For
nearly all kinds this is the help of all their findings.
-/
namespace PolicyLint
open License Lint Policy Settings Text Time
set_option autoImplicit false

def Lint.Finding.kind (f : Finding) : String × String := (f.check, f.code)

namespace Report

def Hint.kind (h : Hint) : String × String := (h.check, h.code)

/-- A bullet without the end of its line. -/
def Hint.line (h : Hint) : String :=
  "- " ++ Report.code h.check ++ " / " ++ Report.code h.code ++ ": " ++ h.help

def twofoldKinds : List (String × String) := twofold.map fun (check, code) => (check.name, code.name)

/-- The help stands behind the table, one bullet for each kind that is listed, in the order in which the kinds are
met first. A bullet has the help of the first finding of its kind; where a kind has a single help text, that is the
help of all its findings. -/
structure ShowsHelp (r : Report) : Prop where
  none : r.findings = [] → r.markdown = r.heading ++ "No findings.\n"
  text : r.findings ≠ [] → r.markdown = r.heading ++ "## Findings\n\n" ++ r.table ++ "\n## How to fix\n\n" ++
    unlines (r.hints.map Hint.line)
  lines : ∀ hint ∈ r.hints, IsOneLine hint.line
  kinds : r.hints.map Hint.kind = (r.findings.map Finding.kind).eraseDups
  first : ∀ hint ∈ r.hints, ∃ before f after, r.findings = before ++ f :: after ∧ f.kind = hint.kind ∧
    f.help = some hint.help ∧ ∀ g ∈ before, g.kind ≠ hint.kind
  every : ∀ hint ∈ r.hints, ∀ f ∈ r.findings, f.kind = hint.kind → f.kind ∉ twofoldKinds →
    f.help = some hint.help

section

variable {seen : List (String × String)} {hs : List Hint} {h : Hint}

theorem firstHints_cons (seen : List (String × String)) (h : Hint) (hs : List Hint) :
    firstHints seen (h :: hs) =
      if h.kind ∈ seen then firstHints seen hs else h :: firstHints (h.kind :: seen) hs := by
  have hContains : seen.contains (h.check, h.code) = true ↔ h.kind ∈ seen := List.contains_iff_mem
  rw [firstHints]
  by_cases hSeen : h.kind ∈ seen
  · rw [if_pos hSeen, if_pos (hContains.mpr hSeen)]
  · rw [if_neg hSeen, if_neg (mt hContains.mp hSeen), Hint.kind]

/-- The kinds of the first hints are those that were not seen before, each once. -/
theorem map_kind_firstHints (seen : List (String × String)) (hs : List Hint) :
    (firstHints seen hs).map Hint.kind = ((hs.map Hint.kind).filter fun k => k ∉ seen).eraseDups := by
  induction hs generalizing seen with
  | nil => rfl
  | cons h hs ih =>
    rw [firstHints_cons, List.map_cons]
    split
    · rename_i hSeen
      rw [List.filter_cons_of_neg (by simpa using hSeen), ih]
    · rename_i hNew
      rw [List.filter_cons_of_pos (by simpa using hNew), List.map_cons, ih, List.eraseDups_cons, List.filter_filter]
      -- From here on the kind of the head is seen, too.
      congr 3
      funext k
      simp [Bool.beq_eq_decide_eq]

theorem kind_not_mem_of_mem_firstHints (h' : h ∈ firstHints seen hs) : h.kind ∉ seen := by
  have hKind : h.kind ∈ (firstHints seen hs).map Hint.kind := List.mem_map_of_mem h'
  rw [map_kind_firstHints, List.mem_eraseDups, List.mem_filter] at hKind
  simpa using hKind.2

theorem find?_of_mem_firstHints (h' : h ∈ firstHints seen hs) : (hs.find? fun a => a.kind = h.kind) = some h := by
  induction hs generalizing seen with
  | nil => cases h'
  | cons a hs ih =>
    have hSkip : ∀ seen', h ∈ firstHints seen' hs → a.kind ∈ seen' →
        ((a :: hs).find? fun b => b.kind = h.kind) = some h := by
      intro seen' hMem hSeen
      have hNe : a.kind ≠ h.kind := fun hSame => kind_not_mem_of_mem_firstHints hMem (hSame ▸ hSeen)
      rw [List.find?_cons_of_neg (by simp [hNe]), ih hMem]
    rw [firstHints_cons] at h'
    split at h'
    · rename_i hSeen
      exact hSkip seen h' hSeen
    · rcases List.mem_cons.mp h' with rfl | h'
      · exact List.find?_cons_of_pos (by simp)
      · exact hSkip _ h' List.mem_cons_self

end

/-- Each finding that is listed gives help in one line, and all of a kind with one help text give the same. -/
structure GivesHelp (r : Report) : Prop where
  registered : ∀ f ∈ r.findings, f.IsRegistered
  help : ∀ f ∈ r.findings, ∃ help, f.help = some help ∧ IsOneLine help
  same : ∀ f ∈ r.findings, ∀ g ∈ r.findings, f.kind = g.kind → f.kind ∉ twofoldKinds → f.help = g.help

def Hint.told (f : Finding) : Hint := ⟨f.check, f.code, f.help.getD ""⟩

namespace GivesHelp

variable {r : Report} (h : r.GivesHelp)

include h

theorem hints_eq : r.hints = firstHints [] (r.findings.map Hint.told) := by
  have hTold : r.findings.filterMap Hint.of = r.findings.filterMap (some ∘ Hint.told) := by
    apply List.filterMap_congr
    intro f hf
    obtain ⟨help, hHelp, -⟩ := h.help f hf
    simp [Hint.of, Hint.told, hHelp]
  rw [hints, hTold, List.filterMap_eq_map]

theorem kinds : r.hints.map Hint.kind = (r.findings.map Finding.kind).eraseDups := by
  rw [h.hints_eq, map_kind_firstHints, List.map_map]
  simp only [List.not_mem_nil, not_false_eq_true, decide_true, List.filter_true]
  rfl

theorem first {hint : Hint} (hHint : hint ∈ r.hints) : ∃ before f after, r.findings = before ++ f :: after ∧
    f.kind = hint.kind ∧ f.help = some hint.help ∧ ∀ g ∈ before, g.kind ≠ hint.kind := by
  rw [h.hints_eq] at hHint
  have hFirst := find?_of_mem_firstHints hHint
  rw [List.find?_map, Option.map_eq_some_iff] at hFirst
  obtain ⟨f, hFind, rfl⟩ := hFirst
  obtain ⟨hKind, before, after, hFindings, hBefore⟩ := List.find?_eq_some_iff_append.mp hFind
  obtain ⟨help, hHelp, -⟩ := h.help f (hFindings ▸ List.mem_append_right _ List.mem_cons_self)
  refine ⟨before, f, after, hFindings, rfl, by simp [Hint.told, hHelp], fun g hg => ?_⟩
  have hNot := hBefore g hg
  rw [Function.comp_apply, Bool.not_eq_true', decide_eq_false_iff_not] at hNot
  exact hNot

theorem exists_finding {hint : Hint} (hHint : hint ∈ r.hints) :
    ∃ f ∈ r.findings, f.kind = hint.kind ∧ f.help = some hint.help := by
  obtain ⟨before, f, after, hFindings, hKind, hHelp, -⟩ := h.first hHint
  exact ⟨f, hFindings ▸ List.mem_append_right _ List.mem_cons_self, hKind, hHelp⟩

theorem isOneLine {hint : Hint} (hHint : hint ∈ r.hints) : IsOneLine hint.line := by
  obtain ⟨f, hf, hKind, hHelp⟩ := h.exists_finding hHint
  obtain ⟨help, hSome, hLine⟩ := h.help f hf
  obtain rfl : help = hint.help := Option.some.inj (hSome.symm.trans hHelp)
  obtain ⟨hCheck, hCode⟩ : f.check = hint.check ∧ f.code = hint.code := Prod.mk.inj hKind
  have hNames := isOneLine_of_isPlain (isPlain_of_mem_kindText (h.registered f hf))
  rw [kindText, hCheck, hCode, isOneLine_append, isOneLine_append] at hNames
  have hStart : IsOneLine "- " := by decide
  have hColon : IsOneLine ": " := by decide
  simp only [Hint.line, isOneLine_append, hStart, hNames, hColon, hLine, and_self]

theorem helpSection_eq (hSome : r.findings ≠ []) :
    r.helpSection = "\n## How to fix\n\n" ++ unlines (r.hints.map Hint.line) := by
  have hHints : r.hints ≠ [] := by
    intro hNil
    obtain ⟨f, hf⟩ := List.exists_mem_of_ne_nil _ hSome
    have hKind : f.kind ∈ r.hints.map Hint.kind := by
      rw [h.kinds, List.mem_eraseDups]
      exact List.mem_map_of_mem hf
    rw [hNil] at hKind
    cases hKind
  rw [helpSection, if_neg (by simpa using hHints), unlines, List.map_map]
  rfl

theorem showsHelp : r.ShowsHelp where
  none := by
    intro hNone
    rw [markdown, hNone]
    rfl
  text := by
    intro hSome
    rw [markdown_eq hSome, h.helpSection_eq hSome, table_eq]
    simp only [String.append_assoc]
  lines := fun hint => h.isOneLine
  kinds := h.kinds
  first := fun hint => h.first
  every := by
    intro hint hHint f hf hKind hOne
    obtain ⟨g, hg, hFirst, hHelp⟩ := h.exists_finding hHint
    rw [h.same f hf g hg (hKind.trans hFirst.symm) hOne, hHelp]

end GivesHelp

theorem mem_twofoldKinds_iff {check : Check} {code : Code} :
    (check.name, code.name) ∈ twofoldKinds ↔ (check, code) ∈ twofold := by
  rw [twofoldKinds, List.mem_map]
  constructor
  · rintro ⟨⟨check', code'⟩, hMem, hNames⟩
    obtain ⟨hCheck, hCode⟩ := Prod.mk.inj hNames
    rwa [← Check.name_injective hCheck, ← Code.name_injective hCode]
  · intro hMem
    exact ⟨_, hMem, rfl⟩

theorem givesHelp_ofEvaluation (run : RunTimes) (m : Model) (plan : Plan) :
    (ofEvaluation run (evaluate m plan)).GivesHelp := by
  have hOrigin : ∀ f ∈ (ofEvaluation run (evaluate m plan)).findings, ∃ check, ∃ rule ∈ plan.rule? check,
      ∃ i ∈ check.issues m (Glob.anyMatches rule.allow), i.finding check rule.severity m.path = f :=
    fun f hf => mem_findingsOf_iff.mp (mem_findingsOf_of_mem_findings hf)
  constructor
  · intro f hf
    obtain ⟨check, rule, -, i, -, rfl⟩ := hOrigin f hf
    exact ⟨List.mem_cons_of_mem _ (List.mem_map_of_mem check.mem_all),
      List.mem_cons_of_mem _ (List.mem_cons_of_mem _ (List.mem_map_of_mem i.code.mem_all))⟩
  · intro f hf
    obtain ⟨check, rule, -, i, hi, rfl⟩ := hOrigin f hf
    exact ⟨i.help, rfl, check.isOneLine_advice i.code _ (Check.help_mem hi)⟩
  · intro f hf g hg hKind hOne
    obtain ⟨check, rule, hRule, i, hi, rfl⟩ := hOrigin f hf
    obtain ⟨check', rule', hRule', j, hj, rfl⟩ := hOrigin g hg
    obtain ⟨hCheck, hCode⟩ := Prod.mk.inj hKind
    obtain rfl := Check.name_injective hCheck
    obtain rfl : rule = rule' := Option.some.inj (hRule.symm.trans hRule')
    have hNot : (check, i.code) ∉ twofold := mt mem_twofoldKinds_iff.mpr hOne
    exact congrArg some (Check.help_eq hi hj (Code.name_injective hCode) hNot)

theorem givesHelp_policyFailure (now : Stamp) (path : FilePath) (profile : String) (line : Option Nat)
    (message : String) : (policyFailure now path profile line message).GivesHelp := by
  constructor
  · exact isRegistered_policyFailure now path profile line message
  · intro f hf
    obtain rfl := List.mem_singleton.mp hf
    exact ⟨_, rfl, by decide⟩
  · intro f hf g hg _ _
    rw [List.mem_singleton.mp hf, List.mem_singleton.mp hg]

/-- The report of every check shows the help of the findings that it lists. -/
theorem showsHelp_check {started finished : Stamp} {path : FilePath} {policy settings : String}
    {overrides : Overrides} {r : Report}
    (h : check started finished path policy settings overrides = .ok r) : r.ShowsHelp := by
  rw [check, Outcome.map_eq_ok_iff] at h
  obtain ⟨plan, -, rfl⟩ := h
  cases Model.ofSource path policy with
  | ok m => exact (givesHelp_ofEvaluation _ m plan).showsHelp
  | error fault => exact (givesHelp_policyFailure _ _ _ _ _).showsHelp

/-- A license that is allowed twice, and one that is allowed and denied. -/
def disputedPolicy : String := "licenses=\x7ballow=['ISC','ISC','MIT'],deny=['MIT']\x7d"

def disputedTree : Toml.Node :=
  .table ⟨0, 49⟩ .header [(⟨"licenses", ⟨0, 8⟩⟩, .table ⟨9, 49⟩ .inline
    [(⟨"allow", ⟨10, 15⟩⟩, .array ⟨16, 35⟩ false
        [.string ⟨17, 22⟩ "ISC", .string ⟨23, 28⟩ "ISC", .string ⟨29, 34⟩ "MIT"]),
      (⟨"deny", ⟨36, 40⟩⟩, .array ⟨41, 48⟩ false [.string ⟨42, 47⟩ "MIT"])])]

def disputedModel : Model where
  path := .default
  document := { licenses := some {
    allow := [⟨"ISC", ⟨17, 22⟩⟩, ⟨"ISC", ⟨23, 28⟩⟩, ⟨"MIT", ⟨29, 34⟩⟩]
    deny := [⟨"MIT", ⟨42, 47⟩⟩] } }
  unknownKeys := []
  source := disputedPolicy

set_option maxRecDepth 20000 in
theorem readsTree_disputedPolicy : ReadsTree disputedPolicy disputedTree := ⟨by decide, by cbv⟩

theorem ofSource_disputedPolicy : Model.ofSource .default disputedPolicy = .ok disputedModel := by
  have hLoad : Policy.load disputedPolicy = .ok disputedModel.document := by
    rw [Policy.load, readsTree_disputedPolicy.1, readsTree_disputedPolicy.2]
    decide +kernel
  have hKeys : unknownKeys disputedPolicy = [] := by
    rw [unknownKeys, readsTree_disputedPolicy.2]
    decide +kernel
  rw [Model.ofSource, hLoad, hKeys]
  rfl

def disputedIssues : List Issue :=
  [LicenseLists.duplicate disputedModel ⟨.allow, ⟨"ISC", ⟨23, 28⟩⟩⟩ ⟨"ISC", false, none⟩ .allow,
    LicenseLists.duplicate disputedModel ⟨.deny, ⟨"MIT", ⟨42, 47⟩⟩⟩ ⟨"MIT", false, none⟩ .allow]

def disputedFindings : List Finding := disputedIssues.map (Issue.finding .licenseLists .error .default)

theorem issues_disputedModel : LicenseLists.issues disputedModel (Glob.anyMatches []) = disputedIssues := by
  have hIsc : Requirement.parse "ISC" = .ok ⟨"ISC", false, none⟩ := by decide +kernel
  have hMit : Requirement.parse "MIT" = .ok ⟨"MIT", false, none⟩ := by decide +kernel
  simp only [LicenseLists.issues, anyMatches_nil, LicenseLists.Entry.isAllowed, Bool.not_false, List.filter_true]
  simp [LicenseLists.entries, disputedModel, Model.licenses, LicenseLists.walk, hIsc, hMit, Requirement.render,
    List.lookup, disputedIssues]

theorem findings_disputedModel :
    (evaluate disputedModel (preset .strict)).findings = disputedFindings := by
  have hAll : findingsOf disputedModel (preset .strict) Check.all = disputedFindings := by
    have hLists : Check.licenseLists.findings disputedModel (preset .strict) = disputedFindings :=
      congrArg (List.map (Issue.finding .licenseLists .error .default)) issues_disputedModel
    have hOthers : findingsOf disputedModel (preset .strict) Check.all.tail = [] := rfl
    exact (congrArg₂ (· ++ ·) hLists hOthers).trans (List.append_nil _)
  have hOrder : disputedFindings.Pairwise fun a b => a.notAfter b = true := by
    decide +kernel
  rw [evaluate, evaluateChecks, hAll, sortFindings, List.mergeSort_of_pairwise hOrder]
  rfl

def disputedReport : Report :=
  .ofEvaluation (.between (.ofEpoch 0 0) (.ofEpoch 1 0)) (evaluate disputedModel (preset .strict))

theorem check_disputedPolicy :
    check (.ofEpoch 0 0) (.ofEpoch 1 0) .default disputedPolicy "" {} = .ok disputedReport := by
  have hPlan : planOf "" {} = .ok (preset .strict) := rfl
  rw [check, hPlan, Except.map, ofSource_disputedPolicy]
  rfl

theorem hints_disputedReport : disputedReport.hints =
    [⟨"licenses.allow_identifiers", "duplicate_license", "Remove the duplicate entry."⟩] := by
  have hFindings : disputedReport.findings = disputedFindings := findings_disputedModel
  rw [hints, hFindings]
  rfl

theorem showsHelp_disputedReport :
    check (.ofEpoch 0 0) (.ofEpoch 1 0) .default disputedPolicy "" {} = .ok disputedReport ∧
    disputedReport.ShowsHelp ∧ disputedReport.findings.length = 2 ∧
    disputedReport.hints.map Hint.line =
      ["- `licenses.allow_identifiers` / `duplicate_license`: Remove the duplicate entry."] := by
  have hFindings : disputedReport.findings = disputedFindings := findings_disputedModel
  refine ⟨check_disputedPolicy, showsHelp_check check_disputedPolicy, by rw [hFindings]; rfl, ?_⟩
  rw [hints_disputedReport]
  rfl

/-- The help of the license in both lists is nowhere among the bullets. -/
theorem not_shown_disputedReport :
    check (.ofEpoch 0 0) (.ofEpoch 1 0) .default disputedPolicy "" {} = .ok disputedReport ∧
    ∃ f ∈ disputedReport.findings, f.help = some "Keep each license in exactly one of `allow` or `deny`." ∧
      ∀ hint ∈ disputedReport.hints,
        ¬"Keep each license in exactly one of `allow` or `deny`.".toList <:+: hint.line.toList := by
  refine ⟨check_disputedPolicy, ?_⟩
  have hFindings : disputedReport.findings = disputedFindings := findings_disputedModel
  rw [hFindings, hints_disputedReport]
  refine ⟨_, List.mem_cons_of_mem _ List.mem_cons_self, rfl, ?_⟩
  rw [List.forall_mem_singleton]
  decide +kernel

end Report

end PolicyLint
