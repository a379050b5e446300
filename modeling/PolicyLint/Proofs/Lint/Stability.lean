import PolicyLint.Proofs.Lint.Entries
import PolicyLint.Proofs.Lint.Independence
import PolicyLint.Proofs.Lint.Walks

/-!
# Stable fingerprints

The checks on lists go from entry to entry, so each of their findings is due to one entry. Apart from
duplicates, the findings due to an entry keep their codes and fingerprints when the policy changes elsewhere:
the code and the subject of each are told by the values of the entry.
-/
namespace PolicyLint.Lint
open Text Policy License
set_option autoImplicit false

/-- The checks that go through entries. -/
inductive ListCheck where
  | licenseLists | exceptions | clarifications | skipEntries
  deriving DecidableEq, Repr

namespace ListCheck

def check : ListCheck → Check
  | licenseLists => .licenseLists
  | exceptions => .exceptions
  | clarifications => .clarifications
  | skipEntries => .skipEntries

/-- Entries as a check meets them: they know their list, and where it matters their position. -/
def Entry : ListCheck → Type
  | licenseLists => LicenseLists.Entry
  | exceptions => Exception × Nat
  | clarifications => Clarification × Nat
  | skipEntries => SkipEntries.Entry

def entries (m : Model) : (c : ListCheck) → List c.Entry
  | licenseLists => LicenseLists.entries m.licenses
  | exceptions => m.licenses.exceptions.zipIdx
  | clarifications => m.licenses.clarify.zipIdx
  | skipEntries => SkipEntries.entries m.bans

def isPassedOver (allowed : String → Bool) : (c : ListCheck) → c.Entry → Bool
  | licenseLists, e => LicenseLists.Entry.isAllowed allowed e
  | exceptions, (e, _) => allowsPackage allowed e.name
  | clarifications, (e, _) => allowsPackage allowed e.name
  | skipEntries, e => allowsPackage allowed (SkipEntries.Entry.name e)

/-- What a check says of entries when it has come past others. -/
def issuesAfter (m : Model) : (c : ListCheck) → List c.Entry → List c.Entry → List Issue
  | licenseLists, before, es => LicenseLists.walk m (before.foldl LicenseLists.remember []) es
  | exceptions, before, es => Exceptions.walk m (before.foldl Exceptions.remember []) es
  | clarifications, _, es => es.flatMap fun (e, index) => Clarifications.Placed.issues m ⟨index, e⟩
  | skipEntries, before, es => SkipEntries.walk m (before.foldl SkipEntries.remember []) es

theorem issuesAfter_append (m : Model) (c : ListCheck) (before es es' : List c.Entry) :
    c.issuesAfter m before (es ++ es') = c.issuesAfter m before es ++ c.issuesAfter m (before ++ es) es' := by
  cases c with
  | licenseLists => exact (LicenseLists.isSequential_walk m).append_after [] before es es'
  | exceptions => exact (Exceptions.isSequential_walk m).append_after [] before es es'
  | clarifications => exact List.flatMap_append
  | skipEntries => exact (SkipEntries.isSequential_walk m).append_after [] before es es'

theorem issuesAfter_nil (m : Model) (c : ListCheck) (before : List c.Entry) : c.issuesAfter m before [] = [] := by
  cases c <;> rfl

theorem issues_eq (m : Model) (allowed : String → Bool) (c : ListCheck) :
    c.check.issues m allowed = c.issuesAfter m [] ((c.entries m).filter fun e => !c.isPassedOver allowed e) := by
  cases c <;> rfl

/-- What a check says of the entry at a position, when it has come past the entries before it. -/
def issuesAt (m : Model) (allowed : String → Bool) (c : ListCheck) (k : Nat) : List Issue :=
  c.issuesAfter m (((c.entries m).take k).filter fun e => !c.isPassedOver allowed e)
    ((c.entries m)[k]?.toList.filter fun e => !c.isPassedOver allowed e)

theorem issuesAfter_take (m : Model) (allowed : String → Bool) (c : ListCheck) (n : Nat) :
    c.issuesAfter m [] (((c.entries m).take n).filter fun e => !c.isPassedOver allowed e) =
      (List.range n).flatMap (c.issuesAt m allowed) := by
  induction n with
  | zero => exact c.issuesAfter_nil m []
  | succ n ih =>
    rw [List.take_add_one, List.filter_append, issuesAfter_append, ih, List.range_succ, List.flatMap_append,
      List.flatMap_singleton, List.nil_append, issuesAt]

/-- All that a check says is said of one entry after another. -/
theorem issues_eq_flatMap_issuesAt (m : Model) (allowed : String → Bool) (c : ListCheck) :
    c.check.issues m allowed = (List.range (c.entries m).length).flatMap (c.issuesAt m allowed) := by
  rw [issues_eq, ← issuesAfter_take, List.take_length]

/-- The findings due to the entry at a position. -/
def findingsAt (m : Model) (plan : Plan) (c : ListCheck) (k : Nat) : List Finding :=
  match plan.rule? c.check with
  | some rule =>
    (c.issuesAt m (Glob.anyMatches rule.allow) k).map (Issue.finding c.check rule.severity m.path)
  | none => []

/-- Each finding of the check is due to one entry. -/
theorem findings_eq_flatMap_findingsAt (m : Model) (plan : Plan) (c : ListCheck) :
    c.check.findings m plan = (List.range (c.entries m).length).flatMap (c.findingsAt m plan) := by
  unfold Check.findings findingsAt
  cases plan.rule? c.check with
  | none => simp
  | some rule => simp only [issues_eq_flatMap_issuesAt, List.map_flatMap]

end ListCheck

def Code.isDuplicate : Code → Bool
  | duplicateLicense | duplicateException | duplicateSkip => true
  | _ => false

/-- The codes and subjects of issues that no other entry has a part in. -/
def lastingMarks (is : List Issue) : List (Code × String) :=
  (is.filter fun i => !i.code.isDuplicate).map fun i => (i.code, i.subject)

theorem lastingMarks_append (is js : List Issue) :
    lastingMarks (is ++ js) = lastingMarks is ++ lastingMarks js := by
  rw [lastingMarks, List.filter_append, List.map_append, lastingMarks, lastingMarks]

def licenseMarks (owner license : String) : List (Code × String) :=
  match Requirement.parse license with
  | .ok _ => []
  | .error _ => [(.invalidLicenseId, owner ++ ":" ++ license)]

def versionMarks (subject : String) (version : Option String) : List (Code × String) :=
  match version.bind versionFault with
  | none => []
  | some _ => [(.invalidVersion, subject)]

def valueOf (s : Option (Spanned String)) : Option String := s.map Spanned.value

def trimmedText (name : Option String) : String := (name.map trim).getD ""

def shownText (name version : Option String) : String := packageText (trimmedText name) (version.map trim)

theorem eq_trimmedText_of_packageName {name : Option (Spanned String)} {n : String}
    (h : packageName name = some n) : n = trimmedText (valueOf name) := by
  rw [eq_trimmed_of_packageName h, trimmed, trimmedText, valueOf, Option.map_map]
  rfl

theorem trimmedVersion_eq (version : Option (Spanned String)) :
    trimmedVersion version = (valueOf version).map trim := by
  rw [trimmedVersion, valueOf, Option.map_map]
  rfl

theorem LicenseLists.lastingMarks_walk (m : Model) (seen : Seen) (e : Entry) :
    lastingMarks (walk m seen [e]) = licenseMarks e.list.text e.license.value := by
  rw [walk, licenseMarks]
  cases Requirement.parse e.license.value with
  | error fault => rfl
  | ok license =>
    -- A license that is listed already gives a duplicate, a new one nothing.
    cases hSeen : seen.lookup license.render <;> simp [hSeen, walk, lastingMarks, duplicate, Code.isDuplicate]

namespace Exceptions.Named

theorem lastingMarks_invalidVersion (m : Model) (e : Named) :
    lastingMarks (e.invalidVersion m) = versionMarks e.shown e.version := by
  rw [invalidVersion, versionMarks, version, trimmedVersion]
  cases e.entry.version with
  | none => rfl
  | some version =>
    simp only [Option.map_some, Option.bind_some]
    cases versionFault (trim version.value) <;> rfl

theorem lastingMarks_emptyAllow (m : Model) (e : Named) :
    lastingMarks (e.emptyAllow m) = if e.entry.allow.isEmpty then [(.emptyAllow, e.shown)] else [] := by
  rw [emptyAllow]
  split <;> rfl

theorem lastingMarks_invalidLicenses (m : Model) (e : Named) (licenses : List (Spanned String)) :
    lastingMarks (licenses.filterMap (e.invalidLicense m)) =
      (licenses.map Spanned.value).flatMap (licenseMarks e.shown) := by
  induction licenses with
  | nil => rfl
  | cons license licenses ih =>
    rw [List.map_cons, List.flatMap_cons, ← ih, licenseMarks, List.filterMap_cons, invalidLicense]
    cases Requirement.parse license.value <;> rfl

theorem lastingMarks_issues (m : Model) (again : Bool) (e : Named) :
    lastingMarks (e.issues m again) = versionMarks e.shown e.version ++
      (if e.entry.allow.isEmpty then [(.emptyAllow, e.shown)] else []) ++
      (e.entry.allow.map Spanned.value).flatMap (licenseMarks e.shown) := by
  -- Only here the exceptions before `e` have a say, and a duplicate leaves no mark.
  have hAgain : lastingMarks (if again then [e.duplicate m] else []) = [] := by
    cases again <;> rfl
  rw [issues, lastingMarks_append, lastingMarks_append, lastingMarks_append, hAgain, List.append_nil,
    lastingMarks_invalidVersion, lastingMarks_emptyAllow, lastingMarks_invalidLicenses]

end Exceptions.Named

def expressionMarks (subject : String) : Option String → List (Code × String)
  | none => [(.invalidExpression, subject)]
  | some expression =>
    match Expr.parse expression with
    | .ok _ => []
    | .error _ => [(.invalidExpression, subject)]

def fileMarks (subject : String) (file : String × Int) : List (Code × String) :=
  match Clarifications.problemOf file.1 file.2 with
  | none => []
  | some _ => [(.invalidLicenseFile, subject)]

namespace Clarifications.Placed

theorem lastingMarks_versionIssues (m : Model) (c : Placed) :
    lastingMarks (c.versionIssues m) = versionMarks c.subject (valueOf c.entry.version) := by
  rw [versionIssues, versionMarks, valueOf]
  cases c.entry.version with
  | none => rfl
  | some version =>
    simp only [Option.map_some, Option.bind_some]
    cases versionFault version.value <;> rfl

theorem lastingMarks_expressionIssues (m : Model) (c : Placed) :
    lastingMarks (c.expressionIssues m) = expressionMarks c.subject (valueOf c.entry.expression) := by
  rw [expressionIssues, valueOf]
  cases c.entry.expression with
  | none => rfl
  | some expression =>
    simp only [Option.map_some, expressionMarks]
    cases Expr.parse expression.value <;> rfl

theorem lastingMarks_noFilesIssues (m : Model) (c : Placed) : lastingMarks (c.noFilesIssues m) =
    if c.entry.licenseFiles.isEmpty then [(.missingLicenseFiles, c.subject)] else [] := by
  rw [noFilesIssues]
  split <;> rfl

theorem lastingMarks_fileIssues (m : Model) (c : Placed) (files : List LicenseFile) :
    lastingMarks (files.filterMap (c.fileIssue m)) =
      (files.map fun f => (f.path.value, f.hash.value)).flatMap (fileMarks c.subject) := by
  induction files with
  | nil => rfl
  | cons file files ih =>
    rw [List.map_cons, List.flatMap_cons, ← ih, fileMarks, List.filterMap_cons, fileIssue, fileProblem]
    cases problemOf file.path.value file.hash.value <;> rfl

theorem lastingMarks_issues (m : Model) {c : Placed} {name : String} (h : packageName c.entry.name = some name) :
    lastingMarks (c.issues m) = versionMarks name (valueOf c.entry.version) ++
      expressionMarks name (valueOf c.entry.expression) ++
      (if c.entry.licenseFiles.isEmpty then [(.missingLicenseFiles, name)] else []) ++
      (c.entry.licenseFiles.map fun f => (f.path.value, f.hash.value)).flatMap (fileMarks name) := by
  have hName : c.nameIssues m = [] := by
    rw [nameIssues, h]
  have hSubject : c.subject = name := by
    rw [subject, h, Option.getD_some]
  rw [issues, hName, List.nil_append, lastingMarks_append, lastingMarks_append, lastingMarks_append,
    lastingMarks_versionIssues, lastingMarks_expressionIssues, lastingMarks_noFilesIssues,
    lastingMarks_fileIssues, hSubject]

end Clarifications.Placed

namespace SkipEntries

theorem Entry.lastingMarks_invalidVersion (m : Model) (e : Entry) (name : String) :
    lastingMarks (e.invalidVersion m name) = versionMarks (e.subject name) e.trimmed := by
  rw [invalidVersion, versionMarks, trimmed, trimmedVersion]
  cases e.version with
  | none => rfl
  | some version =>
    simp only [Option.map_some, Option.bind_some]
    cases versionFault (trim version.value) <;> rfl

theorem lastingMarks_walk (m : Model) (seen : Seen) {e : Entry} {name : String}
    (h : packageName e.name = some name) :
    lastingMarks (walk m seen [e]) = versionMarks (e.subject name) e.trimmed := by
  have hAgain : ∀ again : Bool, lastingMarks (if again then [e.duplicate m name] else []) = [] := by
    intro again
    cases again <;> rfl
  rw [walk_named h, lastingMarks_append, hAgain, List.append_nil, Entry.lastingMarks_invalidVersion]

end SkipEntries

namespace ListCheck

/-- The values of an entry and the list it stands in, without places and position. -/
def Values : ListCheck → Type
  | licenseLists => LicenseLists.ListName × String
  | exceptions => Option String × Option String × List String
  | clarifications => Option String × Option String × Option String × List (String × Int)
  | skipEntries => SkipEntries.ListName × Option String × Option String

def values : (c : ListCheck) → c.Entry → c.Values
  | licenseLists, (e : LicenseLists.Entry) => (e.list, e.license.value)
  | exceptions, (e, _) => (valueOf e.name, valueOf e.version, e.allow.map Spanned.value)
  | clarifications, (e, _) =>
    (valueOf e.name, valueOf e.version, valueOf e.expression,
      e.licenseFiles.map fun f => (f.path.value, f.hash.value))
  | skipEntries, (e : SkipEntries.Entry) => (e.list, valueOf e.name, valueOf e.version)

/-- An entry names its package; a license needs no name. -/
def IsNamed : (c : ListCheck) → c.Entry → Prop
  | licenseLists, _ => True
  | exceptions, (e, _) => packageName e.name ≠ none
  | clarifications, (e, _) => packageName e.name ≠ none
  | skipEntries, (e : SkipEntries.Entry) => packageName e.name ≠ none

/-- What the codes and subjects of a named entry are made of: its values. -/
def marks : (c : ListCheck) → c.Values → List (Code × String)
  | licenseLists, (list, license) => licenseMarks list.text license
  | exceptions, (name, version, allow) =>
    versionMarks (shownText name version) (version.map trim) ++
      (if allow.isEmpty then [(.emptyAllow, shownText name version)] else []) ++
      allow.flatMap (licenseMarks (shownText name version))
  | clarifications, (name, version, expression, files) =>
    versionMarks (trimmedText name) version ++ expressionMarks (trimmedText name) expression ++
      (if files.isEmpty then [(.missingLicenseFiles, trimmedText name)] else []) ++
      files.flatMap (fileMarks (trimmedText name))
  | skipEntries, (list, name, version) =>
    versionMarks (list.text ++ ":" ++ shownText name version) (version.map trim)

theorem lastingMarks_issuesAfter (m : Model) (c : ListCheck) (before : List c.Entry) {e : c.Entry}
    (h : c.IsNamed e) : lastingMarks (c.issuesAfter m before [e]) = c.marks (c.values e) := by
  cases c with
  | licenseLists => exact LicenseLists.lastingMarks_walk m _ e
  | exceptions =>
    obtain ⟨e, index⟩ := e
    obtain ⟨name, hName⟩ := Option.ne_none_iff_exists'.mp h
    change lastingMarks (Exceptions.walk m _ [(e, index)]) = _
    rw [Exceptions.walk_named hName, Exceptions.Named.lastingMarks_issues]
    simp only [marks, values, shownText, List.isEmpty_map, Exceptions.Named.shown, Exceptions.Named.version,
      trimmedVersion_eq, ← eq_trimmedText_of_packageName hName]
  | clarifications =>
    obtain ⟨e, index⟩ := e
    obtain ⟨name, hName⟩ := Option.ne_none_iff_exists'.mp h
    change lastingMarks (Clarifications.Placed.issues m ⟨index, e⟩ ++ []) = _
    rw [List.append_nil, Clarifications.Placed.lastingMarks_issues m hName]
    simp only [marks, values, List.isEmpty_map, ← eq_trimmedText_of_packageName hName]
  | skipEntries =>
    obtain ⟨name, hName⟩ := Option.ne_none_iff_exists'.mp h
    change lastingMarks (SkipEntries.walk m _ [e]) = _
    rw [SkipEntries.lastingMarks_walk m _ hName]
    simp only [marks, values, shownText, SkipEntries.Entry.subject, SkipEntries.Entry.shown,
      SkipEntries.Entry.trimmed, trimmedVersion_eq, ← eq_trimmedText_of_packageName hName]

/-- A named entry at its position, in a run that checks it. -/
structure IsChecked (m : Model) (plan : Plan) (c : ListCheck) (k : Nat) (e : c.Entry) : Prop where
  stands : (c.entries m)[k]? = some e
  named : c.IsNamed e
  checked : ∃ rule ∈ plan.rule? c.check, c.isPassedOver (Glob.anyMatches rule.allow) e = false

theorem IsChecked.exists_findingsAt_eq {m : Model} {plan : Plan} {c : ListCheck} {k : Nat} {e : c.Entry}
    (h : IsChecked m plan c k e) : ∃ severity before,
      c.findingsAt m plan k = (c.issuesAfter m before [e]).map (Issue.finding c.check severity m.path) := by
  obtain ⟨rule, hRule, hChecked⟩ := h.checked
  refine ⟨rule.severity, ((c.entries m).take k).filter fun e => !c.isPassedOver (Glob.anyMatches rule.allow) e, ?_⟩
  rw [findingsAt, Option.mem_def.mp hRule]
  simp only [issuesAt, h.stands, Option.toList_some, List.filter_cons, hChecked, Bool.not_false, if_true,
    List.filter_nil]

end ListCheck

def Finding.isDuplicate (f : Finding) : Bool := (Code.ofName? f.code).any Code.isDuplicate

/-- The check, the code and the fingerprint of each finding that is not about a duplicate. -/
def lastingIdentities (fs : List Finding) : List (String × String × Option String) :=
  (fs.filter fun f => !f.isDuplicate).map fun f => (f.check, f.code, f.fingerprint)

theorem lastingIdentities_map_finding (check : Check) (severity : Severity) (path : FilePath) (is : List Issue) :
    lastingIdentities (is.map (Issue.finding check severity path)) = (lastingMarks is).map fun (code, subject) =>
      (check.name, code.name, some (fingerprint check.name code.name path.text subject)) := by
  have hDuplicate : ∀ i : Issue, (i.finding check severity path).isDuplicate = i.code.isDuplicate := by
    intro i
    rw [Finding.isDuplicate, Issue.finding, Code.ofName?_name, Option.any_some]
  rw [lastingIdentities, lastingMarks, List.filter_map, List.map_map, List.map_map]
  simp only [Function.comp_def, hDuplicate]
  rfl

theorem filter_findingsOf_check (m : Model) (plan : Plan) (check : Check) :
    (findingsOf m plan Check.all).filter (fun f => f.check = check.name) = check.findings m plan := by
  have hOne : ∀ other : Check, (other.findings m plan).filter (fun f => f.check = check.name) =
      if other = check then check.findings m plan else [] := by
    intro other
    split
    · rename_i hSame
      subst hSame
      exact List.filter_eq_self.mpr fun f hf => by simp [Check.check_eq_name hf]
    · rename_i hOther
      have hName : other.name ≠ check.name := fun hSame => hOther (Check.name_injective hSame)
      exact List.filter_eq_nil_iff.mpr fun f hf => by simp [Check.check_eq_name hf, hName]
  rw [findingsOf, List.filter_flatMap]
  simp only [hOne]
  cases check <;> simp [Check.all]

namespace ListCheck

/-- What a run lists of a check is what is due to the entries, unless the list is cut off. -/
theorem filter_findings_perm (m : Model) (plan : Plan) (c : ListCheck)
    (hFits : (evaluate m plan).summary.findingsTotal ≤ plan.maxFindings) :
    ((evaluate m plan).findings.filter fun f => f.check = c.check.name).Perm
      ((List.range (c.entries m).length).flatMap (c.findingsAt m plan)) := by
  rw [findings_eq_sortFindings hFits, ← findings_eq_flatMap_findingsAt, ← filter_findingsOf_check]
  exact (sortFindings_perm _).filter _

/-- An entry with the same values gives rise to the same identities, whatever else the policies and the plans
say; and all that the runs list is due to the entries. -/
theorem lastingIdentities_findingsAt_eq {m m' : Model} {plan plan' : Plan} {c : ListCheck} {k k' : Nat}
    {e e' : c.Entry} (hPath : m.path = m'.path) (h : IsChecked m plan c k e)
    (h' : IsChecked m' plan' c k' e') (hValues : c.values e = c.values e') :
    lastingIdentities (c.findingsAt m plan k) = lastingIdentities (c.findingsAt m' plan' k') ∧
      ((evaluate m plan).summary.findingsTotal ≤ plan.maxFindings →
        ((evaluate m plan).findings.filter fun f => f.check = c.check.name).Perm
          ((List.range (c.entries m).length).flatMap (c.findingsAt m plan))) ∧
      ((evaluate m' plan').summary.findingsTotal ≤ plan'.maxFindings →
        ((evaluate m' plan').findings.filter fun f => f.check = c.check.name).Perm
          ((List.range (c.entries m').length).flatMap (c.findingsAt m' plan'))) := by
  refine ⟨?_, filter_findings_perm m plan c, filter_findings_perm m' plan' c⟩
  obtain ⟨severity, before, hFindings⟩ := h.exists_findingsAt_eq
  obtain ⟨severity', before', hFindings'⟩ := h'.exists_findingsAt_eq
  rw [hFindings, hFindings', lastingIdentities_map_finding, lastingIdentities_map_finding,
    lastingMarks_issuesAfter m c before h.named, lastingMarks_issuesAfter m' c before' h'.named, hValues, hPath]

end ListCheck

/-- An exception for a license that is none. -/
def ringException (span : Span) : Exception where
  name := some ⟨"ring", span⟩
  version := some ⟨"0.16", span⟩
  allow := [⟨"(MIT)", span⟩]

def exceptionPolicy : Model :=
  .ofDocument .default { licenses := some { exceptions := [ringException ⟨0, 0⟩] } }

/-- The exception stands on the second line, behind another one for its package. -/
def exceptionsPolicy : Model where
  path := .default
  document := { licenses := some { exceptions := [{ ringException ⟨0, 0⟩ with allow := [] }, ringException ⟨1, 1⟩] } }
  unknownKeys := []
  source := "\n"

def lenientPlan : Plan := .uniform "oss" .warning .warning

theorem codes_exceptionsPolicy :
    (ListCheck.exceptions.findingsAt exceptionPolicy strictPlan 0).map Finding.code = ["invalid_license_id"] ∧
    (ListCheck.exceptions.findingsAt exceptionsPolicy lenientPlan 1).map Finding.code =
      ["duplicate_exception", "invalid_license_id"] ∧
    (findingsOf exceptionPolicy strictPlan Check.all).length ≤ strictPlan.maxFindings ∧
    (findingsOf exceptionsPolicy lenientPlan Check.all).length ≤ lenientPlan.maxFindings := by
  decide +kernel

theorem isChecked_exceptionPolicy :
    ListCheck.exceptions.IsChecked exceptionPolicy strictPlan 0 (ringException ⟨0, 0⟩, 0) where
  stands := rfl
  named := show packageName (ringException ⟨0, 0⟩).name ≠ none by decide
  checked := ⟨_, rfl, by decide +kernel⟩

theorem isChecked_exceptionsPolicy :
    ListCheck.exceptions.IsChecked exceptionsPolicy lenientPlan 1 (ringException ⟨1, 1⟩, 1) where
  stands := rfl
  named := show packageName (ringException ⟨1, 1⟩).name ≠ none by decide
  checked := ⟨_, rfl, by decide +kernel⟩

theorem lastingIdentities_exceptionsPolicy :
    exceptionPolicy.path = exceptionsPolicy.path ∧
    ListCheck.exceptions.IsChecked exceptionPolicy strictPlan 0 (ringException ⟨0, 0⟩, 0) ∧
    ListCheck.exceptions.IsChecked exceptionsPolicy lenientPlan 1 (ringException ⟨1, 1⟩, 1) ∧
    ListCheck.exceptions.values (ringException ⟨0, 0⟩, 0) = ListCheck.exceptions.values (ringException ⟨1, 1⟩, 1) ∧
    lastingIdentities (ListCheck.exceptions.findingsAt exceptionPolicy strictPlan 0) =
      lastingIdentities (ListCheck.exceptions.findingsAt exceptionsPolicy lenientPlan 1) ∧
    ((evaluate exceptionPolicy strictPlan).findings.filter fun f => f.check = "licenses.exceptions").Perm
      ((List.range 1).flatMap (ListCheck.exceptions.findingsAt exceptionPolicy strictPlan)) ∧
    ((evaluate exceptionsPolicy lenientPlan).findings.filter fun f => f.check = "licenses.exceptions").Perm
      ((List.range 2).flatMap (ListCheck.exceptions.findingsAt exceptionsPolicy lenientPlan)) ∧
    (ListCheck.exceptions.findingsAt exceptionPolicy strictPlan 0).length ≠
      (ListCheck.exceptions.findingsAt exceptionsPolicy lenientPlan 1).length := by
  obtain ⟨hCodes, hCodes', hFits, hFits'⟩ := codes_exceptionsPolicy
  have hPath : exceptionPolicy.path = exceptionsPolicy.path := rfl
  obtain ⟨hSame, hListed, hListed'⟩ := ListCheck.lastingIdentities_findingsAt_eq hPath
    isChecked_exceptionPolicy isChecked_exceptionsPolicy rfl
  rw [(accounts_evaluate _ _).total] at hListed hListed'
  refine ⟨hPath, isChecked_exceptionPolicy, isChecked_exceptionsPolicy, rfl, hSame, hListed hFits,
    hListed' hFits', ?_⟩
  rw [← List.length_map Finding.code, hCodes, ← List.length_map Finding.code, hCodes']
  decide

end PolicyLint.Lint
