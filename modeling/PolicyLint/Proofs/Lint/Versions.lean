import PolicyLint.Proofs.Lint.Exactness
import PolicyLint.Proofs.Lint.Stability
import PolicyLint.Proofs.Version.Blanks

/-!
# One version in three lists

Exceptions, clarifications and skip entries may all carry a version requirement. The checks of exceptions and
of skip entries read it trimmed, the check of clarifications reads it as it is written.
-/
namespace PolicyLint.Lint
open Text Policy
set_option autoImplicit false

/-- Some mark is about a version that cannot be read. -/
def marksVersion (marks : List (Code × String)) : Bool := marks.any fun p => p.1 = .invalidVersion

theorem marksVersion_append (marks marks' : List (Code × String)) :
    marksVersion (marks ++ marks') = (marksVersion marks || marksVersion marks') := List.any_append

theorem marksVersion_versionMarks (subject : String) (version : Option String) :
    marksVersion (versionMarks subject version) = (version.bind versionFault).isSome := by
  rw [versionMarks]
  cases version.bind versionFault <;> rfl

theorem marksVersion_licenseMarks (owner license : String) : marksVersion (licenseMarks owner license) = false := by
  rw [licenseMarks]
  split <;> rfl

theorem marksVersion_expressionMarks (subject : String) (expression : Option String) :
    marksVersion (expressionMarks subject expression) = false := by
  cases expression with
  | none => rfl
  | some expression =>
    rw [expressionMarks]
    split <;> rfl

theorem marksVersion_fileMarks (subject : String) (file : String × Int) :
    marksVersion (fileMarks subject file) = false := by
  rw [fileMarks]
  split <;> rfl

theorem marksVersion_flatMap {α : Type} {marks : α → List (Code × String)}
    (h : ∀ a, marksVersion (marks a) = false) (l : List α) : marksVersion (l.flatMap marks) = false := by
  rw [marksVersion, List.any_flatMap, List.any_eq_false]
  intro a _
  rw [← marksVersion, h a]
  exact Bool.false_ne_true

theorem marksVersion_ite {p : Prop} [Decidable p] {code : Code} (h : code ≠ .invalidVersion) (subject : String) :
    marksVersion (if p then [(code, subject)] else []) = false := by
  split <;> simp [marksVersion, h]

theorem marksVersion_lastingMarks (is : List Issue) :
    marksVersion (lastingMarks is) = is.any fun i => i.code = .invalidVersion := by
  have hLasting : ∀ code : Code, (!code.isDuplicate && decide (code = .invalidVersion)) =
      decide (code = .invalidVersion) := by
    intro code
    cases code <;> rfl
  rw [marksVersion, lastingMarks, List.any_map, List.any_filter]
  simp only [Function.comp_def, hLasting]

theorem exists_finding_code_iff (check : Check) (severity : Severity) (path : FilePath) (is : List Issue)
    (code : Code) :
    (∃ f ∈ is.map (Issue.finding check severity path), f.code = code.name) ↔ ∃ i ∈ is, i.code = code := by
  constructor
  · rintro ⟨f, hf, hCode⟩
    obtain ⟨i, hi, rfl⟩ := List.mem_map.mp hf
    exact ⟨i, hi, Code.name_injective hCode⟩
  · rintro ⟨i, hi, rfl⟩
    exact ⟨_, List.mem_map_of_mem hi, rfl⟩

namespace ListCheck

/-- The name and the version that an entry about a package gives. -/
def package : (c : ListCheck) → c.Values → Option String × Option String
  | licenseLists, _ => (none, none)
  | exceptions, (name, version, _) => (name, version)
  | clarifications, (name, version, _) => (name, version)
  | skipEntries, (_, name, version) => (name, version)

/-- What a check reads of a version. -/
def readVersion : ListCheck → String → String
  | clarifications, version => version
  | _, version => trim version

/-- Only what a check reads of the version decides whether an entry is marked for it. -/
theorem marksVersion_marks (c : ListCheck) (values : c.Values) : marksVersion (c.marks values) =
    ((c.package values).2.bind fun version => versionFault (c.readVersion version)).isSome := by
  cases c with
  | licenseLists =>
    obtain ⟨list, license⟩ := values
    exact marksVersion_licenseMarks list.text license
  | exceptions =>
    obtain ⟨name, version, allow⟩ := values
    simp only [marks, package, readVersion, marksVersion_append, marksVersion_versionMarks, Option.bind_map,
      Function.comp_def, marksVersion_ite (show Code.emptyAllow ≠ .invalidVersion by decide),
      marksVersion_flatMap (marksVersion_licenseMarks _), Bool.or_false]
  | clarifications =>
    obtain ⟨name, version, expression, files⟩ := values
    simp only [marks, package, readVersion, marksVersion_append, marksVersion_versionMarks,
      marksVersion_expressionMarks, marksVersion_ite (show Code.missingLicenseFiles ≠ .invalidVersion by decide),
      marksVersion_flatMap (marksVersion_fileMarks _), Bool.or_false]
  | skipEntries =>
    obtain ⟨list, name, version⟩ := values
    simp only [marks, package, readVersion, marksVersion_versionMarks, Option.bind_map, Function.comp_def]

/-- An entry with this name and version, which no glob passes over. -/
structure Carries (m : Model) (plan : Plan) (c : ListCheck) (k : Nat) (name version : String) : Prop where
  stands : ((c.entries m)[k]?.map fun e => c.package (c.values e)) = some (some name, some version)
  checked : ∃ rule ∈ plan.rule? c.check, Glob.anyMatches rule.allow (trim name) = false

/-- One of the findings due to an entry is about its version. -/
def FlagsVersion (m : Model) (plan : Plan) (c : ListCheck) (k : Nat) : Prop :=
  ∃ f ∈ c.findingsAt m plan k, f.code = Code.invalidVersion.name

variable {m : Model} {plan : Plan} {c : ListCheck} {k : Nat} {name version : String}

theorem packageName_of_valueOf {name : Option (Spanned String)} {text : String} (h : valueOf name = some text)
    (hName : trim text ≠ "") : packageName name = some (trim text) := by
  obtain ⟨s, rfl, rfl⟩ := Option.map_eq_some_iff.mp h
  rw [packageName, if_neg]
  rw [isAllBlank_iff]
  exact hName

theorem Carries.exists_isChecked (h : Carries m plan c k name version) (hName : trim name ≠ "") :
    ∃ e, IsChecked m plan c k e ∧ c.package (c.values e) = (some name, some version) := by
  obtain ⟨e, hStands, hPackage⟩ := Option.map_eq_some_iff.mp h.stands
  obtain ⟨rule, hRule, hAllowed⟩ := h.checked
  have hEntry : ∀ {n : Option (Spanned String)}, valueOf n = some name →
      packageName n ≠ none ∧ allowsPackage (Glob.anyMatches rule.allow) n = false := by
    intro n hValue
    rw [allowsPackage, packageName_of_valueOf hValue hName]
    exact ⟨Option.some_ne_none _, hAllowed⟩
  suffices hBoth : c.IsNamed e ∧ c.isPassedOver (Glob.anyMatches rule.allow) e = false from
    ⟨e, ⟨hStands, hBoth.1, rule, hRule, hBoth.2⟩, hPackage⟩
  cases c with
  | licenseLists => cases hPackage
  | exceptions | clarifications =>
    obtain ⟨e, index⟩ := e
    exact hEntry (Prod.mk.inj hPackage).1
  | skipEntries => exact hEntry (Prod.mk.inj hPackage).1

theorem flagsVersion_iff (h : Carries m plan c k name version) (hName : trim name ≠ "") :
    FlagsVersion m plan c k ↔ ¬IsVersion (c.readVersion version) := by
  obtain ⟨e, hChecked, hPackage⟩ := h.exists_isChecked hName
  obtain ⟨severity, before, hFindings⟩ := hChecked.exists_findingsAt_eq
  have hMarks := marksVersion_marks c (c.values e)
  rw [← lastingMarks_issuesAfter m c before hChecked.named, marksVersion_lastingMarks, hPackage, Option.bind_some]
    at hMarks
  rw [FlagsVersion, hFindings, exists_finding_code_iff, ← versionFault_eq_none_iff, ← Ne,
    ← Option.isSome_iff_ne_none, ← hMarks]
  simp

/-- What trimming takes off a version are spaces. -/
def OnlySpaced (version : String) : Prop :=
  ∃ n k, version.toList = List.replicate n ' ' ++ trimChars version.toList ++ List.replicate k ' '

theorem isVersion_iff_trim : IsVersion version ↔ IsVersion (trim version) ∧ OnlySpaced version :=
  Version.exists_parse_iff_trim version

/-- Exceptions and skip entries are always told the same of a version. A clarification is told the same as they are,
unless the version can be read and has other blanks than spaces around it. -/
theorem flagsVersion_agrees {m m' m'' : Model} {plan plan' plan'' : Plan} {i j k : Nat} {name version : String}
    (hName : trim name ≠ "") (hException : Carries m plan .exceptions i name version)
    (hClarification : Carries m' plan' .clarifications j name version)
    (hSkip : Carries m'' plan'' .skipEntries k name version) :
    (FlagsVersion m plan .exceptions i ↔ FlagsVersion m'' plan'' .skipEntries k) ∧
      ((FlagsVersion m' plan' .clarifications j ↔ FlagsVersion m plan .exceptions i) ↔
        (IsVersion (trim version) → OnlySpaced version)) := by
  rw [flagsVersion_iff hException hName, flagsVersion_iff hClarification hName, flagsVersion_iff hSkip hName]
  refine ⟨Iff.rfl, ?_⟩
  change (¬IsVersion version ↔ ¬IsVersion (trim version)) ↔ _
  rw [not_iff_not, isVersion_iff_trim]
  exact and_iff_left_iff_imp

/-- One version of one package in three lists. -/
def listedPolicy (version : String) : Model :=
  .ofDocument .default {
    licenses := some {
      exceptions := [{ name := some ⟨"ring", ⟨0, 0⟩⟩, version := some ⟨version, ⟨0, 0⟩⟩ }]
      clarify := [{ name := some ⟨"ring", ⟨0, 0⟩⟩, version := some ⟨version, ⟨0, 0⟩⟩ }] }
    bans := some { skip := [{ name := some ⟨"ring", ⟨0, 0⟩⟩, version := some ⟨version, ⟨0, 0⟩⟩ }] } }

theorem carries_listedPolicy (version : String) :
    Carries (listedPolicy version) strictPlan .exceptions 0 "ring" version ∧
    Carries (listedPolicy version) strictPlan .clarifications 0 "ring" version ∧
    Carries (listedPolicy version) strictPlan .skipEntries 0 "ring" version := by
  refine ⟨⟨rfl, _, rfl, ?_⟩, ⟨rfl, _, rfl, ?_⟩, rfl, _, rfl, ?_⟩ <;> rfl

theorem flagsVersion_agrees_spaced :
    trim "ring" ≠ "" ∧
    Carries (listedPolicy " 1") strictPlan .exceptions 0 "ring" " 1" ∧
    Carries (listedPolicy " 1") strictPlan .clarifications 0 "ring" " 1" ∧
    Carries (listedPolicy " 1") strictPlan .skipEntries 0 "ring" " 1" ∧
    (FlagsVersion (listedPolicy " 1") strictPlan .exceptions 0 ↔
      FlagsVersion (listedPolicy " 1") strictPlan .skipEntries 0) ∧
    (FlagsVersion (listedPolicy " 1") strictPlan .clarifications 0 ↔
      FlagsVersion (listedPolicy " 1") strictPlan .exceptions 0) := by
  obtain ⟨hException, hClarification, hSkip⟩ := carries_listedPolicy " 1"
  have hName : trim "ring" ≠ "" := by decide
  obtain ⟨hSame, hAgrees⟩ := flagsVersion_agrees hName hException hClarification hSkip
  exact ⟨hName, hException, hClarification, hSkip, hSame, hAgrees.mpr fun _ => ⟨1, 0, rfl⟩⟩

/-- A tab before the version counts in the clarification only. -/
theorem flagsVersion_differs_tabbed :
    trim "ring" ≠ "" ∧
    Carries (listedPolicy "\t1") strictPlan .exceptions 0 "ring" "\t1" ∧
    Carries (listedPolicy "\t1") strictPlan .clarifications 0 "ring" "\t1" ∧
    Carries (listedPolicy "\t1") strictPlan .skipEntries 0 "ring" "\t1" ∧
    ¬FlagsVersion (listedPolicy "\t1") strictPlan .exceptions 0 ∧
    FlagsVersion (listedPolicy "\t1") strictPlan .clarifications 0 ∧
    ¬FlagsVersion (listedPolicy "\t1") strictPlan .skipEntries 0 := by
  obtain ⟨hException, hClarification, hSkip⟩ := carries_listedPolicy "\t1"
  have hName : trim "ring" ≠ "" := by decide
  have hTrimmed : IsVersion (trim "\t1") := isVersion_one
  have hWritten : ¬IsVersion "\t1" := by
    have hFault : versionFault "\t1" = some (.unexpectedChar .major '\t') := by decide +kernel
    rw [← versionFault_eq_none_iff, hFault]
    exact Option.some_ne_none _
  exact ⟨hName, hException, hClarification, hSkip, fun h => (flagsVersion_iff hException hName).mp h hTrimmed,
    (flagsVersion_iff hClarification hName).mpr hWritten, fun h => (flagsVersion_iff hSkip hName).mp h hTrimmed⟩

end ListCheck

end PolicyLint.Lint
