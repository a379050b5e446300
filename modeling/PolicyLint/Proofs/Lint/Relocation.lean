import PolicyLint.Proofs.Lint.Provenance
import PolicyLint.Proofs.Policy.MovedText

/-!
# Findings move with the text

Nothing that a check says depends on a line, and a line counts only against other lines. So a policy that stands
further down in its text has the same findings in the same order, each so many lines further down.
-/
namespace PolicyLint.Lint
open Text Policy License
set_option autoImplicit false

def Issue.moveLine (lines : Nat) (i : Issue) : Issue := { i with line := i.line.map (· + lines) }

def Finding.moveLine (lines : Nat) (f : Finding) : Finding :=
  { f with location := f.location.map fun place => { place with line := place.line.map (· + lines) } }

/-- An issue that says the same of a line further down. -/
theorem Issue.eq_moveLine {lines : Nat} {i i' : Issue} (hSame : i' = { i with line := i'.line })
    (hLine : i'.line = i.line.map (· + lines)) : i' = i.moveLine lines := by
  rw [hSame, hLine]
  rfl

section
variable (f : Span → Span)

@[simp] theorem packageName_mapSpan (name : Option (Spanned String)) :
    packageName (name.map (Spanned.mapSpan f)) = packageName name := by
  cases name <;> rfl

@[simp] theorem allowsPackage_mapSpan (allowed : String → Bool) (name : Option (Spanned String)) :
    allowsPackage allowed (name.map (Spanned.mapSpan f)) = allowsPackage allowed name := by
  rw [allowsPackage, packageName_mapSpan, allowsPackage]

@[simp] theorem trimmedVersion_mapSpan (version : Option (Spanned String)) :
    trimmedVersion (version.map (Spanned.mapSpan f)) = trimmedVersion version := by
  cases version <;> rfl

@[simp] theorem spanOf_mapSpan (value : Option (Spanned String)) :
    spanOf (value.map (Spanned.mapSpan f)) = (spanOf value).map f := by
  cases value <;> rfl

end

section
variable {lines : Nat} {m m' : Model} (h : m.MovesTo lines m')

include h

theorem licenses_of_movesTo : m'.licenses = m.licenses.mapSpans (Span.shift lines) := by
  rw [Model.licenses, Model.licenses, h.document, Document.mapSpans]
  cases m.document.licenses <;> rfl

theorem bans_of_movesTo : m'.bans = m.bans.mapSpans (Span.shift lines) := by
  rw [Model.bans, Model.bans, h.document, Document.mapSpans]
  cases m.document.bans <;> rfl

theorem lineOf_some_of_movesTo (span : Span) :
    m'.lineOf (some (span.shift lines)) = (m.lineOf (some span)).map (· + lines) :=
  h.lineOf (some span)

end

namespace LicenseLists

def Entry.mapSpan (f : Span → Span) (e : Entry) : Entry := ⟨e.list, e.license.mapSpan f⟩

section
variable {lines : Nat} {m m' : Model} (h : m.MovesTo lines m')

include h

theorem invalid_movesTo (e : Entry) (fault : Fault) :
    invalid m' (e.mapSpan (Span.shift lines)) fault = (invalid m e fault).moveLine lines :=
  Issue.eq_moveLine rfl (lineOf_some_of_movesTo h e.license.span)

theorem duplicate_movesTo (e : Entry) (license : Requirement) (first : ListName) :
    duplicate m' (e.mapSpan (Span.shift lines)) license first = (duplicate m e license first).moveLine lines :=
  Issue.eq_moveLine rfl (lineOf_some_of_movesTo h e.license.span)

theorem walk_movesTo (seen : Seen) (es : List Entry) :
    walk m' seen (es.map (Entry.mapSpan (Span.shift lines))) = (walk m seen es).map (Issue.moveLine lines) := by
  induction es generalizing seen with
  | nil => rfl
  | cons e es ih =>
    have hValue : (e.mapSpan (Span.shift lines)).license.value = e.license.value := rfl
    rw [List.map_cons, walk, walk, hValue]
    cases Requirement.parse e.license.value with
    | error fault => simp only [ih, invalid_movesTo h, List.map_cons]
    | ok license =>
      dsimp only
      cases seen.lookup license.render with
      | some first => simp only [ih, duplicate_movesTo h, List.map_cons]
      | none => exact ih _

theorem issues_movesTo (allowed : String → Bool) :
    issues m' allowed = (issues m allowed).map (Issue.moveLine lines) := by
  have hEntries : entries m'.licenses = (entries m.licenses).map (Entry.mapSpan (Span.shift lines)) := by
    rw [entries, entries, licenses_of_movesTo h, Licenses.mapSpans, List.map_append, List.map_map, List.map_map,
      List.map_map, List.map_map]
    rfl
  rw [issues, issues, hEntries, List.filter_map, walk_movesTo h]
  rfl

end

end LicenseLists

theorem ConfidenceThreshold.issues_movesTo {lines : Nat} {m m' : Model} (h : m.MovesTo lines m') :
    issues m' = (issues m).map (Issue.moveLine lines) := by
  rw [issues, issues, licenses_of_movesTo h, Licenses.mapSpans]
  cases m.licenses.confidenceThreshold with
  | none => rfl
  | some threshold =>
    simp only [Option.map_some, Spanned.mapSpan, outOfRange, lineOf_some_of_movesTo h]
    split <;> rfl

namespace Exceptions

theorem anchor_mapSpans (f : Span → Span) (e : Exception) : anchor (e.mapSpans f) = (anchor e).map f := by
  simp only [anchor, Exception.mapSpans, spanOf_mapSpan, List.head?_map, Option.map_or, Option.map_map]
  rfl

theorem lineOf_anchor_movesTo {lines : Nat} {m m' : Model} (h : m.MovesTo lines m') (e : Exception) :
    m'.lineOf (anchor (e.mapSpans (Span.shift lines))) = (m.lineOf (anchor e)).map (· + lines) := by
  rw [anchor_mapSpans, h.lineOf]

namespace Named

def mapSpans (f : Span → Span) (e : Named) : Named := ⟨e.index, e.name, e.entry.mapSpans f⟩

theorem version_mapSpans (f : Span → Span) (e : Named) : (e.mapSpans f).version = e.version :=
  trimmedVersion_mapSpan f e.entry.version

theorem shown_mapSpans (f : Span → Span) (e : Named) : (e.mapSpans f).shown = e.shown :=
  congrArg (packageText e.name) (e.version_mapSpans f)

theorem key_mapSpans (f : Span → Span) (e : Named) : (e.mapSpans f).key = e.key :=
  congrArg (PackageKey.of e.name) (e.version_mapSpans f)

section
variable {lines : Nat} {m m' : Model} (h : m.MovesTo lines m') (e : Named)

include h

theorem invalidVersion_movesTo : (e.mapSpans (Span.shift lines)).invalidVersion m' =
    (e.invalidVersion m).map (Issue.moveLine lines) := by
  obtain ⟨index, name, ⟨entryName, version, allow⟩⟩ := e
  cases version with
  | none => rfl
  | some version =>
    simp only [invalidVersion, mapSpans, Exception.mapSpans, Option.map_some, Spanned.mapSpan]
    cases versionFault (trim version.value) with
    | none => rfl
    | some fault => exact congrArg (fun i => [i]) (Issue.eq_moveLine rfl (lineOf_some_of_movesTo h version.span))

theorem duplicate_movesTo : (e.mapSpans (Span.shift lines)).duplicate m' = (e.duplicate m).moveLine lines := by
  refine Issue.eq_moveLine ?_ (lineOf_anchor_movesTo h e.entry)
  rw [duplicate, duplicate, shown_mapSpans, version_mapSpans]
  rfl

theorem emptyAllow_movesTo : (e.mapSpans (Span.shift lines)).emptyAllow m' =
    (e.emptyAllow m).map (Issue.moveLine lines) := by
  have hEmpty : (e.mapSpans (Span.shift lines)).entry.allow.isEmpty = e.entry.allow.isEmpty :=
    List.isEmpty_map
  rw [emptyAllow, emptyAllow, hEmpty, shown_mapSpans]
  split
  · exact congrArg (fun i => [i]) (Issue.eq_moveLine rfl (lineOf_anchor_movesTo h e.entry))
  · rfl

theorem invalidLicense_movesTo (license : Spanned String) :
    (e.mapSpans (Span.shift lines)).invalidLicense m' (license.mapSpan (Span.shift lines)) =
      (e.invalidLicense m license).map (Issue.moveLine lines) := by
  have hValue : (license.mapSpan (Span.shift lines)).value = license.value := rfl
  rw [invalidLicense, invalidLicense, shown_mapSpans, hValue]
  cases Requirement.parse license.value with
  | ok _ => rfl
  | error fault => exact congrArg some (Issue.eq_moveLine rfl (lineOf_some_of_movesTo h license.span))

theorem issues_movesTo (again : Bool) :
    (e.mapSpans (Span.shift lines)).issues m' again = (e.issues m again).map (Issue.moveLine lines) := by
  have hAllow : (e.mapSpans (Span.shift lines)).entry.allow = e.entry.allow.map (Spanned.mapSpan (Span.shift lines)) :=
    rfl
  rw [issues, issues, e.invalidVersion_movesTo h, e.duplicate_movesTo h, e.emptyAllow_movesTo h, hAllow,
    List.filterMap_map, List.map_append, List.map_append, List.map_append, List.map_filterMap]
  congr 1
  · cases again <;> rfl
  · exact List.filterMap_congr fun license _ => e.invalidLicense_movesTo h license

end

end Named

section
variable {lines : Nat} {m m' : Model} (h : m.MovesTo lines m')

include h

theorem walk_movesTo (seen : List PackageKey) (es : List (Exception × Nat)) :
    walk m' seen (es.map fun e => (e.1.mapSpans (Span.shift lines), e.2)) =
      (walk m seen es).map (Issue.moveLine lines) := by
  induction es generalizing seen with
  | nil => rfl
  | cons e es ih =>
    obtain ⟨e, index⟩ := e
    have hName : packageName (e.mapSpans (Span.shift lines)).name = packageName e.name :=
      packageName_mapSpan (Span.shift lines) e.name
    rw [List.map_cons, walk, walk, hName]
    cases packageName e.name with
    | none => exact congrArg₂ List.cons (Issue.eq_moveLine rfl (lineOf_anchor_movesTo h e)) (ih seen)
    | some name =>
      have hIssues := Named.issues_movesTo h ⟨index, name, e⟩
      have hKey := Named.key_mapSpans (Span.shift lines) ⟨index, name, e⟩
      rw [Named.mapSpans] at hKey
      simp only [Named.mapSpans] at hIssues
      simp only [hKey, hIssues, ih, List.map_append]

theorem issues_movesTo (allowed : String → Bool) :
    issues m' allowed = (issues m allowed).map (Issue.moveLine lines) := by
  rw [issues, issues, licenses_of_movesTo h]
  have hEntries : (m.licenses.mapSpans (Span.shift lines)).exceptions.zipIdx =
      m.licenses.exceptions.zipIdx.map fun e => (e.1.mapSpans (Span.shift lines), e.2) := by
    rw [Licenses.mapSpans, List.zipIdx_map]
    rfl
  rw [hEntries, List.filter_map, walk_movesTo h]
  simp only [Function.comp_def, Exception.mapSpans, allowsPackage_mapSpan]

end

end Exceptions

namespace Clarifications.Placed

def mapSpans (f : Span → Span) (c : Placed) : Placed := ⟨c.index, c.entry.mapSpans f⟩

theorem subject_mapSpans (f : Span → Span) (c : Placed) : (c.mapSpans f).subject = c.subject := by
  have hName := packageName_mapSpan f c.entry.name
  exact congrArg (fun name => name.getD c.label) hName

theorem shown_mapSpans (f : Span → Span) (c : Placed) : (c.mapSpans f).shown = c.shown := by
  have hName : packageName (c.mapSpans f).entry.name = packageName c.entry.name :=
    packageName_mapSpan f c.entry.name
  rw [shown, shown, hName]
  rfl

theorem anchor_mapSpans (f : Span → Span) (c : Placed) : (c.mapSpans f).anchor = c.anchor.map f := by
  simp only [anchor, mapSpans, Clarification.mapSpans, spanOf_mapSpan, Option.map_or]

section
variable {lines : Nat} {m m' : Model} (h : m.MovesTo lines m') (c : Placed)

include h

theorem issue_movesTo (code : Code) (span : Option Span) (remark help : String)
    (data : List (String × Json.Value)) :
    (c.mapSpans (Span.shift lines)).issue m' code (span.map (Span.shift lines)) remark help data =
      (c.issue m code span remark help data).moveLine lines := by
  refine Issue.eq_moveLine ?_ (h.lineOf span)
  rw [issue, issue, subject_mapSpans, shown_mapSpans]
  rfl

theorem nameIssues_movesTo : (c.mapSpans (Span.shift lines)).nameIssues m' =
    (c.nameIssues m).map (Issue.moveLine lines) := by
  have hName : packageName (c.mapSpans (Span.shift lines)).entry.name = packageName c.entry.name :=
    packageName_mapSpan (Span.shift lines) c.entry.name
  rw [nameIssues, nameIssues, hName, anchor_mapSpans, subject_mapSpans, h.lineOf]
  cases packageName c.entry.name <;> rfl

theorem versionIssues_movesTo : (c.mapSpans (Span.shift lines)).versionIssues m' =
    (c.versionIssues m).map (Issue.moveLine lines) := by
  have hVersion : (c.mapSpans (Span.shift lines)).entry.version =
      c.entry.version.map (Spanned.mapSpan (Span.shift lines)) := rfl
  rw [versionIssues, versionIssues, hVersion]
  cases c.entry.version with
  | none => rfl
  | some version =>
    simp only [Option.map_some, Spanned.mapSpan]
    cases versionFault version.value with
    | none => rfl
    | some fault => exact congrArg (fun i => [i]) (c.issue_movesTo h _ (some version.span) _ _ _)

theorem expressionIssues_movesTo : (c.mapSpans (Span.shift lines)).expressionIssues m' =
    (c.expressionIssues m).map (Issue.moveLine lines) := by
  have hExpression : (c.mapSpans (Span.shift lines)).entry.expression =
      c.entry.expression.map (Spanned.mapSpan (Span.shift lines)) := rfl
  rw [expressionIssues, expressionIssues, hExpression, anchor_mapSpans]
  cases c.entry.expression with
  | none => exact congrArg (fun i => [i]) (c.issue_movesTo h _ c.anchor _ _ _)
  | some expression =>
    simp only [Option.map_some, Spanned.mapSpan]
    cases Expr.parse expression.value with
    | ok _ => rfl
    | error fault => exact congrArg (fun i => [i]) (c.issue_movesTo h _ (some expression.span) _ _ _)

theorem noFilesIssues_movesTo : (c.mapSpans (Span.shift lines)).noFilesIssues m' =
    (c.noFilesIssues m).map (Issue.moveLine lines) := by
  have hEmpty : (c.mapSpans (Span.shift lines)).entry.licenseFiles.isEmpty = c.entry.licenseFiles.isEmpty :=
    List.isEmpty_map
  rw [noFilesIssues, noFilesIssues, hEmpty, anchor_mapSpans]
  split
  · exact congrArg (fun i => [i]) (c.issue_movesTo h _ c.anchor _ _ _)
  · rfl

theorem fileIssue_movesTo (file : LicenseFile) :
    (c.mapSpans (Span.shift lines)).fileIssue m' (file.mapSpans (Span.shift lines)) =
      (c.fileIssue m file).map (Issue.moveLine lines) := by
  have hProblem : fileProblem (file.mapSpans (Span.shift lines)) = fileProblem file := rfl
  rw [fileIssue, fileIssue, hProblem, Option.map_map]
  congr 1
  funext problem
  exact c.issue_movesTo h _ (some file.path.span) _ _ _

theorem issues_movesTo :
    (c.mapSpans (Span.shift lines)).issues m' = (c.issues m).map (Issue.moveLine lines) := by
  have hFiles : (c.mapSpans (Span.shift lines)).entry.licenseFiles =
      c.entry.licenseFiles.map (LicenseFile.mapSpans (Span.shift lines)) := rfl
  rw [issues, issues, c.nameIssues_movesTo h, c.versionIssues_movesTo h, c.expressionIssues_movesTo h,
    c.noFilesIssues_movesTo h, hFiles, List.filterMap_map, List.map_append, List.map_append, List.map_append,
    List.map_append, List.map_filterMap]
  congr 1
  exact List.filterMap_congr fun file _ => c.fileIssue_movesTo h file

end

end Clarifications.Placed

theorem Clarifications.issues_movesTo {lines : Nat} {m m' : Model} (h : m.MovesTo lines m')
    (allowed : String → Bool) : issues m' allowed = (issues m allowed).map (Issue.moveLine lines) := by
  have hEntries : (m.licenses.mapSpans (Span.shift lines)).clarify.zipIdx =
      m.licenses.clarify.zipIdx.map fun c => (c.1.mapSpans (Span.shift lines), c.2) := by
    rw [Licenses.mapSpans, List.zipIdx_map]
    rfl
  rw [issues, issues, licenses_of_movesTo h, hEntries, List.filter_map, List.flatMap_map, List.map_flatMap]
  simp only [Function.comp_def, Clarification.mapSpans, allowsPackage_mapSpan]
  apply List.flatMap_congr
  rintro ⟨c, index⟩ -
  exact Placed.issues_movesTo h ⟨index, c⟩

namespace SkipEntries

namespace Entry

def mapSpans (f : Span → Span) (e : Entry) : Entry :=
  { e with name := e.name.map (Spanned.mapSpan f), version := e.version.map (Spanned.mapSpan f) }

theorem anchor_mapSpans (f : Span → Span) (e : Entry) : (e.mapSpans f).anchor = e.anchor.map f := by
  simp only [anchor, mapSpans, spanOf_mapSpan, Option.map_or]

theorem trimmed_mapSpans (f : Span → Span) (e : Entry) : (e.mapSpans f).trimmed = e.trimmed :=
  trimmedVersion_mapSpan f e.version

theorem shown_mapSpans (f : Span → Span) (e : Entry) (name : String) :
    (e.mapSpans f).shown name = e.shown name :=
  congrArg (packageText name) (e.trimmed_mapSpans f)

theorem subject_mapSpans (f : Span → Span) (e : Entry) (name : String) :
    (e.mapSpans f).subject name = e.subject name := by
  rw [subject, subject, shown_mapSpans]
  rfl

section
variable {lines : Nat} {m m' : Model} (h : m.MovesTo lines m') (e : Entry) (name : String)

include h

theorem invalidVersion_movesTo : (e.mapSpans (Span.shift lines)).invalidVersion m' name =
    (e.invalidVersion m name).map (Issue.moveLine lines) := by
  have hVersion : (e.mapSpans (Span.shift lines)).version =
      e.version.map (Spanned.mapSpan (Span.shift lines)) := rfl
  rw [invalidVersion, invalidVersion, hVersion, subject_mapSpans]
  cases e.version with
  | none => rfl
  | some version =>
    simp only [Option.map_some, Spanned.mapSpan]
    cases versionFault (trim version.value) with
    | none => rfl
    | some fault => exact congrArg (fun i => [i]) (Issue.eq_moveLine rfl (lineOf_some_of_movesTo h version.span))

theorem lineOf_anchor_movesTo :
    m'.lineOf (e.mapSpans (Span.shift lines)).anchor = (m.lineOf e.anchor).map (· + lines) := by
  rw [anchor_mapSpans, h.lineOf]

theorem duplicate_movesTo :
    (e.mapSpans (Span.shift lines)).duplicate m' name = (e.duplicate m name).moveLine lines := by
  refine Issue.eq_moveLine ?_ (e.lineOf_anchor_movesTo h)
  rw [duplicate, duplicate, subject_mapSpans, shown_mapSpans, trimmed_mapSpans]
  rfl

end

end Entry

section
variable {lines : Nat} {m m' : Model} (h : m.MovesTo lines m')

include h

theorem walk_movesTo (seen : Seen) (es : List Entry) :
    walk m' seen (es.map (Entry.mapSpans (Span.shift lines))) =
      (walk m seen es).map (Issue.moveLine lines) := by
  induction es generalizing seen with
  | nil => rfl
  | cons e es ih =>
    have hName : packageName (e.mapSpans (Span.shift lines)).name = packageName e.name :=
      packageName_mapSpan (Span.shift lines) e.name
    have hList : (e.mapSpans (Span.shift lines)).list = e.list := rfl
    rw [List.map_cons, walk, walk, hName]
    cases packageName e.name with
    | none => exact congrArg₂ List.cons (Issue.eq_moveLine rfl (e.lineOf_anchor_movesTo h)) (ih seen)
    | some name =>
      simp only [hList, Entry.trimmed_mapSpans, e.invalidVersion_movesTo h, e.duplicate_movesTo h, ih,
        List.map_append]
      congr 2
      split <;> rfl

theorem entries_movesTo : entries m'.bans = (entries m.bans).map (Entry.mapSpans (Span.shift lines)) := by
  rw [bans_of_movesTo h, entries, entries, Bans.mapSpans, List.map_append, List.zipIdx_map, List.zipIdx_map,
    List.map_map, List.map_map, List.map_map, List.map_map]
  rfl

theorem issues_movesTo (allowed : String → Bool) :
    issues m' allowed = (issues m allowed).map (Issue.moveLine lines) := by
  rw [issues, issues, entries_movesTo h, List.filter_map, walk_movesTo h]
  simp only [Function.comp_def, Entry.mapSpans, allowsPackage_mapSpan]

end

end SkipEntries

theorem UnknownKeys.issues_movesTo {lines : Nat} {m m' : Model} (h : m.MovesTo lines m')
    (allowed : String → Bool) : issues m' allowed = (issues m allowed).map (Issue.moveLine lines) := by
  rw [issues, issues, h.unknownKeys, List.filter_map, List.map_map, List.map_map]
  rfl

section
variable {lines : Nat} {m m' : Model} (h : m.MovesTo lines m')

include h

theorem Check.issues_movesTo (check : Check) (allowed : String → Bool) :
    check.issues m' allowed = (check.issues m allowed).map (Issue.moveLine lines) := by
  cases check with
  | licenseLists => exact LicenseLists.issues_movesTo h allowed
  | confidenceThreshold => exact ConfidenceThreshold.issues_movesTo h
  | exceptions => exact Exceptions.issues_movesTo h allowed
  | clarifications => exact Clarifications.issues_movesTo h allowed
  | skipEntries => exact SkipEntries.issues_movesTo h allowed
  | unknownKeys => exact UnknownKeys.issues_movesTo h allowed

theorem findingsOf_movesTo (plan : Plan) (checks : List Check) :
    findingsOf m' plan checks = (findingsOf m plan checks).map (Finding.moveLine lines) := by
  rw [findingsOf, findingsOf, List.map_flatMap]
  apply List.flatMap_congr
  intro check _
  rw [Check.findings, Check.findings]
  cases plan.rule? check with
  | none => rfl
  | some rule =>
    dsimp only
    rw [check.issues_movesTo h, h.path, List.map_map, List.map_map]
    rfl

end

namespace Finding

/-- So many lines further down, the line of the finding still comes before the place of findings without one. -/
def HasRoom (lines : Nat) (f : Finding) : Prop :=
  ∀ place ∈ f.location, ∀ line ∈ place.line, line + lines < Decimal.word32 - 1

def line? (f : Finding) : Option Nat := f.location.bind Location.line

theorem line?_moveLine (lines : Nat) (f : Finding) : (f.moveLine lines).line? = f.line?.map (· + lines) := by
  rw [line?, line?, moveLine]
  cases f.location <;> rfl

theorem compare_orderLine_moveLine {lines : Nat} {a b : Finding} (ha : a.HasRoom lines) (hb : b.HasRoom lines) :
    compare (a.moveLine lines).orderLine (b.moveLine lines).orderLine = compare a.orderLine b.orderLine := by
  have hCompare {x y x' y' : Nat} (hLess : x' < y' ↔ x < y) (hMore : y' < x' ↔ y < x) :
      compare x' y' = compare x y := by
    rcases Nat.lt_trichotomy x y with h | rfl | h
    · rw [Nat.compare_eq_lt.mpr h, Nat.compare_eq_lt.mpr (hLess.mpr h)]
    · have hSame : x' = y' := by omega
      rw [hSame, Nat.compare_eq_eq.mpr rfl, Nat.compare_eq_eq.mpr rfl]
    · rw [Nat.compare_eq_gt.mpr h, Nat.compare_eq_gt.mpr (hMore.mpr h)]
  have hRoom {f : Finding} (hf : f.HasRoom lines) : ∀ line ∈ f.line?, line + lines < Decimal.word32 - 1 := by
    intro line hLine
    obtain ⟨place, hPlace, hLine⟩ := Option.bind_eq_some_iff.mp hLine
    exact hf place hPlace line hLine
  have hOrder (f : Finding) : f.orderLine = f.line?.getD (Decimal.word32 - 1) := rfl
  have ha := hRoom ha
  have hb := hRoom hb
  rw [hOrder, hOrder, hOrder, hOrder, line?_moveLine, line?_moveLine]
  cases hLineA : a.line? with
  | none =>
    cases hLineB : b.line? with
    | none => rfl
    | some line =>
      have hLine := hb line hLineB
      apply hCompare <;> simp only [Option.map_none, Option.map_some, Option.getD_none, Option.getD_some] <;> omega
  | some line =>
    have hLine := ha line hLineA
    cases hLineB : b.line? with
    | none =>
      apply hCompare <;> simp only [Option.map_none, Option.map_some, Option.getD_none, Option.getD_some] <;> omega
    | some other =>
      apply hCompare <;> simp only [Option.map_some, Option.getD_some] <;> omega

theorem notAfter_moveLine {lines : Nat} {a b : Finding} (ha : a.HasRoom lines) (hb : b.HasRoom lines) :
    (a.moveLine lines).notAfter (b.moveLine lines) = a.notAfter b := by
  have hLine := compare_orderLine_moveLine ha hb
  have hPath (f : Finding) : (f.moveLine lines).orderPath = f.orderPath := by
    rw [orderPath, orderPath, moveLine]
    cases f.location <;> rfl
  simp only [notAfter, order, compareLex, compareOn, hLine, hPath]
  rfl

end Finding

theorem sortFindings_moveLine {lines : Nat} {fs : List Finding} (h : ∀ f ∈ fs, f.HasRoom lines) :
    sortFindings (fs.map (Finding.moveLine lines)) = (sortFindings fs).map (Finding.moveLine lines) := by
  rw [sortFindings, sortFindings, List.map_mergeSort]
  intro a ha b hb
  exact (Finding.notAfter_moveLine (h a ha) (h b hb)).symm

/-- The same outcome, with the findings so many lines further down. -/
def Evaluation.moveLines (lines : Nat) (e : Evaluation) : Evaluation :=
  { e with findings := e.findings.map (Finding.moveLine lines) }

theorem counts_moveLine (lines : Nat) (fs : List Finding) :
    Counts.of (fs.map (Finding.moveLine lines)) = Counts.of fs := by
  rw [Counts.of, Counts.of, List.map_map]
  rfl

theorem sectionNames_mapSpans (f : Span → Span) (d : Document) : (d.mapSpans f).sectionNames = d.sectionNames := by
  rw [Document.sectionNames, Document.sectionNames, Document.mapSpans]
  cases d.licenses <;> cases d.bans <;> rfl

theorem declaredLicenses_mapSpans (f : Span → Span) (d : Document) :
    (d.mapSpans f).declaredLicenses = d.declaredLicenses := by
  rw [Document.declaredLicenses, Document.declaredLicenses, Document.mapSpans]
  cases d.licenses with
  | none => rfl
  | some l => simp only [Option.map_some, Licenses.mapSpans, List.length_map]

theorem clarifications_mapSpans (f : Span → Span) (d : Document) :
    (d.mapSpans f).clarifications = d.clarifications := by
  rw [Document.clarifications, Document.clarifications, Document.mapSpans]
  cases d.licenses with
  | none => rfl
  | some l => simp only [Option.map_some, Licenses.mapSpans, List.length_map]

theorem skipEntries_mapSpans (f : Span → Span) (d : Document) : (d.mapSpans f).skipEntries = d.skipEntries := by
  rw [Document.skipEntries, Document.skipEntries, Document.mapSpans]
  cases d.bans with
  | none => rfl
  | some b => simp only [Option.map_some, Bans.mapSpans, List.length_map]

theorem evaluate_movesTo {lines : Nat} {m m' : Model} (h : m.MovesTo lines m') {plan : Plan}
    (hRoom : ∀ f ∈ findingsOf m plan Check.all, f.HasRoom lines) :
    evaluate m' plan = (evaluate m plan).moveLines lines := by
  rw [evaluate, evaluate, evaluateChecks, evaluateChecks, Evaluation.moveLines]
  simp only [findingsOf_movesTo h, sortFindings_moveLine hRoom, counts_moveLine, List.length_map, List.map_take,
    h.path, h.document, sectionNames_mapSpans, declaredLicenses_mapSpans, clarifications_mapSpans,
    skipEntries_mapSpans, List.length_take]

theorem hasRoom_of_ofSource {path : FilePath} {text : String} {lines : Nat} {m : Model}
    (hModel : Model.ofSource path text = .ok m) (hLines : 1 + feeds text + lines < 2 ^ 32 - 1) (plan : Plan) :
    ∀ f ∈ findingsOf m plan Check.all, f.HasRoom lines := by
  intro f hf place hPlace line hLine
  obtain ⟨check, rule, hRule, i, hi, rfl⟩ := mem_findingsOf_iff.mp hf
  have hPath := (Model.eq_of_ofSource hModel).1
  have hLineOf := (Check.wellFormed_finding hRule hi).line text (hPath ▸ hModel) place hPlace line hLine
  have hWord : Decimal.word32 = 2 ^ 32 := rfl
  have hLast := hLineOf.2
  omega

theorem findingsOf_blank (path : FilePath) (source : String) (plan : Plan) (checks : List Check) :
    findingsOf ⟨path, {}, [], source⟩ plan checks = [] := by
  apply List.flatMap_eq_nil_iff.mpr
  intro check _
  rw [Check.findings]
  cases plan.rule? check with
  | none => rfl
  | some rule => cases check <;> rfl

theorem ofSource_of_isAllBlank (path : FilePath) {text : String} (hText : isAllBlank text = true) :
    Model.ofSource path text = .ok ⟨path, {}, [], text⟩ := by
  rw [Model.ofSource, load, if_pos hText, unknownKeys_of_isAllBlank hText]
  rfl

/-- A policy of nothing but blanks has no findings, however many lines it has. -/
theorem evaluate_blank (path : FilePath) (source source' : String) (lines : Nat) (plan : Plan) :
    evaluate ⟨path, {}, [], source'⟩ plan = (evaluate ⟨path, {}, [], source⟩ plan).moveLines lines := by
  have hSort : sortFindings [] = [] := List.mergeSort_nil
  simp only [evaluate, evaluateChecks, findingsOf_blank, hSort, List.take_nil, Evaluation.moveLines, List.map_nil]

/-- With empty lines above its text a policy has the same outcome, and its findings are so many lines further down.
That the reader of the text finds the same tree further down is assumed, and that lines can be counted in 32 bits. -/
theorem evaluate_below {path : FilePath} {text : String} {lines : Nat} {m : Model}
    (hModel : Model.ofSource path text = .ok m) (hReads : ReadsBelow lines text)
    (hLines : 1 + feeds text + lines < 2 ^ 32 - 1) :
    ∃ m', Model.ofSource path (below lines text) = .ok m' ∧
      ∀ plan, evaluate m' plan = (evaluate m plan).moveLines lines := by
  cases hText : isAllBlank text with
  | false =>
    obtain ⟨m', hBelow, hMoves⟩ := Model.exists_movesTo hModel hText hReads
    exact ⟨m', hBelow, fun plan => evaluate_movesTo hMoves (hasRoom_of_ofSource hModel hLines plan)⟩
  | true =>
    -- Such a text is not read at all, so nothing follows from what is assumed of the reader.
    have hBlank : isAllBlank (below lines text) = true := by
      rw [isAllBlank_below, hText]
    rw [ofSource_of_isAllBlank path hText] at hModel
    obtain rfl := Except.ok.inj hModel
    exact ⟨_, ofSource_of_isAllBlank path hBlank, evaluate_blank path text (below lines text) lines⟩

theorem readsBelow_typoPolicy : ReadsBelow 2 typoPolicy := by
  intro span form entries hParse
  have hTree : Toml.parse typoPolicy =
      .ok (.table ⟨0, 6⟩ .header [(⟨"ban", ⟨1, 4⟩⟩, .integer ⟨5, 6⟩ (some 1))]) := by
    cbv
  rw [hTree] at hParse
  cases hParse
  exact ⟨⟨0, 8⟩, by cbv⟩

theorem evaluate_below_typoPolicy :
    (Model.ofSource .default typoPolicy = .ok typoModel ∧ ReadsBelow 2 typoPolicy ∧
      1 + feeds typoPolicy + 2 < 2 ^ 32 - 1) ∧
    ∃ m', Model.ofSource .default (below 2 typoPolicy) = .ok m' ∧
      (evaluate m' strictPlan).findings = [typoFinding.moveLine 2] ∧ typoFinding.line? = some 2 ∧
        (typoFinding.moveLine 2).line? = some 4 := by
  have hLines : 1 + feeds typoPolicy + 2 < 2 ^ 32 - 1 := by
    rw [feeds_eq_count]
    decide
  obtain ⟨m', hBelow, hSame⟩ := evaluate_below ofSource_typoPolicy readsBelow_typoPolicy hLines
  refine ⟨⟨ofSource_typoPolicy, readsBelow_typoPolicy, hLines⟩, m', hBelow, ?_, rfl, rfl⟩
  rw [hSame, Evaluation.moveLines, findings_typoModel]
  rfl

end PolicyLint.Lint
