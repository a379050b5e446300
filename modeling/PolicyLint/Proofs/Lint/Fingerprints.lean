import Mathlib.Data.Set.Function
import PolicyLint.Proofs.Lint.Independence
import PolicyLint.Proofs.Lint.Suppression
import PolicyLint.Proofs.Lint.Walks
import PolicyLint.Proofs.Policy.Labels

/-!
# What a fingerprint tells apart

A fingerprint stands for a check, a code and a subject. Two findings of one run that say different things have
different fingerprints unless they have one subject, and there are four ways to have that: a clarification
is known by its package alone, whatever its version; a skip entry is known by its package and version, but
its message also says where it stands; and of an exception, name, version and license are put together
with signs that they may contain.
-/
namespace PolicyLint.Lint
open Text Policy License
set_option autoImplicit false

theorem append_inj_of_not_mem {sep : String} {c : Char} (hSep : sep.toList = [c]) {a a' b b' : String}
    (h : a ++ sep ++ b = a' ++ sep ++ b') (ha : c ∉ a.toList) (ha' : c ∉ a'.toList) : a = a' ∧ b = b' := by
  have hClean : ∀ {s : String}, c ∉ s.toList → ∀ d ∈ s.toList, (d == c) = false := by
    intro s hs d hd
    rw [beq_eq_false_iff_ne]
    rintro rfl
    exact hs hd
  have hStarts : ∀ cs, StartsApart (· == c) (c :: cs) := by
    rintro cs d ⟨⟩
    exact beq_self_eq_true c
  have hList := congrArg String.toList h
  simp only [String.toList_append, hSep, List.append_assoc, List.singleton_append] at hList
  obtain ⟨hFront, hBack⟩ := cut_unique hList (hClean ha) (hClean ha') (hStarts _) (hStarts _)
  exact ⟨String.toList_inj.mp hFront, String.toList_inj.mp (List.cons.inj hBack).2⟩

theorem Check.bar_not_mem_name (check : Check) : '|' ∉ check.name.toList := by
  cases check <;> decide

theorem Code.bar_not_mem_name (code : Code) : '|' ∉ code.name.toList := by
  cases code <;> decide

/-- With names that hold no bar, the text tells check and code, and the path together with the subject. -/
theorem identityText_cut {check check' code code' path path' subject subject' : String}
    (hCheck : '|' ∉ check.toList) (hCheck' : '|' ∉ check'.toList) (hCode : '|' ∉ code.toList)
    (hCode' : '|' ∉ code'.toList)
    (h : identityText check code path subject = identityText check' code' path' subject') :
    check = check' ∧ code = code' ∧ path ++ "|" ++ subject = path' ++ "|" ++ subject' := by
  have hText : ∀ a b c d : String, identityText a b c d = a ++ "|" ++ (b ++ "|" ++ (c ++ "|" ++ d)) := by
    intro a b c d
    simp only [identityText, String.append_assoc]
  rw [hText, hText] at h
  obtain ⟨hCheckEq, h⟩ := append_inj_of_not_mem (c := '|') (by decide) h hCheck hCheck'
  obtain ⟨hCodeEq, h⟩ := append_inj_of_not_mem (c := '|') (by decide) h hCode hCode'
  exact ⟨hCheckEq, hCodeEq, h⟩

theorem identityText_inj {check check' : Check} {code code' : Code} {path subject subject' : String}
    (h : identityText check.name code.name path subject =
      identityText check'.name code'.name path subject') :
    check = check' ∧ code = code' ∧ subject = subject' := by
  obtain ⟨hCheck, hCode, hRest⟩ := identityText_cut check.bar_not_mem_name check'.bar_not_mem_name
    code.bar_not_mem_name code'.bar_not_mem_name h
  exact ⟨Check.name_injective hCheck, Code.name_injective hCode, (String.append_right_inj _).mp hRest⟩

/-- The text whose digest is the fingerprint of the finding made of an issue. -/
def Issue.identity (check : Check) (path : FilePath) (i : Issue) : String :=
  identityText check.name i.code.name path.text i.subject

/-- All texts of which a run takes the digest. -/
def hashedTexts (m : Model) (plan : Plan) : List String :=
  Check.all.flatMap fun check =>
    match plan.rule? check with
    | some rule => (check.issues m (Glob.anyMatches rule.allow)).map (Issue.identity check m.path)
    | none => []

theorem identity_mem_hashedTexts {m : Model} {plan : Plan} {check : Check} {rule : Rule} {i : Issue}
    (hRule : rule ∈ plan.rule? check) (hi : i ∈ check.issues m (Glob.anyMatches rule.allow)) :
    i.identity check m.path ∈ hashedTexts m plan := by
  refine List.mem_flatMap.mpr ⟨check, check.mem_all, ?_⟩
  rw [Option.mem_def.mp hRule]
  exact List.mem_map_of_mem hi

namespace LicenseLists

theorem colon_not_mem_text (list : ListName) : ':' ∉ list.text.toList := by
  cases list <;> decide

theorem text_injective {list list' : ListName} (h : list.text = list'.text) : list = list' := by
  cases list <;> cases list' <;> first | rfl | exact absurd h (by decide)

theorem message_eq {m : Model} {allowed : String → Bool} {i j : Issue} (hi : i ∈ issues m allowed)
    (hj : j ∈ issues m allowed) (hCode : i.code = j.code) (hSubject : i.subject = j.subject) :
    i.message = j.message := by
  cases origin_of_mem_walk hi with
  | invalid e fault hFault =>
    cases origin_of_mem_walk hj with
    | invalid e' fault' hFault' =>
      obtain ⟨hList, hText⟩ := append_inj_of_not_mem (c := ':') (by decide) hSubject (colon_not_mem_text _)
        (colon_not_mem_text _)
      rw [hText, hFault'] at hFault
      cases hFault
      simp only [invalid, listField, hList, hText]
    | duplicate => cases hCode
  | duplicate e license list hFirst =>
    cases origin_of_mem_walk hj with
    | invalid => cases hCode
    | duplicate e' license' list' hFirst' =>
      obtain ⟨hList, hText⟩ := append_inj_of_not_mem (c := ':') (by decide) hSubject (colon_not_mem_text _)
        (colon_not_mem_text _)
      rw [hText, hFirst'] at hFirst
      cases hFirst
      simp only [duplicate]
      rw [text_injective hList, hText]

end LicenseLists

theorem ConfidenceThreshold.message_eq {m : Model} {i j : Issue} (hi : i ∈ issues m) (hj : j ∈ issues m) :
    i.message = j.message := by
  cases hThreshold : m.licenses.confidenceThreshold with
  | none => simp [issues, hThreshold] at hi
  | some threshold =>
    by_cases hIn : threshold.value.inUnit = true
    · simp [issues, hThreshold, hIn] at hi
    · simp only [issues, hThreshold, if_neg hIn, List.mem_singleton] at hi hj
      rw [hi, hj]

theorem UnknownKeys.message_eq {m : Model} {allowed : String → Bool} {i j : Issue} (hi : i ∈ issues m allowed)
    (hj : j ∈ issues m allowed) (hSubject : i.subject = j.subject) : i.message = j.message := by
  obtain ⟨key, -, rfl⟩ := List.mem_map.mp hi
  obtain ⟨key', -, rfl⟩ := List.mem_map.mp hj
  have hPath : key.path = key'.path := hSubject
  simp only [issue, hPath]

/-- A finding made of one of some issues. -/
def Tells (m : Model) (check : Check) (issues : List Issue) (f : Finding) : Prop :=
  ∃ i ∈ issues, ∃ severity, i.finding check severity m.path = f

theorem tells_finding {m : Model} {check : Check} {issues : List Issue} {i : Issue} (severity : Severity)
    (h : i ∈ issues) : Tells m check issues (i.finding check severity m.path) :=
  ⟨i, h, severity, rfl⟩

def Exceptions.Named.IsIn (m : Model) (e : Named) : Prop :=
  (e.entry, e.index) ∈ m.licenses.exceptions.zipIdx ∧ packageName e.entry.name = some e.name

def Clarifications.Placed.IsIn (m : Model) (c : Placed) : Prop :=
  (c.entry, c.index) ∈ m.licenses.clarify.zipIdx

def SkipEntries.Entry.IsIn (m : Model) (name : String) (e : Entry) : Prop :=
  e ∈ entries m.bans ∧ packageName e.name = some name

/-- Two findings of a policy that one subject stands for, whatever they say. -/
inductive Merged (m : Model) (f g : Finding) : Prop
  /-- They are of one kind, about clarifications of one package. -/
  | clarifications (c d : Clarifications.Placed) (hc : c.IsIn m) (hd : d.IsIn m)
      (hf : Tells m .clarifications (c.issues m) f) (hg : Tells m .clarifications (d.issues m) g)
      (hCode : f.code = g.code) (hSubject : c.subject = d.subject)
  /-- They are about the versions of entries of one list that are shown alike. -/
  | skipVersions (e e' : SkipEntries.Entry) (name name' : String) (he : e.IsIn m name) (he' : e'.IsIn m name')
      (hf : Tells m .skipEntries (e.invalidVersion m name) f)
      (hg : Tells m .skipEntries (e'.invalidVersion m name') g)
      (hList : e.list = e'.list) (hShown : e.shown name = e'.shown name')
  /-- They are of one kind, about exceptions that are shown alike. -/
  | exceptions (e e' : Exceptions.Named) (he : e.IsIn m) (he' : e'.IsIn m)
      (hf : Tells m .exceptions (e.invalidVersion m ++ e.emptyAllow m) f)
      (hg : Tells m .exceptions (e'.invalidVersion m ++ e'.emptyAllow m) g)
      (hCode : f.code = g.code) (hShown : e.shown = e'.shown)
  /-- They are about licenses of exceptions that are shown alike with their exceptions. -/
  | exceptionLicenses (e e' : Exceptions.Named) (license license' : Spanned String) (he : e.IsIn m)
      (he' : e'.IsIn m) (hf : Tells m .exceptions (e.invalidLicense m license).toList f)
      (hg : Tells m .exceptions (e'.invalidLicense m license').toList g)
      (hShown : e.shown ++ ":" ++ license.value = e'.shown ++ ":" ++ license'.value)

namespace Exceptions

/-- What an issue of the exceptions comes from, by its code. -/
def Origin (m : Model) (i : Issue) : Code → Prop
  | .missingName => i.message = i.subject ++ " does not name a package"
  | .invalidVersion => ∃ e : Named, e.IsIn m ∧ i ∈ e.invalidVersion m
  | .duplicateException => ∃ e : Named, i = e.duplicate m
  | .emptyAllow => ∃ e : Named, e.IsIn m ∧ i ∈ e.emptyAllow m
  | .invalidLicenseId => ∃ (e : Named) (license : Spanned String), e.IsIn m ∧ e.invalidLicense m license = some i
  | _ => False

theorem Named.of_mem_invalidVersion {m : Model} {e : Named} {i : Issue} (h : i ∈ e.invalidVersion m) :
    i.code = .invalidVersion ∧ i.subject = e.shown := by
  rw [invalidVersion] at h
  split at h
  · cases h
  · split at h
    · cases h
    · rw [List.mem_singleton.mp h]
      exact ⟨rfl, rfl⟩

theorem Named.of_mem_emptyAllow {m : Model} {e : Named} {i : Issue} (h : i ∈ e.emptyAllow m) :
    i.code = .emptyAllow ∧ i.subject = e.shown := by
  rw [emptyAllow] at h
  split at h
  · rw [List.mem_singleton.mp h]
    exact ⟨rfl, rfl⟩
  · cases h

theorem Named.of_invalidLicense {m : Model} {e : Named} {license : Spanned String} {i : Issue}
    (h : e.invalidLicense m license = some i) :
    i.code = .invalidLicenseId ∧ i.subject = e.shown ++ ":" ++ license.value := by
  rw [invalidLicense] at h
  split at h
  · cases h
  · cases h
    exact ⟨rfl, rfl⟩

theorem origin_of_mem_issues {m : Model} {allowed : String → Bool} {i : Issue} (h : i ∈ issues m allowed) :
    Origin m i i.code := by
  obtain ⟨⟨e, index⟩, he, seen, hi⟩ := (isSequential_walk m).exists_of_mem h
  have hEntry := List.mem_of_mem_filter he
  cases hName : packageName e.name with
  | none =>
    rw [walk_unnamed hName, List.mem_singleton] at hi
    rw [hi]
    rfl
  | some name =>
    have hIn : Named.IsIn m ⟨index, name, e⟩ := ⟨hEntry, hName⟩
    rw [walk_named hName, Named.issues] at hi
    simp only [List.mem_append, List.mem_filterMap] at hi
    rcases hi with ((hi | hi) | hi) | ⟨license, -, hi⟩
    · rw [(Named.of_mem_invalidVersion hi).1]
      exact ⟨_, hIn, hi⟩
    · split at hi
      · rw [List.mem_singleton.mp hi]
        exact ⟨_, rfl⟩
      · cases hi
    · rw [(Named.of_mem_emptyAllow hi).1]
      exact ⟨_, hIn, hi⟩
    · rw [(Named.of_invalidLicense hi).1]
      exact ⟨_, license, hIn, hi⟩

theorem message_eq_or_merged {m : Model} {allowed : String → Bool} {i j : Issue} (severity : Severity)
    (hi : i ∈ issues m allowed) (hj : j ∈ issues m allowed) (hCode : i.code = j.code)
    (hSubject : i.subject = j.subject) : i.message = j.message ∨
      Merged m (i.finding .exceptions severity m.path) (j.finding .exceptions severity m.path) := by
  have hOrigin := origin_of_mem_issues hi
  have hOrigin' := origin_of_mem_issues hj
  rw [← hCode] at hOrigin'
  have hName : (i.finding .exceptions severity m.path).code = (j.finding .exceptions severity m.path).code :=
    congrArg Code.name hCode
  cases hKind : i.code <;> rw [hKind] at hOrigin hOrigin'
  case missingName =>
    rw [Origin] at hOrigin hOrigin'
    exact .inl (by rw [hOrigin, hOrigin', hSubject])
  case invalidVersion =>
    obtain ⟨e, he, hi⟩ := hOrigin
    obtain ⟨e', he', hj⟩ := hOrigin'
    rw [(Named.of_mem_invalidVersion hi).2, (Named.of_mem_invalidVersion hj).2] at hSubject
    exact .inr (.exceptions e e' he he' (tells_finding _ (List.mem_append_left _ hi))
      (tells_finding _ (List.mem_append_left _ hj)) hName hSubject)
  case duplicateException =>
    obtain ⟨e, rfl⟩ := hOrigin
    obtain ⟨e', rfl⟩ := hOrigin'
    have hShown : e.shown = e'.shown := hSubject
    exact .inl (by simp only [Named.duplicate, hShown])
  case emptyAllow =>
    obtain ⟨e, he, hi⟩ := hOrigin
    obtain ⟨e', he', hj⟩ := hOrigin'
    rw [(Named.of_mem_emptyAllow hi).2, (Named.of_mem_emptyAllow hj).2] at hSubject
    exact .inr (.exceptions e e' he he' (tells_finding _ (List.mem_append_right _ hi))
      (tells_finding _ (List.mem_append_right _ hj)) hName hSubject)
  case invalidLicenseId =>
    obtain ⟨e, license, he, hi⟩ := hOrigin
    obtain ⟨e', license', he', hj⟩ := hOrigin'
    rw [(Named.of_invalidLicense hi).2, (Named.of_invalidLicense hj).2] at hSubject
    exact .inr (.exceptionLicenses e e' license license' he he'
      (tells_finding _ (Option.mem_toList.mpr hi)) (tells_finding _ (Option.mem_toList.mpr hj)) hSubject)
  all_goals exact hOrigin.elim

end Exceptions

namespace Clarifications

theorem Placed.subject_of_mem_issues {m : Model} {c : Placed} {i : Issue} (h : i ∈ c.issues m) :
    i.subject = c.subject := by
  simp only [issues, List.mem_append, List.mem_filterMap] at h
  rcases h with (((h | h) | h) | h) | ⟨file, -, h⟩
  · rw [nameIssues] at h
    split at h
    · cases h
    · rw [List.mem_singleton.mp h]
      rfl
  · rw [versionIssues] at h
    split at h
    · cases h
    · split at h
      · cases h
      · rw [List.mem_singleton.mp h]
        rfl
  · rw [expressionIssues] at h
    split at h
    · rw [List.mem_singleton.mp h]
      rfl
    · split at h
      · cases h
      · rw [List.mem_singleton.mp h]
        rfl
  · rw [noFilesIssues] at h
    split at h
    · rw [List.mem_singleton.mp h]
      rfl
    · cases h
  · obtain ⟨problem, -, rfl⟩ := Option.map_eq_some_iff.mp h
    rfl

theorem exists_of_mem_issues {m : Model} {allowed : String → Bool} {i : Issue} (h : i ∈ issues m allowed) :
    ∃ c : Placed, c.IsIn m ∧ i ∈ c.issues m := by
  obtain ⟨⟨c, index⟩, hc, hi⟩ := List.mem_flatMap.mp h
  exact ⟨⟨index, c⟩, List.mem_of_mem_filter hc, hi⟩

theorem merged {m : Model} {allowed : String → Bool} {i j : Issue} (severity : Severity)
    (hi : i ∈ issues m allowed) (hj : j ∈ issues m allowed) (hCode : i.code = j.code)
    (hSubject : i.subject = j.subject) :
    Merged m (i.finding .clarifications severity m.path) (j.finding .clarifications severity m.path) := by
  obtain ⟨c, hc, hi⟩ := exists_of_mem_issues hi
  obtain ⟨d, hd, hj⟩ := exists_of_mem_issues hj
  rw [Placed.subject_of_mem_issues hi, Placed.subject_of_mem_issues hj] at hSubject
  exact .clarifications c d hc hd (tells_finding _ hi) (tells_finding _ hj) (congrArg Code.name hCode) hSubject

end Clarifications

namespace SkipEntries

/-- What an issue of the skip entries comes from, by its code. -/
def Origin (m : Model) (i : Issue) : Code → Prop
  | .missingName => i.message = i.subject ++ " does not name a package"
  | .invalidVersion => ∃ (e : Entry) (name : String), e.IsIn m name ∧ i ∈ e.invalidVersion m name
  | .duplicateSkip => ∃ (e : Entry) (name : String), i = e.duplicate m name
  | _ => False

theorem Entry.of_mem_invalidVersion {m : Model} {e : Entry} {name : String} {i : Issue}
    (h : i ∈ e.invalidVersion m name) : i.code = .invalidVersion ∧ i.subject = e.subject name := by
  rw [invalidVersion] at h
  split at h
  · cases h
  · split at h
    · cases h
    · rw [List.mem_singleton.mp h]
      exact ⟨rfl, rfl⟩

theorem origin_of_mem_issues {m : Model} {allowed : String → Bool} {i : Issue} (h : i ∈ issues m allowed) :
    Origin m i i.code := by
  obtain ⟨e, he, seen, hi⟩ := (isSequential_walk m).exists_of_mem h
  have hEntry := List.mem_of_mem_filter he
  cases hName : packageName e.name with
  | none =>
    rw [walk_unnamed hName, List.mem_singleton] at hi
    rw [hi]
    rfl
  | some name =>
    rw [walk_named hName, List.mem_append] at hi
    rcases hi with hi | hi
    · rw [(Entry.of_mem_invalidVersion hi).1]
      exact ⟨e, name, ⟨hEntry, hName⟩, hi⟩
    · split at hi
      · rw [List.mem_singleton.mp hi]
        exact ⟨e, name, rfl⟩
      · cases hi

theorem colon_not_mem_text (list : ListName) : ':' ∉ list.text.toList := by
  cases list <;> decide

theorem text_injective {list list' : ListName} (h : list.text = list'.text) : list = list' := by
  cases list <;> cases list' <;> first | rfl | exact absurd h (by decide)

theorem Entry.subject_inj {e e' : Entry} {name name' : String} (h : e.subject name = e'.subject name') :
    e.list = e'.list ∧ e.shown name = e'.shown name' := by
  obtain ⟨hList, hShown⟩ := append_inj_of_not_mem (c := ':') (by decide) h (colon_not_mem_text _)
    (colon_not_mem_text _)
  exact ⟨text_injective hList, hShown⟩

theorem message_eq_or_merged {m : Model} {allowed : String → Bool} {i j : Issue} (severity : Severity)
    (hi : i ∈ issues m allowed) (hj : j ∈ issues m allowed) (hCode : i.code = j.code)
    (hSubject : i.subject = j.subject) : i.message = j.message ∨
      Merged m (i.finding .skipEntries severity m.path) (j.finding .skipEntries severity m.path) := by
  have hOrigin := origin_of_mem_issues hi
  have hOrigin' := origin_of_mem_issues hj
  rw [← hCode] at hOrigin'
  cases hKind : i.code <;> rw [hKind] at hOrigin hOrigin'
  case missingName =>
    rw [Origin] at hOrigin hOrigin'
    exact .inl (by rw [hOrigin, hOrigin', hSubject])
  case invalidVersion =>
    obtain ⟨e, name, he, hi⟩ := hOrigin
    obtain ⟨e', name', he', hj⟩ := hOrigin'
    rw [(Entry.of_mem_invalidVersion hi).2, (Entry.of_mem_invalidVersion hj).2] at hSubject
    obtain ⟨hList, hShown⟩ := Entry.subject_inj hSubject
    exact .inr (.skipVersions e e' name name' he he' (tells_finding _ hi) (tells_finding _ hj) hList hShown)
  case duplicateSkip =>
    obtain ⟨e, name, rfl⟩ := hOrigin
    obtain ⟨e', name', rfl⟩ := hOrigin'
    obtain ⟨hList, hShown⟩ := Entry.subject_inj hSubject
    exact .inl (by simp only [Entry.duplicate, hList, hShown])
  all_goals exact hOrigin.elim

end SkipEntries

theorem Check.message_eq_or_merged {m : Model} {allowed : String → Bool} {check : Check} {i j : Issue}
    (severity : Severity) (hi : i ∈ check.issues m allowed) (hj : j ∈ check.issues m allowed)
    (hCode : i.code = j.code) (hSubject : i.subject = j.subject) : i.message = j.message ∨
      Merged m (i.finding check severity m.path) (j.finding check severity m.path) := by
  cases check with
  | licenseLists => exact .inl (LicenseLists.message_eq hi hj hCode hSubject)
  | confidenceThreshold => exact .inl (ConfidenceThreshold.message_eq hi hj)
  | exceptions => exact Exceptions.message_eq_or_merged severity hi hj hCode hSubject
  | clarifications => exact .inr (Clarifications.merged severity hi hj hCode hSubject)
  | skipEntries => exact SkipEntries.message_eq_or_merged severity hi hj hCode hSubject
  | unknownKeys => exact .inl (UnknownKeys.message_eq hi hj hSubject)

theorem Tells.check_eq {m : Model} {check : Check} {is : List Issue} {f : Finding} (h : Tells m check is f) :
    f.check = check.name := by
  obtain ⟨i, -, severity, rfl⟩ := h
  rfl

theorem Tells.code_eq {m : Model} {check : Check} {is : List Issue} {f : Finding} {code : Code}
    (h : Tells m check is f) (hCode : ∀ i ∈ is, i.code = code) : f.code = code.name := by
  obtain ⟨i, hi, severity, rfl⟩ := h
  exact congrArg Code.name (hCode i hi)

theorem Tells.fingerprint_eq {m : Model} {check : Check} {is js : List Issue} {f g : Finding} {subject : String}
    (hf : Tells m check is f) (hg : Tells m check js g) (hCode : f.code = g.code)
    (hi : ∀ i ∈ is, i.subject = subject) (hj : ∀ j ∈ js, j.subject = subject) :
    f.fingerprint = g.fingerprint := by
  obtain ⟨i, hMem, severity, rfl⟩ := hf
  obtain ⟨j, hMem', severity', rfl⟩ := hg
  have hCodes : i.code.name = j.code.name := hCode
  simp only [Issue.finding, hCodes, hi i hMem, hj j hMem']

/-- Merged findings have one fingerprint, whatever the digest does. -/
theorem Merged.fingerprint_eq {m : Model} {f g : Finding} (h : Merged m f g) : f.fingerprint = g.fingerprint := by
  cases h with
  | clarifications c d hc hd hf hg hCode hSubject =>
    exact hf.fingerprint_eq hg hCode (fun i hi => Clarifications.Placed.subject_of_mem_issues hi)
      fun j hj => (Clarifications.Placed.subject_of_mem_issues hj).trans hSubject.symm
  | skipVersions e e' name name' he he' hf hg hList hShown =>
    have hCode := (hf.code_eq fun i hi => (SkipEntries.Entry.of_mem_invalidVersion hi).1).trans
      (hg.code_eq fun j hj => (SkipEntries.Entry.of_mem_invalidVersion hj).1).symm
    have hSubject : e'.subject name' = e.subject name := by
      rw [SkipEntries.Entry.subject, SkipEntries.Entry.subject, hList, hShown]
    exact hf.fingerprint_eq hg hCode (fun i hi => (SkipEntries.Entry.of_mem_invalidVersion hi).2)
      fun j hj => (SkipEntries.Entry.of_mem_invalidVersion hj).2.trans hSubject
  | exceptions e e' he he' hf hg hCode hShown =>
    have hSubject : ∀ (e : Exceptions.Named), ∀ i ∈ e.invalidVersion m ++ e.emptyAllow m, i.subject = e.shown := by
      intro e i hi
      rcases List.mem_append.mp hi with hi | hi
      · exact (Exceptions.Named.of_mem_invalidVersion hi).2
      · exact (Exceptions.Named.of_mem_emptyAllow hi).2
    exact hf.fingerprint_eq hg hCode (hSubject e) fun j hj => (hSubject e' j hj).trans hShown.symm
  | exceptionLicenses e e' license license' he he' hf hg hShown =>
    have hOf : ∀ (e : Exceptions.Named) (license : Spanned String), ∀ i ∈ (e.invalidLicense m license).toList,
        i.code = .invalidLicenseId ∧ i.subject = e.shown ++ ":" ++ license.value := fun e license i hi =>
      Exceptions.Named.of_invalidLicense (Option.mem_toList.mp hi)
    have hCode := (hf.code_eq fun i hi => (hOf e license i hi).1).trans
      (hg.code_eq fun j hj => (hOf e' license' j hj).1).symm
    exact hf.fingerprint_eq hg hCode (fun i hi => (hOf e license i hi).2)
      fun j hj => (hOf e' license' j hj).2.trans hShown.symm

theorem mem_findingsOf_of_mem_findings {m : Model} {plan : Plan} {f : Finding}
    (h : f ∈ (evaluate m plan).findings) : f ∈ findingsOf m plan Check.all :=
  (sortFindings_perm _).mem_iff.mp (List.mem_of_mem_take h)

/-- Two findings of a run that say different things have different fingerprints, exactly if they are not
merged. -/
theorem fingerprint_ne_iff_not_merged (m : Model) (plan : Plan)
    (hDigest : Set.InjOn Digest.sha256 {text | text ∈ hashedTexts m plan}) {f g : Finding}
    (hf : f ∈ (evaluate m plan).findings) (hg : g ∈ (evaluate m plan).findings)
    (hDiffer : (f.check, f.code, f.message) ≠ (g.check, g.code, g.message)) :
    f.fingerprint ≠ g.fingerprint ↔ ¬ Merged m f g := by
  rw [not_iff_not]
  refine ⟨fun hSame => ?_, Merged.fingerprint_eq⟩
  obtain ⟨check, rule, hRule, i, hi, rfl⟩ := mem_findingsOf_iff.mp (mem_findingsOf_of_mem_findings hf)
  obtain ⟨check', rule', hRule', j, hj, rfl⟩ := mem_findingsOf_iff.mp (mem_findingsOf_of_mem_findings hg)
  have hText : i.identity check m.path = j.identity check' m.path :=
    hDigest (identity_mem_hashedTexts hRule hi) (identity_mem_hashedTexts hRule' hj) (Option.some.inj hSame)
  obtain ⟨rfl, hCode, hSubject⟩ := identityText_inj hText
  obtain rfl : rule = rule' := Option.some.inj (hRule.symm.trans hRule')
  refine (Check.message_eq_or_merged rule.severity hi hj hCode hSubject).resolve_left fun hMessage => ?_
  apply hDiffer
  simp only [Issue.finding, hCode, hMessage]

theorem mem_findings_iff {m : Model} {plan : Plan} {f : Finding}
    (h : (findingsOf m plan Check.all).length ≤ plan.maxFindings) :
    f ∈ (evaluate m plan).findings ↔ f ∈ findingsOf m plan Check.all := by
  rw [findings_eq_sortFindings (by rwa [(accounts_evaluate m plan).total])]
  exact (sortFindings_perm _).mem_iff

theorem hashedTexts_repeatedPolicy : hashedTexts repeatedPolicy strictPlan =
    ["licenses.allow_identifiers|invalid_license_id|deny.toml|allow:(MIT)",
      "licenses.allow_identifiers|duplicate_license|deny.toml|deny:MIT"] := by
  decide +kernel

theorem fingerprint_ne_repeatedPolicy :
    Set.InjOn Digest.sha256 {text | text ∈ hashedTexts repeatedPolicy strictPlan} ∧
    ∃ f ∈ (evaluate repeatedPolicy strictPlan).findings, ∃ g ∈ (evaluate repeatedPolicy strictPlan).findings,
      (f.check, f.code, f.message) ≠ (g.check, g.code, g.message) ∧ f.fingerprint ≠ g.fingerprint := by
  have hDigest : Set.InjOn Digest.sha256 {text | text ∈ hashedTexts repeatedPolicy strictPlan} := by
    have hNe : Digest.sha256 "licenses.allow_identifiers|invalid_license_id|deny.toml|allow:(MIT)" ≠
        Digest.sha256 "licenses.allow_identifiers|duplicate_license|deny.toml|deny:MIT" := by
      decide +kernel
    simp only [hashedTexts_repeatedPolicy, List.mem_cons, List.not_mem_nil, or_false]
    rintro a (rfl | rfl) b (rfl | rfl) hSame
    · rfl
    · exact absurd hSame hNe
    · exact absurd hSame.symm hNe
    · rfl
  obtain ⟨f, g, hFound⟩ := List.length_eq_two.mp findings_repeatedPolicy.2
  have hMessages : ((findingsOf repeatedPolicy strictPlan Check.all).map Finding.message).Nodup := by
    decide +kernel
  have hChecks : (findingsOf repeatedPolicy strictPlan Check.all).map Finding.check =
      ["licenses.allow_identifiers", "licenses.allow_identifiers"] := by
    decide +kernel
  rw [hFound] at hMessages hChecks
  have hDiffer : (f.check, f.code, f.message) ≠ (g.check, g.code, g.message) := by
    intro hSame
    simp [(Prod.mk.inj (Prod.mk.inj hSame).2).2] at hMessages
  have hMem : ∀ h ∈ [f, g], h ∈ (evaluate repeatedPolicy strictPlan).findings := fun h hh =>
    (mem_findings_iff (by rw [findings_repeatedPolicy.2]; decide)).mpr (hFound ▸ hh)
  have hf := hMem f List.mem_cons_self
  have hg := hMem g (List.mem_cons_of_mem _ List.mem_cons_self)
  refine ⟨hDigest, f, hf, g, hg, hDiffer, ?_⟩
  rw [fingerprint_ne_iff_not_merged _ _ hDigest hf hg hDiffer]
  -- Merged findings are of other checks than this one.
  have hCheck : f.check = "licenses.allow_identifiers" := (List.cons.inj hChecks).1
  rintro (⟨_, _, _, _, hTells, _⟩ | ⟨_, _, _, _, _, _, hTells, _⟩ | ⟨_, _, _, _, hTells, _⟩ |
    ⟨_, _, _, _, _, _, hTells, _⟩) <;> exact absurd (hTells.check_eq.symm.trans hCheck) (by decide)

/-- A clarification of one package for one of its versions. -/
def ringClarification (version expression : String) : Clarification where
  name := some ⟨"ring", ⟨0, 0⟩⟩
  version := some ⟨version, ⟨0, 0⟩⟩
  expression := some ⟨expression, ⟨0, 0⟩⟩
  licenseFiles := [⟨⟨"LICENSE", ⟨0, 0⟩⟩, ⟨1, ⟨0, 0⟩⟩⟩]

def ringPolicy : Model :=
  .ofDocument .default {
    licenses := some { clarify := [ringClarification "0.16" "ISC or MIT", ringClarification "0.17" "ISC OR"] } }

theorem findings_ringPolicy :
    (findingsOf ringPolicy strictPlan Check.all).map Finding.fingerprint =
      List.replicate 2 (some "d82be4867cd8c358b21416d28cfb726a8cad172741524b940790f755294d0aa0") ∧
    ((findingsOf ringPolicy strictPlan Check.all).map Finding.message).Nodup ∧
    hashedTexts ringPolicy strictPlan =
      List.replicate 2 "licenses.clarify|invalid_expression|deny.toml|ring" := by
  decide +kernel

/-- Different faults in the clarifications of two versions have one fingerprint. -/
theorem fingerprint_shared_in_ringPolicy :
    Set.InjOn Digest.sha256 {text | text ∈ hashedTexts ringPolicy strictPlan} ∧
    ∃ f ∈ (evaluate ringPolicy strictPlan).findings, ∃ g ∈ (evaluate ringPolicy strictPlan).findings,
      (f.check, f.code, f.message) ≠ (g.check, g.code, g.message) ∧ f.fingerprint = g.fingerprint := by
  obtain ⟨hFingerprints, hMessages, hTexts⟩ := findings_ringPolicy
  have hTotal : (findingsOf ringPolicy strictPlan Check.all).length = 2 := by
    rw [← List.length_map Finding.fingerprint, hFingerprints, List.length_replicate]
  obtain ⟨f, g, hFound⟩ := List.length_eq_two.mp hTotal
  have hMem : ∀ h ∈ [f, g], h ∈ (evaluate ringPolicy strictPlan).findings := fun h hh =>
    (mem_findings_iff (by rw [hTotal]; decide)).mpr (hFound ▸ hh)
  rw [hFound] at hFingerprints hMessages
  have hf := (List.eq_replicate_iff.mp hFingerprints).2 f.fingerprint (by simp)
  have hg := (List.eq_replicate_iff.mp hFingerprints).2 g.fingerprint (by simp)
  refine ⟨?_, f, hMem f (by simp), g, hMem g (by simp), fun hSame => ?_, hf.trans hg.symm⟩
  · rw [hTexts]
    intro a ha b hb _
    exact (List.eq_of_mem_replicate ha).trans (List.eq_of_mem_replicate hb).symm
  · simp [(Prod.mk.inj (Prod.mk.inj hSame).2).2] at hMessages

end PolicyLint.Lint
