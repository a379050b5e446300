import PolicyLint.Proofs.Glob.Literals
import PolicyLint.Proofs.Json.Members
import PolicyLint.Proofs.Lint.Fingerprints
import PolicyLint.Proofs.Lint.LicenseIssues

/-!
# Allowing a license as a finding shows it

A pattern is matched against an entry of the license lists as it stands there, but for the blanks around it. A
finding shows an entry that is no license with these blanks, and a license that is listed again as the check
writes it. So to allow what a finding shows makes it disappear unless the entries are spelled in another way.
-/
namespace PolicyLint.Lint
open Text Policy License
set_option autoImplicit false

namespace LicenseLists

variable {m : Model} {es : List Entry} {code : Code} {list : ListName} {shown : String}

/-- What an issue about a license of a list has to be due to. -/
inductive Concerns (es : List Entry) (list : ListName) (shown : String) : Code → Prop
  | invalid {e : Entry} (he : e ∈ es) (hList : e.list = list) (hShown : e.license.value = shown)
    (hWritten : e.written = none) : Concerns es list shown .invalidLicenseId
  | duplicate {a b : Entry} (hPair : [a, b].Sublist es) (hList : b.list = list) (ha : a.written = some shown)
    (hb : b.written = some shown) : Concerns es list shown .duplicateLicense

theorem Concerns.mono {es' : List Entry} (h : Concerns es list shown code) (hSub : es.Sublist es') :
    Concerns es' list shown code := by
  cases h with
  | invalid he hList hShown hWritten => exact .invalid (hSub.subset he) hList hShown hWritten
  | duplicate hPair hList ha hb => exact .duplicate (hPair.trans hSub) hList ha hb

theorem subject_inj {list' : ListName} {shown' : String}
    (h : list.text ++ ":" ++ shown = list'.text ++ ":" ++ shown') : list = list' ∧ shown = shown' := by
  obtain ⟨hList, hShown⟩ :=
    append_inj_of_not_mem (c := ':') (by decide) h (colon_not_mem_text _) (colon_not_mem_text _)
  exact ⟨text_injective hList, hShown⟩

/-- What an issue says: the license that it is about, and the list. -/
structure Says (i : Issue) (code : Code) (list : ListName) (shown : String) : Prop where
  code_eq : i.code = code
  subject_eq : i.subject = list.text ++ ":" ++ shown
  list_eq : (Json.Value.ofMembers i.data).get? "list" = some (.string list.text)
  license_eq : (Json.Value.ofMembers i.data).get? "license" = some (.string shown)

theorem says_invalid (m : Model) (e : Entry) (fault : Fault) :
    Says (invalid m e fault) .invalidLicenseId e.list e.license.value where
  code_eq := rfl
  subject_eq := rfl
  list_eq := Json.Members.find?_ofList (by simp [invalid]) (by simp [invalid])
  license_eq := Json.Members.find?_ofList (by simp [invalid]) (by simp [invalid])

theorem nodup_keys_duplicate (m : Model) (e : Entry) (license : Requirement) (first : ListName) :
    ((duplicate m e license first).data.map Prod.fst).Nodup := by
  unfold duplicate
  dsimp only
  split <;> simp

theorem says_duplicate (m : Model) (e : Entry) (license : Requirement) (first : ListName) :
    Says (duplicate m e license first) .duplicateLicense e.list license.render where
  code_eq := rfl
  subject_eq := rfl
  list_eq := Json.Members.find?_ofList (nodup_keys_duplicate m e license first) (by simp [duplicate])
  license_eq := Json.Members.find?_ofList (nodup_keys_duplicate m e license first) (by simp [duplicate])

theorem exists_says_of_mem {allowed : String → Bool} {i : Issue} (h : i ∈ issues m allowed) :
    ∃ code list shown, Says i code list shown ∧ Concerns (remaining m allowed) list shown code := by
  rw [issues_eq_eachAfter, mem_eachAfter_iff] at h
  obtain ⟨before, e, after, hEntries, hSaid⟩ := h
  rw [hEntries]
  cases hParse : Requirement.parse e.license.value with
  | error fault =>
    rw [Entry.issueAfter_of_error hParse] at hSaid
    cases hSaid
    exact ⟨_, _, _, says_invalid m e fault, .invalid (by simp) rfl rfl (Entry.written_of_error hParse)⟩
  | ok license =>
    rw [Entry.issueAfter_of_ok hParse] at hSaid
    obtain ⟨first, hFirst, rfl⟩ := Option.map_eq_some_iff.mp hSaid
    have hPair : [first, e].Sublist (before ++ e :: after) :=
      (List.singleton_sublist.mpr (List.mem_of_find?_eq_some hFirst)).append (by simp)
    have hLicense : first.written = some license.render :=
      Entry.written_of_ok (by simpa using List.find?_some hFirst)
    exact ⟨_, _, _, says_duplicate m e license first.list,
      .duplicate hPair rfl hLicense (Entry.written_of_ok hParse)⟩

theorem exists_mem_of_concerns {allowed : String → Bool} (h : Concerns (remaining m allowed) list shown code) :
    ∃ i ∈ issues m allowed, Says i code list shown := by
  simp only [issues_eq_eachAfter, mem_eachAfter_iff]
  cases h with
  | @invalid e he hList hShown hWritten =>
    subst hList hShown
    obtain ⟨before, after, hEntries⟩ := List.append_of_mem he
    cases hParse : Requirement.parse e.license.value with
    | error fault =>
      exact ⟨_, ⟨before, e, after, hEntries, Entry.issueAfter_of_error hParse⟩, says_invalid m e fault⟩
    | ok license => cases (Entry.written_of_ok hParse).symm.trans hWritten
  | @duplicate a b hPair hList ha hb =>
    subst hList
    obtain ⟨front, back, hParts, hFront, hBack⟩ := List.cons_sublist_iff.mp hPair
    obtain ⟨between, after, rfl⟩ := List.append_of_mem (List.singleton_sublist.mp hBack)
    cases hParse : Requirement.parse b.license.value with
    | error fault => cases (Entry.written_of_error hParse).symm.trans hb
    | ok license =>
      cases (Entry.written_of_ok hParse).symm.trans hb
      have hSame := (Entry.written_eq_some_render_iff hParse a).mp ha
      -- An entry before `a` may read as the license too, and is then named in the place of `a`.
      have hFound : ((front ++ between).find? fun e => Requirement.parse e.license.value = .ok license).isSome := by
        rw [List.find?_isSome]
        exact ⟨a, List.mem_append_left _ hFront, by simpa using hSame⟩
      obtain ⟨first, hFirst⟩ := Option.isSome_iff_exists.mp hFound
      refine ⟨_, ⟨front ++ between, b, after, by rw [hParts, List.append_assoc], ?_⟩,
        says_duplicate m b license first.list⟩
      rw [Entry.issueAfter_of_ok hParse, hFirst, Option.map_some]

/-- A finding whose entries are spelled otherwise than it shows them: there are blanks around an entry that is no
license, or a license is listed in two places and in neither of them as it is shown. -/
def IsRespelled (es : List Entry) (shown : String) (f : Finding) : Prop :=
  (f.code = Code.invalidLicenseId.name ∧ trim shown ≠ shown) ∨
  (f.code = Code.duplicateLicense.name ∧ ∃ a b, [a, b].Sublist es ∧
    f.data.get? "list" = some (.string b.list.text) ∧ (a.written = some shown ∧ trim a.license.value ≠ shown) ∧
    b.written = some shown ∧ trim b.license.value ≠ shown)

/-- With one more text allowed, the entries that are spelled like it are passed over too. -/
theorem remaining_append {globs : List String} {pattern : String}
    (hPattern : ∀ text, Glob.anyMatches [pattern] text = true ↔ text = shown)
    (hShallow : ∀ glob ∈ globs, Glob.isShallow glob = true) (m : Model) :
    remaining m (Glob.anyMatches (globs ++ [pattern])) =
      (remaining m (Glob.anyMatches globs)).filter fun e => trim e.license.value ≠ shown := by
  have hPatternShallow : Glob.isShallow pattern = true :=
    ((Glob.anyMatches_eq_true_iff _ _).mp ((hPattern shown).mpr rfl)).1 pattern List.mem_cons_self
  have hMatches : ∀ text, Glob.anyMatches (globs ++ [pattern]) text =
      (Glob.anyMatches globs text || decide (text = shown)) := by
    intro text
    rw [Glob.anyMatches_append, List.all_eq_true.mpr hShallow, List.all_cons, hPatternShallow]
    simp only [List.all_nil, Bool.true_and, ← hPattern, Bool.decide_eq_true]
  rw [remaining, remaining, List.filter_filter]
  apply List.filter_congr
  intro e _
  simp only [Entry.isAllowed, hMatches, Bool.not_or, Bool.and_comm, decide_not, ne_eq]

/-- A glob that nests too deeply leaves the others without effect, whatever comes behind it. -/
theorem remaining_append_of_deep {globs : List String} {glob : String} (hGlob : glob ∈ globs)
    (hDeep : Glob.isShallow glob = false) (pattern : String) (m : Model) :
    remaining m (Glob.anyMatches (globs ++ [pattern])) = remaining m (Glob.anyMatches globs) := by
  have hAll : globs.all Glob.isShallow = false := List.all_eq_false.mpr ⟨glob, hGlob, by simp [hDeep]⟩
  have hMatches : Glob.anyMatches (globs ++ [pattern]) = Glob.anyMatches globs := by
    funext text
    rw [Glob.anyMatches_append, hAll, Bool.false_and, Bool.or_false, Glob.anyMatches, hAll, Bool.false_and,
      Bool.and_false]
  rw [hMatches]

variable {i : Issue}

theorem Says.code_finding (h : Says i code list shown) (severity : Severity) (path : FilePath) :
    (i.finding .licenseLists severity path).code = code.name :=
  congrArg Code.name h.code_eq

theorem Says.identity_eq (h : Says i code list shown) {path : FilePath} : i.identity .licenseLists path =
    identityText Check.licenseLists.name code.name path.text (list.text ++ ":" ++ shown) := by
  rw [Issue.identity, h.code_eq, h.subject_eq]

/-- Findings that say the same have one code and one fingerprint. -/
theorem Says.identifies {i' : Issue} (h : Says i code list shown) (h' : Says i' code list shown)
    (severity severity' : Severity) (path : FilePath) :
    (i'.finding .licenseLists severity' path).code = (i.finding .licenseLists severity path).code ∧
      (i'.finding .licenseLists severity' path).fingerprint = (i.finding .licenseLists severity path).fingerprint := by
  constructor
  · rw [h.code_finding, h'.code_finding]
  · exact congrArg (fun text => some (Digest.sha256 text)) (h'.identity_eq.trans h.identity_eq.symm)

/-- What is said of some entries is said of those that are not spelled as it shows them, if it is respelled. -/
theorem concerns_filter_iff (hSays : Says i code list shown) (h : Concerns es list shown code)
    (severity : Severity) (path : FilePath) :
    Concerns (es.filter fun e => trim e.license.value ≠ shown) list shown code ↔
      IsRespelled es shown (i.finding .licenseLists severity path) := by
  rw [IsRespelled, hSays.code_finding]
  cases h with
  | @invalid e he hList hShown hWritten =>
    rw [or_iff_left (fun hCode => absurd hCode.1 (by decide)), and_iff_right rfl]
    constructor
    · rintro (⟨he', -, rfl, -⟩ | -)
      simpa using (List.mem_filter.mp he').2
    · intro hTrim
      rw [← hShown] at hTrim ⊢
      exact .invalid (List.mem_filter.mpr ⟨he, by simpa using hTrim⟩) hList rfl hWritten
  | duplicate =>
    rw [or_iff_right (fun hCode => absurd hCode.1 (by decide)), and_iff_right rfl]
    constructor
    · rintro (- | @⟨a, b, hPair, rfl, ha, hb⟩)
      have hLeft : ∀ e ∈ [a, b], trim e.license.value ≠ shown := fun e he => by
        simpa using (List.mem_filter.mp (hPair.subset he)).2
      exact ⟨a, b, hPair.trans List.filter_sublist, hSays.list_eq, ⟨ha, hLeft a (by simp)⟩, hb,
        hLeft b (by simp)⟩
    · rintro ⟨a, b, hPair, hList, ⟨ha, hLeft⟩, hb, hLeft'⟩
      have hSame : b.list = list := text_injective (by simpa using hList.symm.trans hSays.list_eq)
      have hKept := hPair.filter fun e => trim e.license.value ≠ shown
      rw [List.filter_eq_self.mpr (by simp [hLeft, hLeft'])] at hKept
      exact .duplicate hKept hSame ha hb

variable {plan plan' : Plan} {rule rule' : Rule} {f : Finding}

theorem mem_findings_iff_of_rule (hRule : rule ∈ plan.rule? .licenseLists) : f ∈ Check.licenseLists.findings m plan ↔
    ∃ i ∈ issues m (Glob.anyMatches rule.allow), i.finding .licenseLists rule.severity m.path = f := by
  rw [Check.findings, Option.mem_def.mp hRule, List.mem_map]
  rfl

/-- If a second run looks at some of the entries only, a finding of the first run comes up again as long as the
remaining ones give rise to it. -/
theorem exists_finding_iff_concerns (hRule : rule ∈ plan.rule? .licenseLists)
    (hRule' : rule' ∈ plan'.rule? .licenseLists)
    (hSub : (remaining m (Glob.anyMatches rule'.allow)).Sublist (remaining m (Glob.anyMatches rule.allow)))
    (hDigest : Set.InjOn Digest.sha256 {text | text ∈ hashedTexts m plan})
    (hi : i ∈ issues m (Glob.anyMatches rule.allow)) (hSays : Says i code list shown)
    (hf : i.finding .licenseLists rule.severity m.path = f) :
    (∃ f' ∈ Check.licenseLists.findings m plan', f'.code = f.code ∧ f'.fingerprint = f.fingerprint) ↔
      Concerns (remaining m (Glob.anyMatches rule'.allow)) list shown code := by
  subst hf
  constructor
  · rintro ⟨f', hf', -, hPrint⟩
    obtain ⟨i', hi', rfl⟩ := (mem_findings_iff_of_rule hRule').mp hf'
    obtain ⟨code', list', shown', hSays', hConcerns'⟩ := exists_says_of_mem hi'
    -- The first run says the same, so it has taken the digest of what identifies `f'`.
    obtain ⟨j, hj, hSays''⟩ := exists_mem_of_concerns (hConcerns'.mono hSub)
    have hSame : i.identity .licenseLists m.path = j.identity .licenseLists m.path := by
      apply hDigest (identity_mem_hashedTexts hRule hi) (identity_mem_hashedTexts hRule hj)
      rw [hSays''.identity_eq, ← hSays'.identity_eq]
      exact (Option.some.inj hPrint).symm
    rw [hSays.identity_eq, hSays''.identity_eq] at hSame
    obtain ⟨-, rfl, hSubject⟩ := identityText_inj hSame
    obtain ⟨rfl, rfl⟩ := subject_inj hSubject
    exact hConcerns'
  · intro h
    obtain ⟨i', hi', hSays'⟩ := exists_mem_of_concerns h
    exact ⟨_, (mem_findings_iff_of_rule hRule').mpr ⟨i', hi', rfl⟩, hSays.identifies hSays' _ _ _⟩

/-- A finding stays although what it shows as its license is allowed, exactly if another glob nests too deeply or the
finding is respelled. -/
theorem finding_persists_iff {pattern : String} (hRule : rule ∈ plan.rule? .licenseLists)
    (hRule' : { rule with allow := rule.allow ++ [pattern] } ∈ plan'.rule? .licenseLists)
    (hDigest : Set.InjOn Digest.sha256 {text | text ∈ hashedTexts m plan})
    (hf : f ∈ Check.licenseLists.findings m plan) (hShown : f.data.get? "license" = some (.string shown))
    (hPattern : ∀ text, Glob.anyMatches [pattern] text = true ↔ text = shown) :
    (∃ f' ∈ Check.licenseLists.findings m plan', f'.code = f.code ∧ f'.fingerprint = f.fingerprint) ↔
      (∃ glob ∈ rule.allow, Glob.isShallow glob = false) ∨
        IsRespelled (remaining m (Glob.anyMatches rule.allow)) shown f := by
  obtain ⟨i, hi, hFinding⟩ := (mem_findings_iff_of_rule hRule).mp hf
  obtain ⟨code, list, shown', hSays, hConcerns⟩ := exists_says_of_mem hi
  obtain rfl : shown = shown' := by
    rw [← hFinding] at hShown
    simpa using hShown.symm.trans hSays.license_eq
  have hAgain := fun hSub => exists_finding_iff_concerns hRule hRule' hSub hDigest hi hSays hFinding
  by_cases hDeep : ∃ glob ∈ rule.allow, Glob.isShallow glob = false
  · obtain ⟨glob, hGlob, hDeep⟩ := hDeep
    rw [remaining_append_of_deep hGlob hDeep] at hAgain
    exact iff_of_true ((hAgain (List.Sublist.refl _)).mpr hConcerns) (.inl ⟨glob, hGlob, hDeep⟩)
  · have hShallow : ∀ glob ∈ rule.allow, Glob.isShallow glob = true := by simpa using hDeep
    rw [remaining_append hPattern hShallow] at hAgain
    rw [or_iff_right hDeep, hAgain List.filter_sublist, concerns_filter_iff hSays hConcerns, hFinding]

/-- One license, listed twice in one spelling. -/
def twicePolicy (license : String) : Model :=
  .ofDocument .default { licenses := some { allow := List.replicate 2 ⟨license, ⟨0, 0⟩⟩ } }

theorem mem_rule?_allowingPlan (globs : List String) :
    { severity := .error, allow := globs } ∈ (allowingPlan globs).rule? .licenseLists := rfl

/-- The second of two entries is a duplicate as long as both are looked at. -/
theorem concerns_twicePolicy {license : String} {globs : List String}
    (hAllowed : Glob.anyMatches globs (trim license) = false)
    (hWritten : Entry.written ⟨.allow, license, ⟨0, 0⟩⟩ = some shown) :
    Concerns (remaining (twicePolicy license) (Glob.anyMatches globs)) .allow shown .duplicateLicense := by
  have hRemaining : remaining (twicePolicy license) (Glob.anyMatches globs) =
      List.replicate 2 ⟨.allow, license, ⟨0, 0⟩⟩ :=
    List.filter_eq_self.mpr fun e he => by
      have hEntry : e = ⟨.allow, license, ⟨0, 0⟩⟩ := List.eq_of_mem_replicate (n := 2) he
      rw [hEntry, Entry.isAllowed, hAllowed, Bool.not_false]
  rw [hRemaining]
  exact .duplicate (List.Sublist.refl _) rfl hWritten hWritten

theorem finding_gone_plain :
    ∃ f ∈ Check.licenseLists.findings (twicePolicy "MIT") (allowingPlan []),
      f.data.get? "license" = some (.string "MIT") ∧
      (∀ text, Glob.anyMatches ["MIT"] text = true ↔ text = "MIT") ∧
      ¬∃ f' ∈ Check.licenseLists.findings (twicePolicy "MIT") (allowingPlan ["MIT"]),
        f'.code = f.code ∧ f'.fingerprint = f.fingerprint := by
  have hPattern : ∀ text, Glob.anyMatches ["MIT"] text = true ↔ text = "MIT" := Glob.anyMatches_escaped_iff "MIT"
  have hTexts : hashedTexts (twicePolicy "MIT") (allowingPlan []) =
      ["licenses.allow_identifiers|duplicate_license|deny.toml|allow:MIT"] := by
    decide +kernel
  have hDigest : Set.InjOn Digest.sha256 {text | text ∈ hashedTexts (twicePolicy "MIT") (allowingPlan [])} := by
    rw [hTexts]
    intro a ha b hb _
    exact (List.mem_singleton.mp ha).trans (List.mem_singleton.mp hb).symm
  have hWritten : Entry.written ⟨.allow, "MIT", ⟨0, 0⟩⟩ = some "MIT" := by decide +kernel
  have hNone : Glob.anyMatches [] (trim "MIT") = false := rfl
  obtain ⟨i, hi, hSays⟩ := exists_mem_of_concerns (concerns_twicePolicy hNone hWritten)
  have hf := (mem_findings_iff_of_rule (mem_rule?_allowingPlan [])).mpr ⟨i, hi, rfl⟩
  refine ⟨_, hf, hSays.license_eq, hPattern, ?_⟩
  rw [finding_persists_iff (mem_rule?_allowingPlan []) (mem_rule?_allowingPlan ["MIT"]) hDigest hf hSays.license_eq
    hPattern]
  rintro (⟨_, ⟨⟩, _⟩ | ⟨-, hTrim⟩ | ⟨-, a, b, hPair, -, ⟨-, hTrim⟩, -⟩)
  · exact hTrim rfl
  · have ha : a ∈ List.replicate 2 ⟨.allow, "MIT", ⟨0, 0⟩⟩ := hPair.subset List.mem_cons_self
    rw [List.eq_of_mem_replicate ha] at hTrim
    exact hTrim rfl

/-- The finding is about `Apache-2.0 WITH LLVM-exception`, and to allow that leaves it as it is. -/
theorem finding_persists_respelled :
    ∃ f ∈ Check.licenseLists.findings (twicePolicy "Apache-2.0  WITH  LLVM-exception") (allowingPlan []),
      f.data.get? "license" = some (.string "Apache-2.0 WITH LLVM-exception") ∧
      (∀ text, Glob.anyMatches ["Apache-2.0 WITH LLVM-exception"] text = true ↔
        text = "Apache-2.0 WITH LLVM-exception") ∧
      ∃ f' ∈ Check.licenseLists.findings (twicePolicy "Apache-2.0  WITH  LLVM-exception")
          (allowingPlan ["Apache-2.0 WITH LLVM-exception"]),
        f'.code = f.code ∧ f'.fingerprint = f.fingerprint := by
  have hPattern : ∀ text, Glob.anyMatches ["Apache-2.0 WITH LLVM-exception"] text = true ↔
      text = "Apache-2.0 WITH LLVM-exception" :=
    Glob.anyMatches_escaped_iff "Apache-2.0 WITH LLVM-exception"
  have hWritten : Entry.written ⟨.allow, "Apache-2.0  WITH  LLVM-exception", ⟨0, 0⟩⟩ =
      some "Apache-2.0 WITH LLVM-exception" := by
    decide +kernel
  have hNone : Glob.anyMatches [] (trim "Apache-2.0  WITH  LLVM-exception") = false := rfl
  have hAllowed : Glob.anyMatches ["Apache-2.0 WITH LLVM-exception"]
      (trim "Apache-2.0  WITH  LLVM-exception") = false := by
    rw [Bool.eq_false_iff, Ne, hPattern]
    decide
  obtain ⟨i, hi, hSays⟩ := exists_mem_of_concerns (concerns_twicePolicy hNone hWritten)
  obtain ⟨i', hi', hSays'⟩ := exists_mem_of_concerns (concerns_twicePolicy hAllowed hWritten)
  exact ⟨_, (mem_findings_iff_of_rule (mem_rule?_allowingPlan [])).mpr ⟨i, hi, rfl⟩, hSays.license_eq, hPattern,
    _, (mem_findings_iff_of_rule (mem_rule?_allowingPlan _)).mpr ⟨i', hi', rfl⟩, hSays.identifies hSays' _ _ _⟩

end LicenseLists

end PolicyLint.Lint
