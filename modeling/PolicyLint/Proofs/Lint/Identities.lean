import PolicyLint.Proofs.Lint.Fingerprints
import PolicyLint.Report.Basic

/-!
# What a fingerprint identifies

The names of checks and codes hold no bar, so a fingerprint tells them. Paths and subjects may hold bars, and the
text that is digested does not say at which of its bars the path ends. So a fingerprint tells path and subject
only up to a part that is moved from the end of the path to the front of the subject.
-/
namespace PolicyLint.Lint
set_option autoImplicit false

/-- The names are those of a check and a code, or of a fault of the run itself. -/
structure AreRegistered (check code : String) : Prop where
  check : check ∈ Report.toolCheck :: Check.allNames
  code : code ∈ "runtime_error" :: "policy_parse" :: Code.allNames

/-- The first path goes on behind the second one with a bar and a part that stands, up to a bar, in front of
the second subject. -/
def Shifted (path subject path' subject' : String) : Prop :=
  ∃ moved, path = path' ++ "|" ++ moved ∧ subject' = moved ++ "|" ++ subject

variable {check check' code code' path path' subject subject' : String}

theorem AreRegistered.bar_not_mem (h : AreRegistered check code) : '|' ∉ check.toList ∧ '|' ∉ code.toList := by
  have hChecks : ∀ name ∈ Report.toolCheck :: Check.allNames, '|' ∉ name.toList := by decide
  have hCodes : ∀ name ∈ "runtime_error" :: "policy_parse" :: Code.allNames, '|' ∉ name.toList := by decide
  exact ⟨hChecks check h.check, hCodes code h.code⟩

theorem Shifted.text_eq (h : Shifted path subject path' subject') :
    path ++ "|" ++ subject = path' ++ "|" ++ subject' := by
  obtain ⟨moved, rfl, rfl⟩ := h
  simp only [String.append_assoc]

theorem Shifted.count_lt (h : Shifted path subject path' subject') :
    path'.toList.count '|' < path.toList.count '|' := by
  obtain ⟨moved, rfl, -⟩ := h
  have hBar : "|".toList.count '|' = 1 := rfl
  rw [String.toList_append, String.toList_append, List.count_append, List.count_append, hBar]
  omega

theorem shifted_of_eq_append {more : List Char} (hPath : path.toList = path'.toList ++ more)
    (hSubject : '|' :: subject'.toList = more ++ '|' :: subject.toList) :
    (path = path' ∧ subject = subject') ∨ Shifted path subject path' subject' := by
  -- What the longer path has more begins with the bar behind the shorter one.
  cases more with
  | nil =>
    rw [List.append_nil] at hPath
    exact .inl ⟨String.toList_inj.mp hPath, (String.toList_inj.mp (List.cons.inj hSubject).2).symm⟩
  | cons bar moved =>
    rw [List.cons_append] at hSubject
    obtain ⟨rfl, hMoved⟩ := List.cons.inj hSubject
    refine .inr ⟨String.ofList moved, String.toList_inj.mp ?_, String.toList_inj.mp ?_⟩
    · simp [hPath]
    · simp [hMoved]

/-- One text is cut at a bar in two ways only if a part is moved from one side to the other. -/
theorem append_bar_eq_iff : path ++ "|" ++ subject = path' ++ "|" ++ subject' ↔
    (path = path' ∧ subject = subject') ∨ Shifted path subject path' subject' ∨
      Shifted path' subject' path subject := by
  constructor
  · intro h
    have hList : path.toList ++ '|' :: subject.toList = path'.toList ++ '|' :: subject'.toList := by
      simpa using congrArg String.toList h
    -- Both paths begin the same text, so the longer one goes on behind the shorter one.
    obtain ⟨more, hPath, hSubject⟩ | ⟨more, hPath, hSubject⟩ := List.append_eq_append_iff.mp hList
    · obtain ⟨hPathEq, hSubjectEq⟩ | hShifted := shifted_of_eq_append hPath hSubject
      · exact .inl ⟨hPathEq.symm, hSubjectEq.symm⟩
      · exact .inr (.inr hShifted)
    · exact (shifted_of_eq_append hPath hSubject).imp_right .inl
  · rintro (⟨rfl, rfl⟩ | h | h)
    · rfl
    · exact h.text_eq
    · exact h.text_eq.symm

/-- A fingerprint tells the check, the code, and the path with the subject up to a part that is moved between
them. It tells all four if the paths hold equally many bars. -/
theorem fingerprint_eq_iff (h : AreRegistered check code) (h' : AreRegistered check' code')
    (hDigest : Set.InjOn Digest.sha256 {identityText check code path subject,
      identityText check' code' path' subject'}) :
    (fingerprint check code path subject = fingerprint check' code' path' subject' ↔
      check = check' ∧ code = code' ∧ ((path = path' ∧ subject = subject') ∨
        Shifted path subject path' subject' ∨ Shifted path' subject' path subject)) ∧
    (path.toList.count '|' = path'.toList.count '|' →
      fingerprint check code path subject = fingerprint check' code' path' subject' →
        check = check' ∧ code = code' ∧ path = path' ∧ subject = subject') := by
  have hText : fingerprint check code path subject = fingerprint check' code' path' subject' ↔
      identityText check code path subject = identityText check' code' path' subject' :=
    hDigest.eq_iff (Set.mem_insert _ _) (Set.mem_insert_of_mem _ rfl)
  have hCut : identityText check code path subject = identityText check' code' path' subject' ↔
      check = check' ∧ code = code' ∧ path ++ "|" ++ subject = path' ++ "|" ++ subject' := by
    constructor
    · exact identityText_cut h.bar_not_mem.1 h'.bar_not_mem.1 h.bar_not_mem.2 h'.bar_not_mem.2
    · rintro ⟨rfl, rfl, hRest⟩
      simp only [identityText, String.append_assoc] at hRest ⊢
      rw [hRest]
  rw [hText, hCut, append_bar_eq_iff]
  refine ⟨Iff.rfl, ?_⟩
  rintro hBars ⟨hCheck, hCode, hSame | hShifted | hShifted⟩
  · exact ⟨hCheck, hCode, hSame⟩
  · exact absurd hBars hShifted.count_lt.ne'
  · exact absurd hBars hShifted.count_lt.ne

theorem areRegistered_unknownKey : AreRegistered "schema.unknown_key" "unknown_key" := by
  constructor <;> decide

theorem fingerprint_ne_licences :
    AreRegistered "schema.unknown_key" "unknown_key" ∧
    Set.InjOn Digest.sha256 {identityText "schema.unknown_key" "unknown_key" "ci|deny.toml" "licences",
      identityText "schema.unknown_key" "unknown_key" "ci" "deny.toml|license"} ∧
    fingerprint "schema.unknown_key" "unknown_key" "ci|deny.toml" "licences" ≠
      fingerprint "schema.unknown_key" "unknown_key" "ci" "deny.toml|license" := by
  have hDigest : Set.InjOn Digest.sha256
      {identityText "schema.unknown_key" "unknown_key" "ci|deny.toml" "licences",
        identityText "schema.unknown_key" "unknown_key" "ci" "deny.toml|license"} := by
    have hNe : Digest.sha256 (identityText "schema.unknown_key" "unknown_key" "ci|deny.toml" "licences") ≠
        Digest.sha256 (identityText "schema.unknown_key" "unknown_key" "ci" "deny.toml|license") := by
      decide +kernel
    exact Set.injOn_pair.mpr fun hSame => absurd hSame hNe
  refine ⟨areRegistered_unknownKey, hDigest, fun hSame => ?_⟩
  obtain ⟨-, -, ⟨hPath, -⟩ | hShifted | hShifted⟩ :=
    (fingerprint_eq_iff areRegistered_unknownKey areRegistered_unknownKey hDigest).1.mp hSame
  · exact absurd hPath (by decide)
  · exact absurd hShifted.text_eq (by decide)
  · exact absurd hShifted.text_eq (by decide)

/-- A bar in the path and a bar in the key: two findings, one fingerprint. -/
theorem fingerprint_shared_by_barred_path :
    Set.InjOn Digest.sha256 {identityText "schema.unknown_key" "unknown_key" "ci|deny.toml" "x",
      identityText "schema.unknown_key" "unknown_key" "ci" "deny.toml|x"} ∧
    fingerprint "schema.unknown_key" "unknown_key" "ci|deny.toml" "x" =
      fingerprint "schema.unknown_key" "unknown_key" "ci" "deny.toml|x" ∧
    ("ci|deny.toml", "x") ≠ ("ci", "deny.toml|x") := by
  have hText : identityText "schema.unknown_key" "unknown_key" "ci|deny.toml" "x" =
      identityText "schema.unknown_key" "unknown_key" "ci" "deny.toml|x" := by
    decide
  refine ⟨?_, congrArg Digest.sha256 hText, by decide⟩
  rw [hText, Set.pair_eq_singleton]
  exact Set.injOn_singleton _ _

end PolicyLint.Lint
