import PolicyLint.Lint.Checks.Clarifications
import PolicyLint.Proofs.Lint.Entries

/-!
# When clarifications are in order

Each clarification is checked by itself, and each of its license files for its first problem.
-/
namespace PolicyLint.Lint.Clarifications
open Text Policy License
set_option autoImplicit false

theorem isSlash_eq (c : Char) : isSlash c = decide (IsSeparator c) := by
  rw [Bool.eq_iff_iff, decide_eq_true_iff]
  simp [isSlash, IsSeparator]

theorem goesUp_iff {path : List Char} : goesUp path = true ↔ ∃ front back,
    path = front ++ ['.', '.'] ++ back ∧
      EndsApart (IsSeparator ·) front ∧ StartsApart (IsSeparator ·) back := by
  have hClean : ∀ c ∈ ['.', '.'], decide (IsSeparator c) = false := by simp [IsSeparator]
  rw [goesUp, funext isSlash_eq, List.contains_iff_mem, mem_splitAt_iff, and_iff_right hClean]
  apply exists_congr
  intro front
  apply exists_congr
  intro back
  rw [← and_assoc, and_comm]

theorem isAbsolute_eq_false_iff {path : List Char} : isAbsolute path = false ↔
    (∀ c ∈ path.head?, ¬ IsSeparator c) ∧
      ∀ letter rest, path = letter :: ':' :: rest → letter.isAlpha = false := by
  match path with
  | [] => simp [isAbsolute]
  | [c] => simp [isAbsolute, isSlash_eq]
  | c :: d :: rest =>
    simp only [isAbsolute, isSlash_eq, Bool.or_eq_false_iff, decide_eq_false_iff_not, List.head?_cons,
      Option.mem_def, Option.some.injEq, forall_eq', List.cons.injEq, Bool.and_eq_false_iff,
      beq_eq_false_iff_ne]
    apply and_congr_right
    intro _
    constructor
    · rintro h letter rest' ⟨rfl, rfl, -⟩
      exact h.resolve_right (fun hNe => hNe rfl)
    · intro h
      rcases Decidable.em (d = ':') with rfl | hNe
      · exact .inl (h c rest ⟨rfl, rfl, rfl⟩)
      · exact .inr hNe

theorem insidePackage_iff {path : List Char} :
    InsidePackage path ↔ path ≠ [] ∧ isAbsolute path = false ∧ goesUp path = false := by
  have hParent : goesUp path = false ↔ ∀ front back, path = front ++ ['.', '.'] ++ back →
      ¬ (EndsApart (IsSeparator ·) front ∧ StartsApart (IsSeparator ·) back) := by
    rw [← Bool.not_eq_true, goesUp_iff]
    simp only [not_exists, not_and]
  rw [isAbsolute_eq_false_iff, hParent]
  constructor
  · intro h
    exact ⟨h.notEmpty, ⟨h.noRoot, h.noDrive⟩, h.noParent⟩
  · rintro ⟨hEmpty, ⟨hRoot, hDrive⟩, hParent⟩
    exact ⟨hEmpty, hRoot, hDrive, hParent⟩

theorem fileProblem_eq_none_iff {f : LicenseFile} : fileProblem f = none ↔ SoundFile f := by
  have hSound : SoundFile f ↔ InsidePackage (trimChars f.path.value.toList) ∧
      0 ≤ f.hash.value ∧ f.hash.value < 2 ^ 32 := ⟨fun h => ⟨h.path, h.hash⟩, fun h => ⟨h.1, h.2⟩⟩
  have hHash : Decimal.fitsUnsigned Decimal.word32 f.hash.value = true ↔
      0 ≤ f.hash.value ∧ f.hash.value < 2 ^ 32 := Decimal.fitsUnsigned_iff
  rw [hSound, insidePackage_iff, ← hHash, fileProblem, problemOf]
  split
  · rename_i hEmpty
    simp [List.isEmpty_iff.mp hEmpty]
  · rename_i hEmpty
    have hNe : trimChars f.path.value.toList ≠ [] := fun h => hEmpty (List.isEmpty_iff.mpr h)
    split
    · rename_i hAbsolute
      simp [hAbsolute]
    · rename_i hAbsolute
      split
      · rename_i hUp
        simp [hUp]
      · rename_i hUp
        split
        · rename_i hFits
          simp [hNe, hAbsolute, hUp, hFits]
        · rename_i hFits
          simp [hFits]

namespace Placed

variable {m : Model} {c : Placed}

theorem nameIssues_eq_nil_iff : c.nameIssues m = [] ↔ trimmed c.entry.name ≠ "" := by
  rw [nameIssues]
  split
  · rename_i name hName
    exact iff_of_true rfl (named_of_packageName hName)
  · rename_i hName
    exact iff_of_false (List.cons_ne_nil _ _) (not_not_intro (packageName_eq_none_iff.mp hName))

theorem versionIssues_eq_nil_iff : c.versionIssues m = [] ↔ ∀ v ∈ c.entry.version, IsVersion v.value := by
  apply Lint.versionIssues_eq_nil_iff
  · intro h
    rw [versionIssues, h]
  · intro v h
    simp only [versionIssues, h]
    split <;> simp [*]

theorem expressionIssues_eq_nil_iff :
    c.expressionIssues m = [] ↔ ∃ x ∈ c.entry.expression, IsExpression x.value := by
  rw [expressionIssues]
  split
  · rename_i hNone
    simp [hNone]
  · rename_i x hSome
    simp only [hSome, Option.mem_def, Option.some.injEq, exists_eq_left', IsExpression]
    split
    · rename_i e h
      simp [h]
    · rename_i fault h
      simp [h]

theorem noFilesIssues_eq_nil_iff : c.noFilesIssues m = [] ↔ c.entry.licenseFiles ≠ [] := by
  rw [noFilesIssues]
  cases c.entry.licenseFiles <;> simp

theorem fileIssue_eq_none_iff {f : LicenseFile} : c.fileIssue m f = none ↔ SoundFile f := by
  rw [fileIssue, Option.map_eq_none_iff, fileProblem_eq_none_iff]

theorem issues_eq_nil_iff : c.issues m = [] ↔ SoundClarification c.entry := by
  rw [issues, List.append_eq_nil_iff, List.append_eq_nil_iff, List.append_eq_nil_iff,
    List.append_eq_nil_iff, nameIssues_eq_nil_iff, versionIssues_eq_nil_iff, expressionIssues_eq_nil_iff,
    noFilesIssues_eq_nil_iff, List.filterMap_eq_nil_iff]
  simp only [fileIssue_eq_none_iff]
  constructor
  · rintro ⟨⟨⟨⟨hName, hVersion⟩, hExpression⟩, hFiles⟩, hSound⟩
    exact ⟨hName, hVersion, hExpression, hFiles, hSound⟩
  · intro h
    exact ⟨⟨⟨⟨h.named, h.version⟩, h.expression⟩, h.hasFiles⟩, h.files⟩

end Placed

theorem issues_eq_nil_iff {m : Model} :
    issues m (fun _ => false) = [] ↔ ∀ c ∈ m.licenses.clarify, SoundClarification c := by
  rw [issues, List.filter_eq_self.mpr, List.flatMap_eq_nil_iff]
  · simp only [Placed.issues_eq_nil_iff]
    exact forall_mem_zipIdx_iff
  · rintro ⟨c, index⟩ -
    simp only [allowsPackage_none, Bool.not_false]

end PolicyLint.Lint.Clarifications
