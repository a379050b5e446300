import PolicyLint.Proofs.License.Single
import PolicyLint.Proofs.Text.Pieces

/-!
# Bare names

The texts that are identifiers, said of their letters and marks alone, and which of them are read as a requirement
of one license with neither plus sign nor exception: all but the spellings of the operators.
-/
namespace PolicyLint.License
open Text
set_option autoImplicit false

def IsIdLetter (c : Char) : Prop :=
  ('A' ≤ c ∧ c ≤ 'Z') ∨ ('a' ≤ c ∧ c ≤ 'z') ∨ ('0' ≤ c ∧ c ≤ '9') ∨ c = '.' ∨ c = '-'

def IsIdText (s : String) : Prop := s ≠ "" ∧ ∀ c ∈ s.toList, IsIdLetter c

theorem isIdChar_iff {c : Char} : isIdChar c = true ↔ IsIdLetter c := by
  have hUpper : c.isUpper = decide ('A' ≤ c ∧ c ≤ 'Z') := rfl
  have hLower : c.isLower = (decide ('a' ≤ c) && decide (c ≤ 'z')) := rfl
  have hAlpha : c.isAlpha = (c.isUpper || c.isLower) := rfl
  have hDigit : c.isDigit = (decide ('0' ≤ c) && decide (c ≤ '9')) := rfl
  simp [isIdChar, IsIdLetter, Char.isAlphanum, hAlpha, hUpper, hLower, hDigit, or_assoc]

theorem isIdString_toList {s : String} : isIdString s.toList = true ↔ IsIdText s := by
  rw [isIdString_iff, IsIdText, Ne, String.toList_eq_nil_iff]
  exact and_congr_right fun _ => forall₂_congr fun c _ => isIdChar_iff

theorem colon_not_mem_of_isIdString {cs : List Char} (h : isIdString cs = true) : ':' ∉ cs := by
  intro hColon
  exact absurd (((isIdString_iff cs).mp h).2 ':' hColon) (by decide)

theorem isMarked_iff {mark : String} {cs : List Char} :
    isMarked mark cs = true ↔ ∃ rest, cs = mark.toList ++ rest ∧ isIdString rest = true := by
  unfold isMarked
  constructor
  · intro h
    split at h
    · rename_i rest hRest
      exact ⟨rest, stripFront_eq_some_iff.mp hRest, h⟩
    · cases h
  · rintro ⟨rest, rfl, hRest⟩
    rw [stripFront_eq_some_iff.mpr rfl]
    exact hRest

/-- Without a colon the mark alone is refused, since nothing is left behind it. -/
theorem isIdentifier_of_no_colon {cs : List Char} (hColon : ':' ∉ cs) :
    isIdentifier cs = true ↔ isIdString cs = true ∧ cs ≠ "LicenseRef-".toList := by
  have hCut : cutAt (· == ':') cs = none :=
    cutAt_eq_none fun c hc => beq_eq_false_iff_ne.mpr (by rintro rfl; exact hColon hc)
  rw [isIdentifier, hCut]
  dsimp only
  split
  · rename_i rest hRest
    rw [stripFront_eq_some_iff] at hRest
    subst hRest
    have hMark : ∀ c ∈ "LicenseRef-".toList, isIdChar c = true := List.all_eq_true.mp (by decide)
    rw [isIdString_iff, isIdString_iff, List.forall_mem_append]
    constructor
    · rintro ⟨hSome, hChars⟩
      refine ⟨⟨by simp, hMark, hChars⟩, ?_⟩
      intro hAlone
      exact hSome (List.append_right_eq_self.mp hAlone)
    · rintro ⟨⟨-, -, hChars⟩, hMore⟩
      refine ⟨?_, hChars⟩
      rintro rfl
      exact hMore (List.append_nil _)
  · rename_i hRest
    refine (and_iff_left ?_).symm
    rintro rfl
    rw [stripFront_eq_some_iff.mpr (List.append_nil _).symm] at hRest
    cases hRest

theorem isIdentifier_of_colon {document license : List Char} (hColon : ':' ∉ document) :
    isIdentifier (document ++ ':' :: license) = true ↔
      isMarked "DocumentRef-" document = true ∧ isMarked "LicenseRef-" license = true := by
  have hCut : cutAt (· == ':') (document ++ ':' :: license) = some (document, license) :=
    cutAt_append_cons (fun c hc => beq_eq_false_iff_ne.mpr (by rintro rfl; exact hColon hc)) (by decide)
  rw [isIdentifier, hCut]
  exact Bool.and_eq_true_iff

/-- Identifiers are plain names, other than the mark alone, and names in a document. -/
theorem isValidId_iff {s : String} : isValidId s = true ↔
    (IsIdText s ∧ s ≠ "LicenseRef-") ∨
      ∃ x y, IsIdText x ∧ IsIdText y ∧ s = "DocumentRef-" ++ x ++ ":LicenseRef-" ++ y := by
  constructor
  · intro h
    by_cases hColon : ':' ∈ s.toList
    · obtain ⟨document, license, hParts, hFirst⟩ := List.eq_append_cons_of_mem hColon
      rw [isValidId, hParts, isIdentifier_of_colon hFirst] at h
      obtain ⟨x, hDocument, hx⟩ := isMarked_iff.mp h.1
      obtain ⟨y, hLicense, hy⟩ := isMarked_iff.mp h.2
      right
      refine ⟨String.ofList x, String.ofList y, isIdString_toList.mp ?_, isIdString_toList.mp ?_, ?_⟩
      · rwa [String.toList_ofList]
      · rwa [String.toList_ofList]
      · apply String.toList_injective
        rw [hParts, hDocument, hLicense]
        simp
    · obtain ⟨hText, hMore⟩ := (isIdentifier_of_no_colon hColon).mp h
      exact .inl ⟨isIdString_toList.mp hText, fun hAlone => hMore (by rw [hAlone])⟩
  · rintro (⟨hText, hMore⟩ | ⟨x, y, hx, hy, rfl⟩)
    · have hString := isIdString_toList.mpr hText
      refine (isIdentifier_of_no_colon (colon_not_mem_of_isIdString hString)).mpr ⟨hString, ?_⟩
      exact fun hAlone => hMore (String.toList_injective hAlone)
    · have hDocument : ':' ∉ "DocumentRef-".toList ++ x.toList := by
        rw [List.mem_append, not_or]
        exact ⟨by decide, colon_not_mem_of_isIdString (isIdString_toList.mpr hx)⟩
      have hParts : ("DocumentRef-" ++ x ++ ":LicenseRef-" ++ y).toList =
          ("DocumentRef-".toList ++ x.toList) ++ ':' :: ("LicenseRef-".toList ++ y.toList) := by
        simp
      rw [isValidId, hParts, isIdentifier_of_colon hDocument]
      exact ⟨isMarked_iff.mpr ⟨x.toList, rfl, isIdString_toList.mpr hx⟩,
        isMarked_iff.mpr ⟨y.toList, rfl, isIdString_toList.mpr hy⟩⟩

theorem Requirement.isName_iff {s : String} :
    IsName s ↔ s.toList.map Char.toLower ∉ ["and".toList, "or".toList, "with".toList] := by
  have hLower : ["and".toList, "or".toList, "with".toList] =
      operatorWords.map fun op => op.toList.map Char.toLower := by decide
  rw [hLower, List.mem_map, IsName, IsMiscased]
  constructor
  · rintro ⟨hOperator, hCased⟩ ⟨op, hMem, hSame⟩
    by_cases hEq : s = op
    · exact hOperator (hEq ▸ hMem)
    · exact hCased ⟨op, hMem, hEq, hSame.symm⟩
  · intro h
    refine ⟨fun hOperator => h ⟨s, hOperator, rfl⟩, ?_⟩
    rintro ⟨op, hMem, -, hSame⟩
    exact h ⟨op, hMem, hSame.symm⟩

/-- A text is an identifier exactly if it is a plain name other than the mark of a reference, or a reference in a
document; and it is read as a license of that very name exactly if it is an identifier and spells no operator. -/
theorem Requirement.parse_bare_iff (s : String) :
    (isValidId s = true ↔
      (IsIdText s ∧ s ≠ "LicenseRef-") ∨
        ∃ x y, IsIdText x ∧ IsIdText y ∧ s = "DocumentRef-" ++ x ++ ":LicenseRef-" ++ y) ∧
    (parse s = .ok ⟨s, false, none⟩ ↔
      isValidId s = true ∧ s.toList.map Char.toLower ∉ ["and".toList, "or".toList, "with".toList]) := by
  have hWord : word ⟨s, false, none⟩ = s := String.append_empty
  refine ⟨isValidId_iff, ?_⟩
  rw [← isName_iff]
  constructor
  · intro h
    have hWritable := isWritable_of_parse h
    exact ⟨hWritable.id, hWord ▸ hWritable.word⟩
  · rintro ⟨hValid, hName⟩
    have hWritable : IsWritable ⟨s, false, none⟩ := ⟨hValid, hWord.symm ▸ hName, fun x hx => by cases hx⟩
    have hRender : render ⟨s, false, none⟩ = s := by simp [render]
    have hParse := parse_render_of_isWritable hWritable
    rwa [hRender] at hParse

end PolicyLint.License
