import PolicyLint.License.Identifier
import PolicyLint.License.Token

/-!
# Characters of identifiers

Identifiers are made of few characters, none of which ends a word or is a plus sign.
-/
namespace PolicyLint.License
open Text
set_option autoImplicit false

theorem isIdChar_of_isMarked {mark : String} {cs : List Char} (h : isMarked mark cs = true)
    (hMark : ∀ c ∈ mark.toList, isIdChar c = true) (c : Char) (hc : c ∈ cs) : isIdChar c = true := by
  unfold isMarked at h
  split at h
  · rename_i rest hRest
    rw [stripFront_eq_some_iff.mp hRest] at hc
    rcases List.mem_append.mp hc with hc | hc
    · exact hMark c hc
    · exact ((isIdString_iff rest).mp h).2 c hc
  · cases h

/-- Apart from the colon behind a document, identifiers consist of letters, digits, points and hyphens. -/
theorem isIdChar_of_isIdentifier {cs : List Char} (h : isIdentifier cs = true) (c : Char) (hc : c ∈ cs) :
    isIdChar c = true ∨ c = ':' := by
  unfold isIdentifier at h
  split at h
  · rename_i document license hCut
    obtain ⟨d, hd, rfl, -⟩ := cutAt_eq_some hCut
    rw [Bool.and_eq_true] at h
    rcases List.mem_append.mp hc with hc | hc
    · exact .inl (isIdChar_of_isMarked h.1 (List.all_eq_true.mp (by decide)) c hc)
    · rcases List.mem_cons.mp hc with rfl | hc
      · exact .inr (by simpa using hd)
      · exact .inl (isIdChar_of_isMarked h.2 (List.all_eq_true.mp (by decide)) c hc)
  · split at h
    · rename_i rest hRest
      have hMarked : isMarked "LicenseRef-" cs = true := by rw [isMarked, hRest]; exact h
      exact .inl (isIdChar_of_isMarked hMarked (List.all_eq_true.mp (by decide)) c hc)
    · exact .inl (((isIdString_iff cs).mp h).2 c hc)

/-- Their characters lie between the hyphen and the letter `z`. -/
theorem toNat_of_isIdChar {c : Char} (h : isIdChar c = true) : 45 ≤ c.toNat ∧ c.toNat ≤ 122 := by
  have hRanges : (decide ('A'.val ≤ c.val ∧ c.val ≤ 'Z'.val) || ('a'.val ≤ c.val && c.val ≤ 'z'.val) ||
      ('0'.val ≤ c.val && c.val ≤ '9'.val) || c == '.' || c == '-') = true := h
  simp only [Bool.or_eq_true, Bool.and_eq_true, decide_eq_true_eq, beq_iff_eq,
    UInt32.le_iff_toNat_le] at hRanges
  change 45 ≤ c.val.toNat ∧ c.val.toNat ≤ 122
  rcases hRanges with (((h | h) | h) | rfl) | rfl
  · exact ⟨Nat.le_trans (by decide) h.1, Nat.le_trans h.2 (by decide)⟩
  · exact ⟨Nat.le_trans (by decide) h.1, Nat.le_trans h.2 (by decide)⟩
  · exact ⟨Nat.le_trans (by decide) h.1, Nat.le_trans h.2 (by decide)⟩
  · decide
  · decide

theorem isWordChar_of_toNat {c : Char} (hLow : 45 ≤ c.toNat) (hHigh : c.toNat ≤ 122) :
    Token.isWordChar c = true := by
  have hLeft : c ≠ '(' := by rintro rfl; exact absurd hLow (by decide)
  have hRight : c ≠ ')' := by rintro rfl; exact absurd hLow (by decide)
  have hBlank : isBlank c = false := by
    simp only [isBlank, Bool.or_eq_false_iff, Bool.and_eq_false_iff, decide_eq_false_iff_not,
      beq_eq_false_iff_ne]
    omega
  simp [Token.isWordChar, hBlank, hLeft, hRight]

theorem isWordChar_of_isIdentifier {cs : List Char} (h : isIdentifier cs = true) (c : Char) (hc : c ∈ cs) :
    Token.isWordChar c = true := by
  rcases isIdChar_of_isIdentifier h c hc with hc | rfl
  · exact isWordChar_of_toNat (toNat_of_isIdChar hc).1 (toNat_of_isIdChar hc).2
  · decide

theorem ne_nil_of_isIdentifier {cs : List Char} (h : isIdentifier cs = true) : cs ≠ [] := by
  rintro rfl
  exact absurd h (by decide)

theorem plus_not_mem_of_isIdentifier {cs : List Char} (h : isIdentifier cs = true) : '+' ∉ cs := by
  intro hPlus
  rcases isIdChar_of_isIdentifier h '+' hPlus with hc | hc
  · exact absurd hc (by decide)
  · exact absurd hc (by decide)

end PolicyLint.License
