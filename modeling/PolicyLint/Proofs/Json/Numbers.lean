import PolicyLint.Json.NumberReader
import PolicyLint.Json.Printer
import PolicyLint.Proofs.Text.Digits

/-!
# Whole numbers are read back

A whole number of 64 bits is written in digits and read as the same number, if no digit, point or exponent
follows.
-/
namespace PolicyLint.Json
open Text Decimal
set_option autoImplicit false

/-- The text does not go on as a number would. -/
def EndsNumber (cs : List Char) : Prop := ∀ c ∈ cs.head?, c.isDigit = false ∧ c ≠ '.' ∧ c ≠ 'e' ∧ c ≠ 'E'

theorem EndsNumber.endsDigits {cs : List Char} (h : EndsNumber cs) : EndsDigits cs := fun c hc => (h c hc).1

theorem endsNumber_nil : EndsNumber [] := by
  rintro c ⟨⟩

theorem endsNumber_cons {c : Char} {cs : List Char} (h : c.isDigit = false ∧ c ≠ '.' ∧ c ≠ 'e' ∧ c ≠ 'E') :
    EndsNumber (c :: cs) := by
  rintro d ⟨⟩
  exact h

/-- The whole numbers that are written as such and read as such. -/
def Number.Fits : Number → Prop
  | .natural n => n < word64
  | .negative n => n < half64
  | .float _ => False

theorem le_ofDigitChars (ds : List Char) (value : Nat) : value ≤ Nat.ofDigitChars 10 ds value := by
  induction ds generalizing value with
  | nil => exact Nat.le_refl _
  | cons d ds ih =>
    rw [Nat.ofDigitChars_cons]
    have hStep := ih (10 * value + (d.toNat - '0'.toNat))
    omega

theorem wholeDigits_append {ds rest : List Char} {value : Nat} (hDigits : ∀ c ∈ ds, c.isDigit)
    (hRest : EndsDigits rest) (hLimit : Nat.ofDigitChars 10 ds value ≤ wordLimit) :
    wholeDigits value (ds ++ rest) = (Nat.ofDigitChars 10 ds value, 0, rest) := by
  induction ds generalizing value with
  | nil =>
    rw [List.nil_append, Nat.ofDigitChars_nil]
    cases rest with
    | nil => rfl
    | cons c cs => simp [wholeDigits, hRest c rfl]
  | cons d ds ih =>
    rw [List.forall_mem_cons] at hDigits
    have hNext : value * 10 + digitOf d = 10 * value + (d.toNat - '0'.toNat) := by
      rw [Nat.mul_comm]
      rfl
    rw [Nat.ofDigitChars_cons, ← hNext] at hLimit ⊢
    have hStep := Nat.le_trans (le_ofDigitChars ds _) hLimit
    rw [List.cons_append, wholeDigits, if_pos hDigits.1, if_neg (Nat.not_lt.mpr hStep), ih hDigits.2 hLimit]

/-- Only zero starts with a zero. -/
theorem eq_zero_of_head?_toDigits {n : Nat} (h : (Nat.toDigits 10 n).head? = some '0') : n = 0 := by
  have hDigit : ∀ d < 10, [Nat.digitChar d].head? = some '0' → d = 0 := by decide
  induction n using Nat.strongRecOn with
  | ind n ih =>
    rcases Nat.lt_or_ge n 10 with hSmall | hLarge
    · rw [Nat.toDigits_of_lt_base hSmall] at h
      exact hDigit n hSmall h
    · obtain ⟨c, cs, hText⟩ := List.exists_cons_of_ne_nil (Nat.toDigits_ne_nil (n := n / 10) (b := 10))
      rw [Nat.toDigits_of_base_le (by decide) hLarge, hText] at h
      have hZero := ih (n / 10) (by omega) (hText ▸ h)
      omega

theorem readUnsigned_toDigits (negative : Bool) {n : Nat} (h : n < word64) {rest : List Char}
    (hRest : EndsNumber rest) :
    readUnsigned negative (Nat.toDigits 10 n ++ rest) = .ok (wholeNumber negative n, rest) := by
  have hWhole : wholeDigits 0 (Nat.toDigits 10 n ++ rest) = (n, 0, rest) := by
    have hValue : Nat.ofDigitChars 10 (Nat.toDigits 10 n) 0 = n := Nat.ofDigitChars_ten_toDigits
    rw [wholeDigits_append (fun _ => isDigit_of_mem_toDigits) hRest.endsDigits, hValue]
    rw [hValue]
    exact Nat.le_pred_of_lt h
  obtain ⟨c, cs, hText⟩ := List.exists_cons_of_ne_nil (Nat.toDigits_ne_nil (n := n) (b := 10))
  have hDigit : c.isDigit := isDigit_of_mem_toDigits (hText ▸ List.mem_cons_self)
  have hFront : (if c = '0' then (0, 0, (Nat.toDigits 10 n ++ rest).drop 1)
      else wholeDigits 0 (Nat.toDigits 10 n ++ rest)) = (n, 0, rest) := by
    split
    · -- A zero in front is read alone, so it has to be all there is.
      rename_i hc
      have hZero : n = 0 := eq_zero_of_head?_toDigits (by rw [hText, hc]; rfl)
      rw [hZero, Nat.toDigits_zero]
      rfl
    · exact hWhole
  have hNoDigit : rest.head?.any Char.isDigit = false := by
    cases rest with
    | nil => rfl
    | cons d ds => exact (hRest d rfl).1
  rw [hText] at hFront ⊢
  rw [List.cons_append] at hFront ⊢
  simp only [readUnsigned, hDigit, hFront, hNoDigit, Bool.not_true, Bool.false_eq_true, if_false, Bool.and_false]
  cases rest with
  | nil => rfl
  | cons d ds =>
    obtain ⟨-, hPoint, hLower, hUpper⟩ := hRest d rfl
    split
    · rename_i hTail
      exact absurd (List.cons.inj hTail).1 hPoint
    · rename_i hOther
      cases hOther
      exact if_neg (by simp [hLower, hUpper])
    · rename_i hNil
      cases hNil

theorem toList_toString (n : Nat) : (toString n).toList = Nat.toDigits 10 n := Nat.toList_repr

theorem readNumber_render {n : Number} (h : n.Fits) {rest : List Char} (hRest : EndsNumber rest) :
    readNumber (n.render.toList ++ rest) = .ok (n, rest) := by
  cases n with
  | natural n =>
    have hUnsigned := readUnsigned_toDigits false h hRest
    obtain ⟨c, cs, hText⟩ := List.exists_cons_of_ne_nil (Nat.toDigits_ne_nil (n := n) (b := 10))
    have hMinus : c ≠ '-' := by
      rintro rfl
      exact absurd (isDigit_of_mem_toDigits (hText ▸ List.mem_cons_self)) (by decide)
    rw [hText] at hUnsigned
    rw [Number.render, toList_toString, hText, readNumber]
    · exact hUnsigned
    · rintro ds hDigits
      exact hMinus (List.cons.inj hDigits).1
  | negative n =>
    have hBound : n < half64 := h
    have hLimit : n + 1 < word64 := Nat.lt_of_le_of_lt hBound (by decide)
    have hText : (Number.negative n).render.toList = '-' :: Nat.toDigits 10 (n + 1) := by
      rw [Number.render, String.toList_append, toList_toString]
      rfl
    rw [hText, List.cons_append, readNumber, readUnsigned_toDigits true hLimit hRest, wholeNumber,
      if_pos rfl, if_neg (by omega), Nat.add_sub_cancel]
  | float x => exact h.elim

end PolicyLint.Json
