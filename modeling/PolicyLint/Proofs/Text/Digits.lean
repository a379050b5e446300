import Mathlib.Algebra.Group.Nat.Defs
import PolicyLint.Text.Digits

/-!
# Written numbers are read back

A number padded with zeros has the digits of the number, so a reader of so many digits finds the number again.
-/
namespace PolicyLint.Text
set_option autoImplicit false

/-- The text does not go on with a digit. -/
def EndsDigits (cs : List Char) : Prop := ∀ c ∈ cs.head?, c.isDigit = false

theorem endsDigits_cons {c : Char} {cs : List Char} (h : c.isDigit = false) : EndsDigits (c :: cs) := by
  rintro d ⟨⟩
  exact h

theorem takeWhile_isDigit_append {ds rest : List Char} (hDigits : ∀ c ∈ ds, c.isDigit) (hRest : EndsDigits rest) :
    (ds ++ rest).takeWhile Char.isDigit = ds ∧ (ds ++ rest).dropWhile Char.isDigit = rest := by
  have hNone : rest.takeWhile Char.isDigit = [] ∧ rest.dropWhile Char.isDigit = rest := by
    cases rest with
    | nil => exact ⟨rfl, rfl⟩
    | cons c cs => simp [hRest c rfl]
  rw [List.takeWhile_append_of_pos hDigits, List.dropWhile_append_of_pos hDigits, hNone.1, hNone.2]
  exact ⟨List.append_nil ds, rfl⟩

theorem isDigit_of_mem_toDigits {n : Nat} {c : Char} (h : c ∈ Nat.toDigits 10 n) : c.isDigit :=
  Nat.isDigit_of_mem_toDigits (by decide) (by decide) h

theorem ne_of_mem_repr {n : Nat} {c d : Char} (h : c ∈ n.repr.toList) (hd : d.isDigit = false) : c ≠ d := by
  rw [Nat.toList_repr] at h
  rintro rfl
  rw [isDigit_of_mem_toDigits h] at hd
  cases hd

theorem isDigit_of_mem_padded {width n : Nat} {c : Char} (h : c ∈ padded width n) : c.isDigit := by
  rcases List.mem_append.mp h with h | h
  · rw [List.eq_of_mem_replicate h]
    rfl
  · exact isDigit_of_mem_toDigits h

theorem length_padded {width n : Nat} (hPos : 0 < width) (h : n < 10 ^ width) : (padded width n).length = width := by
  have hDigits := (Nat.length_toDigits_le_iff (b := 10) (by decide) hPos).mpr h
  rw [padded, List.length_append, List.length_replicate]
  omega

theorem ofDigitChars_padded (width n : Nat) : Nat.ofDigitChars 10 (padded width n) 0 = n := by
  rw [padded, Nat.ofDigitChars_append, Nat.ofDigitChars_replicate_zero, Nat.mul_zero,
    Nat.ofDigitChars_ten_toDigits]

theorem fixedNumber_append {ds : List Char} (hDigits : ∀ c ∈ ds, c.isDigit) (value : Nat) (rest : List Char) :
    fixedNumber ds.length value (ds ++ rest) = some (Nat.ofDigitChars 10 ds value, rest) := by
  induction ds generalizing value with
  | nil => rw [List.nil_append, List.length_nil, fixedNumber, Nat.ofDigitChars_nil]
  | cons d ds ih =>
    rw [List.forall_mem_cons] at hDigits
    rw [List.length_cons, List.cons_append, fixedNumber, if_pos hDigits.1, ih hDigits.2, Nat.ofDigitChars_cons,
      Nat.mul_comm]
    rfl

theorem fixedNumber_padded {width n : Nat} (hPos : 0 < width) (h : n < 10 ^ width) (rest : List Char) :
    fixedNumber width 0 (padded width n ++ rest) = some (n, rest) := by
  have hDigits : ∀ c ∈ padded width n, c.isDigit := fun _ => isDigit_of_mem_padded
  have hRead := fixedNumber_append hDigits 0 rest
  rwa [length_padded hPos h, ofDigitChars_padded] at hRead

end PolicyLint.Text
