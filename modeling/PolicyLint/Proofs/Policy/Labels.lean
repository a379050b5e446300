import PolicyLint.Proofs.Policy.Places
import PolicyLint.Proofs.Text.Pieces

/-!
# Places as texts

Different places have different texts. A text is cut at its first bracket; what is in front of it tells the
lists apart, and the numbers in brackets tell the entries apart.
-/
namespace PolicyLint.Policy
open Text
set_option autoImplicit false

/-- A text is cut in one way at the first character of a class. -/
theorem cut_unique {p : Char → Bool} {a a' b b' : List Char} (h : a ++ b = a' ++ b')
    (ha : ∀ c ∈ a, p c = false) (ha' : ∀ c ∈ a', p c = false) (hb : StartsApart p b)
    (hb' : StartsApart p b') : a = a' ∧ b = b' := by
  have hFront : a = a' := by
    rw [eq_takeWhile_iff.mpr ⟨ha, b, hb, rfl⟩, h]
    exact (eq_takeWhile_iff.mpr ⟨ha', b', hb', rfl⟩).symm
  subst hFront
  exact ⟨rfl, List.append_cancel_left h⟩

/-- An index in brackets. -/
def bracketed (index : Nat) (rest : List Char) : List Char :=
  '[' :: (Nat.toDigits 10 index ++ ']' :: rest)

theorem bracketed_inj {i j : Nat} {rest rest' : List Char} :
    bracketed i rest = bracketed j rest' ↔ i = j ∧ rest = rest' := by
  constructor
  · intro h
    have hDigits : ∀ n, ∀ c ∈ Nat.toDigits 10 n, (c == ']') = false := by
      intro n c hc
      have hDigit := Nat.isDigit_of_mem_toDigits (by decide) (by decide) hc
      rw [beq_eq_false_iff_ne]
      rintro rfl
      exact absurd hDigit (by decide)
    have hStarts : ∀ cs, StartsApart (· == ']') (']' :: cs) := by
      rintro cs c ⟨⟩
      rfl
    obtain ⟨hIndex, hRest⟩ := cut_unique (List.cons.inj h).2 (hDigits i) (hDigits j) (hStarts _) (hStarts _)
    refine ⟨?_, (List.cons.inj hRest).2⟩
    rw [← Nat.ofDigitChars_ten_toDigits (n := i), hIndex, Nat.ofDigitChars_ten_toDigits]
  · rintro ⟨rfl, rfl⟩
    rfl

theorem toList_indexed (pre name : String) (index : Nat) :
    (indexed pre name index).toList = pre.toList ++ '.' :: name.toList ++ bracketed index [] := by
  simp [indexed, bracketed]

namespace Place

/-- The text up to the first bracket. -/
def front : Place → String
  | document => ""
  | licenses => "licenses"
  | bans => "bans"
  | sources => "sources"
  | exception _ => "licenses.exceptions"
  | clarification _ | licenseFile _ _ => "licenses.clarify"
  | skip _ => "bans.skip"
  | treeSkip _ => "bans.skip-tree"

/-- The text from the first bracket on. -/
def numbers : Place → List Char
  | document | licenses | bans | sources => []
  | exception i | clarification i | skip i | treeSkip i => bracketed i []
  | licenseFile i j => bracketed i (".license-files".toList ++ bracketed j [])

theorem toList_text (p : Place) : p.text.toList = p.front.toList ++ p.numbers := by
  cases p <;> simp [text, front, numbers, toList_indexed, bracketed]

theorem startsApart_numbers (p : Place) : StartsApart (· == '[') p.numbers := by
  cases p <;> simp [StartsApart, numbers, bracketed]

theorem front_clean (p : Place) : ∀ c ∈ p.front.toList, (c == '[') = false := by
  cases p <;> simp [front]

theorem text_injective {p q : Place} (h : p.text = q.text) : p = q := by
  have hList : p.front.toList ++ p.numbers = q.front.toList ++ q.numbers := by
    rw [← toList_text, ← toList_text, h]
  obtain ⟨hFront, hNumbers⟩ := cut_unique hList p.front_clean q.front_clean p.startsApart_numbers
    q.startsApart_numbers
  cases p <;> cases q <;> simp_all [front, numbers, bracketed_inj]

end Place

theorem dotted_inj {a b name : String} (h : dotted a name = dotted b name) : a = b := by
  have hSelf : ∀ c : String, name ≠ c ++ "." ++ name := by
    intro c hEq
    have hLength := congrArg String.length hEq
    simp only [String.length_append] at hLength
    have hDot : ".".length = 1 := rfl
    omega
  rw [dotted, dotted] at h
  split at h
  · rename_i ha
    split at h
    · rename_i hb
      rw [String.isEmpty_iff.mp ha, String.isEmpty_iff.mp hb]
    · exact absurd h (hSelf b)
  · split at h
    · exact absurd h.symm (hSelf a)
    · have hList := congrArg String.toList h
      simp only [String.toList_append] at hList
      exact String.toList_inj.mp (List.append_cancel_right (List.append_cancel_right hList))

/-- The lists below the bans that the loader does not read have no place. -/
theorem Place.text_ne_unread {p : Place} {name : String} {i : Nat} (h : name ∈ ["deny", "allow"]) :
    p.text ≠ indexed "bans" name i := by
  intro hText
  have hName : ∀ c ∈ "bans".toList ++ '.' :: name.toList, (c == '[') = false := by
    simp only [List.mem_cons, List.not_mem_nil, or_false] at h
    rcases h with rfl | rfl <;> simp
  have hList := congrArg String.toList hText
  rw [toList_text, toList_indexed] at hList
  obtain ⟨hFront, -⟩ := cut_unique hList p.front_clean hName p.startsApart_numbers (by rintro c ⟨⟩; rfl)
  simp only [List.mem_cons, List.not_mem_nil, or_false] at h
  rcases h with rfl | rfl <;> cases p <;> revert hFront <;> rw [front] <;> decide

end PolicyLint.Policy
