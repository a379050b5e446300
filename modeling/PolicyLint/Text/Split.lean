/-!
# Cutting texts

Taking a known beginning off a text, and cutting it at a character.
-/
namespace PolicyLint.Text
set_option autoImplicit false

/-- What follows `front` at the start of a text. -/
def stripFront : (front cs : List Char) → Option (List Char)
  | [], cs => some cs
  | _ :: _, [] => none
  | f :: fs, c :: cs => if f = c then stripFront fs cs else none

/-- The texts around the first character of a class; `none` if there is none. -/
def cutAt (p : Char → Bool) : List Char → Option (List Char × List Char)
  | [] => none
  | c :: cs => if p c then some ([], cs) else (cutAt p cs).map fun (a, b) => (c :: a, b)

/-- The pieces between the characters of a class; an empty text is one empty piece. -/
def splitAt (p : Char → Bool) : List Char → List (List Char)
  | [] => [[]]
  | c :: cs =>
    if p c then [] :: splitAt p cs
    else
      match splitAt p cs with
      | [] => [[c]]
      | piece :: pieces => (c :: piece) :: pieces

theorem stripFront_eq_some_iff {front cs rest : List Char} :
    stripFront front cs = some rest ↔ cs = front ++ rest := by
  induction front generalizing cs with
  | nil => simp [stripFront]
  | cons f fs ih => cases cs with
    | nil => simp [stripFront]
    | cons c cs => by_cases h : f = c <;> simp [stripFront, h, ih, eq_comm]

theorem cutAt_eq_some {p : Char → Bool} {cs a b : List Char} (h : cutAt p cs = some (a, b)) :
    ∃ c, p c = true ∧ cs = a ++ c :: b ∧ ∀ x ∈ a, p x = false := by
  induction cs generalizing a with
  | nil => simp [cutAt] at h
  | cons c cs ih =>
    by_cases hc : p c = true
    · simp [cutAt, hc] at h
      exact ⟨c, hc, by simp [h.1, h.2], by simp [h.1]⟩
    · rw [cutAt, if_neg hc] at h
      obtain ⟨⟨a', b'⟩, h', e⟩ := Option.map_eq_some_iff.mp h
      obtain ⟨rfl, rfl⟩ := Prod.mk.inj e
      obtain ⟨d, hd, rfl, hall⟩ := ih h'
      refine ⟨d, hd, rfl, fun x hx => ?_⟩
      rcases List.mem_cons.mp hx with rfl | hx
      · simpa using hc
      · exact hall x hx

end PolicyLint.Text
