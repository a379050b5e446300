import PolicyLint.Text.Bytes

/-!
# Places in a text

What stands at a byte of a text. A prefix is known by the number of its bytes, so a place has at most one text
of a given length.
-/
namespace PolicyLint.Text
set_option autoImplicit false

/-- The offset stands between two characters, or at an end of the text. -/
def IsBoundary (cs : List Char) (offset : Nat) : Prop := ∃ front, front <+: cs ∧ byteLength front = offset

/-- From byte `offset` on, the characters start with `text`. -/
def StandsAt (cs : List Char) (offset : Nat) (text : String) : Prop :=
  ∃ front, front ++ text.toList <+: cs ∧ byteLength front = offset

section
variable {cs : List Char} {offset : Nat} {text : String}

theorem byteLength_eq_zero_iff : byteLength cs = 0 ↔ cs = [] := by
  cases cs with
  | nil => simp
  | cons c cs =>
    have hSize := c.utf8Size_pos
    simp
    omega

/-- Of two prefixes the one with fewer bytes starts the other. -/
theorem prefix_of_byteLength_le {front front' : List Char} (h : front <+: cs) (h' : front' <+: cs)
    (hLe : byteLength front ≤ byteLength front') : front <+: front' := by
  rcases List.prefix_or_prefix_of_prefix h h' with h | ⟨more, rfl⟩
  · exact h
  · rw [byteLength_append] at hLe
    obtain rfl : more = [] := byteLength_eq_zero_iff.mp (by omega)
    simp

/-- A prefix is known by the number of its bytes. -/
theorem eq_of_byteLength_eq {front front' : List Char} (h : front <+: cs) (h' : front' <+: cs)
    (hBytes : byteLength front = byteLength front') : front = front' := by
  obtain ⟨more, rfl⟩ := prefix_of_byteLength_le h h' (Nat.le_of_eq hBytes)
  rw [byteLength_append] at hBytes
  obtain rfl : more = [] := byteLength_eq_zero_iff.mp (by omega)
  exact (List.append_nil front).symm

theorem byteLength_concat {front : List Char} {c : Char} :
    byteLength (front ++ [c]) = byteLength front + c.utf8Size := byteLength_append front [c]

/-- A character that stands no earlier than another is the same one, or stands behind it. -/
theorem eq_or_later {front front' back : List Char} {c d : Char} (h : front ++ c :: cs = front' ++ d :: back)
    (hLe : byteLength front ≤ byteLength front') :
    (front = front' ∧ c = d) ∨ byteLength (front ++ [c]) ≤ byteLength front' := by
  obtain ⟨middle, rfl⟩ : front <+: front' :=
    prefix_of_byteLength_le (List.prefix_append front (c :: cs)) (h ▸ List.prefix_append front' (d :: back)) hLe
  rw [List.append_assoc, List.append_cancel_left_eq] at h
  cases middle with
  | nil =>
    left
    exact ⟨(List.append_nil front).symm, (List.cons.inj h).1⟩
  | cons e middle =>
    right
    rw [(List.cons.inj h).1]
    simp only [byteLength_append, byteLength_cons, byteLength_nil]
    omega

theorem IsBoundary.le (h : IsBoundary cs offset) : offset ≤ byteLength cs := by
  obtain ⟨front, ⟨back, rfl⟩, rfl⟩ := h
  rw [byteLength_append]
  exact Nat.le_add_right _ _

theorem isBoundary_zero : IsBoundary cs 0 := ⟨[], List.nil_prefix, rfl⟩

theorem isBoundary_byteLength : IsBoundary cs (byteLength cs) := ⟨cs, List.prefix_rfl, rfl⟩

theorem StandsAt.isBoundary (h : StandsAt cs offset text) : IsBoundary cs offset := by
  obtain ⟨front, hFront, hOffset⟩ := h
  exact ⟨front, (List.prefix_append front _).trans hFront, hOffset⟩

/-- Of two texts at one place, one starts the other. -/
theorem StandsAt.prefix_or_prefix {other : String} (h : StandsAt cs offset text)
    (h' : StandsAt cs offset other) : text.toList <+: other.toList ∨ other.toList <+: text.toList := by
  obtain ⟨front, hFront, hOffset⟩ := h
  obtain ⟨front', hFront', hOffset'⟩ := h'
  have hSame : front = front' := eq_of_byteLength_eq ((List.prefix_append front _).trans hFront)
    ((List.prefix_append front' _).trans hFront') (hOffset.trans hOffset'.symm)
  subst hSame
  have hBoth := List.prefix_or_prefix_of_prefix hFront hFront'
  rwa [List.prefix_append_right_inj, List.prefix_append_right_inj] at hBoth

end

end PolicyLint.Text
