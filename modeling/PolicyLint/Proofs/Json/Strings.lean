import PolicyLint.Json.Printer
import PolicyLint.Json.Reader

/-!
# Strings are read back

Whatever characters a string has, the reader finds them behind their escapes. Three kinds of character are told
apart: those with an escape of one letter, other controls, and those that stand for themselves.
-/
namespace PolicyLint.Json
open Text
set_option autoImplicit false

/-- Reading finds `a` in front of `rest`. -/
def Reads {α : Type} (take : Take α) (cs : List Char) (a : α) (rest : List Char) : Prop :=
  ∃ t, take cs = .ok t ∧ t.value = a ∧ t.rest = rest

theorem reads_endQuote (rest : List Char) : Reads stringBody ('"' :: rest) [] rest := by
  rw [Reads, stringBody]
  exact ⟨_, rfl, rfl, rfl⟩

theorem reads_escape {d : Char} {n : Nat} {cs chars rest : List Char} (hEscape : escaped cs = .ok (d, n))
    (h : Reads stringBody (cs.drop n) chars rest) : Reads stringBody ('\\' :: cs) (d :: chars) rest := by
  obtain ⟨t, hRead, rfl, rfl⟩ := h
  have hQuote : ¬ '\\' = '"' := by decide
  rw [Reads, stringBody]
  simp only [hQuote, if_false, if_true, hEscape, hRead]
  exact ⟨_, rfl, rfl, rfl⟩

theorem reads_plain {c : Char} {cs chars rest : List Char} (hQuote : c ≠ '"') (hSlash : c ≠ '\\')
    (hControl : ¬ c.toNat < 0x20) (h : Reads stringBody cs chars rest) :
    Reads stringBody (c :: cs) (c :: chars) rest := by
  obtain ⟨t, hRead, rfl, rfl⟩ := h
  rw [Reads, stringBody, if_neg hQuote, if_neg hSlash, if_neg hControl, hRead]
  exact ⟨_, rfl, rfl, rfl⟩

theorem unit?_fourHex : ∀ n < 32, (fourHex n).length = 4 ∧ unit? (fourHex n) = some n := by decide

theorem codeUnit_fourHex {n : Nat} (h : n < 32) (cs : List Char) : codeUnit (fourHex n ++ cs) = .ok n := by
  obtain ⟨hLength, hUnit⟩ := unit?_fourHex n h
  rw [codeUnit, List.take_left' hLength, hUnit]

theorem escaped_control {c : Char} (h : c.toNat < 0x20) (cs : List Char) :
    escaped ('u' :: (fourHex c.toNat ++ cs)) = .ok (c, 5) := by
  have hLow : ¬ (0xDC00 ≤ c.toNat ∧ c.toNat ≤ 0xDFFF) := by omega
  have hHigh : ¬ (0xD800 ≤ c.toNat ∧ c.toNat ≤ 0xDBFF) := by omega
  simp only [escaped, escapedUnits, codeUnit_fourHex h, bind, Except.bind, if_neg hLow, if_neg hHigh,
    Char.ofNat_toNat]
  rfl

/-- The characters whose escape is a letter. -/
def lettered : List Char := ['"', '\\', '\x08', '\t', '\n', '\x0c', '\r']

theorem escapeChar_of_mem_lettered {c : Char} (h : c ∈ lettered) :
    ∃ e, escapeChar c = ['\\', e] ∧ ∀ cs, escaped (e :: cs) = .ok (c, 1) := by
  simp only [lettered, List.mem_cons, List.not_mem_nil, or_false] at h
  rcases h with rfl | rfl | rfl | rfl | rfl | rfl | rfl <;> exact ⟨_, rfl, fun _ => rfl⟩

theorem escapeChar_of_not_mem_lettered {c : Char} (h : c ∉ lettered) :
    escapeChar c = if c.toNat < 0x20 then '\\' :: 'u' :: fourHex c.toNat else [c] := by
  simp only [lettered, List.mem_cons, List.not_mem_nil, or_false, not_or] at h
  simp [escapeChar, h]

theorem reads_escapeChar (c : Char) {cs chars rest : List Char} (h : Reads stringBody cs chars rest) :
    Reads stringBody (escapeChar c ++ cs) (c :: chars) rest := by
  by_cases hLettered : c ∈ lettered
  · obtain ⟨e, hText, hEscape⟩ := escapeChar_of_mem_lettered hLettered
    rw [hText]
    exact reads_escape (hEscape cs) h
  · rw [escapeChar_of_not_mem_lettered hLettered]
    split
    · rename_i hControl
      have hDrop : ('u' :: (fourHex c.toNat ++ cs)).drop 5 = cs :=
        List.drop_left' (unit?_fourHex _ hControl).1
      exact reads_escape (escaped_control hControl cs) (hDrop.symm ▸ h)
    · rename_i hControl
      have hQuote : c ≠ '"' := fun hc => hLettered (hc ▸ by decide)
      have hSlash : c ≠ '\\' := fun hc => hLettered (hc ▸ by decide)
      exact reads_plain hQuote hSlash hControl h

theorem reads_escaped (chars rest : List Char) :
    Reads stringBody (chars.flatMap escapeChar ++ '"' :: rest) chars rest := by
  induction chars with
  | nil => exact reads_endQuote rest
  | cons c chars ih =>
    rw [List.flatMap_cons, List.append_assoc]
    exact reads_escapeChar c ih

end PolicyLint.Json
