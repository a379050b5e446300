import PolicyLint.Proofs.License.Lexemes
import PolicyLint.Proofs.Text.Offsets

/-!
# Where tokens stand

A token stands in the text at its offset, and all but names are spelled as their kind is. The scanner fails at a
word that stands where the fault says.
-/
namespace PolicyLint.License
open Text
set_option autoImplicit false

namespace Token

/-- How every token of a kind is spelled; names differ. -/
def Kind.spelling : Kind → Option String
  | .leftParen => some "("
  | .rightParen => some ")"
  | .andWord => some "AND"
  | .orWord => some "OR"
  | .withWord => some "WITH"
  | .name => none

/-- The token is where it says, and spelled as its kind is. -/
structure StandsIn (t : Token) (cs : List Char) : Prop where
  text : StandsAt cs t.offset t.text
  spelled : ∀ w ∈ t.kind.spelling, t.text = w

theorem StandsIn.spelling {t : Token} {cs : List Char} (h : t.StandsIn cs) {w : String}
    (hKind : t.kind.spelling = some w) : StandsAt cs t.offset w := h.spelled w hKind ▸ h.text

theorem spelling_of_classify {w : String} {k : Kind} (h : classify w = .ok k) : ∀ v ∈ k.spelling, w = v := by
  obtain ⟨-, rfl⟩ := classify_eq_ok_iff.mp h
  intro v hv
  simp only [Lexeme.ofWord] at hv
  split at hv
  · cases hv
    assumption
  · split at hv
    · cases hv
      assumption
    · split at hv
      · cases hv
        assumption
      · cases hv

theorem cause_of_classify {w : String} {cause : Cause} (h : classify w = .error cause) :
    ∃ expected, cause = .lowercaseOperator w expected := by
  unfold classify at h
  split_ifs at h
  all_goals
    cases h
    exact ⟨_, rfl⟩

theorem word_append_dropWhile (c : Char) (rest : List Char) :
    (c :: rest.takeWhile isWordChar) ++ rest.dropWhile isWordChar = c :: rest := by
  rw [List.cons_append, List.takeWhile_append_dropWhile]

theorem standsIn_of_scan {offset : Nat} {cs : List Char} {ts : List Token} (h : scan offset cs = .ok ts)
    (front : List Char) (hFront : byteLength front = offset) : ∀ t ∈ ts, t.StandsIn (front ++ cs) := by
  -- What was scanned before is kept as a front, so that offsets stay those of the whole text.
  fun_induction scan offset cs generalizing ts front
  case case1 offset =>
    cases h
    simp
  case case2 offset c rest hBlank ih =>
    simpa using ih h (front ++ [c]) (by simp [byteLength_append, hFront])
  case case3 offset rest hBlank ih =>
    obtain ⟨ts, hTs, rfl⟩ := Outcome.map_eq_ok_iff.mp h
    rw [List.forall_mem_cons]
    refine ⟨⟨⟨front, ⟨rest, by simp⟩, hFront⟩, by simp [Kind.spelling]⟩, ?_⟩
    simpa using ih hTs (front ++ ['(']) (by simp [byteLength_append, hFront])
  case case4 offset rest hBlank hLeft ih =>
    obtain ⟨ts, hTs, rfl⟩ := Outcome.map_eq_ok_iff.mp h
    rw [List.forall_mem_cons]
    refine ⟨⟨⟨front, ⟨rest, by simp⟩, hFront⟩, by simp [Kind.spelling]⟩, ?_⟩
    simpa using ih hTs (front ++ [')']) (by simp [byteLength_append, hFront])
  case case5 => cases h
  case case6 offset c rest hBlank hLeft hRight word text kind hClassify ih =>
    obtain ⟨ts, hTs, rfl⟩ := Outcome.map_eq_ok_iff.mp h
    have hRest := ih hTs (front ++ word) (by rw [byteLength_append, hFront])
    rw [List.append_assoc, word_append_dropWhile] at hRest
    rw [List.forall_mem_cons]
    refine ⟨⟨⟨front, ⟨rest.dropWhile isWordChar, ?_⟩, hFront⟩, spelling_of_classify hClassify⟩, hRest⟩
    simp only [text, word, String.toList_ofList, List.append_assoc, word_append_dropWhile]

/-- Tokens come in the order of their offsets. -/
theorem pairwise_offset_of_scan {offset : Nat} {cs : List Char} {ts : List Token} (h : scan offset cs = .ok ts) :
    (∀ t ∈ ts, offset ≤ t.offset) ∧ ts.Pairwise fun t u => t.offset < u.offset := by
  -- A token takes at least one byte, so those behind it start after its offset.
  have hStep : ∀ {offset size : Nat} {t : Token} {ts : List Token}, t.offset = offset → 0 < size →
      ((∀ u ∈ ts, offset + size ≤ u.offset) ∧ ts.Pairwise fun t u => t.offset < u.offset) →
      (∀ u ∈ t :: ts, offset ≤ u.offset) ∧ (t :: ts).Pairwise fun t u => t.offset < u.offset := by
    rintro offset size t ts rfl hSize ⟨hRest, hOrder⟩
    rw [List.forall_mem_cons, List.pairwise_cons]
    exact ⟨⟨Nat.le_refl _, fun u hu => by have := hRest u hu; omega⟩,
      fun u hu => by have := hRest u hu; omega, hOrder⟩
  fun_induction scan offset cs generalizing ts
  case case1 offset =>
    cases h
    simp
  case case2 offset c rest hBlank ih =>
    obtain ⟨hRest, hOrder⟩ := ih h
    exact ⟨fun t ht => (Nat.le_add_right _ _).trans (hRest t ht), hOrder⟩
  case case3 offset rest hBlank ih =>
    obtain ⟨ts, hTs, rfl⟩ := Outcome.map_eq_ok_iff.mp h
    exact hStep rfl (Char.utf8Size_pos _) (ih hTs)
  case case4 offset rest hBlank hLeft ih =>
    obtain ⟨ts, hTs, rfl⟩ := Outcome.map_eq_ok_iff.mp h
    exact hStep rfl (Char.utf8Size_pos _) (ih hTs)
  case case5 => cases h
  case case6 offset c rest hBlank hLeft hRight word text kind hClassify ih =>
    obtain ⟨ts, hTs, rfl⟩ := Outcome.map_eq_ok_iff.mp h
    exact hStep rfl (Nat.add_pos_left c.utf8Size_pos _) (ih hTs)

theorem standsAt_of_scan_error {offset : Nat} {cs : List Char} {f : Fault} (h : scan offset cs = .error f)
    (front : List Char) (hFront : byteLength front = offset) :
    ∃ found expected, f.cause = .lowercaseOperator found expected ∧ StandsAt (front ++ cs) f.offset found := by
  fun_induction scan offset cs generalizing front
  case case1 => cases h
  case case2 offset c rest hBlank ih =>
    simpa using ih h (front ++ [c]) (by simp [byteLength_append, hFront])
  case case3 offset rest hBlank ih =>
    simpa using ih (Outcome.map_eq_error_iff.mp h) (front ++ ['(']) (by simp [byteLength_append, hFront])
  case case4 offset rest hBlank hLeft ih =>
    simpa using ih (Outcome.map_eq_error_iff.mp h) (front ++ [')']) (by simp [byteLength_append, hFront])
  case case5 offset c rest hBlank hLeft hRight word text cause hClassify =>
    cases h
    obtain ⟨expected, rfl⟩ := cause_of_classify hClassify
    refine ⟨text, expected, rfl, front, ⟨rest.dropWhile isWordChar, ?_⟩, hFront⟩
    simp only [text, word, String.toList_ofList, List.append_assoc, word_append_dropWhile]
  case case6 offset c rest hBlank hLeft hRight word text kind hClassify ih =>
    have hRest := ih (Outcome.map_eq_error_iff.mp h) (front ++ word) (by rw [byteLength_append, hFront])
    rwa [List.append_assoc, word_append_dropWhile] at hRest

end Token

end PolicyLint.License
