import PolicyLint.Proofs.License.RoundTrip

/-!
# Single requirements

A requirement is read by the same readers as an expression, without room for parentheses. What was read
can be written, and reading that gives the requirement back; so requirements that were read are told apart
by how they are written.
-/
namespace PolicyLint.License.Requirement
open Token
set_option autoImplicit false

theorem parse_eq_ok_iff_reads {s : String} {r : Requirement} :
    parse s = .ok r ↔ ∃ tokens, ofText s = .ok tokens ∧ tokens ≠ [] ∧
      (∀ t ∈ tokens, t.kind = .name ∨ t.kind = .withWord) ∧
      ∃ left, (Reader.suffixed (Text.byteLength s.toList) (Reader.atom (Text.byteLength s.toList) none)).Reads
        maxOperators tokens (.license r) left [] := by
  rw [parse, Outcome.bind_eq_ok_iff]
  apply exists_congr
  intro tokens
  apply and_congr_right
  intro _
  cases tokens with
  | nil => simp [bind, Except.bind, throw, throwThe, MonadExceptOf.throw]
  | cons t tokens =>
    simp only [List.isEmpty_cons, Bool.false_eq_true, if_false, ne_eq, List.cons_ne_nil,
      not_false_eq_true, true_and]
    split
    · rename_i u hu
      have hKind := List.find?_some hu
      have hMem := List.mem_of_find?_eq_some hu
      simp only [decide_eq_true_eq] at hKind
      constructor
      · intro h
        cases h
      · rintro ⟨hKinds, -⟩
        rcases hKinds u hMem with h | h
        · exact absurd h hKind.1
        · exact absurd h hKind.2
    · rename_i hNone
      have hKinds : ∀ u ∈ t :: tokens, u.kind = .name ∨ u.kind = .withWord := by
        intro u hu
        have h := List.find?_eq_none.mp hNone u hu
        simp only [decide_eq_true_eq] at h
        rcases Decidable.em (u.kind = .name) with hName | hName
        · exact .inl hName
        · exact .inr (Decidable.byContradiction fun hWith => h ⟨hName, hWith⟩)
      rw [and_iff_right hKinds, ← Reader.finish_reads_iff, Outcome.bind_eq_ok_iff]
      apply exists_congr
      intro reading
      apply and_congr_right
      intro _
      rw [Outcome.bind_eq_ok_iff]
      constructor
      · rintro ⟨e, he, h⟩
        split at h
        · cases h
          exact he
        · cases h
      · intro h
        exact ⟨_, h, rfl⟩

theorem isWritable_of_parse {s : String} {r : Requirement} (h : parse s = .ok r) : r.IsWritable := by
  obtain ⟨tokens, hTokens, -, -, left, hReads⟩ := parse_eq_ok_iff_reads.mp h
  obtain ⟨hSpelled, hCased⟩ := ofText_eq_ok_iff.mp ⟨tokens, hTokens, rfl⟩
  obtain ⟨front, hFront, hTakes⟩ :=
    Reader.sound_suffixed (Reader.sound_atom_none (Text.byteLength s.toList)) _ _ _ _ _ hReads
  rw [List.append_nil] at hFront
  subst hFront
  exact hTakes.derives.isWritable (fun w hw => ⟨hSpelled.not_operator_of_mem hw, hCased w hw⟩) r
    (List.mem_singleton.mpr rfl)

theorem kind_of_mem_lexemes {r : Requirement} {l : Lexeme} (h : l ∈ r.lexemes) :
    l.kind = .name ∨ l.kind = .withWord := by
  obtain ⟨id, later, exception⟩ := r
  cases exception with
  | none =>
    obtain rfl := List.mem_singleton.mp h
    exact .inl rfl
  | some x =>
    simp only [lexemes, List.mem_cons, List.not_mem_nil, or_false] at h
    rcases h with rfl | rfl | rfl
    · exact .inl rfl
    · exact .inr rfl
    · exact .inl rfl

/-- Reading a written requirement gives it back. -/
theorem parse_render_of_isWritable {r : Requirement} (h : r.IsWritable) : parse r.render = .ok r := by
  have hCased : WellCased r.lexemes := fun w hw => (h.isName hw).2
  obtain ⟨tokens, hTokens, hLexemes⟩ := ofText_eq_ok_iff.mpr ⟨h.spelled, hCased⟩
  refine parse_eq_ok_iff_reads.mpr ⟨tokens, hTokens, ?_, ?_, maxOperators - joins r.lexemes, ?_⟩
  · rintro rfl
    cases hLexemes
  · intro t ht
    rw [kind_eq_kind_lexeme]
    exact kind_of_mem_lexemes (hLexemes ▸ List.mem_map_of_mem ht)
  · have hJoins : joins r.lexemes ≤ maxOperators := by
      rw [show joins r.lexemes = 0 from (Expr.joins_lexemes (.license r)).1]
      exact Nat.zero_le _
    have hNests : NestsWithin 0 r.lexemes :=
      nestsWithin_of_not_mem fun hMem => by simpa [Lexeme.kind] using kind_of_mem_lexemes hMem
    have hReads := Reader.reads_of_derives h.derives (Text.byteLength r.render.toList) 0 tokens hLexemes hNests
      maxOperators (maxOperators - joins r.lexemes) [] (.license r) _ [] (by omega)
      ⟨by simp [Reader.NextIsNot], rfl, rfl, rfl⟩
    rw [List.append_nil] at hReads
    exact hReads

theorem render_eq_iff {s s' : String} {r r' : Requirement} (h : parse s = .ok r) (h' : parse s' = .ok r') :
    r.render = r'.render ↔ r = r' := by
  constructor
  · intro hRender
    have hr := parse_render_of_isWritable (isWritable_of_parse h)
    rw [hRender, parse_render_of_isWritable (isWritable_of_parse h')] at hr
    cases hr
    rfl
  · rintro rfl
    rfl

end PolicyLint.License.Requirement
