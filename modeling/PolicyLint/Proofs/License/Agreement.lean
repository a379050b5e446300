import PolicyLint.Proofs.License.Faults
import PolicyLint.Proofs.License.Single

/-!
# Requirements as expressions

On tokens that are all names or `WITH`, none of the readers of an expression has anything to do but the one for
a license with its exception. So a text without parentheses and joins is read alike as a requirement and as an
expression, and everything else is refused as a requirement at the first token that is of another kind.
-/
namespace PolicyLint.License
open Text Token
set_option autoImplicit false

/-- A requirement has no other tokens. -/
def Token.IsPlain (t : Token) : Prop := t.kind = .name ∨ t.kind = .withWord

instance (t : Token) : Decidable t.IsPlain := inferInstanceAs (Decidable (_ ∨ _))

namespace Reader
variable {stop room budget : Nat} {operand operand' : Reader} {tokens : List Token}

theorem atom_eq_of_no_leftParen {inside : Option Reader} (h : ∀ t ∈ tokens.head?, t.kind ≠ .leftParen) :
    atom stop inside budget tokens = atom stop none budget tokens := by
  cases tokens with
  | nil => rfl
  | cons t rest =>
    have hKind := h t rfl
    simp only [atom]
    split
    · rfl
    · rename_i hLeft
      exact absurd hLeft hKind
    all_goals rfl

theorem suffixed_congr (h : operand budget tokens = operand' budget tokens) :
    suffixed stop operand budget tokens = suffixed stop operand' budget tokens := by
  simp only [suffixed, h]

theorem chainFrom_eq_self {operator : Token.Kind} {join : Expr → Expr → Expr} {start : Reading tokens}
    (h : NextIsNot operator start.rest) : chainFrom operator join operand start = .ok start := by
  rw [chainFrom]
  split
  · rfl
  · rename_i t rest hRest
    rw [hRest, nextIsNot_cons] at h
    rw [if_neg h]

/-- Without its operator among the tokens a chain is its first operand. -/
theorem chain_eq_operand {operator : Token.Kind} {join : Expr → Expr → Expr} {layer : Layer}
    (hSound : Sound operand layer room) (h : ∀ t ∈ tokens, t.kind ≠ operator) :
    chain operator join operand budget tokens = operand budget tokens := by
  rw [chain]
  cases hRead : operand budget tokens with
  | error fault => rfl
  | ok r =>
    obtain ⟨front, hFront, -⟩ := hSound _ _ _ _ _ (reads_of_eq_ok hRead)
    refine chainFrom_eq_self fun t ht => h t ?_
    rw [hFront]
    exact List.mem_append_right front (List.mem_of_mem_head? ht)

/-- Plain tokens are read as an expression as they are read as a requirement. -/
theorem expression_eq_suffixed (h : ∀ t ∈ tokens, t.IsPlain) :
    expression stop room budget tokens = suffixed stop (atom stop none) budget tokens := by
  have hOther : ∀ kind, kind ≠ .name → kind ≠ .withWord → ∀ t ∈ tokens, t.kind ≠ kind := by
    rintro kind hName hWith t ht rfl
    exact (h t ht).elim hName hWith
  have hAtom : Sound (atom stop (inside stop room)) .atom room := sound_atom fun lower _ => sound_expression stop lower
  have hConjunction : Sound (chain .andWord .and (suffixed stop (atom stop (inside stop room)))) .conjunction room :=
    sound_conjunction fun lower _ => sound_expression stop lower
  calc expression stop room budget tokens
    _ = levels stop (inside stop room) budget tokens := by rw [expression_eq_levels]
    _ = chain .andWord .and (suffixed stop (atom stop (inside stop room))) budget tokens :=
      chain_eq_operand hConjunction (hOther .orWord (by decide) (by decide))
    _ = suffixed stop (atom stop (inside stop room)) budget tokens :=
      chain_eq_operand (sound_suffixed hAtom) (hOther .andWord (by decide) (by decide))
    _ = suffixed stop (atom stop none) budget tokens :=
      suffixed_congr (atom_eq_of_no_leftParen fun t ht =>
        hOther .leftParen (by decide) (by decide) t (List.mem_of_mem_head? ht))

/-- What is read from plain tokens is a single license. -/
theorem exists_license_of_plain (h : ∀ t ∈ tokens, t.IsPlain) {r : Reading tokens} {e : Expr}
    (hRead : suffixed stop (atom stop none) budget tokens = .ok r) (hFinish : finish r = .ok e) :
    ∃ license, e = .license license := by
  obtain ⟨left, hReads⟩ := finish_reads_iff.mp ⟨r, hRead, hFinish⟩
  refine Requirement.exists_license_of_reads (fun hMem => ?_) hReads
  obtain ⟨t, ht, hLeft⟩ := List.mem_map.mp hMem
  rcases h t ht with hKind | hKind <;> rw [hKind] at hLeft <;> cases hLeft

end Reader

namespace Spelled

theorem mem_parens_iff {cs : List Char} {ls : List Lexeme} (h : Spelled cs ls) :
    ('(' ∈ cs ↔ .leftParen ∈ ls) ∧ (')' ∈ cs ↔ .rightParen ∈ ls) := by
  induction h with
  | done => simp
  | @blank c cs ls hBlank _ ih =>
    have hLeft : '(' ≠ c := by rintro rfl; exact absurd hBlank (by decide)
    have hRight : ')' ≠ c := by rintro rfl; exact absurd hBlank (by decide)
    simpa [hLeft, hRight] using ih
  | leftParen _ ih | rightParen _ ih => simp [ih]
  | @word w cs ls _ hWord _ _ ih =>
    have hLeft : '(' ∉ w := fun hMem => absurd (hWord _ hMem) (by decide)
    have hRight : ')' ∉ w := fun hMem => absurd (hWord _ hMem) (by decide)
    simp [hLeft, hRight, ih, (Lexeme.ofWord_ne_leftParen _).symm, (Lexeme.ofWord_ne_rightParen _).symm]

end Spelled

namespace Requirement
variable {s : String} {tokens : List Token}

theorem parse_of_ofText (hTokens : ofText s = .ok tokens) (hNonempty : tokens ≠ []) :
    parse s =
      match tokens.find? (fun t => t.kind ≠ .name ∧ t.kind ≠ .withWord) with
      | some t => .error ⟨t.offset, .compound t.text⟩
      | none =>
        Reader.suffixed (byteLength s.toList) (Reader.atom (byteLength s.toList) none) maxOperators tokens >>=
          fun reading => Reader.finish reading >>= fun e =>
            match e with
            | .license r => .ok r
            | _ => .error ⟨0, .compound (trim s)⟩ := by
  obtain ⟨t, tokens, rfl⟩ := List.exists_cons_of_ne_nil hNonempty
  rw [parse, hTokens]
  rfl

theorem find?_eq_none_of_plain (h : ∀ t ∈ tokens, t.IsPlain) :
    tokens.find? (fun t => t.kind ≠ .name ∧ t.kind ≠ .withWord) = none := by
  refine List.find?_eq_none.mpr fun t ht => ?_
  rcases h t ht with hKind | hKind <;> simp [hKind]

theorem parse_eq_map (hTokens : ofText s = .ok tokens) (hPlain : ∀ t ∈ tokens, t.IsPlain) :
    Expr.parse s = (parse s).map .license := by
  cases tokens with
  | nil =>
    rw [Expr.parse, parse, hTokens]
    rfl
  | cons t tokens =>
    have hExpr : Expr.parse s =
        (Reader.expression (byteLength s.toList) maxNesting maxOperators (t :: tokens) >>= Reader.finish) := by
      rw [Expr.parse, hTokens]
      rfl
    rw [hExpr, parse_of_ofText hTokens (List.cons_ne_nil t tokens), find?_eq_none_of_plain hPlain,
      Reader.expression_eq_suffixed hPlain]
    cases hRead : Reader.suffixed (byteLength s.toList) (Reader.atom (byteLength s.toList) none) maxOperators
        (t :: tokens) with
    | error fault => rfl
    | ok reading =>
      cases hFinish : Reader.finish reading with
      | error fault => simp [bind, Except.bind, hFinish, Except.map]
      | ok e =>
        obtain ⟨license, rfl⟩ := Reader.exists_license_of_plain hPlain hRead hFinish
        simp [bind, Except.bind, hFinish, Except.map]

/-- The first token that is not plain is where a requirement is refused. -/
theorem parse_of_not_plain {front after : List Token} {t : Token} (hTokens : ofText s = .ok (front ++ t :: after))
    (hFront : ∀ u ∈ front, u.IsPlain) (hOther : ¬ t.IsPlain) : parse s = .error ⟨t.offset, .compound t.text⟩ := by
  have hFind : (front ++ t :: after).find? (fun t => t.kind ≠ .name ∧ t.kind ≠ .withWord) = some t := by
    rw [List.find?_append, find?_eq_none_of_plain hFront, Option.none_or, List.find?_cons_of_pos]
    simpa [IsPlain, not_or] using hOther
  rw [parse_of_ofText hTokens (by simp), hFind]

/-- What is read as an expression of one license, without a parenthesis, has no token of another kind. -/
theorem isPlain_of_parse {r : Requirement} (hTokens : ofText s = .ok tokens) (h : Expr.parse s = .ok (.license r))
    (hLeft : '(' ∉ s.toList) (hRight : ')' ∉ s.toList) : ∀ t ∈ tokens, t.IsPlain := by
  obtain ⟨hSpelled, -⟩ := ofText_eq_ok_iff.mp ⟨tokens, hTokens, rfl⟩
  obtain ⟨-, hDerives, -, -⟩ := Expr.derives_of_parse hSpelled h
  have hJoins : joins (tokens.map lexeme) = 0 := hDerives.joins_eq
  rw [joins, Nat.add_eq_zero_iff, List.count_eq_zero, List.count_eq_zero] at hJoins
  rw [hSpelled.mem_parens_iff.1] at hLeft
  rw [hSpelled.mem_parens_iff.2] at hRight
  intro t ht
  have hMem : t.lexeme ∈ tokens.map lexeme := List.mem_map_of_mem ht
  rw [IsPlain, kind_eq_kind_lexeme]
  cases hLexeme : t.lexeme with
  | name w => exact .inl rfl
  | withWord => exact .inr rfl
  | leftParen => exact absurd (hLexeme ▸ hMem) hLeft
  | rightParen => exact absurd (hLexeme ▸ hMem) hRight
  | andWord => exact absurd (hLexeme ▸ hMem) hJoins.1
  | orWord => exact absurd (hLexeme ▸ hMem) hJoins.2

theorem plain_of_parse {r : Requirement} (h : parse s = .ok r) :
    ∃ tokens, ofText s = .ok tokens ∧ ∀ t ∈ tokens, t.IsPlain := by
  obtain ⟨tokens, hTokens, -, hPlain, -⟩ := parse_eq_ok_iff_reads.mp h
  exact ⟨tokens, hTokens, hPlain⟩

theorem not_mem_parens_of_plain (hTokens : ofText s = .ok tokens) (hPlain : ∀ t ∈ tokens, t.IsPlain) :
    '(' ∉ s.toList ∧ ')' ∉ s.toList := by
  obtain ⟨hSpelled, -⟩ := ofText_eq_ok_iff.mp ⟨tokens, hTokens, rfl⟩
  rw [hSpelled.mem_parens_iff.1, hSpelled.mem_parens_iff.2]
  constructor
  all_goals
    intro hMem
    obtain ⟨t, ht, hLexeme⟩ := List.mem_map.mp hMem
    rcases hPlain t ht with hKind | hKind <;> rw [kind_eq_kind_lexeme, hLexeme] at hKind <;> cases hKind

/-- A text is a requirement exactly if it is an expression of one license without parentheses. Of plain tokens both
readers say the same, faults included, and what they read is one license; the first token that is not plain is where
a requirement is refused. -/
theorem parse_agrees (s : String) :
    (∀ r, parse s = .ok r ↔ Expr.parse s = .ok (.license r) ∧ '(' ∉ s.toList ∧ ')' ∉ s.toList) ∧
    ∀ tokens, ofText s = .ok tokens →
      ((∀ t ∈ tokens, t.IsPlain) →
        (∀ f, parse s = .error f ↔ Expr.parse s = .error f) ∧
        ∀ reading e, Reader.suffixed (byteLength s.toList) (Reader.atom (byteLength s.toList) none) maxOperators
          tokens = .ok reading → Reader.finish reading = .ok e → ∃ r, e = .license r) ∧
      ∀ front t after, tokens = front ++ t :: after → (∀ u ∈ front, u.IsPlain) → ¬ t.IsPlain →
        parse s = .error ⟨t.offset, .compound t.text⟩ := by
  refine ⟨fun r => ⟨fun h => ?_, ?_⟩, fun tokens hTokens => ⟨fun hPlain => ⟨fun f => ?_, ?_⟩, ?_⟩⟩
  · obtain ⟨tokens, hTokens, hPlain⟩ := plain_of_parse h
    rw [parse_eq_map hTokens hPlain, h]
    exact ⟨rfl, not_mem_parens_of_plain hTokens hPlain⟩
  · rintro ⟨h, hLeft, hRight⟩
    obtain ⟨tokens, hTokens, -⟩ := Expr.parse_eq_ok_iff_reads.mp h
    rw [parse_eq_map hTokens (isPlain_of_parse hTokens h hLeft hRight)] at h
    obtain ⟨license, hLicense, hSame⟩ := Outcome.map_eq_ok_iff.mp h
    cases hSame
    exact hLicense
  · rw [parse_eq_map hTokens hPlain, Outcome.map_eq_error_iff]
  · exact fun reading e => Reader.exists_license_of_plain hPlain
  · rintro front t after rfl hFront hOther
    exact parse_of_not_plain hTokens hFront hOther

theorem parse_agrees_refused :
    ofText "A+ WITH" = .ok [⟨.name, "A+", 0⟩, ⟨.withWord, "WITH", 3⟩] ∧
    parse "A+ WITH" = .error ⟨7, .unexpectedEnd⟩ ∧ Expr.parse "A+ WITH" = .error ⟨7, .unexpectedEnd⟩ ∧
    ofText "A WITH (B" = .ok [⟨.name, "A", 0⟩, ⟨.withWord, "WITH", 2⟩, ⟨.leftParen, "(", 7⟩, ⟨.name, "B", 8⟩] ∧
    parse "A WITH (B" = .error ⟨7, .compound "("⟩ := by
  have hPlain : ofText "A+ WITH" = .ok [⟨.name, "A+", 0⟩, ⟨.withWord, "WITH", 3⟩] := by decide +kernel
  have hOpen : ofText "A WITH (B" =
      .ok [⟨.name, "A", 0⟩, ⟨.withWord, "WITH", 2⟩, ⟨.leftParen, "(", 7⟩, ⟨.name, "B", 8⟩] := by decide +kernel
  have hRefused : parse "A+ WITH" = .error ⟨7, .unexpectedEnd⟩ := by decide +kernel
  have hSame := (((parse_agrees "A+ WITH").2 _ hPlain).1 (by decide)).1 ⟨7, .unexpectedEnd⟩
  have hFirst := ((parse_agrees "A WITH (B").2 _ hOpen).2 [⟨.name, "A", 0⟩, ⟨.withWord, "WITH", 2⟩] _ _ rfl
    (by decide) (by decide)
  exact ⟨hPlain, hRefused, hSame.mp hRefused, hOpen, hFirst⟩

end Requirement

end PolicyLint.License
