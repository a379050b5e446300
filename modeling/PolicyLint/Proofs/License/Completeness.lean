import PolicyLint.Proofs.License.Readers

/-!
# Nothing right is refused

A reader takes whatever its layer derives, if the room and the budget suffice and the next token does not
belong to the same layer. A chain is derived from the left while its reader goes on to the right, so the
statement is about the reading of an operand together with the chain that goes on from it.
-/
namespace PolicyLint.License.Reader
open Token
set_option autoImplicit false

/-- The next token is not of this kind. -/
def NextIsNot (kind : Token.Kind) (rest : List Token) : Prop := ∀ t ∈ rest.head?, t.kind ≠ kind

/-- What the reader of a layer goes on to once it has read `a`. -/
def Continues (stop room : Nat) : Layer → Expr → Nat → List Token → Expr → Nat → List Token → Prop
  | .atom, a, middle, after, e, left, rest => a = e ∧ middle = left ∧ after = rest
  | .suffixed, a, middle, after, e, left, rest =>
    NextIsNot .withWord after ∧ a = e ∧ middle = left ∧ after = rest
  | .conjunction, a, middle, after, e, left, rest =>
    NextIsNot .withWord after ∧
      Chained .andWord .and (ofLayer stop room .suffixed) a middle after e left rest
  | .disjunction, a, middle, after, e, left, rest =>
    NextIsNot .withWord after ∧ NextIsNot .andWord after ∧
      Chained .orWord .or (ofLayer stop room .conjunction) a middle after e left rest

theorem nextIsNot_cons {kind : Token.Kind} {t : Token} {rest : List Token} :
    NextIsNot kind (t :: rest) ↔ t.kind ≠ kind := by
  simp [NextIsNot]

theorem reads_license {stop : Nat} {inside : Option Reader} {r : Requirement} (hNone : r.exception = none)
    (hValid : isValidId r.id = true) {front after : List Token} {middle budget : Nat}
    (hFront : front.map lexeme = [.name (r.id ++ if r.orLater then "+" else "")])
    (hBudget : middle = budget) :
    (atom stop inside).Reads budget (front ++ after) (.license r) middle after := by
  obtain ⟨t, rfl, hKind, hText⟩ := exists_token_of_name hFront
  exact atom_reads_iff.mpr
    (.inl ⟨t, r, rfl, hKind, requirementOf_eq_ok_iff.mpr ⟨hNone, hValid, hText⟩, rfl, hBudget⟩)

/-- A layer derives `a` from `ls`; then its reader takes the tokens of `ls` and goes on from `a`. -/
theorem reads_of_derives {layer : Layer} {ls : List Lexeme} {a : Expr} (h : Derives layer ls a) (stop : Nat) :
    ∀ room front, front.map lexeme = ls → NestsWithin room ls →
      ∀ budget middle after e left rest, joins ls + middle = budget →
        Continues stop room layer a middle after e left rest →
        (ofLayer stop room layer).Reads budget (front ++ after) e left rest := by
  induction h with
  | operand _ ih =>
    rintro room front hFront hNests budget middle after e left rest hPays ⟨hWith, hAnd, hChained⟩
    exact chain_reads_iff.mpr
      ⟨_, middle, after, ih room front hFront hNests _ _ _ _ _ _ hPays ⟨hWith, .stop hAnd⟩, hChained⟩
  | @or ls ms a b hLeft _ ihLeft ihRight =>
    rintro room front hFront hNests budget middle after e left rest hPays ⟨hWith, hAnd, hChained⟩
    obtain ⟨first, t, second, rfl, hFirst, hKind, hSecond⟩ := exists_tokens_of_append hFront
    obtain ⟨hNestsLeft, hNestsRight⟩ := (nestsWithin_join (.inr rfl) hLeft.balanced).mp hNests
    rw [joins_join (.inr rfl)] at hPays
    have hRight := ihRight room second hSecond hNestsRight _ middle after b middle after rfl
      ⟨hWith, .stop hAnd⟩
    rw [List.append_assoc]
    refine ihLeft room first hFirst hNestsLeft budget (joins ms + middle + 1) _ e left rest (by omega)
      ⟨?_, ?_, .step hKind hRight hChained⟩
    · exact nextIsNot_cons.mpr (by simp [hKind, Lexeme.kind])
    · exact nextIsNot_cons.mpr (by simp [hKind, Lexeme.kind])
  | factor _ ih =>
    rintro room front hFront hNests budget middle after e left rest hPays ⟨hWith, hChained⟩
    exact chain_reads_iff.mpr
      ⟨_, middle, after, ih room front hFront hNests _ _ _ _ _ _ hPays ⟨hWith, rfl, rfl, rfl⟩, hChained⟩
  | @and ls ms a b hLeft _ ihLeft ihRight =>
    rintro room front hFront hNests budget middle after e left rest hPays ⟨hWith, hChained⟩
    obtain ⟨first, t, second, rfl, hFirst, hKind, hSecond⟩ := exists_tokens_of_append hFront
    obtain ⟨hNestsLeft, hNestsRight⟩ := (nestsWithin_join (.inl rfl) hLeft.balanced).mp hNests
    rw [joins_join (.inl rfl)] at hPays
    have hRight := ihRight room second hSecond hNestsRight _ middle after b middle after rfl
      ⟨hWith, rfl, rfl, rfl⟩
    rw [List.append_assoc]
    refine ihLeft room first hFirst hNestsLeft budget (joins ms + middle + 1) _ e left rest (by omega)
      ⟨?_, .step hKind hRight hChained⟩
    exact nextIsNot_cons.mpr (by simp [hKind, Lexeme.kind])
  | bare _ ih =>
    rintro room front hFront hNests budget middle after e left rest hPays ⟨hWith, rfl, rfl, rfl⟩
    exact suffixed_reads_iff.mpr
      (.inl ⟨ih room front hFront hNests _ _ _ _ _ _ hPays ⟨rfl, rfl, rfl⟩, hWith⟩)
  | @exception ls r exception hLicense hNone hValid ih =>
    rintro room front hFront hNests budget middle after e left rest hPays ⟨hWith, rfl, rfl, rfl⟩
    obtain ⟨first, w, t, rfl, hFirst, hWithWord, hKind, rfl⟩ := exists_tokens_of_exception hFront
    have hCost : joins (ls ++ [.withWord, .name t.text]) = joins ls := by simp [joins]
    have hNestsFirst := ((nestsWithin_append hLicense.balanced).mp hNests).1
    refine suffixed_reads_iff.mpr (.inr ⟨w, t, r, ?_, hWithWord, hKind, hNone, hValid, rfl⟩)
    rw [List.append_assoc]
    exact ih room first hFirst hNestsFirst budget middle _ _ _ _ (hCost ▸ hPays) ⟨rfl, rfl, rfl⟩
  | @name id hValid =>
    rintro room front hFront hNests budget middle after e left rest hPays ⟨rfl, rfl, rfl⟩
    have hBudget : middle = budget := by simpa [joins] using hPays
    exact reads_license (r := ⟨id, false, none⟩) rfl hValid (by simpa using hFront) hBudget
  | @later id hValid =>
    rintro room front hFront hNests budget middle after e left rest hPays ⟨rfl, rfl, rfl⟩
    have hBudget : middle = budget := by simpa [joins] using hPays
    exact reads_license (r := ⟨id, true, none⟩) rfl hValid hFront hBudget
  | @parens ls e hInner ih =>
    rintro room front hFront hNests budget middle after e' left rest hPays ⟨rfl, rfl, rfl⟩
    obtain ⟨t, inner, close, rfl, hOpen, hInnerMap, hShut⟩ := exists_tokens_of_parens hFront
    have hCost : joins (.leftParen :: (ls ++ [.rightParen])) = joins ls := by
      simp [joins]
    cases room with
    | zero => exact absurd hNests not_nestsWithin_zero
    | succ room =>
      have hReads := ih room inner hInnerMap ((nestsWithin_parens hInner.balanced).mp hNests) budget middle
        (close :: after) e middle (close :: after) (hCost ▸ hPays)
        ⟨nextIsNot_cons.mpr (by simp [hShut]), nextIsNot_cons.mpr (by simp [hShut]),
          .stop (nextIsNot_cons.mpr (by simp [hShut]))⟩
      refine atom_reads_iff.mpr (.inr ⟨t, expression stop room, inner ++ close :: after, close, by simp, hOpen,
        rfl, hShut, ?_⟩)
      rw [expression_eq_levels]
      exact hReads

end PolicyLint.License.Reader
