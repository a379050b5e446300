import PolicyLint.Proofs.License.Readers

/-!
# Nothing wrong is read

Whatever a reader takes off the front of the tokens, its layer of the grammar derives, with parentheses
that fit the room and joins that the budget pays for.
-/
namespace PolicyLint.License.Reader
open Token
set_option autoImplicit false

/-- A layer derives `e` from these tokens, whose parentheses fit the room and whose joins are paid for. -/
structure Takes (layer : Layer) (room budget : Nat) (front : List Token) (e : Expr) (left : Nat) :
    Prop where
  derives : Derives layer (front.map lexeme) e
  nests : NestsWithin room (front.map lexeme)
  pays : joins (front.map lexeme) + left = budget

/-- Whatever the reader takes, the layer takes. -/
def Sound (read : Reader) (layer : Layer) (room : Nat) : Prop :=
  ∀ budget tokens e left rest, read.Reads budget tokens e left rest →
    ∃ front, tokens = front ++ rest ∧ Takes layer room budget front e left

theorem Takes.of_layer {lower upper : Layer} {room budget left : Nat} {front : List Token} {e : Expr}
    (h : Takes lower room budget front e left)
    (hLayer : ∀ ls, Derives lower ls e → Derives upper ls e) : Takes upper room budget front e left :=
  ⟨hLayer _ h.derives, h.nests, h.pays⟩

theorem sound_atom {stop room : Nat}
    (h : ∀ lower, room = lower + 1 → Sound (expression stop lower) .disjunction lower) :
    Sound (atom stop (inside stop room)) .atom room := by
  intro budget tokens e left rest hReads
  rcases atom_reads_iff.mp hReads with ⟨t, r, rfl, hKind, hr, rfl, rfl⟩ |
    ⟨t, read, inner, close, rfl, hKind, hInside, hClose, hReads⟩
  · obtain ⟨hNone, hValid, hText⟩ := requirementOf_eq_ok_iff.mp hr
    have hLexeme : t.lexeme = .name t.text := lexeme_eq_name_iff.mpr ⟨hKind, rfl⟩
    refine ⟨[t], rfl, ?_, ?_, ?_⟩
    · obtain ⟨id, later, exception⟩ := r
      cases hNone
      rw [List.map_singleton, hLexeme, hText]
      cases later with
      | false => simpa using Derives.name hValid
      | true => exact .later hValid
    · exact nestsWithin_of_not_mem (by simp [hLexeme])
    · simp [joins, hLexeme]
  · cases room with
    | zero => cases hInside
    | succ lower =>
      cases hInside
      obtain ⟨front, rfl, hTakes⟩ := h lower rfl budget inner e left (close :: rest) hReads
      have hOpen : t.lexeme = .leftParen := lexeme_eq_of_kind (by simp) hKind
      have hShut : close.lexeme = .rightParen := lexeme_eq_of_kind (by simp) hClose
      have hMap : (t :: (front ++ [close])).map lexeme =
          .leftParen :: (front.map lexeme ++ [.rightParen]) := by
        simp [hOpen, hShut]
      refine ⟨t :: (front ++ [close]), by simp, ?_, ?_, ?_⟩
      · rw [hMap]
        exact .parens hTakes.derives
      · rw [hMap]
        exact (nestsWithin_parens hTakes.derives.balanced).mpr hTakes.nests
      · have hPays := hTakes.pays
        rw [hMap]
        simp only [joins, List.count_cons, List.count_append, List.count_nil] at hPays ⊢
        simpa using hPays

theorem sound_atom_none (stop : Nat) : Sound (atom stop none) .atom 0 :=
  sound_atom fun _ h => absurd h (Nat.succ_ne_zero _).symm

theorem sound_suffixed {stop room : Nat} {operand : Reader} (h : Sound operand .atom room) :
    Sound (suffixed stop operand) .suffixed room := by
  intro budget tokens e left rest hReads
  rcases suffixed_reads_iff.mp hReads with ⟨hReads, -⟩ |
    ⟨w, t, r, hLicense, hWith, hName, hNone, hValid, rfl⟩
  · obtain ⟨front, rfl, hTakes⟩ := h budget tokens e left rest hReads
    exact ⟨front, rfl, hTakes.of_layer fun _ => .bare⟩
  · obtain ⟨front, rfl, hTakes⟩ := h budget tokens _ left _ hLicense
    have hMap : (front ++ [w, t]).map lexeme = front.map lexeme ++ [.withWord, .name t.text] := by
      simp [lexeme_eq_of_kind (l := .withWord) (by simp) hWith, lexeme_eq_name_iff.mpr ⟨hName, rfl⟩]
    refine ⟨front ++ [w, t], by simp, ?_, ?_, ?_⟩
    · rw [hMap]
      exact .exception hTakes.derives hNone hValid
    · rw [hMap]
      exact (nestsWithin_append hTakes.derives.balanced).mpr
        ⟨hTakes.nests, nestsWithin_of_not_mem (by simp)⟩
    · rw [hMap, joins_append]
      simpa [joins] using hTakes.pays

/-- A chain and one more operand behind an operator are taken together. -/
theorem Takes.join {lower upper : Layer} {room budget middle left : Nat} {op : Lexeme} {join : Expr → Expr → Expr}
    (hOp : IsJoin op)
    (hJoin : ∀ ls ms a b, Derives upper ls a → Derives lower ms b → Derives upper (ls ++ op :: ms) (join a b))
    {front more : List Token} {t : Token} {a b : Expr} (hFront : Takes upper room budget front a (middle + 1))
    (hKind : t.kind = op.kind) (hMore : Takes lower room middle more b left) :
    Takes upper room budget (front ++ t :: more) (join a b) left := by
  have hMap : (front ++ t :: more).map lexeme = front.map lexeme ++ op :: more.map lexeme := by
    simp [hOp.lexeme_eq hKind]
  refine ⟨?_, ?_, ?_⟩
  · rw [hMap]
    exact hJoin _ _ _ _ hFront.derives hMore.derives
  · rw [hMap]
    exact (nestsWithin_join hOp hFront.derives.balanced).mpr ⟨hFront.nests, hMore.nests⟩
  · have hFirst := hFront.pays
    have hSecond := hMore.pays
    rw [hMap, joins_join hOp]
    omega

/-- A chain in progress stays derivable: each operand read is one more step of the derivation. -/
theorem Takes.of_chained {lower upper : Layer} {room budget : Nat} {operand : Reader} {op : Lexeme}
    {join : Expr → Expr → Expr} (hOperand : Sound operand lower room) (hOp : IsJoin op)
    (hJoin : ∀ ls ms a b, Derives upper ls a → Derives lower ms b → Derives upper (ls ++ op :: ms) (join a b))
    {a e : Expr} {middle left : Nat} {after rest : List Token}
    (h : Chained op.kind join operand a middle after e left rest) :
    ∀ front, Takes upper room budget front a middle →
      ∃ whole, front ++ after = whole ++ rest ∧ Takes upper room budget whole e left := by
  induction h with
  | stop _ =>
    intro front hFront
    exact ⟨front, rfl, hFront⟩
  | @step a b e _ middle last t after behind final hKind hReads hNext ih =>
    intro front hFront
    obtain ⟨more, rfl, hMore⟩ := hOperand _ _ _ _ _ hReads
    obtain ⟨whole, hWhole, hTakes⟩ := ih _ (hFront.join hOp hJoin hKind hMore)
    exact ⟨whole, by simpa using hWhole, hTakes⟩

theorem sound_chain {lower upper : Layer} {room : Nat} {operand : Reader} {op : Lexeme}
    {join : Expr → Expr → Expr} (hOperand : Sound operand lower room) (hOp : IsJoin op)
    (hFirst : ∀ ls a, Derives lower ls a → Derives upper ls a)
    (hJoin : ∀ ls ms a b, Derives upper ls a → Derives lower ms b → Derives upper (ls ++ op :: ms) (join a b)) :
    Sound (chain op.kind join operand) upper room := by
  intro budget tokens e left rest hReads
  obtain ⟨a, middle, after, hReads, hChained⟩ := chain_reads_iff.mp hReads
  obtain ⟨front, rfl, hFront⟩ := hOperand _ _ _ _ _ hReads
  exact Takes.of_chained hOperand hOp hJoin hChained front (hFront.of_layer fun ls => hFirst ls a)

theorem sound_conjunction {stop room : Nat}
    (h : ∀ lower, room = lower + 1 → Sound (expression stop lower) .disjunction lower) :
    Sound (chain .andWord .and (suffixed stop (atom stop (inside stop room)))) .conjunction room :=
  sound_chain (sound_suffixed (sound_atom h)) (.inl rfl) (fun _ _ => .factor) (fun _ _ _ _ => .and)

theorem sound_levels {stop room : Nat}
    (h : ∀ lower, room = lower + 1 → Sound (expression stop lower) .disjunction lower) :
    Sound (levels stop (inside stop room)) .disjunction room :=
  sound_chain (sound_conjunction h) (.inr rfl) (fun _ _ => .operand) (fun _ _ _ _ => .or)

theorem sound_expression (stop room : Nat) : Sound (expression stop room) .disjunction room := by
  induction room with
  | zero =>
    rw [expression_eq_levels]
    exact sound_levels fun _ h => absurd h (Nat.succ_ne_zero _).symm
  | succ room ih =>
    rw [expression_eq_levels]
    apply sound_levels
    rintro lower h
    cases h
    exact ih

end PolicyLint.License.Reader
