import PolicyLint.Proofs.License.Acceptance
import PolicyLint.Proofs.License.Written

/-!
# Reading what was written

The written form of a tree drops all parentheses but those around a disjunction below a conjunction, so
reading it groups every chain to the left. Neither limit is exceeded: the joins are as many as before, and
the parentheses that are left nest no deeper than those of the text that the tree was read from.
-/
namespace PolicyLint.License
set_option autoImplicit false

/-- Every requirement of a derived tree is made of names of its lexemes. -/
theorem Derives.isWritable {layer : Layer} {ls : List Lexeme} {e : Expr} (h : Derives layer ls e)
    (hNames : ∀ w, .name w ∈ ls → Requirement.IsName w) : e.IsWritable := by
  induction h with
  | operand _ ih | factor _ ih | bare _ ih => exact ih hNames
  | or _ _ ihLeft ihRight | and _ _ ihLeft ihRight =>
    intro r hr
    rcases List.mem_append.mp hr with hr | hr
    · exact ihLeft (fun w hw => hNames w (by simp [hw])) r hr
    · exact ihRight (fun w hw => hNames w (by simp [hw])) r hr
  | @exception ls r x _ hNone hValid ih =>
    intro r' hr'
    obtain rfl := List.mem_singleton.mp hr'
    have hLicense := ih (fun w hw => hNames w (by simp [hw])) r (List.mem_singleton.mpr rfl)
    refine ⟨hLicense.id, hLicense.word, ?_⟩
    rintro y hy
    cases hy
    exact ⟨hValid, hNames x (by simp)⟩
  | @name id hValid =>
    intro r hr
    obtain rfl := List.mem_singleton.mp hr
    exact ⟨hValid, hNames _ (by simp [Requirement.word]), by simp⟩
  | @later id hValid =>
    intro r hr
    obtain rfl := List.mem_singleton.mp hr
    exact ⟨hValid, hNames _ (by simp [Requirement.word]), by simp⟩
  | parens _ ih => exact ih fun w hw => hNames w (by simp [hw])

theorem Requirement.IsWritable.derives {r : Requirement} (h : r.IsWritable) :
    Derives .suffixed r.lexemes (.license r) := by
  obtain ⟨id, later, exception⟩ := r
  have hAtom : Derives .atom [.name (Requirement.word ⟨id, later, none⟩)] (.license ⟨id, later, none⟩) := by
    cases later with
    | false => simpa [Requirement.word] using Derives.name h.id
    | true => exact .later h.id
  cases exception with
  | none => exact .bare hAtom
  | some x => exact .exception hAtom rfl (h.exception x rfl).1

namespace Expr

/-- What the lexemes of a written form derive, alone and behind the start of a chain. -/
structure Regrouped (e : Expr) : Prop where
  alone : Derives .disjunction e.lexemes e.leftAssoc
  operand : Derives .conjunction e.operandLexemes e.leftAssoc
  behindOr : ∀ ls a, Derives .disjunction ls a →
    Derives .disjunction (ls ++ .orWord :: e.lexemes) (joinOr a e.leftAssoc)
  behindAnd : ∀ ls a, Derives .conjunction ls a →
    Derives .conjunction (ls ++ .andWord :: e.operandLexemes) (joinAnd a e.leftAssoc)

theorem leftAssoc_or_eq (a b : Expr) : ∃ c d, (or a b).leftAssoc = or c d := by
  simp only [leftAssoc]
  cases b.leftAssoc with
  | license r | and c d => exact ⟨_, _, rfl⟩
  | or c d => exact ⟨_, _, rfl⟩

theorem leftAssoc_and_eq (a b : Expr) : ∃ c d, (and a b).leftAssoc = and c d := by
  simp only [leftAssoc]
  cases b.leftAssoc with
  | license r | or c d => exact ⟨_, _, rfl⟩
  | and c d => exact ⟨_, _, rfl⟩

theorem IsWritable.regrouped {e : Expr} (h : e.IsWritable) : Regrouped e := by
  induction e with
  | license r =>
    have hLicense := (h r (by simp [requirements])).derives
    exact ⟨.operand (.factor hLicense), .factor hLicense, fun _ _ ha => .or ha (.factor hLicense),
      fun _ _ ha => .and ha hLicense⟩
  | or a b iha ihb =>
    have ha := iha fun r hr => h r (by simp [requirements, hr])
    have hb := ihb fun r hr => h r (by simp [requirements, hr])
    have hAlone : Derives .disjunction (or a b).lexemes (or a b).leftAssoc :=
      hb.behindOr _ _ ha.alone
    have hAtom : Derives .suffixed (or a b).operandLexemes (or a b).leftAssoc := .bare (.parens hAlone)
    obtain ⟨c, d, hOr⟩ := leftAssoc_or_eq a b
    refine ⟨hAlone, .factor hAtom, ?_, ?_⟩
    · intro ls e he
      have hBoth := hb.behindOr _ _ (ha.behindOr ls e he)
      rw [leftAssoc, joinOr_assoc]
      simpa [lexemes] using hBoth
    · intro ls e he
      have hJoin : joinAnd e (or a b).leftAssoc = .and e (or a b).leftAssoc := by rw [hOr]; rfl
      rw [hJoin]
      exact .and he hAtom
  | and a b iha ihb =>
    have ha := iha fun r hr => h r (by simp [requirements, hr])
    have hb := ihb fun r hr => h r (by simp [requirements, hr])
    have hOperand : Derives .conjunction (and a b).lexemes (and a b).leftAssoc :=
      hb.behindAnd _ _ ha.operand
    obtain ⟨c, d, hAnd⟩ := leftAssoc_and_eq a b
    refine ⟨.operand hOperand, hOperand, ?_, ?_⟩
    · intro ls e he
      have hJoin : joinOr e (and a b).leftAssoc = .or e (and a b).leftAssoc := by rw [hAnd]; rfl
      rw [hJoin]
      exact .or he hOperand
    · intro ls e he
      have hBoth := hb.behindAnd _ _ (ha.behindAnd ls e he)
      rw [leftAssoc, joinAnd_assoc]
      rw [List.append_assoc] at hBoth
      exact hBoth

theorem joins_lexemes (e : Expr) : joins e.lexemes = e.operators ∧ joins e.operandLexemes = e.operators := by
  induction e with
  | license r =>
    have h : joins r.lexemes = 0 := by
      obtain ⟨id, later, exception⟩ := r
      cases exception <;> simp [Requirement.lexemes, joins]
    exact ⟨h, h⟩
  | or a b iha ihb =>
    have h : joins (or a b).lexemes = (or a b).operators := by
      rw [lexemes, joins_join (.inr rfl), iha.1, ihb.1, operators]
    refine ⟨h, ?_⟩
    rw [← h]
    simp [operandLexemes, lexemes.operand, joins]
  | and a b iha ihb =>
    have h : joins (and a b).lexemes = (and a b).operators := by
      change joins (a.operandLexemes ++ .andWord :: b.operandLexemes) = _
      rw [joins_join (.inl rfl), iha.2, ihb.2, operators]
    exact ⟨h, h⟩

theorem balanced_lexemes (e : Expr) : Balanced e.lexemes ∧ Balanced e.operandLexemes := by
  unfold Balanced
  induction e with
  | license r =>
    have h : r.lexemes.count .leftParen = r.lexemes.count .rightParen := by
      obtain ⟨id, later, exception⟩ := r
      cases exception <;> simp [Requirement.lexemes]
    exact ⟨h, h⟩
  | or a b iha ihb => simp [operandLexemes, lexemes, lexemes.operand, iha.1, ihb.1, Nat.add_assoc]
  | and a b iha ihb =>
    have h : (a.operandLexemes ++ .andWord :: b.operandLexemes).count .leftParen =
        (a.operandLexemes ++ .andWord :: b.operandLexemes).count .rightParen := by
      simp [iha.2, ihb.2]
    exact ⟨h, h⟩

/-- Parentheses around a disjunction are the only ones that the written form adds. -/
theorem nestsWithin_operandLexemes {e : Expr} {room : Nat} (h : NestsWithin room e.lexemes) :
    NestsWithin (room + 1) e.operandLexemes := by
  cases e with
  | license r | and a b => exact h.mono (Nat.le_succ room)
  | or a b => exact (nestsWithin_parens (balanced_lexemes (or a b)).1).mpr h

theorem nestsWithin_lexemes {e : Expr} {room : Nat} (h : NestsWithin room e.operandLexemes) :
    NestsWithin room e.lexemes := by
  cases e with
  | license r | and a b => exact h
  | or a b =>
    cases room with
    | zero => exact absurd h not_nestsWithin_zero
    | succ room =>
      have hInner : NestsWithin room (or a b).lexemes :=
        (nestsWithin_parens (balanced_lexemes (or a b)).1).mp h
      exact hInner.mono (Nat.le_succ room)

end Expr

/-- The lexemes that a tree is written with where a layer is expected. -/
def Layer.lexemes : Layer → Expr → List Lexeme
  | disjunction, e => e.lexemes
  | conjunction, e | suffixed, e | atom, e => e.operandLexemes

theorem Derives.joins_eq {layer : Layer} {ls : List Lexeme} {e : Expr} (h : Derives layer ls e) :
    joins ls = e.operators := by
  induction h with
  | operand _ ih | factor _ ih | bare _ ih => exact ih
  | or _ _ ihLeft ihRight => rw [joins_join (.inr rfl), ihLeft, ihRight, Expr.operators]
  | and _ _ ihLeft ihRight => rw [joins_join (.inl rfl), ihLeft, ihRight, Expr.operators]
  | exception _ _ _ ih => rw [joins_append, ih]; rfl
  | name _ | later _ => rfl
  | parens _ ih =>
    rw [← ih]
    simp [joins]

theorem Derives.nestsWithin_lexemes {layer : Layer} {ls : List Lexeme} {e : Expr} (h : Derives layer ls e) :
    ∀ room, NestsWithin room ls → NestsWithin room (layer.lexemes e) := by
  induction h with
  | operand _ ih =>
    intro room hNests
    exact Expr.nestsWithin_lexemes (ih room hNests)
  | @or ls ms a b hLeft _ ihLeft ihRight =>
    intro room hNests
    obtain ⟨ha, hb⟩ := (nestsWithin_join (.inr rfl) hLeft.balanced).mp hNests
    exact (nestsWithin_join (.inr rfl) (Expr.balanced_lexemes a).1).mpr
      ⟨ihLeft room ha, Expr.nestsWithin_lexemes (ihRight room hb)⟩
  | factor _ ih | bare _ ih => exact ih
  | @and ls ms a b hLeft _ ihLeft ihRight =>
    intro room hNests
    obtain ⟨ha, hb⟩ := (nestsWithin_join (.inl rfl) hLeft.balanced).mp hNests
    exact (nestsWithin_join (.inl rfl) (Expr.balanced_lexemes a).2).mpr ⟨ihLeft room ha, ihRight room hb⟩
  | exception _ _ _ _ | name _ | later _ =>
    intro room _
    exact nestsWithin_of_not_mem (by simp [Layer.lexemes, Expr.operandLexemes, Expr.lexemes.operand,
      Expr.lexemes, Requirement.lexemes])
  | @parens ls e hInner ih =>
    intro room hNests
    cases room with
    | zero => exact absurd hNests not_nestsWithin_zero
    | succ room =>
      exact Expr.nestsWithin_operandLexemes (ih room ((nestsWithin_parens hInner.balanced).mp hNests))

namespace Expr

/-- Reading back what was written gives the same tree with all chains grouped to the left, which is written
and means the same. -/
theorem parse_render {s : String} {e : Expr} (h : parse s = .ok e) :
    parse e.render = .ok e.leftAssoc ∧ Regroups e e.leftAssoc ∧ e.leftAssoc.IsLeft ∧
      e.leftAssoc.render = e.render ∧ e.leftAssoc.requirements = e.requirements ∧
      ∀ met, e.leftAssoc.eval met = e.eval met := by
  obtain ⟨ls, hSpelled⟩ := Spelled.exists_spelled s.toList
  obtain ⟨hCased, hDerives, hNests, hJoins⟩ := derives_of_parse hSpelled h
  have hWritable : e.IsWritable :=
    hDerives.isWritable fun w hw => ⟨hSpelled.not_operator_of_mem hw, hCased w hw⟩
  have hRegroups := regroups_leftAssoc e
  refine ⟨?_, hRegroups, isLeft_leftAssoc e, hRegroups.render_eq.1, hRegroups.requirements_eq,
    hRegroups.eval_eq⟩
  refine parse_of_derives hWritable.spelled.1 hWritable.wellCased hWritable.regrouped.alone
    (hDerives.nestsWithin_lexemes maxNesting hNests) ?_
  rw [(joins_lexemes e).1, ← hDerives.joins_eq]
  exact hJoins

theorem parse_render_nested :
    parse "AND+ OR (B OR C WITH x)" = .ok (.or (.license ⟨"AND", true, none⟩)
      (.or (.license ⟨"B", false, none⟩) (.license ⟨"C", false, some "x"⟩))) ∧
    parse "AND+ OR B OR C WITH x" = .ok (.or (.or (.license ⟨"AND", true, none⟩)
      (.license ⟨"B", false, none⟩)) (.license ⟨"C", false, some "x"⟩)) := by
  have h : parse "AND+ OR (B OR C WITH x)" = .ok (.or (.license ⟨"AND", true, none⟩)
      (.or (.license ⟨"B", false, none⟩) (.license ⟨"C", false, some "x"⟩))) := by decide +kernel
  exact ⟨h, (parse_render h).1⟩

end Expr

end PolicyLint.License
