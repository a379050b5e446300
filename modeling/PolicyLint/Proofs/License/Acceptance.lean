import PolicyLint.Proofs.License.Completeness
import PolicyLint.Proofs.License.Soundness

/-!
# Which texts are expressions

Reading a text succeeds exactly if its lexemes have a derivation within the two limits, and then yields
the tree of that derivation.
-/
namespace PolicyLint.License
open Token
set_option autoImplicit false

theorem Derives.ne_nil {layer : Layer} {ls : List Lexeme} {e : Expr} (h : Derives layer ls e) : ls ≠ [] := by
  induction h with
  | operand _ ih | factor _ ih | bare _ ih => exact ih
  | or _ _ _ _ | and _ _ _ _ | exception _ _ _ _ | name _ | later _ | parens _ _ => simp

namespace Reader

theorem finish_eq_ok_iff {tokens : List Token} {r : Reading tokens} {e : Expr} :
    finish r = .ok e ↔ r.rest = [] ∧ r.expr = e := by
  unfold finish
  split
  · rename_i h
    simp [h]
  · rename_i h
    simp [h]

theorem finish_reads_iff {read : Reader} {budget : Nat} {tokens : List Token} {e : Expr} :
    (∃ r, read budget tokens = .ok r ∧ finish r = .ok e) ↔ ∃ left, read.Reads budget tokens e left [] := by
  constructor
  · rintro ⟨r, hr, hFinish⟩
    obtain ⟨hRest, rfl⟩ := finish_eq_ok_iff.mp hFinish
    exact ⟨r.budget, hRest ▸ reads_of_eq_ok hr⟩
  · rintro ⟨left, hShorter, h⟩
    exact ⟨_, h, finish_eq_ok_iff.mpr ⟨rfl, rfl⟩⟩

/-- Reading all tokens is deriving them. -/
theorem expression_reads_all_iff {stop room budget : Nat} {tokens : List Token} {e : Expr} :
    (∃ left, (expression stop room).Reads budget tokens e left []) ↔
      Derives .disjunction (tokens.map lexeme) e ∧ NestsWithin room (tokens.map lexeme) ∧
        joins (tokens.map lexeme) ≤ budget := by
  constructor
  · rintro ⟨left, hReads⟩
    obtain ⟨front, rfl, hTakes⟩ := sound_expression stop room budget tokens e left [] hReads
    rw [List.append_nil]
    exact ⟨hTakes.derives, hTakes.nests, hTakes.pays ▸ Nat.le_add_right _ _⟩
  · rintro ⟨hDerives, hNests, hJoins⟩
    refine ⟨budget - joins (tokens.map lexeme), ?_⟩
    have hReads := reads_of_derives hDerives stop room tokens rfl hNests budget
      (budget - joins (tokens.map lexeme)) [] e _ [] (by omega)
      ⟨by simp [NextIsNot], by simp [NextIsNot], .stop (by simp)⟩
    rw [List.append_nil] at hReads
    rw [expression_eq_levels]
    exact hReads

end Reader

namespace Expr

theorem parse_eq_ok_iff_reads {s : String} {e : Expr} :
    parse s = .ok e ↔ ∃ tokens, ofText s = .ok tokens ∧ tokens ≠ [] ∧
      ∃ left,
        (Reader.expression (Text.byteLength s.toList) maxNesting).Reads maxOperators tokens e left [] := by
  rw [parse, Outcome.bind_eq_ok_iff]
  apply exists_congr
  intro tokens
  apply and_congr_right
  intro _
  cases tokens with
  | nil => simp [bind, Except.bind, throw, throwThe, MonadExceptOf.throw]
  | cons t tokens =>
    simp only [List.isEmpty_cons, Bool.false_eq_true, if_false, ne_eq, List.cons_ne_nil,
      not_false_eq_true, true_and]
    rw [Outcome.bind_eq_ok_iff]
    exact Reader.finish_reads_iff

/-- The tree of a derivation within the limits is what its text parses to. -/
theorem parse_of_derives {s : String} {ls : List Lexeme} {e : Expr} (hSpelled : Spelled s.toList ls)
    (hCased : WellCased ls) (hDerives : Derives .disjunction ls e) (hNests : NestsWithin maxNesting ls)
    (hJoins : joins ls ≤ maxOperators) : parse s = .ok e := by
  obtain ⟨tokens, hTokens, rfl⟩ := ofText_eq_ok_iff.mpr ⟨hSpelled, hCased⟩
  refine parse_eq_ok_iff_reads.mpr ⟨tokens, hTokens, ?_, ?_⟩
  · rintro rfl
    exact hDerives.ne_nil rfl
  · exact Reader.expression_reads_all_iff.mpr ⟨hDerives, hNests, hJoins⟩

/-- What parses has a derivation within the limits. -/
theorem derives_of_parse {s : String} {ls : List Lexeme} {e : Expr} (hSpelled : Spelled s.toList ls)
    (h : parse s = .ok e) : WellCased ls ∧ Derives .disjunction ls e ∧ NestsWithin maxNesting ls ∧
      joins ls ≤ maxOperators := by
  obtain ⟨tokens, hTokens, -, hReads⟩ := parse_eq_ok_iff_reads.mp h
  obtain ⟨hFound, hCased⟩ := ofText_eq_ok_iff.mp ⟨tokens, hTokens, rfl⟩
  obtain rfl := hSpelled.unique hFound
  exact ⟨hCased, Reader.expression_reads_all_iff.mp hReads⟩

/-- A text has one sequence of lexemes, and parses to `e` exactly if no word of it is a miscased operator
and the grammar derives `e` from its lexemes, with at most 64 parentheses open at once and at most 512
joins. -/
theorem parse_eq_ok_iff_derives (s : String) :
    ∃! ls, Spelled s.toList ls ∧ ∀ e, parse s = .ok e ↔
      WellCased ls ∧ Derives .disjunction ls e ∧ NestsWithin 64 ls ∧ joins ls ≤ 512 := by
  obtain ⟨ls, hSpelled⟩ := Spelled.exists_spelled s.toList
  refine ⟨ls, ⟨hSpelled, ?_⟩, fun ms h => h.1.unique hSpelled⟩
  intro e
  constructor
  · intro h
    exact derives_of_parse hSpelled h
  · rintro ⟨hCased, hDerives, hNests, hJoins⟩
    exact parse_of_derives hSpelled hCased hDerives hNests hJoins

end Expr

end PolicyLint.License
