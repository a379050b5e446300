import PolicyLint.License.Reader
import PolicyLint.Proofs.License.Grammar
import PolicyLint.Proofs.License.Identifiers

/-!
# Successful readings

One lemma for each reader says what a success of it is made of: which tokens it takes itself, and what it
has another reader take. Nothing else about the readers is used to compare them with the grammar.
-/
namespace PolicyLint.License
open Token
set_option autoImplicit false

namespace Reader

/-- The reader takes `e` off the front of `tokens` and leaves `rest`, with `left` joins still allowed. -/
def Reads (read : Reader) (budget : Nat) (tokens : List Token) (e : Expr) (left : Nat)
    (rest : List Token) : Prop :=
  ∃ hShorter, read budget tokens = .ok ⟨e, left, rest, hShorter⟩

theorem reads_of_eq_ok {read : Reader} {budget : Nat} {tokens : List Token} {r : Reading tokens}
    (h : read budget tokens = .ok r) : read.Reads budget tokens r.expr r.budget r.rest := ⟨r.shorter, h⟩

theorem requirementOf_of_plus {t : Token} {id : String} (h : t.text = id ++ "+") :
    requirementOf t = if isValidId id then .ok ⟨id, true, none⟩
      else .error ⟨t.offset, .invalidIdentifier t.text⟩ := by
  simp [requirementOf, isValidId, h]

theorem requirementOf_of_not_plus {t : Token} (h : t.text.toList.getLast? ≠ some '+') :
    requirementOf t = if isValidId t.text then .ok ⟨t.text, false, none⟩
      else .error ⟨t.offset, .invalidIdentifier t.text⟩ := by
  have hPlus : (t.text.toList.getLast? == some '+') = false := beq_eq_false_iff_ne.mpr h
  simp only [requirementOf, hPlus, Bool.false_eq_true, if_false, String.ofList_toList]
  rfl

/-- The plus sign of a license belongs to its word but not to its identifier. -/
theorem requirementOf_eq_ok_iff {t : Token} {r : Requirement} :
    requirementOf t = .ok r ↔ r.exception = none ∧ isValidId r.id = true ∧
      t.text = r.id ++ if r.orLater then "+" else "" := by
  obtain ⟨id, later, exception⟩ := r
  constructor
  · intro h
    by_cases hPlus : t.text.toList.getLast? = some '+'
    · obtain ⟨base, hBase⟩ := List.getLast?_eq_some_iff.mp hPlus
      have hText : t.text = String.ofList base ++ "+" := String.toList_injective (by simp [hBase])
      rw [requirementOf_of_plus hText] at h
      split at h
      · rename_i hValid
        cases h
        exact ⟨rfl, hValid, hText⟩
      · cases h
    · rw [requirementOf_of_not_plus hPlus] at h
      split at h
      · rename_i hValid
        cases h
        exact ⟨rfl, hValid, by simp⟩
      · cases h
  · rintro ⟨hNone, hValid, hText⟩
    cases hNone
    cases later with
    | true => rw [requirementOf_of_plus hText, if_pos hValid]
    | false =>
      have hText : t.text = id := by simpa using hText
      have hPlus : t.text.toList.getLast? ≠ some '+' := by
        rw [hText]
        exact fun h => plus_not_mem_of_isIdentifier hValid (List.mem_of_getLast? h)
      rw [requirementOf_of_not_plus hPlus, hText, if_pos hValid]

theorem atom_reads_iff {stop : Nat} {inside : Option Reader} {budget : Nat} {tokens : List Token}
    {e : Expr} {left : Nat} {rest : List Token} :
    (atom stop inside).Reads budget tokens e left rest ↔
      (∃ t r, tokens = t :: rest ∧ t.kind = .name ∧ requirementOf t = .ok r ∧ e = .license r ∧
        left = budget) ∨
      (∃ t read inner close, tokens = t :: inner ∧ t.kind = .leftParen ∧ inside = some read ∧
        close.kind = .rightParen ∧ read.Reads budget inner e left (close :: rest)) := by
  constructor
  · rintro ⟨hShorter, h⟩
    cases tokens with
    | nil => cases h
    | cons t inner =>
      simp only [atom] at h
      split at h
      · rename_i hKind
        obtain ⟨r, hr, hReading⟩ := Outcome.bind_eq_ok_iff.mp h
        cases hReading
        exact .inl ⟨t, r, rfl, hKind, hr, rfl, rfl⟩
      · rename_i hKind
        split at h
        · cases h
        · rename_i read
          obtain ⟨r, hr, hReading⟩ := Outcome.bind_eq_ok_iff.mp h
          split at hReading
          · rename_i text offset after hRest
            cases hReading
            refine .inr ⟨t, read, inner, ⟨.rightParen, text, offset⟩, rfl, hKind, rfl, rfl, ?_⟩
            rw [← hRest]
            exact reads_of_eq_ok hr
          · cases hReading
      all_goals cases h
  · rintro (⟨t, r, rfl, hKind, hr, rfl, rfl⟩ | ⟨t, read, inner, close, rfl, hKind, rfl, hClose, hShorter, hRead⟩)
    · refine ⟨Nat.lt_succ_self _, ?_⟩
      simp only [atom, hKind, hr]
      rfl
    · obtain ⟨kind, text, offset⟩ := close
      cases hClose
      refine ⟨by simp at hShorter ⊢; omega, ?_⟩
      simp only [atom, hKind, hRead]
      rfl

theorem suffixed_reads_iff {stop : Nat} {operand : Reader} {budget : Nat} {tokens : List Token}
    {e : Expr} {left : Nat} {rest : List Token} :
    (suffixed stop operand).Reads budget tokens e left rest ↔
      (operand.Reads budget tokens e left rest ∧ ∀ t ∈ rest.head?, t.kind ≠ .withWord) ∨
      (∃ w t r, operand.Reads budget tokens (.license r) left (w :: t :: rest) ∧ w.kind = .withWord ∧
        t.kind = .name ∧ r.exception = none ∧ isValidId t.text = true ∧
        e = .license { r with exception := some t.text }) := by
  constructor
  · rintro ⟨hShorter, h⟩
    obtain ⟨a, ha, h⟩ := Outcome.bind_eq_ok_iff.mp h
    split at h
    · rename_i text offset behind hRest
      split at h
      · rename_i r hExpr
        split at h
        · cases h
        · rename_i hNone
          split at h
          · cases h
          · rename_i t after
            split at h
            · cases h
            · rename_i hKind
              split at h
              · rename_i hValid
                cases h
                refine .inr ⟨⟨.withWord, text, offset⟩, t, r, ?_, rfl, by simpa using hKind,
                  by simpa using hNone, hValid, rfl⟩
                rw [← hRest, ← hExpr]
                exact reads_of_eq_ok ha
              · cases h
      · cases h
    · rename_i hRest
      cases h
      refine .inl ⟨reads_of_eq_ok ha, ?_⟩
      intro t ht hKind
      obtain ⟨kind, text, offset⟩ := t
      cases hKind
      obtain ⟨behind, hBehind⟩ := List.head?_eq_some_iff.mp ht
      exact hRest text offset behind hBehind
  · rintro (⟨⟨hShorter, h⟩, hHead⟩ | ⟨w, t, r, ⟨hShorter, h⟩, hWith, hName, hNone, hValid, rfl⟩)
    · refine ⟨hShorter, ?_⟩
      simp only [suffixed, h, bind, Except.bind]
      split
      · exact absurd rfl (hHead _ rfl)
      · rfl
    · obtain ⟨kind, text, offset⟩ := w
      cases hWith
      refine ⟨by simp at hShorter; omega, ?_⟩
      simp only [suffixed, h, bind, Except.bind]
      simp [hNone, hName, hValid]
      rfl

/-- The rest of a chain: operands joined to `a`, up to a token that is not the operator. -/
inductive Chained (operator : Token.Kind) (join : Expr → Expr → Expr) (operand : Reader) :
    Expr → Nat → List Token → Expr → Nat → List Token → Prop
  | stop {a : Expr} {left : Nat} {rest : List Token} (h : ∀ t ∈ rest.head?, t.kind ≠ operator) :
      Chained operator join operand a left rest a left rest
  | step {a b e : Expr} {budget left last : Nat} {t : Token} {rest middle final : List Token}
      (hKind : t.kind = operator) (hOperand : operand.Reads budget rest b left middle)
      (hNext : Chained operator join operand (join a b) left middle e last final) :
      Chained operator join operand a (budget + 1) (t :: rest) e last final

theorem chainFrom_eq_ok_iff {operator : Token.Kind} {join : Expr → Expr → Expr} {operand : Reader}
    {tokens : List Token} (start : Reading tokens) (e : Expr) (left : Nat) (rest : List Token) :
    (∃ hShorter, chainFrom operator join operand start = .ok ⟨e, left, rest, hShorter⟩) ↔
      Chained operator join operand start.expr start.budget start.rest e left rest := by
  constructor
  · rintro ⟨hShorter, h⟩
    fun_induction chainFrom operator join operand start
    case case1 start hRest =>
      cases h
      dsimp only at hRest
      subst hRest
      exact .stop (by simp)
    case case2 => cases h
    case case3 => cases h
    case case4 start t after hRest hKind budget hBudget right hRight ih =>
      rw [hRest, hBudget]
      exact .step hKind (reads_of_eq_ok hRight) (ih h)
    case case5 start t after hRest hKind =>
      cases h
      refine .stop ?_
      intro u hu
      rw [hRest] at hu
      cases hu
      exact hKind
  · intro h
    obtain ⟨a, budget, after, hShorter⟩ := start
    dsimp only at h
    induction h with
    | @stop a budget after hStop =>
      refine ⟨hShorter, ?_⟩
      rw [chainFrom]
      dsimp only
      split
      · rfl
      · rename_i t behind
        rw [if_neg (hStop t rfl)]
    | @step a b e budget middle last t after behind final hKind hOperand hNext ih =>
      obtain ⟨hBehind, hOperand⟩ := hOperand
      obtain ⟨hFinal, hChain⟩ := ih (by simp at hShorter; omega)
      refine ⟨hFinal, ?_⟩
      rw [chainFrom]
      simp only [if_pos hKind, hOperand]
      exact hChain

theorem chain_reads_iff {operator : Token.Kind} {join : Expr → Expr → Expr} {operand : Reader}
    {budget : Nat} {tokens : List Token} {e : Expr} {left : Nat} {rest : List Token} :
    (chain operator join operand).Reads budget tokens e left rest ↔
      ∃ a middle after, operand.Reads budget tokens a middle after ∧
        Chained operator join operand a middle after e left rest := by
  constructor
  · rintro ⟨hShorter, h⟩
    obtain ⟨start, hStart, h⟩ := Outcome.bind_eq_ok_iff.mp h
    exact ⟨start.expr, start.budget, start.rest, reads_of_eq_ok hStart,
      (chainFrom_eq_ok_iff start e left rest).mp ⟨hShorter, h⟩⟩
  · rintro ⟨a, middle, after, ⟨hShorter, h⟩, hChained⟩
    obtain ⟨hShorter', h'⟩ := (chainFrom_eq_ok_iff ⟨a, middle, after, hShorter⟩ e left rest).mpr hChained
    exact ⟨hShorter', Outcome.bind_eq_ok_iff.mpr ⟨_, h, h'⟩⟩

/-- The reader for what stands in parentheses, if one more may open. -/
def inside (stop : Nat) : Nat → Option Reader
  | 0 => none
  | room + 1 => some (expression stop room)

/-- The reader of a layer, with `room` for parentheses. -/
def ofLayer (stop room : Nat) : Layer → Reader
  | .atom => atom stop (inside stop room)
  | .suffixed => suffixed stop (atom stop (inside stop room))
  | .conjunction => chain .andWord .and (suffixed stop (atom stop (inside stop room)))
  | .disjunction => levels stop (inside stop room)

theorem expression_eq_levels (stop room : Nat) : expression stop room = levels stop (inside stop room) := by
  cases room <;> rfl

end Reader

end PolicyLint.License
