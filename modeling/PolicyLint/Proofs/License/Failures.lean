import PolicyLint.Proofs.License.Readers

/-!
# Failed readings

One lemma for each reader says what a failure of it is made of: the token that it refuses, behind what it has
read before, or the failure of a reader that it calls. It is the counterpart of what is known of successes.
-/
namespace PolicyLint.License
open Token
set_option autoImplicit false

namespace Reader

variable {stop budget : Nat} {operand : Reader} {inside : Option Reader} {tokens : List Token} {f : Fault}

theorem eq_of_requirementOf {t : Token} (h : requirementOf t = .error f) :
    f = ⟨t.offset, .invalidIdentifier t.text⟩ := by
  simp only [requirementOf] at h
  split_ifs at h
  all_goals exact (Except.error.inj h).symm

inductive AtomFails (stop : Nat) (inside : Option Reader) (budget : Nat) : List Token → Fault → Prop
  | ending : AtomFails stop inside budget [] ⟨stop, .unexpectedEnd⟩
  | identifier {t : Token} {rest : List Token} (hKind : t.kind = .name) :
      AtomFails stop inside budget (t :: rest) ⟨t.offset, .invalidIdentifier t.text⟩
  | nesting {t : Token} {rest : List Token} (hKind : t.kind = .leftParen) (hInside : inside = none) :
      AtomFails stop inside budget (t :: rest) ⟨t.offset, .tooDeep maxNesting⟩
  | inner {t : Token} {rest : List Token} {read : Reader} {f : Fault} (hKind : t.kind = .leftParen)
      (hInside : inside = some read) (h : read budget rest = .error f) :
      AtomFails stop inside budget (t :: rest) f
  | unclosed {t : Token} {rest after : List Token} {read : Reader} {e : Expr} {left : Nat}
      (hKind : t.kind = .leftParen) (hInside : inside = some read) (h : read.Reads budget rest e left after)
      (hNext : ∀ u ∈ after.head?, u.kind ≠ .rightParen) :
      AtomFails stop inside budget (t :: rest) ⟨t.offset, .unbalancedParen⟩
  | closing {t : Token} {rest : List Token} (hKind : t.kind = .rightParen) :
      AtomFails stop inside budget (t :: rest) ⟨t.offset, .unbalancedParen⟩
  | operator {t : Token} {rest : List Token}
      (hKind : t.kind = .andWord ∨ t.kind = .orWord ∨ t.kind = .withWord) :
      AtomFails stop inside budget (t :: rest) ⟨t.offset, .unexpectedToken t.text⟩

theorem atomFails_of_error (h : atom stop inside budget tokens = .error f) :
    AtomFails stop inside budget tokens f := by
  cases tokens with
  | nil =>
    cases h
    exact .ending
  | cons t rest =>
    simp only [atom] at h
    split at h
    · rename_i hKind
      rcases Outcome.bind_eq_error_iff.mp h with hName | ⟨r, -, hr⟩
      · rw [eq_of_requirementOf hName]
        exact .identifier hKind
      · cases hr
    · rename_i hKind
      split at h
      · cases h
        exact .nesting hKind rfl
      · rename_i read
        rcases Outcome.bind_eq_error_iff.mp h with hInner | ⟨inner, hInner, hClose⟩
        · exact .inner hKind rfl hInner
        · split at hClose
          · cases hClose
          · rename_i hRest
            cases hClose
            refine .unclosed hKind rfl (reads_of_eq_ok hInner) ?_
            intro u hu hRight
            obtain ⟨kind, text, offset⟩ := u
            cases hRight
            obtain ⟨after, hAfter⟩ := List.head?_eq_some_iff.mp hu
            exact hRest text offset after hAfter
    · rename_i hKind
      cases h
      exact .closing hKind
    all_goals
      rename_i hKind
      cases h
      exact .operator (by simp [hKind])

inductive SuffixedFails (stop : Nat) (operand : Reader) (budget : Nat) (tokens : List Token) : Fault → Prop
  | operand {f : Fault} (h : operand budget tokens = .error f) : SuffixedFails stop operand budget tokens f
  | compound {e : Expr} {left : Nat} {w : Token} {rest : List Token}
      (h : operand.Reads budget tokens e left (w :: rest)) (hWith : w.kind = .withWord)
      (hCompound : ∀ r, e ≠ .license r) :
      SuffixedFails stop operand budget tokens ⟨w.offset, .unexpectedToken w.text⟩
  | second {r : Requirement} {left : Nat} {w : Token} {rest : List Token}
      (h : operand.Reads budget tokens (.license r) left (w :: rest)) (hWith : w.kind = .withWord)
      (hTaken : r.exception ≠ none) :
      SuffixedFails stop operand budget tokens
        ⟨(tokens.head?.map Token.offset).getD stop, .unexpectedToken w.text⟩
  | ending {r : Requirement} {left : Nat} {w : Token}
      (h : operand.Reads budget tokens (.license r) left [w]) (hWith : w.kind = .withWord)
      (hFree : r.exception = none) : SuffixedFails stop operand budget tokens ⟨stop, .unexpectedEnd⟩
  | word {r : Requirement} {left : Nat} {w t : Token} {rest : List Token}
      (h : operand.Reads budget tokens (.license r) left (w :: t :: rest)) (hWith : w.kind = .withWord)
      (hName : t.kind ≠ .name) :
      SuffixedFails stop operand budget tokens ⟨t.offset, .unexpectedToken t.text⟩
  | identifier {r : Requirement} {left : Nat} {w t : Token} {rest : List Token}
      (h : operand.Reads budget tokens (.license r) left (w :: t :: rest)) (hWith : w.kind = .withWord)
      (hName : t.kind = .name) :
      SuffixedFails stop operand budget tokens ⟨t.offset, .invalidIdentifier t.text⟩

theorem suffixedFails_of_error (h : suffixed stop operand budget tokens = .error f) :
    SuffixedFails stop operand budget tokens f := by
  rcases Outcome.bind_eq_error_iff.mp h with hOperand | ⟨a, ha, h⟩
  · exact .operand hOperand
  have hReads := reads_of_eq_ok ha
  split at h
  · rename_i text offset behind hRest
    rw [hRest] at hReads
    split at h
    · rename_i r hExpr
      rw [hExpr] at hReads
      split at h
      · rename_i hTaken
        cases h
        exact .second (w := ⟨.withWord, text, offset⟩) hReads rfl (Option.isSome_iff_ne_none.mp hTaken)
      · rename_i hFree
        split at h
        · cases h
          exact .ending hReads rfl (by simpa using hFree)
        · rename_i t after
          split at h
          · rename_i hName
            cases h
            exact .word hReads rfl hName
          · rename_i hName
            split at h
            · cases h
            · cases h
              exact .identifier hReads rfl (not_not.mp hName)
    · rename_i hCompound
      cases h
      exact .compound (w := ⟨.withWord, text, offset⟩) hReads rfl hCompound
  · cases h

/-- A chain that was read up to some operand fails at the next operator or in an operand behind it. -/
inductive ChainFails (operator : Token.Kind) (join : Expr → Expr → Expr) (operand : Reader) :
    Expr → Nat → List Token → Fault → Prop
  | tooLong {a : Expr} {t : Token} {rest : List Token} (hKind : t.kind = operator) :
      ChainFails operator join operand a 0 (t :: rest) ⟨t.offset, .tooLong maxOperators⟩
  | operand {a : Expr} {budget : Nat} {t : Token} {rest : List Token} {f : Fault} (hKind : t.kind = operator)
      (h : operand budget rest = .error f) : ChainFails operator join operand a (budget + 1) (t :: rest) f
  | step {a b : Expr} {budget left : Nat} {t : Token} {rest middle : List Token} {f : Fault}
      (hKind : t.kind = operator) (hOperand : operand.Reads budget rest b left middle)
      (hNext : ChainFails operator join operand (join a b) left middle f) :
      ChainFails operator join operand a (budget + 1) (t :: rest) f

theorem chainFails_of_chainFrom {operator : Token.Kind} {join : Expr → Expr → Expr} {start : Reading tokens}
    (h : chainFrom operator join operand start = .error f) :
    ChainFails operator join operand start.expr start.budget start.rest f := by
  fun_induction chainFrom operator join operand start
  case case1 => cases h
  case case2 start t rest hRest hKind hBudget =>
    cases h
    rw [hRest, hBudget]
    exact .tooLong hKind
  case case3 start t rest hRest hKind budget hBudget fault hFault =>
    cases h
    rw [hRest, hBudget]
    exact .operand hKind hFault
  case case4 start t rest hRest hKind budget hBudget right hRight ih =>
    rw [hRest, hBudget]
    exact .step hKind (reads_of_eq_ok hRight) (ih h)
  case case5 => cases h

theorem chainFails_of_error {operator : Token.Kind} {join : Expr → Expr → Expr}
    (h : chain operator join operand budget tokens = .error f) :
    operand budget tokens = .error f ∨ ∃ a middle after, operand.Reads budget tokens a middle after ∧
      ChainFails operator join operand a middle after f := by
  rcases Outcome.bind_eq_error_iff.mp h with hFirst | ⟨start, hStart, h⟩
  · exact .inl hFirst
  · exact .inr ⟨_, _, _, reads_of_eq_ok hStart, chainFails_of_chainFrom h⟩

theorem exists_of_finish_error {r : Reading tokens} (h : finish r = .error f) :
    ∃ t rest, r.rest = t :: rest ∧
      f = ⟨t.offset, if t.kind = .rightParen then .unbalancedParen else .unexpectedToken t.text⟩ := by
  unfold finish at h
  split at h
  · cases h
  · rename_i t rest hRest
    refine ⟨t, rest, hRest, ?_⟩
    split_ifs at h ⊢ <;> cases h <;> rfl

end Reader

/-- An expression fails in the scanner, for want of tokens, in its reader, or at a token that is left over. -/
theorem Expr.error_of_parse {s : String} {f : Fault} (h : parse s = .error f) :
    ofText s = .error f ∨ f = ⟨0, .empty⟩ ∨ ∃ tokens, ofText s = .ok tokens ∧
      (Reader.expression (Text.byteLength s.toList) maxNesting maxOperators tokens >>= Reader.finish) = .error f := by
  rcases Outcome.bind_eq_error_iff.mp h with hText | ⟨tokens, hTokens, h⟩
  · exact .inl hText
  · cases tokens with
    | nil =>
      cases h
      exact .inr (.inl rfl)
    | cons t tokens => exact .inr (.inr ⟨t :: tokens, hTokens, h⟩)

end PolicyLint.License
