import PolicyLint.License.Identifier
import PolicyLint.License.Expr
import PolicyLint.Proofs.License.Lexemes

/-!
# The grammar of license expressions

Derivations over lexemes, with the tree that each of them means. Chains are derived from the left, and
a conjunction is an operand of a disjunction but not the other way round. How deep parentheses nest and
how often operands are joined is said of the lexemes, apart from any derivation.
-/
namespace PolicyLint.License
set_option autoImplicit false

/-- The four layers of an expression, loosest first. -/
inductive Layer where
  | disjunction | conjunction | suffixed | atom
  deriving DecidableEq, Repr

inductive Derives : Layer → List Lexeme → Expr → Prop
  | operand {ls : List Lexeme} {e : Expr} (h : Derives .conjunction ls e) : Derives .disjunction ls e
  | or {ls ms : List Lexeme} {a b : Expr} (left : Derives .disjunction ls a)
      (right : Derives .conjunction ms b) : Derives .disjunction (ls ++ .orWord :: ms) (.or a b)
  | factor {ls : List Lexeme} {e : Expr} (h : Derives .suffixed ls e) : Derives .conjunction ls e
  | and {ls ms : List Lexeme} {a b : Expr} (left : Derives .conjunction ls a)
      (right : Derives .suffixed ms b) : Derives .conjunction (ls ++ .andWord :: ms) (.and a b)
  | bare {ls : List Lexeme} {e : Expr} (h : Derives .atom ls e) : Derives .suffixed ls e
  | exception {ls : List Lexeme} {r : Requirement} {exception : String}
      (license : Derives .atom ls (.license r)) (hNone : r.exception = none)
      (hValid : isValidId exception = true) :
      Derives .suffixed (ls ++ [.withWord, .name exception])
        (.license { r with exception := some exception })
  | name {id : String} (hValid : isValidId id = true) :
      Derives .atom [.name id] (.license ⟨id, false, none⟩)
  | later {id : String} (hValid : isValidId id = true) :
      Derives .atom [.name (id ++ "+")] (.license ⟨id, true, none⟩)
  | parens {ls : List Lexeme} {e : Expr} (inner : Derives .disjunction ls e) :
      Derives .atom (.leftParen :: (ls ++ [.rightParen])) e

/-- How often `AND` and `OR` occur. -/
def joins (ls : List Lexeme) : Nat := ls.count .andWord + ls.count .orWord

/-- At no place are more than `room` parentheses open. -/
def NestsWithin (room : Nat) (ls : List Lexeme) : Prop :=
  ∀ front, front <+: ls → front.count .leftParen ≤ front.count .rightParen + room

/-- The operators that join two operands. -/
def IsJoin (op : Lexeme) : Prop := op = .andWord ∨ op = .orWord

theorem IsJoin.lexeme_eq {op : Lexeme} (h : IsJoin op) {t : Token} (hKind : t.kind = op.kind) : t.lexeme = op := by
  rcases h with rfl | rfl
  · exact Token.lexeme_eq_of_kind (by simp) hKind
  · exact Token.lexeme_eq_of_kind (by simp) hKind

theorem exists_tokens_of_append {l : Lexeme} {front : List Token} {ls ms : List Lexeme}
    (hFront : front.map Token.lexeme = ls ++ l :: ms) :
    ∃ first t second, front = first ++ t :: second ∧ first.map Token.lexeme = ls ∧ t.kind = l.kind ∧
      second.map Token.lexeme = ms := by
  obtain ⟨first, tail, rfl, hFirst, hTail⟩ := List.map_eq_append_iff.mp hFront
  obtain ⟨t, second, rfl, hLexeme, hSecond⟩ := List.map_eq_cons_iff.mp hTail
  exact ⟨first, t, second, rfl, hFirst, by rw [Token.kind_eq_kind_lexeme, hLexeme], hSecond⟩

theorem exists_tokens_of_parens {front : List Token} {ls : List Lexeme}
    (hFront : front.map Token.lexeme = .leftParen :: (ls ++ [.rightParen])) :
    ∃ t inner close, front = t :: (inner ++ [close]) ∧ t.kind = .leftParen ∧ inner.map Token.lexeme = ls ∧
      close.kind = .rightParen := by
  obtain ⟨t, tail, rfl, hOpen, hTail⟩ := List.map_eq_cons_iff.mp hFront
  obtain ⟨inner, tail, rfl, hInner, hTail⟩ := List.map_eq_append_iff.mp hTail
  obtain ⟨close, tail, rfl, hClose, hTail⟩ := List.map_eq_cons_iff.mp hTail
  obtain rfl := List.map_eq_nil_iff.mp hTail
  exact ⟨t, inner, close, rfl, by rw [Token.kind_eq_kind_lexeme, hOpen]; rfl, hInner,
    by rw [Token.kind_eq_kind_lexeme, hClose]; rfl⟩

theorem exists_tokens_of_exception {front : List Token} {ls : List Lexeme} {x : String}
    (hFront : front.map Token.lexeme = ls ++ [.withWord, .name x]) :
    ∃ first w t, front = first ++ [w, t] ∧ first.map Token.lexeme = ls ∧ w.kind = .withWord ∧ t.kind = .name ∧
      t.text = x := by
  obtain ⟨first, tail, rfl, hFirst, hTail⟩ := List.map_eq_append_iff.mp hFront
  obtain ⟨w, tail, rfl, hWith, hTail⟩ := List.map_eq_cons_iff.mp hTail
  obtain ⟨t, tail, rfl, hName, hTail⟩ := List.map_eq_cons_iff.mp hTail
  obtain rfl := List.map_eq_nil_iff.mp hTail
  obtain ⟨hKind, hText⟩ := Token.lexeme_eq_name_iff.mp hName
  exact ⟨first, w, t, rfl, hFirst, by rw [Token.kind_eq_kind_lexeme, hWith]; rfl, hKind, hText⟩

theorem exists_token_of_name {front : List Token} {x : String} (hFront : front.map Token.lexeme = [.name x]) :
    ∃ t, front = [t] ∧ t.kind = .name ∧ t.text = x := by
  obtain ⟨t, tail, rfl, hName, hTail⟩ := List.map_eq_cons_iff.mp hFront
  obtain rfl := List.map_eq_nil_iff.mp hTail
  exact ⟨t, rfl, Token.lexeme_eq_name_iff.mp hName⟩

/-- As many parentheses close as open. -/
def Balanced (ls : List Lexeme) : Prop := ls.count .leftParen = ls.count .rightParen

theorem joins_append (ls ms : List Lexeme) : joins (ls ++ ms) = joins ls + joins ms := by
  simp only [joins, List.count_append]
  omega

theorem joins_join {op : Lexeme} (hOp : IsJoin op) (ls ms : List Lexeme) :
    joins (ls ++ op :: ms) = joins ls + joins ms + 1 := by
  rcases hOp with rfl | rfl <;> simp [joins] <;> omega

theorem Derives.balanced {layer : Layer} {ls : List Lexeme} {e : Expr} (h : Derives layer ls e) :
    Balanced ls := by
  unfold Balanced
  induction h with
  | operand _ ih | factor _ ih | bare _ ih => exact ih
  | or _ _ ihLeft ihRight | and _ _ ihLeft ihRight => simp [ihLeft, ihRight]
  | exception _ _ _ ih => simp [ih]
  | name _ | later _ => simp
  | parens _ ih => simp [ih]

theorem nestsWithin_append {room : Nat} {ls ms : List Lexeme} (hBalanced : Balanced ls) :
    NestsWithin room (ls ++ ms) ↔ NestsWithin room ls ∧ NestsWithin room ms := by
  constructor
  · intro h
    refine ⟨fun front hFront => h front (hFront.trans (List.prefix_append ls ms)), ?_⟩
    intro front hFront
    have hBoth := h (ls ++ front) ((List.prefix_append_right_inj ls).mpr hFront)
    simp only [List.count_append] at hBoth
    rw [Balanced] at hBalanced
    omega
  · rintro ⟨hLeft, hRight⟩ front hFront
    obtain ⟨tail, hSplit⟩ := hFront
    rcases List.append_eq_append_iff.mp hSplit with ⟨middle, rfl, -⟩ | ⟨middle, rfl, rfl⟩
    · exact hLeft front (List.prefix_append front middle)
    · have hBoth := hRight middle (List.prefix_append middle tail)
      simp only [List.count_append]
      rw [Balanced] at hBalanced
      omega

theorem NestsWithin.mono {room room' : Nat} {ls : List Lexeme} (h : NestsWithin room ls)
    (hRoom : room ≤ room') : NestsWithin room' ls :=
  fun front hFront => (h front hFront).trans (Nat.add_le_add_left hRoom _)

/-- Lexemes without an opening parenthesis nest within any room. -/
theorem nestsWithin_of_not_mem {room : Nat} {ls : List Lexeme} (h : .leftParen ∉ ls) :
    NestsWithin room ls := by
  intro front hFront
  rw [List.count_eq_zero_of_not_mem (fun hMem => h (hFront.subset hMem))]
  exact Nat.zero_le _

/-- Behind lexemes that nest within some room nothing more may open, but anything else may follow. -/
theorem NestsWithin.append_of_not_mem {room : Nat} {ls ms : List Lexeme} (h : NestsWithin room ls)
    (hMore : .leftParen ∉ ms) : NestsWithin room (ls ++ ms) := by
  rintro front ⟨tail, hSplit⟩
  rcases List.append_eq_append_iff.mp hSplit with ⟨middle, rfl, -⟩ | ⟨middle, rfl, rfl⟩
  · exact h front (List.prefix_append front middle)
  · have hLeft := h ls List.prefix_rfl
    have hNone : middle.count .leftParen = 0 :=
      List.count_eq_zero_of_not_mem fun hMem => hMore (List.mem_append_left tail hMem)
    simp only [List.count_append]
    omega

theorem nestsWithin_join {op : Lexeme} (hOp : IsJoin op) {room : Nat} {ls ms : List Lexeme}
    (hBalanced : Balanced ls) :
    NestsWithin room (ls ++ op :: ms) ↔ NestsWithin room ls ∧ NestsWithin room ms := by
  have hSingle : Balanced [op] := by rcases hOp with rfl | rfl <;> rfl
  have hOpen : NestsWithin room [op] :=
    nestsWithin_of_not_mem (by rcases hOp with rfl | rfl <;> simp)
  rw [nestsWithin_append hBalanced, ← List.singleton_append, nestsWithin_append hSingle]
  simp [hOpen]

theorem nestsWithin_leftParen {room : Nat} {ls : List Lexeme} :
    NestsWithin (room + 1) (.leftParen :: ls) ↔ NestsWithin room ls := by
  constructor
  · intro h front hFront
    have hOpen := h (.leftParen :: front) ((List.prefix_cons_inj _).mpr hFront)
    simp at hOpen
    omega
  · intro h front hFront
    rcases List.prefix_cons_iff.mp hFront with rfl | ⟨inner, rfl, hInner⟩
    · simp
    · have hCount := h inner hInner
      simp
      omega

theorem nestsWithin_parens {room : Nat} {ls : List Lexeme} (hBalanced : Balanced ls) :
    NestsWithin (room + 1) (.leftParen :: (ls ++ [.rightParen])) ↔ NestsWithin room ls := by
  have hClose : NestsWithin room [.rightParen] := nestsWithin_of_not_mem (by simp)
  rw [nestsWithin_leftParen, nestsWithin_append hBalanced, and_iff_left hClose]

/-- Without room no parenthesis may open. -/
theorem not_nestsWithin_zero {ls : List Lexeme} : ¬ NestsWithin 0 (.leftParen :: ls) := by
  intro h
  have hOpen := h [.leftParen] (List.prefix_append [Lexeme.leftParen] ls)
  simp at hOpen

end PolicyLint.License
