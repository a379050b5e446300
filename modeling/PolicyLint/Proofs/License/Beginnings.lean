import PolicyLint.Proofs.License.Acceptance
import PolicyLint.Proofs.License.Failures
import PolicyLint.Proofs.License.Tokens

/-!
# Expressions that have begun

Lexemes begin an expression if a derivation can go on behind them: with an operand, with the name of an exception
or by closing a parenthesis. Wherever a reader runs out of tokens or blames a parenthesis, the tokens before that
place begin an expression within the limits.
-/
namespace PolicyLint.License
open Token
set_option autoImplicit false

/-- What has to come next. -/
inductive Awaited where
  | operand | exception | closing
  deriving DecidableEq, Repr

/-- The lexemes begin a derivation of the layer and leave `depth` parentheses open. -/
inductive Begins : Awaited → Layer → Nat → List Lexeme → Prop
  | operand : Begins .operand .suffixed 0 []
  | exception {ls : List Lexeme} {r : Requirement} (license : Derives .atom ls (.license r))
      (hNone : r.exception = none) : Begins .exception .suffixed 0 (ls ++ [.withWord])
  | closing {ls : List Lexeme} {e : Expr} (inner : Derives .disjunction ls e) :
      Begins .closing .suffixed 1 (.leftParen :: ls)
  | parens {next : Awaited} {depth : Nat} {ls : List Lexeme} (inner : Begins next .disjunction depth ls) :
      Begins next .suffixed (depth + 1) (.leftParen :: ls)
  | factor {next : Awaited} {depth : Nat} {ls : List Lexeme} (h : Begins next .suffixed depth ls) :
      Begins next .conjunction depth ls
  | and {next : Awaited} {depth : Nat} {ls ms : List Lexeme} {a : Expr} (left : Derives .conjunction ls a)
      (right : Begins next .suffixed depth ms) : Begins next .conjunction depth (ls ++ .andWord :: ms)
  | disjunct {next : Awaited} {depth : Nat} {ls : List Lexeme} (h : Begins next .conjunction depth ls) :
      Begins next .disjunction depth ls
  | or {next : Awaited} {depth : Nat} {ls ms : List Lexeme} {a : Expr} (left : Derives .disjunction ls a)
      (right : Begins next .conjunction depth ms) : Begins next .disjunction depth (ls ++ .orWord :: ms)

/-- The causes that say that a text is incomplete or that a parenthesis has no partner. -/
inductive IsStall : Cause → Prop
  | ending : IsStall .unexpectedEnd
  | parenthesis : IsStall .unbalancedParen

namespace Reader

/-- The tokens begin a derivation of the layer, with parentheses that fit the room and joins that are paid for. -/
structure Begun (next : Awaited) (layer : Layer) (depth room budget : Nat) (front : List Token) : Prop where
  begins : Begins next layer depth (front.map lexeme)
  nests : NestsWithin room (front.map lexeme)
  pays : joins (front.map lexeme) ≤ budget

/-- What cannot follow, and the cause that is given for it. -/
inductive Stalls : Awaited → List Token → Cause → Prop
  | ending {next : Awaited} (hOpen : next ≠ .closing) : Stalls next [] .unexpectedEnd
  | missing {t : Token} {rest : List Token} (hKind : t.kind = .rightParen) :
      Stalls .operand (t :: rest) .unbalancedParen
  | unclosed {rest : List Token}
      (hNext : ∀ t ∈ rest.head?, t.kind = .name ∨ t.kind = .leftParen ∨ t.kind = .withWord) :
      Stalls .closing rest .unbalancedParen

/-- Some of the tokens begin a derivation of the layer, and the rest is no continuation. -/
def StopsIn (layer : Layer) (room budget : Nat) (tokens : List Token) (cause : Cause) : Prop :=
  ∃ next depth front rest, tokens = front ++ rest ∧ Begun next layer depth room budget front ∧
    Stalls next rest cause

/-- The reader stalls only behind tokens that begin a derivation of the layer. -/
def StallsIn (read : Reader) (layer : Layer) (room : Nat) : Prop :=
  ∀ budget tokens f, read budget tokens = .error f → IsStall f.cause →
    StopsIn layer room budget tokens f.cause

section
variable {stop room budget depth : Nat} {next : Awaited} {lower upper : Layer} {front tokens : List Token}
  {operand : Reader} {cause : Cause}

theorem begun_nil : Begun .operand .suffixed 0 room budget [] :=
  ⟨.operand, nestsWithin_of_not_mem (by simp), Nat.zero_le _⟩

theorem Begun.of_layer (h : Begun next lower depth room budget front)
    (hLayer : ∀ ls, Begins next lower depth ls → Begins next upper depth ls) :
    Begun next upper depth room budget front :=
  ⟨hLayer _ h.begins, h.nests, h.pays⟩

theorem joins_leftParen (ls : List Lexeme) : joins (.leftParen :: ls) = joins ls := by simp [joins]

theorem begun_leftParen {t : Token} (hKind : t.kind = .leftParen)
    (hBegins : Begins next .suffixed depth (.leftParen :: front.map lexeme))
    (hNests : NestsWithin room (front.map lexeme)) (hPays : joins (front.map lexeme) ≤ budget) :
    Begun next .suffixed depth (room + 1) budget (t :: front) := by
  have hMap : (t :: front).map lexeme = .leftParen :: front.map lexeme := by
    rw [List.map_cons, lexeme_eq_of_kind (l := .leftParen) (by simp) hKind]
  refine ⟨?_, ?_, ?_⟩
  · rw [hMap]
    exact hBegins
  · rw [hMap]
    exact nestsWithin_leftParen.mpr hNests
  · rw [hMap, joins_leftParen]
    exact hPays

theorem Begun.parens {t : Token} (hKind : t.kind = .leftParen)
    (h : Begun next .disjunction depth room budget front) :
    Begun next .suffixed (depth + 1) (room + 1) budget (t :: front) :=
  begun_leftParen hKind (.parens h.begins) h.nests h.pays

theorem begun_closing {t : Token} {e : Expr} {left : Nat} (hKind : t.kind = .leftParen)
    (h : Takes .disjunction room budget front e left) :
    Begun .closing .suffixed 1 (room + 1) budget (t :: front) :=
  begun_leftParen hKind (.closing h.derives) h.nests (h.pays ▸ Nat.le_add_right _ _)

theorem begun_exception {w : Token} {r : Requirement} {left : Nat} (hWith : w.kind = .withWord)
    (hNone : r.exception = none) (h : Takes .atom room budget front (.license r) left) :
    Begun .exception .suffixed 0 room budget (front ++ [w]) := by
  have hMap : (front ++ [w]).map lexeme = front.map lexeme ++ [.withWord] := by
    simp [lexeme_eq_of_kind (l := .withWord) (by simp) hWith]
  refine ⟨?_, ?_, ?_⟩
  · rw [hMap]
    exact .exception h.derives hNone
  · rw [hMap]
    exact (nestsWithin_append h.derives.balanced).mpr ⟨h.nests, nestsWithin_of_not_mem (by simp)⟩
  · have hPays := h.pays
    have hCost : joins [Lexeme.withWord] = 0 := rfl
    rw [hMap, joins_append, hCost]
    omega

/-- Behind a chain and an operator an operand has begun. -/
theorem Begun.join {op : Lexeme} (hOp : IsJoin op)
    (hJoin : ∀ ls ms a, Derives upper ls a → Begins next lower depth ms → Begins next upper depth (ls ++ op :: ms))
    {more : List Token} {t : Token} {a : Expr} {middle : Nat} (hFront : Takes upper room budget front a (middle + 1))
    (hKind : t.kind = op.kind) (h : Begun next lower depth room middle more) :
    Begun next upper depth room budget (front ++ t :: more) := by
  have hMap : (front ++ t :: more).map lexeme = front.map lexeme ++ op :: more.map lexeme := by
    simp [hOp.lexeme_eq hKind]
  refine ⟨?_, ?_, ?_⟩
  · rw [hMap]
    exact hJoin _ _ _ hFront.derives h.begins
  · rw [hMap]
    exact (nestsWithin_join hOp hFront.derives.balanced).mpr ⟨hFront.nests, h.nests⟩
  · have hFirst := hFront.pays
    have hSecond := h.pays
    rw [hMap, joins_join hOp]
    omega

theorem StopsIn.of_layer (h : StopsIn lower room budget tokens cause)
    (hLayer : ∀ next depth ls, Begins next lower depth ls → Begins next upper depth ls) :
    StopsIn upper room budget tokens cause := by
  obtain ⟨next, depth, front, rest, hTokens, hBegun, hStalls⟩ := h
  exact ⟨next, depth, front, rest, hTokens, hBegun.of_layer (hLayer next depth), hStalls⟩

end

/-- A chain ends where its operator does not follow. -/
theorem Chained.nextIsNot {operator : Token.Kind} {join : Expr → Expr → Expr} {operand : Reader} {a e : Expr}
    {middle left : Nat} {after rest : List Token} (h : Chained operator join operand a middle after e left rest) :
    NextIsNot operator rest := by
  induction h with
  | stop h => exact h
  | step _ _ _ ih => exact ih

/-- What holds behind each operand holds behind the chain. -/
theorem Chained.rest_of {P : List Token → Prop} {operator : Token.Kind} {join : Expr → Expr → Expr}
    {operand : Reader} (hOperand : ∀ budget tokens e left rest, operand.Reads budget tokens e left rest → P rest)
    {a e : Expr} {middle left : Nat} {after rest : List Token}
    (h : Chained operator join operand a middle after e left rest) (hAfter : P after) : P rest := by
  induction h with
  | stop _ => exact hAfter
  | step _ hReads _ ih => exact ih (hOperand _ _ _ _ _ hReads)

theorem nextIsNot_of_reads_levels {stop : Nat} {inside : Option Reader} {budget : Nat} {tokens : List Token}
    {e : Expr} {left : Nat} {rest : List Token} (h : (levels stop inside).Reads budget tokens e left rest) :
    NextIsNot .orWord rest ∧ NextIsNot .andWord rest := by
  have hConjunction : ∀ budget tokens e left rest,
      (chain .andWord .and (suffixed stop (atom stop inside))).Reads budget tokens e left rest →
        NextIsNot .andWord rest := by
    intro budget tokens e left rest h
    obtain ⟨a, middle, after, -, hChained⟩ := chain_reads_iff.mp h
    exact hChained.nextIsNot
  obtain ⟨a, middle, after, hReads, hChained⟩ := chain_reads_iff.mp h
  exact ⟨hChained.nextIsNot, hChained.rest_of hConjunction (hConjunction _ _ _ _ _ hReads)⟩

variable {stop room : Nat}

theorem stallsIn_suffixed
    (hInside : ∀ lower, room = lower + 1 → StallsIn (expression stop lower) .disjunction lower) :
    StallsIn (suffixed stop (atom stop (inside stop room))) .suffixed room := by
  intro budget tokens f hError hStall
  have hSound : Sound (atom stop (inside stop room)) .atom room := sound_atom fun lower _ => sound_expression stop lower
  cases suffixedFails_of_error hError with
  | operand hAtom =>
    cases atomFails_of_error hAtom with
    | ending => exact ⟨.operand, 0, [], [], rfl, begun_nil, .ending (by decide)⟩
    | @closing t rest hKind => exact ⟨.operand, 0, [], t :: rest, rfl, begun_nil, .missing hKind⟩
    | @inner t rest read _ hKind hRead h =>
      cases room with
      | zero => cases hRead
      | succ lower =>
        cases hRead
        obtain ⟨next, depth, front, behind, rfl, hBegun, hStalls⟩ := hInside lower rfl budget rest f h hStall
        exact ⟨next, depth + 1, t :: front, behind, rfl, hBegun.parens hKind, hStalls⟩
    | @unclosed t rest after read e left hKind hRead h hNext =>
      cases room with
      | zero => cases hRead
      | succ lower =>
        cases hRead
        obtain ⟨front, rfl, hTakes⟩ := sound_expression stop lower _ _ _ _ _ h
        rw [expression_eq_levels] at h
        obtain ⟨hOr, hAnd⟩ := nextIsNot_of_reads_levels h
        refine ⟨.closing, 1, t :: front, after, rfl, begun_closing hKind hTakes, .unclosed ?_⟩
        intro u hu
        have hRight := hNext u hu
        have hOr := hOr u hu
        have hAnd := hAnd u hu
        revert hRight hOr hAnd
        cases u.kind <;> simp
    | identifier _ | nesting _ _ | operator _ => cases hStall
  | ending h hWith hFree =>
    obtain ⟨front, rfl, hTakes⟩ := hSound _ _ _ _ _ h
    exact ⟨.exception, 0, front ++ [_], [], by simp, begun_exception hWith hFree hTakes, .ending (by decide)⟩
  | compound _ _ _ | second _ _ _ | word _ _ _ | identifier _ _ _ => cases hStall

section
variable {lower upper : Layer} {operand : Reader} {op : Lexeme} {join : Expr → Expr → Expr}

/-- The operands read so far are derived as a chain, behind which the failing one begins. -/
theorem ChainFails.stopsIn (hOperand : StallsIn operand lower room) (hSound : Sound operand lower room)
    (hOp : IsJoin op)
    (hJoin : ∀ ls ms a b, Derives upper ls a → Derives lower ms b → Derives upper (ls ++ op :: ms) (join a b))
    (hBehind : ∀ next depth ls ms a, Derives upper ls a → Begins next lower depth ms →
      Begins next upper depth (ls ++ op :: ms))
    {budget : Nat} {a : Expr} {middle : Nat} {after : List Token} {f : Fault}
    (h : ChainFails op.kind join operand a middle after f) (hStall : IsStall f.cause) :
    ∀ front, Takes upper room budget front a middle → StopsIn upper room budget (front ++ after) f.cause := by
  induction h with
  | tooLong _ => cases hStall
  | @operand a middle t rest f hKind hError =>
    intro front hFront
    obtain ⟨next, depth, more, behind, rfl, hBegun, hStalls⟩ := hOperand middle rest f hError hStall
    exact ⟨next, depth, front ++ t :: more, behind, by simp,
      hBegun.join hOp (hBehind next depth) hFront hKind, hStalls⟩
  | @step a b middle left t rest after f hKind hReads _ ih =>
    intro front hFront
    obtain ⟨more, rfl, hMore⟩ := hSound _ _ _ _ _ hReads
    simpa using ih hStall (front ++ t :: more) (hFront.join hOp hJoin hKind hMore)

theorem stallsIn_chain (hOperand : StallsIn operand lower room) (hSound : Sound operand lower room)
    (hOp : IsJoin op) (hFirst : ∀ ls a, Derives lower ls a → Derives upper ls a)
    (hJoin : ∀ ls ms a b, Derives upper ls a → Derives lower ms b → Derives upper (ls ++ op :: ms) (join a b))
    (hBegins : ∀ next depth ls, Begins next lower depth ls → Begins next upper depth ls)
    (hBehind : ∀ next depth ls ms a, Derives upper ls a → Begins next lower depth ms →
      Begins next upper depth (ls ++ op :: ms)) : StallsIn (chain op.kind join operand) upper room := by
  intro budget tokens f hError hStall
  rcases chainFails_of_error hError with hError | ⟨a, middle, after, hReads, hChain⟩
  · exact (hOperand budget tokens f hError hStall).of_layer hBegins
  · obtain ⟨front, rfl, hTakes⟩ := hSound _ _ _ _ _ hReads
    exact hChain.stopsIn hOperand hSound hOp hJoin hBehind hStall front (hTakes.of_layer fun ls => hFirst ls a)

end

theorem stallsIn_levels
    (hInside : ∀ lower, room = lower + 1 → StallsIn (expression stop lower) .disjunction lower) :
    StallsIn (levels stop (inside stop room)) .disjunction room := by
  have hBelow : ∀ lower, room = lower + 1 → Sound (expression stop lower) .disjunction lower :=
    fun lower _ => sound_expression stop lower
  have hConjunction := stallsIn_chain (stallsIn_suffixed hInside) (sound_suffixed (sound_atom hBelow)) (.inl rfl)
    (fun _ _ => .factor) (fun _ _ _ _ => .and) (fun _ _ _ => .factor) fun _ _ _ _ _ => .and
  exact stallsIn_chain hConjunction (sound_conjunction hBelow) (.inr rfl)
    (fun _ _ => .operand) (fun _ _ _ _ => .or) (fun _ _ _ => .disjunct) fun _ _ _ _ _ => .or

theorem stallsIn_expression (stop room : Nat) : StallsIn (expression stop room) .disjunction room := by
  induction room with
  | zero =>
    rw [expression_eq_levels]
    exact stallsIn_levels fun _ h => absurd h (Nat.succ_ne_zero _).symm
  | succ room ih =>
    rw [expression_eq_levels]
    apply stallsIn_levels
    rintro lower h
    cases h
    exact ih

end Reader

/-- Where a text stalls, what it has before begins an expression, or is one and a parenthesis closes behind it. -/
theorem Expr.stops_of_parse {s : String} {f : Fault} (h : parse s = .error f) (hStall : IsStall f.cause) :
    ∃ tokens, ofText s = .ok tokens ∧
      (Reader.StopsIn .disjunction maxNesting maxOperators tokens f.cause ∨
        f.cause = .unbalancedParen ∧ ∃ front t rest e, tokens = front ++ t :: rest ∧
          Derives .disjunction (front.map lexeme) e ∧ t.kind = .rightParen) := by
  rcases error_of_parse h with hText | rfl | ⟨tokens, hTokens, h⟩
  · obtain ⟨found, expected, hCause, -⟩ := standsAt_of_scan_error hText [] rfl
    rw [hCause] at hStall
    cases hStall
  · cases hStall
  refine ⟨tokens, hTokens, ?_⟩
  rcases Outcome.bind_eq_error_iff.mp h with hRead | ⟨r, hr, hFinish⟩
  · exact .inl (Reader.stallsIn_expression _ _ _ _ _ hRead hStall)
  · obtain ⟨front, hFront, hTakes⟩ := Reader.sound_expression _ _ _ _ _ _ _ (Reader.reads_of_eq_ok hr)
    obtain ⟨t, rest, hRest, rfl⟩ := Reader.exists_of_finish_error hFinish
    split_ifs at hStall ⊢ with hClose
    · exact .inr ⟨rfl, front, t, rest, r.expr, hRest ▸ hFront, hTakes.derives, hClose⟩
    · cases hStall

end PolicyLint.License
