import PolicyLint.Proofs.License.RoundTrip
import PolicyLint.Proofs.License.Tokens

/-!
# Requirements of an expression

Which licenses an expression names can be said of its tokens: the names that do not stand directly behind a `WITH`.
An exception belongs to the license before it, with nothing but closing parentheses between. These are the
requirements of the tree, in the order of the text.
-/
namespace PolicyLint.License
open Text Token
set_option autoImplicit false

/-- The exception that follows, if only closing parentheses stand before its `WITH`. -/
def exceptionBehind : List Token → Option String
  | [] => none
  | t :: rest =>
    match t.kind with
    | .rightParen => exceptionBehind rest
    | .withWord => rest.head?.map Token.text
    | _ => none

/-- The words that name licenses, each with the exception that applies to it. -/
def licenseWords (behindWith : Bool) : List Token → List (Token × Option String)
  | [] => []
  | t :: rest =>
    if t.kind = .name ∧ behindWith = false then (t, exceptionBehind rest) :: licenseWords false rest
    else licenseWords (decide (t.kind = .withWord)) rest

/-- What the license words say: the word with its plus sign, and the exception. -/
def licenseEntries (tokens : List Token) : List (String × Option String) :=
  (licenseWords false tokens).map fun w => (w.1.text, w.2)

def Requirement.entry (r : Requirement) : String × Option String := (r.word, r.exception)

section
variable {t w : Token} {rest : List Token}

theorem exceptionBehind_other (hRight : t.kind ≠ .rightParen) (hWith : t.kind ≠ .withWord) :
    exceptionBehind (t :: rest) = none := by
  rw [exceptionBehind]
  split
  · contradiction
  · contradiction
  · rfl

theorem exceptionBehind_rightParen (h : t.kind = .rightParen) :
    exceptionBehind (t :: rest) = exceptionBehind rest := by
  rw [exceptionBehind, h]

theorem exceptionBehind_with (h : w.kind = .withWord) : exceptionBehind (w :: t :: rest) = some t.text := by
  rw [exceptionBehind, h]
  rfl

theorem licenseEntries_name (h : t.kind = .name) :
    licenseEntries (t :: rest) = (t.text, exceptionBehind rest) :: licenseEntries rest := by
  simp [licenseEntries, licenseWords, h]

theorem licenseEntries_other (hName : t.kind ≠ .name) (hWith : t.kind ≠ .withWord) :
    licenseEntries (t :: rest) = licenseEntries rest := by
  simp [licenseEntries, licenseWords, hName, hWith]

theorem licenseEntries_with (hWith : w.kind = .withWord) (hName : t.kind = .name) :
    licenseEntries (w :: t :: rest) = licenseEntries rest := by
  simp [licenseEntries, licenseWords, hWith, hName]

theorem licenseEntries_rightParen (h : t.kind = .rightParen) : licenseEntries (t :: rest) = licenseEntries rest :=
  licenseEntries_other (by simp [h]) (by simp [h])

theorem licenseEntries_parens {inner : List Token} {close : Token} (hOpen : t.kind = .leftParen) :
    licenseEntries (t :: (inner ++ [close]) ++ rest) = licenseEntries (inner ++ close :: rest) := by
  rw [List.cons_append, licenseEntries_other (by simp [hOpen]) (by simp [hOpen]), List.append_assoc]
  rfl

theorem licenseWords_sublist (behindWith : Bool) (tokens : List Token) :
    ((licenseWords behindWith tokens).map Prod.fst).Sublist tokens := by
  induction tokens generalizing behindWith with
  | nil => exact .slnil
  | cons t rest ih =>
    rw [licenseWords]
    split_ifs
    · exact (ih false).cons_cons t
    · exact (ih _).cons t

end

/-- A license without an exception takes the one that follows it. -/
theorem Derives.licenseEntries_license {layer : Layer} {ls : List Lexeme} {e : Expr} (h : Derives layer ls e) :
    ∀ r, e = .license r → r.exception = none → ∀ front after, front.map lexeme = ls →
      licenseEntries (front ++ after) = (r.word, exceptionBehind after) :: licenseEntries after := by
  induction h with
  | operand _ ih | factor _ ih | bare _ ih => exact ih
  | or _ _ _ _ | and _ _ _ _ => exact fun _ hLicense => nomatch hLicense
  | exception _ _ _ _ =>
    rintro r ⟨⟩ hNone
    cases hNone
  | name _ | later _ =>
    rintro r ⟨⟩ - front after hFront
    obtain ⟨t, rfl, hKind, hText⟩ := exists_token_of_name hFront
    rw [List.singleton_append, licenseEntries_name hKind, hText]
    simp [Requirement.word]
  | parens _ ih =>
    rintro r hLicense hNone front after hFront
    obtain ⟨t, inner, close, rfl, hOpen, hInner, hClose⟩ := exists_tokens_of_parens hFront
    rw [licenseEntries_parens hOpen, ih r hLicense hNone inner _ hInner, exceptionBehind_rightParen hClose,
      licenseEntries_rightParen hClose]

/-- Where no exception follows, the lexemes name these requirements. -/
def Names (ls : List Lexeme) (rs : List Requirement) : Prop :=
  ∀ front after, front.map lexeme = ls → exceptionBehind after = none →
    licenseEntries (front ++ after) = rs.map Requirement.entry ++ licenseEntries after

theorem Names.join {op : Lexeme} (hOp : IsJoin op) {ls ms : List Lexeme} {rs qs : List Requirement}
    (hLeft : Names ls rs) (hRight : Names ms qs) : Names (ls ++ op :: ms) (rs ++ qs) := by
  intro front after hFront hAfter
  obtain ⟨first, t, second, rfl, hFirst, hKind, hSecond⟩ := exists_tokens_of_append hFront
  have hOther : t.kind ≠ .name ∧ t.kind ≠ .withWord ∧ t.kind ≠ .rightParen := by
    rcases hOp with rfl | rfl <;> simp [hKind, Lexeme.kind]
  rw [List.append_assoc, List.cons_append, hLeft first _ hFirst (exceptionBehind_other hOther.2.2 hOther.2.1),
    licenseEntries_other hOther.1 hOther.2.1, hRight second after hSecond hAfter, List.map_append, List.append_assoc]

/-- Where no exception follows, the license words of a derivation are the requirements of its tree. -/
theorem Derives.names {layer : Layer} {ls : List Lexeme} {e : Expr} (h : Derives layer ls e) :
    Names ls e.requirements := by
  induction h with
  | operand _ ih | factor _ ih | bare _ ih => exact ih
  | or _ _ ihLeft ihRight => exact ihLeft.join (.inr rfl) ihRight
  | and _ _ ihLeft ihRight => exact ihLeft.join (.inl rfl) ihRight
  | @exception ls r x hLicense hNone _ _ =>
    intro front after hFront _
    obtain ⟨first, w, t, rfl, hFirst, hWith, hName, rfl⟩ := exists_tokens_of_exception hFront
    rw [List.append_assoc, hLicense.licenseEntries_license r rfl hNone first _ hFirst]
    change (r.word, exceptionBehind (w :: t :: after)) :: licenseEntries (w :: t :: after) = _
    rw [exceptionBehind_with hWith, licenseEntries_with hWith hName]
    rfl
  | @name id hValid =>
    intro front after hFront hAfter
    rw [(Derives.name hValid).licenseEntries_license _ rfl rfl front after hFront, hAfter]
    rfl
  | @later id hValid =>
    intro front after hFront hAfter
    rw [(Derives.later hValid).licenseEntries_license _ rfl rfl front after hFront, hAfter]
    rfl
  | parens _ ih =>
    intro front after hFront hAfter
    obtain ⟨t, inner, close, rfl, hOpen, hInner, hClose⟩ := exists_tokens_of_parens hFront
    rw [licenseEntries_parens hOpen, ih inner _ hInner (by rw [exceptionBehind_rightParen hClose, hAfter]),
      licenseEntries_rightParen hClose]

/-- Every `WITH` gives an exception to a requirement. -/
theorem Derives.countP_exception {layer : Layer} {ls : List Lexeme} {e : Expr} (h : Derives layer ls e) :
    e.requirements.countP (fun r => r.exception.isSome) = ls.count .withWord := by
  induction h with
  | operand _ ih | factor _ ih | bare _ ih => exact ih
  | or _ _ ihLeft ihRight | and _ _ ihLeft ihRight => simp [Expr.requirements, ihLeft, ihRight]
  | @exception ls r x _ hNone _ ih =>
    have hBefore : ls.count .withWord = 0 := by
      rw [← ih]
      simp [Expr.requirements, hNone]
    simp [Expr.requirements, hBefore]
  | name _ | later _ => simp [Expr.requirements]
  | parens _ ih => simp [ih]

namespace Expr

/-- The requirements of an expression are its license words, each once and in the order of their offsets, with
identifier, plus sign and exception. Every `WITH` has given its exception to one of them, and they are one more than
the joins. -/
theorem requirements_of_parse {s : String} {e : Expr} (h : parse s = .ok e) :
    ∃ tokens, ofText s = .ok tokens ∧ (∀ t ∈ tokens, StandsAt s.toList t.offset t.text) ∧
      ((licenseWords false tokens).Pairwise fun w v => w.1.offset < v.1.offset) ∧
      e.requirements.map (fun r => (r.id ++ if r.orLater then "+" else "", r.exception)) =
        (licenseWords false tokens).map (fun w => (w.1.text, w.2)) ∧
      (∀ r ∈ e.requirements, '+' ∉ r.id.toList) ∧
      e.requirements.countP (fun r => r.exception.isSome) = (tokens.map lexeme).count .withWord ∧
      e.requirements.length = joins (tokens.map lexeme) + 1 := by
  obtain ⟨tokens, hTokens, -⟩ := parse_eq_ok_iff_reads.mp h
  obtain ⟨hSpelled, -⟩ := ofText_eq_ok_iff.mp ⟨tokens, hTokens, rfl⟩
  obtain ⟨hCased, hDerives, -, -⟩ := derives_of_parse hSpelled h
  refine ⟨tokens, hTokens, fun t ht => (standsIn_of_scan hTokens [] rfl t ht).text, ?_, ?_, ?_,
    hDerives.countP_exception, ?_⟩
  · have hOrder := (pairwise_offset_of_scan hTokens).2.sublist (licenseWords_sublist false tokens)
    rwa [List.pairwise_map] at hOrder
  · have hEntries := hDerives.names tokens [] rfl rfl
    rw [List.append_nil] at hEntries
    exact (hEntries.trans (List.append_nil _)).symm
  · intro r hr
    have hWritable := hDerives.isWritable (fun w hw => ⟨hSpelled.not_operator_of_mem hw, hCased w hw⟩) r hr
    exact plus_not_mem_of_isIdentifier hWritable.id
  · rw [length_requirements, hDerives.joins_eq]

theorem requirements_of_parse_wrapped :
    parse "((A+)) WITH x AND (B OR A)" = .ok (.and (.license ⟨"A", true, some "x"⟩)
      (.or (.license ⟨"B", false, none⟩) (.license ⟨"A", false, none⟩))) ∧
    ∃ tokens, ofText "((A+)) WITH x AND (B OR A)" = .ok tokens ∧
      (licenseWords false tokens).map (fun w => (w.1.text, w.2)) = [("A+", some "x"), ("B", none), ("A", none)] := by
  have h : parse "((A+)) WITH x AND (B OR A)" = .ok (.and (.license ⟨"A", true, some "x"⟩)
      (.or (.license ⟨"B", false, none⟩) (.license ⟨"A", false, none⟩))) := by decide +kernel
  obtain ⟨tokens, hTokens, -, -, hWords, -⟩ := requirements_of_parse h
  exact ⟨h, tokens, hTokens, hWords.symm⟩

end Expr

end PolicyLint.License
