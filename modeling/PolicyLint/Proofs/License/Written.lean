import PolicyLint.License.Expr
import PolicyLint.Proofs.License.Grammar
import PolicyLint.Proofs.License.Identifiers
import PolicyLint.Proofs.License.Regrouping

/-!
# Lexemes of the written form

The written form of a tree spells lexemes that can be said of the tree itself, provided that its
requirements consist of identifiers and of words that are no operators.
-/
namespace PolicyLint.License
open Text
set_option autoImplicit false

namespace Spelled
open Token (isWordChar)

variable {cs ds : List Char} {ls ms : List Lexeme}

theorem append (h : Spelled cs ls) (h' : Spelled ds ms) (hEnd : ∀ c ∈ ds.head?, isWordChar c = false) :
    Spelled (cs ++ ds) (ls ++ ms) := by
  induction h with
  | done => exact h'
  | blank hBlank _ ih => exact .blank hBlank ih
  | leftParen _ ih => exact .leftParen ih
  | rightParen _ ih => exact .rightParen ih
  | @word w cs ls hNonempty hWord hStop _ ih =>
    rw [List.append_assoc]
    refine .word hNonempty hWord ?_ ih
    cases cs with
    | nil => simpa using hEnd
    | cons c cs => simpa using hStop

/-- Two texts with a blank between them. -/
theorem append_blank (h : Spelled cs ls) (h' : Spelled ds ms) : Spelled (cs ++ ' ' :: ds) (ls ++ ms) :=
  h.append (.blank (by decide) h') (by simp; decide)

theorem parens (h : Spelled cs ls) : Spelled ('(' :: (cs ++ [')'])) (.leftParen :: (ls ++ [.rightParen])) :=
  .leftParen (h.append (.rightParen .done) (by simp; decide))

theorem ofWord {w : String} (hNonempty : w.toList ≠ []) (hWord : ∀ c ∈ w.toList, isWordChar c = true) :
    Spelled w.toList [.ofWord w] := by
  have h := Spelled.word hNonempty hWord (by simp) Spelled.done
  simpa using h

theorem not_operator_of_mem (h : Spelled cs ls) {w : String} (hw : .name w ∈ ls) : w ∉ operatorWords := by
  induction h with
  | done => cases hw
  | blank _ _ ih => exact ih hw
  | leftParen _ ih | rightParen _ ih => exact ih (by simpa using hw)
  | @word v _ _ _ _ _ _ ih =>
    rcases List.mem_cons.mp hw with hw | hw
    · intro hOperator
      by_cases hv : String.ofList v ∈ operatorWords
      · revert hw
        generalize String.ofList v = u at hv
        revert u
        simp [operatorWords, Lexeme.ofWord]
      · rw [Lexeme.ofWord_of_not_operator hv] at hw
        cases hw
        exact hv hOperator
    · exact ih hw

end Spelled

namespace Requirement

/-- The word that names the license, with its plus sign. -/
def word (r : Requirement) : String := r.id ++ if r.orLater then "+" else ""

def lexemes (r : Requirement) : List Lexeme :=
  .name r.word ::
    match r.exception with
    | some exception => [.withWord, .name exception]
    | none => []

/-- A word that a text may use as a name. -/
def IsName (w : String) : Prop := w ∉ operatorWords ∧ ¬ IsMiscased w

/-- The requirement can be written. -/
structure IsWritable (r : Requirement) : Prop where
  id : isValidId r.id = true
  word : IsName r.word
  exception : ∀ x ∈ r.exception, isValidId x = true ∧ IsName x

theorem IsWritable.isName {r : Requirement} (h : r.IsWritable) {w : String} (hw : .name w ∈ r.lexemes) :
    IsName w := by
  obtain ⟨id, later, exception⟩ := r
  rcases List.mem_cons.mp hw with hw | hw
  · cases hw
    exact h.word
  · cases exception with
    | none => cases hw
    | some x =>
      have hx : w = x := by simpa using hw
      exact hx ▸ (h.exception x rfl).2

theorem IsName.ofWord {w : String} (h : IsName w) : Lexeme.ofWord w = .name w :=
  Lexeme.ofWord_of_not_operator h.1

theorem spelled_identifier {id : String} (hValid : isValidId id = true) (hName : IsName id) :
    Spelled id.toList [.name id] := by
  rw [← hName.ofWord]
  exact Spelled.ofWord (ne_nil_of_isIdentifier hValid) (isWordChar_of_isIdentifier hValid)

theorem IsWritable.spelled_word {r : Requirement} (h : r.IsWritable) :
    Spelled r.word.toList [.name r.word] := by
  rw [← h.word.ofWord]
  refine Spelled.ofWord ?_ ?_
  · simp [Requirement.word, String.toList_append, ne_nil_of_isIdentifier h.id]
  · intro c hc
    have hPlus : Token.isWordChar '+' = true := by decide
    rcases List.mem_append.mp (String.toList_append ▸ hc) with hc | hc
    · exact isWordChar_of_isIdentifier h.id c hc
    · split at hc
      · exact (List.mem_singleton.mp hc) ▸ hPlus
      · cases hc

theorem IsWritable.spelled {r : Requirement} (h : r.IsWritable) : Spelled r.render.toList r.lexemes := by
  have hWord := h.spelled_word
  obtain ⟨id, later, exception⟩ := r
  cases exception with
  | none => simpa [render, lexemes, Requirement.word] using hWord
  | some x =>
    obtain ⟨hValid, hName⟩ := h.exception x rfl
    have hWith : Spelled "WITH".toList [.withWord] :=
      Spelled.ofWord (by decide) (List.all_eq_true.mp (by decide))
    have hBoth := hWord.append_blank (hWith.append_blank (spelled_identifier hValid hName))
    have hText : (Requirement.mk id later (some x)).render.toList =
        (Requirement.mk id later (some x)).word.toList ++ ' ' :: ("WITH".toList ++ ' ' :: x.toList) := by
      simp [render, Requirement.word]
    rw [hText]
    exact hBoth

end Requirement

namespace Expr

/-- The lexemes of the written form. -/
def lexemes : Expr → List Lexeme
  | license r => r.lexemes
  | or a b => a.lexemes ++ .orWord :: b.lexemes
  | and a b => operand a a.lexemes ++ .andWord :: operand b b.lexemes
where
  operand (e : Expr) (ls : List Lexeme) : List Lexeme :=
    match e with
    | or _ _ => .leftParen :: (ls ++ [.rightParen])
    | _ => ls

def operandLexemes (e : Expr) : List Lexeme := lexemes.operand e e.lexemes

/-- All requirements can be written. -/
def IsWritable (e : Expr) : Prop := ∀ r ∈ e.requirements, r.IsWritable

theorem IsWritable.spelled {e : Expr} (h : e.IsWritable) :
    Spelled e.render.toList e.lexemes ∧ Spelled e.operandText.toList e.operandLexemes := by
  induction e with
  | license r =>
    have hSpelled := (h r (by simp [requirements])).spelled
    exact ⟨hSpelled, hSpelled⟩
  | or a b iha ihb =>
    have ha := (iha fun r hr => h r (by simp [requirements, hr])).1
    have hb := (ihb fun r hr => h r (by simp [requirements, hr])).1
    have hOr : Spelled "OR".toList [.orWord] :=
      Spelled.ofWord (by decide) (List.all_eq_true.mp (by decide))
    have hText : (Expr.or a b).render.toList =
        a.render.toList ++ ' ' :: ("OR".toList ++ ' ' :: b.render.toList) := by
      simp [render]
    have hSpelled : Spelled (Expr.or a b).render.toList (Expr.or a b).lexemes := by
      rw [hText]
      exact ha.append_blank (hOr.append_blank hb)
    refine ⟨hSpelled, ?_⟩
    simpa [operandText, render.operand, operandLexemes, lexemes.operand] using hSpelled.parens
  | and a b iha ihb =>
    have ha := (iha fun r hr => h r (by simp [requirements, hr])).2
    have hb := (ihb fun r hr => h r (by simp [requirements, hr])).2
    have hAnd : Spelled "AND".toList [.andWord] :=
      Spelled.ofWord (by decide) (List.all_eq_true.mp (by decide))
    have hText : (Expr.and a b).render.toList =
        a.operandText.toList ++ ' ' :: ("AND".toList ++ ' ' :: b.operandText.toList) := by
      simp [render, operandText]
    have hSpelled : Spelled (Expr.and a b).render.toList (Expr.and a b).lexemes := by
      rw [hText]
      exact ha.append_blank (hAnd.append_blank hb)
    exact ⟨hSpelled, hSpelled⟩

theorem mem_operandLexemes {e : Expr} {w : String} : .name w ∈ e.operandLexemes ↔ .name w ∈ e.lexemes := by
  cases e with
  | license r | and a b => rfl
  | or a b => simp [operandLexemes, lexemes.operand]

/-- The names of the written form are those of the requirements. -/
theorem mem_lexemes {e : Expr} {w : String} :
    .name w ∈ e.lexemes ↔ ∃ r ∈ e.requirements, .name w ∈ r.lexemes := by
  induction e with
  | license r => simp [lexemes, requirements]
  | or a b iha ihb =>
    simp [lexemes, requirements, iha, ihb, or_and_right, exists_or]
  | and a b iha ihb =>
    change .name w ∈ a.operandLexemes ++ .andWord :: b.operandLexemes ↔ _
    simp [mem_operandLexemes, requirements, iha, ihb, or_and_right, exists_or]

theorem IsWritable.wellCased {e : Expr} (h : e.IsWritable) : Token.WellCased e.lexemes := by
  intro w hw
  obtain ⟨r, hr, hw⟩ := mem_lexemes.mp hw
  exact ((h r hr).isName hw).2

end Expr

end PolicyLint.License
