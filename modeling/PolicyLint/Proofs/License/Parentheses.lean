import PolicyLint.Proofs.License.Beginnings

/-!
# Unbalanced parentheses

The parentheses of a text are those of its lexemes, and are counted there. A reader that blames a parenthesis is
right unless it was interrupted: inside an open parenthesis it met a token that cannot stand there, and the text
closes all its parentheses nonetheless.
-/
namespace PolicyLint.Text
set_option autoImplicit false

variable {α : Type} [DecidableEq α] {opening closing : α}

/-- How many brackets are open in the end, if `depth` are open in the beginning and none closes in excess. It scans
for what is otherwise said of the fronts of a text: none of them closes more than it opens. -/
def openAfter (opening closing : α) : (depth : Nat) → List α → Option Nat
  | depth, [] => some depth
  | depth, x :: xs =>
    if x = opening then openAfter opening closing (depth + 1) xs
    else if x = closing then
      match depth with
      | 0 => none
      | depth + 1 => openAfter opening closing depth xs
    else openAfter opening closing depth xs

section
variable {depth : Nat} {xs ys : List α}

@[simp] theorem openAfter_nil : openAfter opening closing depth [] = some depth := rfl

@[simp] theorem openAfter_opening :
    openAfter opening closing depth (opening :: xs) = openAfter opening closing (depth + 1) xs := by
  simp [openAfter]

@[simp] theorem openAfter_zero_closing (h : closing ≠ opening) :
    openAfter opening closing 0 (closing :: xs) = none := by
  simp [openAfter, h]

@[simp] theorem openAfter_succ_closing (h : closing ≠ opening) :
    openAfter opening closing (depth + 1) (closing :: xs) = openAfter opening closing depth xs := by
  simp [openAfter, h]

theorem openAfter_other {x : α} (hOpening : x ≠ opening) (hClosing : x ≠ closing) :
    openAfter opening closing depth (x :: xs) = openAfter opening closing depth xs := by
  simp [openAfter, hOpening, hClosing]

theorem openAfter_append : openAfter opening closing depth (xs ++ ys) =
    (openAfter opening closing depth xs).bind fun middle => openAfter opening closing middle ys := by
  fun_induction openAfter opening closing depth xs
  case case1 => rfl
  case case2 depth xs ih => rw [List.cons_append, openAfter_opening, ih]
  case case3 xs hOther => rw [List.cons_append, openAfter_zero_closing hOther, Option.bind_none]
  case case4 xs depth hOther ih => rw [List.cons_append, openAfter_succ_closing hOther, ih]
  case case5 depth x xs hOpening hClosing ih => rw [List.cons_append, openAfter_other hOpening hClosing, ih]

theorem openAfter_of_not_mem (hOpening : opening ∉ xs) (hClosing : closing ∉ xs) :
    openAfter opening closing depth xs = some depth := by
  induction xs with
  | nil => rfl
  | cons x xs ih =>
    rw [List.mem_cons, not_or] at hOpening hClosing
    rw [openAfter_other (Ne.symm hOpening.1) (Ne.symm hClosing.1), ih hOpening.2 hClosing.2]

/-- The count succeeds if no front closes more than is open, and then gives the difference of the totals. -/
theorem openAfter_eq_some_iff (hApart : closing ≠ opening) {rest : Nat} :
    openAfter opening closing depth xs = some rest ↔
      (∀ front, front <+: xs → front.count closing ≤ front.count opening + depth) ∧
        xs.count opening + depth = xs.count closing + rest := by
  induction xs generalizing depth with
  | nil => simp
  | cons x xs ih =>
    have hFronts : ∀ P : List α → Prop, (∀ front, front <+: x :: xs → P front) ↔
        P [] ∧ ∀ front, front <+: xs → P (x :: front) := by
      intro P
      constructor
      · intro h
        exact ⟨h [] List.nil_prefix, fun front hFront => h _ ((List.prefix_cons_inj x).mpr hFront)⟩
      · rintro ⟨hNil, hCons⟩ front hFront
        rcases List.prefix_cons_iff.mp hFront with rfl | ⟨inner, rfl, hInner⟩
        · exact hNil
        · exact hCons inner hInner
    rw [hFronts]
    by_cases hOpening : x = opening
    · subst hOpening
      simp only [openAfter_opening, ih, List.count_nil, List.count_cons_self, Nat.zero_le, true_and,
        List.count_cons_of_ne hApart.symm]
      refine and_congr (forall₂_congr fun front _ => ?_) ?_ <;> omega
    by_cases hClosing : x = closing
    · subst hClosing
      cases depth with
      | zero =>
        simp only [openAfter_zero_closing hApart, List.count_nil, List.count_cons_self,
          List.count_cons_of_ne hApart]
        refine iff_of_false (by simp) ?_
        rintro ⟨⟨-, h⟩, -⟩
        have hFirst := h [] List.nil_prefix
        simp at hFirst
      | succ depth =>
        simp only [openAfter_succ_closing hApart, ih, List.count_nil, List.count_cons_self, Nat.zero_le, true_and,
          List.count_cons_of_ne hApart]
        refine and_congr (forall₂_congr fun front _ => ?_) ?_ <;> omega
    · simp [openAfter_other hOpening hClosing, ih, List.count_cons_of_ne hOpening, List.count_cons_of_ne hClosing]

end

end PolicyLint.Text

namespace PolicyLint.License
open Text Token

/-- Some front of the text closes more parentheses than it opens, or the totals differ. -/
def IsUnbalanced (cs : List Char) : Prop :=
  (∃ front, front <+: cs ∧ front.count '(' < front.count ')') ∨ cs.count '(' ≠ cs.count ')'

theorem isUnbalanced_iff {cs : List Char} : IsUnbalanced cs ↔ openAfter '(' ')' 0 cs ≠ some 0 := by
  rw [Ne, openAfter_eq_some_iff (by decide), IsUnbalanced, not_and_or]
  simp only [Nat.add_zero, Classical.not_forall, Nat.not_le, exists_prop, ne_eq]

/-- How many parentheses are open behind the lexemes. -/
def openParens (depth : Nat) (ls : List Lexeme) : Option Nat := openAfter .leftParen .rightParen depth ls

section
variable {depth : Nat} {ls ms : List Lexeme}

@[simp] theorem openParens_nil : openParens depth [] = some depth := rfl

@[simp] theorem openParens_leftParen : openParens depth (.leftParen :: ls) = openParens (depth + 1) ls :=
  openAfter_opening

@[simp] theorem openParens_zero_rightParen : openParens 0 (.rightParen :: ls) = none :=
  openAfter_zero_closing (by decide)

@[simp] theorem openParens_succ_rightParen : openParens (depth + 1) (.rightParen :: ls) = openParens depth ls :=
  openAfter_succ_closing (by decide)

theorem openParens_other {l : Lexeme} (hLeft : l ≠ .leftParen) (hRight : l ≠ .rightParen) :
    openParens depth (l :: ls) = openParens depth ls := openAfter_other hLeft hRight

theorem openParens_append :
    openParens depth (ls ++ ms) = (openParens depth ls).bind fun middle => openParens middle ms :=
  openAfter_append

theorem Derives.openParens_eq {layer : Layer} {e : Expr} (h : Derives layer ls e) :
    ∀ depth, openParens depth ls = some depth := by
  induction h with
  | operand _ ih | factor _ ih | bare _ ih => exact ih
  | or _ _ ihLeft ihRight | and _ _ ihLeft ihRight =>
    intro depth
    rw [openParens_append, ihLeft, Option.bind_some, openParens_other (by simp) (by simp), ihRight]
  | exception _ _ _ ih =>
    intro depth
    rw [openParens_append, ih, Option.bind_some, openParens_other (by simp) (by simp),
      openParens_other (by simp) (by simp), openParens_nil]
  | name _ | later _ =>
    intro depth
    rw [openParens_other (by simp) (by simp), openParens_nil]
  | parens _ ih =>
    intro depth
    rw [openParens_leftParen, openParens_append, ih, Option.bind_some, openParens_succ_rightParen, openParens_nil]

theorem Begins.openParens_eq {next : Awaited} {layer : Layer} (h : Begins next layer depth ls) :
    ∀ before, openParens before ls = some (before + depth) := by
  induction h with
  | operand => exact fun before => rfl
  | exception hLicense _ =>
    intro before
    rw [openParens_append, hLicense.openParens_eq, Option.bind_some, openParens_other (by simp) (by simp),
      openParens_nil, Nat.add_zero]
  | closing hInner =>
    intro before
    rw [openParens_leftParen, hInner.openParens_eq]
  | parens _ ih =>
    intro before
    rw [openParens_leftParen, ih, Nat.add_right_comm, Nat.add_assoc]
  | factor _ ih | disjunct _ ih => exact ih
  | and hLeft _ ih | or hLeft _ ih =>
    intro before
    rw [openParens_append, hLeft.openParens_eq, Option.bind_some, openParens_other (by simp) (by simp), ih]

end

/-- The parentheses of a text are those of its lexemes. -/
theorem Spelled.openAfter_eq {cs : List Char} {ls : List Lexeme} (h : Spelled cs ls) :
    ∀ depth, openAfter '(' ')' depth cs = openParens depth ls := by
  induction h with
  | done => exact fun depth => rfl
  | @blank c cs ls hBlank _ ih =>
    intro depth
    have hLeft : c ≠ '(' := by rintro rfl; exact absurd hBlank (by decide)
    have hRight : c ≠ ')' := by rintro rfl; exact absurd hBlank (by decide)
    rw [openAfter_other hLeft hRight, ih]
  | leftParen _ ih =>
    intro depth
    rw [openAfter_opening, openParens_leftParen, ih]
  | rightParen _ ih =>
    intro depth
    cases depth with
    | zero => rw [openAfter_zero_closing (by decide), openParens_zero_rightParen]
    | succ depth => rw [openAfter_succ_closing (by decide), openParens_succ_rightParen, ih]
  | @word w cs ls hNonempty hWord hEnd _ ih =>
    intro depth
    have hLeft : '(' ∉ w := fun hMem => absurd (hWord _ hMem) (by decide)
    have hRight : ')' ∉ w := fun hMem => absurd (hWord _ hMem) (by decide)
    rw [openAfter_append, openAfter_of_not_mem hLeft hRight, Option.bind_some, ih,
      openParens_other (Lexeme.ofWord_ne_leftParen _) (Lexeme.ofWord_ne_rightParen _)]

/-- The tokens begin an expression and go on with one that stalls its reader, but close all parentheses in the
end. So at least one parenthesis is open, and the token is a closing parenthesis in the place of an operand, or one
in whose place a parenthesis has to close. -/
def IsInterrupted (tokens : List Token) : Prop :=
  ∃ next depth front rest, tokens = front ++ rest ∧ Begins next .disjunction depth (front.map lexeme) ∧
    Reader.Stalls next rest .unbalancedParen ∧ openParens depth (rest.map lexeme) = some 0

theorem IsInterrupted.openParens_eq {tokens : List Token} (h : IsInterrupted tokens) :
    openParens 0 (tokens.map lexeme) = some 0 := by
  obtain ⟨next, depth, front, rest, rfl, hBegins, -, hCloses⟩ := h
  rw [List.map_append, openParens_append, hBegins.openParens_eq, Option.bind_some, Nat.zero_add]
  exact hCloses

namespace Expr

/-- A reader that blames a parenthesis is right exactly if it was not interrupted. -/
theorem isUnbalanced_iff_not_isInterrupted {s : String} {offset : Nat}
    (h : parse s = .error ⟨offset, .unbalancedParen⟩) :
    IsUnbalanced s.toList ↔ ¬ ∃ tokens, ofText s = .ok tokens ∧ IsInterrupted tokens := by
  obtain ⟨tokens, hTokens, hStops⟩ := stops_of_parse h .parenthesis
  obtain ⟨hSpelled, -⟩ := ofText_eq_ok_iff.mp ⟨tokens, hTokens, rfl⟩
  rw [isUnbalanced_iff, hSpelled.openAfter_eq]
  constructor
  · rintro hOpen ⟨tokens', hTokens', hInterrupted⟩
    obtain rfl : tokens = tokens' := by rw [hTokens] at hTokens'; exact Except.ok.inj hTokens'
    exact hOpen hInterrupted.openParens_eq
  · intro hInterrupted hOpen
    rcases hStops with ⟨next, depth, front, rest, rfl, hBegun, hStalls⟩ | ⟨-, front, t, rest, e, rfl, hDerives, hKind⟩
    · refine hInterrupted ⟨_, hTokens, next, depth, front, rest, rfl, hBegun.begins, hStalls, ?_⟩
      rw [List.map_append, openParens_append, hBegun.begins.openParens_eq, Option.bind_some, Nat.zero_add] at hOpen
      exact hOpen
    · rw [List.map_append, openParens_append, hDerives.openParens_eq, Option.bind_some, List.map_cons,
        lexeme_eq_of_kind (l := .rightParen) (by simp) hKind, openParens_zero_rightParen] at hOpen
      cases hOpen

theorem isUnbalanced_unclosed_or :
    parse "(MIT OR (ISC)" = .error ⟨0, .unbalancedParen⟩ ∧ IsUnbalanced "(MIT OR (ISC)".toList ∧
      ¬ ∃ tokens, ofText "(MIT OR (ISC)" = .ok tokens ∧ IsInterrupted tokens := by
  have h : parse "(MIT OR (ISC)" = .error ⟨0, .unbalancedParen⟩ := by decide +kernel
  have hUnbalanced : IsUnbalanced "(MIT OR (ISC)".toList := isUnbalanced_iff.mpr (by decide)
  exact ⟨h, hUnbalanced, (isUnbalanced_iff_not_isInterrupted h).mp hUnbalanced⟩

/-- The second name is refused inside parentheses that do close. -/
theorem parse_second_name_in_parens :
    parse "(MIT ISC)" = .error ⟨0, .unbalancedParen⟩ ∧ ¬ IsUnbalanced "(MIT ISC)".toList := by
  refine ⟨by decide +kernel, ?_⟩
  rw [isUnbalanced_iff, not_not]
  decide

end Expr

end PolicyLint.License
