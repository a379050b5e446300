import Mathlib.Data.List.TakeWhile
import PolicyLint.License.Token
import PolicyLint.Proofs.Outcome

/-!
# Lexemes of a license expression

What the words and parentheses of a text are, said of its characters alone: a word is a longest run of
characters that are neither blank nor parenthesis. The scanner yields these lexemes in order, and fails
exactly on a word that is an operator but for the case of its letters.
-/
namespace PolicyLint.License
open Text
set_option autoImplicit false

/-- A parenthesis, an operator or a name, without its place. -/
inductive Lexeme where
  | leftParen | rightParen | andWord | orWord | withWord
  | name (text : String)
  deriving DecidableEq, Repr

/-- The words that join or extend licenses. -/
def operatorWords : List String := ["AND", "OR", "WITH"]

/-- An operator but for the case of its letters. -/
def IsMiscased (w : String) : Prop :=
  ∃ op ∈ operatorWords, w ≠ op ∧ w.toList.map Char.toLower = op.toList.map Char.toLower

instance (w : String) : Decidable (IsMiscased w) :=
  inferInstanceAs (Decidable (∃ op ∈ operatorWords, _))

theorem not_isMiscased_of_mem {w : String} (h : w ∈ operatorWords) : ¬ IsMiscased w := by
  revert w
  decide

namespace Lexeme

/-- Every word that is no operator is a name. -/
def ofWord (w : String) : Lexeme :=
  if w = "AND" then .andWord else if w = "OR" then .orWord else if w = "WITH" then .withWord else .name w

def kind : Lexeme → Token.Kind
  | leftParen => .leftParen
  | rightParen => .rightParen
  | andWord => .andWord
  | orWord => .orWord
  | withWord => .withWord
  | name _ => .name

theorem ofWord_of_not_operator {w : String} (h : w ∉ operatorWords) : ofWord w = name w := by
  simp only [operatorWords, List.mem_cons, List.not_mem_nil, or_false, not_or] at h
  rw [ofWord, if_neg h.1, if_neg h.2.1, if_neg h.2.2]

theorem ofWord_ne_leftParen (w : String) : ofWord w ≠ leftParen := by
  unfold ofWord
  split_ifs <;> simp

theorem ofWord_ne_rightParen (w : String) : ofWord w ≠ rightParen := by
  unfold ofWord
  split_ifs <;> simp

end Lexeme

/-- The characters are these lexemes, with blanks between them. -/
inductive Spelled : List Char → List Lexeme → Prop
  | done : Spelled [] []
  | blank {c : Char} {cs : List Char} {ls : List Lexeme} (hBlank : isBlank c = true)
      (h : Spelled cs ls) : Spelled (c :: cs) ls
  | leftParen {cs : List Char} {ls : List Lexeme} (h : Spelled cs ls) :
      Spelled ('(' :: cs) (.leftParen :: ls)
  | rightParen {cs : List Char} {ls : List Lexeme} (h : Spelled cs ls) :
      Spelled (')' :: cs) (.rightParen :: ls)
  | word {w cs : List Char} {ls : List Lexeme} (hNonempty : w ≠ [])
      (hWord : ∀ c ∈ w, Token.isWordChar c = true)
      (hEnd : ∀ c ∈ cs.head?, Token.isWordChar c = false) (h : Spelled cs ls) :
      Spelled (w ++ cs) (.ofWord (String.ofList w) :: ls)

namespace Spelled
open Token (isWordChar)

variable {w cs : List Char} {ls ms : List Lexeme}

theorem isWordChar_iff {c : Char} : isWordChar c = true ↔ isBlank c = false ∧ c ≠ '(' ∧ c ≠ ')' := by
  simp [isWordChar, and_assoc]

theorem takeWhile_word (hWord : ∀ c ∈ w, isWordChar c = true)
    (hEnd : ∀ c ∈ cs.head?, isWordChar c = false) : (w ++ cs).takeWhile isWordChar = w := by
  rw [List.takeWhile_append_of_pos hWord]
  cases cs with
  | nil => simp
  | cons d cs => simp [hEnd d rfl]

theorem dropWhile_word (hWord : ∀ c ∈ w, isWordChar c = true)
    (hEnd : ∀ c ∈ cs.head?, isWordChar c = false) : (w ++ cs).dropWhile isWordChar = cs := by
  rw [List.dropWhile_append_of_pos hWord]
  cases cs with
  | nil => rfl
  | cons d cs => simp [hEnd d rfl]

/-- A word starts at any character that is neither blank nor parenthesis, and takes the whole run. -/
theorem word_run {c : Char} (hc : isWordChar c = true) (h : Spelled (cs.dropWhile isWordChar) ls) :
    Spelled (c :: cs) (.ofWord (String.ofList (c :: cs.takeWhile isWordChar)) :: ls) := by
  have hSplit : c :: cs = (c :: cs.takeWhile isWordChar) ++ cs.dropWhile isWordChar := by
    simp [List.takeWhile_append_dropWhile]
  have hWord : ∀ d ∈ c :: cs.takeWhile isWordChar, isWordChar d = true := by
    intro d hd
    rcases List.mem_cons.mp hd with rfl | hd
    · exact hc
    · exact List.mem_takeWhile_imp hd
  have hEnd : ∀ d ∈ (cs.dropWhile isWordChar).head?, isWordChar d = false := by
    intro d hd
    simpa [Option.mem_def.mp hd] using List.head?_dropWhile_not isWordChar cs
  rw [hSplit]
  exact .word (List.cons_ne_nil _ _) hWord hEnd h

theorem exists_spelled (cs : List Char) : ∃ ls, Spelled cs ls := by
  match cs with
  | [] => exact ⟨[], .done⟩
  | c :: rest =>
    by_cases hc : isWordChar c = true
    · obtain ⟨ls, h⟩ := exists_spelled (rest.dropWhile isWordChar)
      exact ⟨_, word_run hc h⟩
    · obtain ⟨ls, h⟩ := exists_spelled rest
      rw [isWordChar_iff] at hc
      by_cases hLeft : c = '('
      · subst hLeft
        exact ⟨_, .leftParen h⟩
      by_cases hRight : c = ')'
      · subst hRight
        exact ⟨_, .rightParen h⟩
      exact ⟨_, .blank (by simpa [hLeft, hRight] using hc) h⟩
termination_by cs.length
decreasing_by
  · exact Nat.lt_succ_of_le (List.dropWhile_suffix _).length_le
  · exact Nat.lt_succ_self _

theorem eq_nil (h : Spelled [] ls) : ls = [] := by
  generalize hcs : ([] : List Char) = cs at h
  cases h with
  | done => rfl
  | word hNonempty _ _ _ => exact absurd (List.append_eq_nil_iff.mp hcs.symm).1 hNonempty
  | _ => cases hcs

/-- How the lexemes of a text start is decided by its first character. -/
theorem of_cons {c : Char} (h : Spelled (c :: cs) ls) :
    (isBlank c = true ∧ Spelled cs ls) ∨
    (c = '(' ∧ ∃ ms, ls = .leftParen :: ms ∧ Spelled cs ms) ∨
    (c = ')' ∧ ∃ ms, ls = .rightParen :: ms ∧ Spelled cs ms) ∨
    (isWordChar c = true ∧ ∃ ms, ls = .ofWord (String.ofList (c :: cs.takeWhile isWordChar)) :: ms ∧
      Spelled (cs.dropWhile isWordChar) ms) := by
  generalize hcs : c :: cs = all at h
  cases h with
  | done => cases hcs
  | blank hBlank h =>
    cases hcs
    exact .inl ⟨hBlank, h⟩
  | leftParen h =>
    cases hcs
    exact .inr (.inl ⟨rfl, _, rfl, h⟩)
  | rightParen h =>
    cases hcs
    exact .inr (.inr (.inl ⟨rfl, _, rfl, h⟩))
  | @word w after ls hNonempty hWord hEnd h =>
    obtain ⟨d, w, rfl⟩ := List.exists_cons_of_ne_nil hNonempty
    rw [List.cons_append] at hcs
    cases hcs
    have hw : ∀ d ∈ w, isWordChar d = true := fun d hd => hWord d (List.mem_cons_of_mem c hd)
    refine .inr (.inr (.inr ⟨hWord c List.mem_cons_self, ls, ?_, ?_⟩))
    · rw [takeWhile_word hw hEnd]
    · rw [dropWhile_word hw hEnd]
      exact h

/-- A text has only one sequence of lexemes. -/
theorem unique {cs : List Char} {ls ms : List Lexeme} (h : Spelled cs ls) (h' : Spelled cs ms) : ls = ms := by
  match cs with
  | [] => rw [h.eq_nil, h'.eq_nil]
  | c :: rest =>
    rcases h.of_cons with ⟨hBlank, hRest⟩ | ⟨rfl, ls, rfl, hRest⟩ | ⟨rfl, ls, rfl, hRest⟩ |
      ⟨hc, ls, rfl, hRest⟩
    · rcases h'.of_cons with ⟨-, hRest'⟩ | ⟨rfl, -⟩ | ⟨rfl, -⟩ | ⟨hc, -⟩
      · exact unique hRest hRest'
      · exact absurd hBlank (by decide)
      · exact absurd hBlank (by decide)
      · exact absurd hBlank (by simp [(isWordChar_iff.mp hc).1])
    · rcases h'.of_cons with ⟨hBlank, -⟩ | ⟨-, ms, rfl, hRest'⟩ | ⟨hc, -⟩ | ⟨hc, -⟩
      · exact absurd hBlank (by decide)
      · rw [unique hRest hRest']
      · exact absurd hc (by decide)
      · exact absurd hc (by decide)
    · rcases h'.of_cons with ⟨hBlank, -⟩ | ⟨hc, -⟩ | ⟨-, ms, rfl, hRest'⟩ | ⟨hc, -⟩
      · exact absurd hBlank (by decide)
      · exact absurd hc (by decide)
      · rw [unique hRest hRest']
      · exact absurd hc (by decide)
    · rcases h'.of_cons with ⟨hBlank, -⟩ | ⟨rfl, -⟩ | ⟨rfl, -⟩ | ⟨-, ms, rfl, hRest'⟩
      · exact absurd hBlank (by simp [(isWordChar_iff.mp hc).1])
      · exact absurd hc (by decide)
      · exact absurd hc (by decide)
      · rw [unique hRest hRest']
termination_by cs.length
decreasing_by
  · exact Nat.lt_succ_self _
  · exact Nat.lt_succ_self _
  · exact Nat.lt_succ_self _
  · exact Nat.lt_succ_of_le (List.dropWhile_suffix _).length_le

end Spelled

namespace Token

/-- The lexeme that a token stands for. -/
def lexeme (t : Token) : Lexeme :=
  match t.kind with
  | .leftParen => .leftParen
  | .rightParen => .rightParen
  | .andWord => .andWord
  | .orWord => .orWord
  | .withWord => .withWord
  | .name => .name t.text

theorem kind_eq_kind_lexeme (t : Token) : t.kind = t.lexeme.kind := by
  obtain ⟨kind, text, offset⟩ := t
  cases kind <;> rfl

theorem lexeme_eq_of_kind {t : Token} {l : Lexeme} (hName : ∀ w, l ≠ .name w) (h : t.kind = l.kind) :
    t.lexeme = l := by
  obtain ⟨kind, text, offset⟩ := t
  cases l with
  | name w => exact absurd rfl (hName w)
  | _ => cases h; rfl

theorem lexeme_eq_name_iff {t : Token} {w : String} :
    t.lexeme = .name w ↔ t.kind = .name ∧ t.text = w := by
  obtain ⟨kind, text, offset⟩ := t
  cases kind <;> simp [lexeme]

theorem lexeme_of_kind_ofWord {k : Kind} {w : String} (offset : Nat) (h : k = (Lexeme.ofWord w).kind) :
    (⟨k, w, offset⟩ : Token).lexeme = .ofWord w := by
  subst h
  by_cases hAnd : w = "AND"
  · subst hAnd; rfl
  by_cases hOr : w = "OR"
  · subst hOr; rfl
  by_cases hWith : w = "WITH"
  · subst hWith; rfl
  simp [Lexeme.ofWord, hAnd, hOr, hWith, Lexeme.kind, lexeme]

theorem classify_eq_ok_iff {w : String} {k : Kind} :
    classify w = .ok k ↔ ¬ IsMiscased w ∧ k = (Lexeme.ofWord w).kind := by
  by_cases hAnd : w = "AND"
  · subst hAnd
    have h : ¬ IsMiscased "AND" := not_isMiscased_of_mem (by decide)
    simp [classify, h, Lexeme.ofWord, Lexeme.kind, eq_comm]
  by_cases hOr : w = "OR"
  · subst hOr
    have h : ¬ IsMiscased "OR" := not_isMiscased_of_mem (by decide)
    simp [classify, h, Lexeme.ofWord, Lexeme.kind, eq_comm]
  by_cases hWith : w = "WITH"
  · subst hWith
    have h : ¬ IsMiscased "WITH" := not_isMiscased_of_mem (by decide)
    simp [classify, h, Lexeme.ofWord, Lexeme.kind, eq_comm]
  have hMiscased : IsMiscased w ↔
      sameLetters w "and" = true ∨ sameLetters w "or" = true ∨ sameLetters w "with" = true := by
    simp [IsMiscased, operatorWords, sameLetters, hAnd, hOr, hWith]
  rw [hMiscased]
  simp only [classify, if_neg hAnd, if_neg hOr, if_neg hWith, Lexeme.ofWord, Lexeme.kind]
  split
  · simp [*]
  · split
    · simp [*]
    · split <;> simp [*, eq_comm]

section
variable {offset : Nat} {cs : List Char}

theorem scan_blank {c : Char} (h : isBlank c = true) :
    scan offset (c :: cs) = scan (offset + c.utf8Size) cs := by
  rw [scan, if_pos h]

theorem scan_leftParen : scan offset ('(' :: cs) =
    (scan (offset + '('.utf8Size) cs).map (⟨.leftParen, "(", offset⟩ :: ·) := by
  rw [scan, if_neg (by decide), if_pos rfl]

theorem scan_rightParen : scan offset (')' :: cs) =
    (scan (offset + ')'.utf8Size) cs).map (⟨.rightParen, ")", offset⟩ :: ·) := by
  rw [scan, if_neg (by decide), if_neg (by decide), if_pos rfl]

/-- A run of word characters that ends before another character, or with the text, is one word. -/
theorem scan_word {c : Char} {w : List Char} (hWord : ∀ d ∈ c :: w, isWordChar d = true)
    (hEnd : ∀ d ∈ cs.head?, isWordChar d = false) {k : Kind}
    (hKind : classify (String.ofList (c :: w)) = .ok k) :
    scan offset (c :: w ++ cs) =
      (scan (offset + byteLength (c :: w)) cs).map (⟨k, String.ofList (c :: w), offset⟩ :: ·) := by
  obtain ⟨hBlank, hLeft, hRight⟩ := Spelled.isWordChar_iff.mp (hWord c List.mem_cons_self)
  have hw : ∀ d ∈ w, isWordChar d = true := fun d hd => hWord d (List.mem_cons_of_mem c hd)
  rw [List.cons_append, scan, if_neg (by simp [hBlank]), if_neg hLeft, if_neg hRight,
    Spelled.takeWhile_word hw hEnd, Spelled.dropWhile_word hw hEnd]
  simp only [hKind]

end

/-- The names among some lexemes are not operators in the wrong case. -/
def WellCased (ls : List Lexeme) : Prop := ∀ w, Lexeme.name w ∈ ls → ¬ IsMiscased w

theorem wellCased_cons {l : Lexeme} {ls : List Lexeme} :
    WellCased (l :: ls) ↔ (∀ w, l = .name w → ¬ IsMiscased w) ∧ WellCased ls := by
  simp only [WellCased, List.mem_cons, or_imp, forall_and, eq_comm]

/-- A word is in the wrong case only if it is a name. -/
theorem not_isMiscased_of_ofWord {w : String} (h : ∀ v, Lexeme.ofWord w = .name v → ¬ IsMiscased v) :
    ¬ IsMiscased w := by
  by_cases hw : w ∈ operatorWords
  · exact not_isMiscased_of_mem hw
  · exact h w (Lexeme.ofWord_of_not_operator hw)

theorem wellCased_ofWord {w : String} (h : ¬ IsMiscased w) (v : String) (hv : Lexeme.ofWord w = .name v) :
    ¬ IsMiscased v := by
  simp only [Lexeme.ofWord] at hv
  split at hv
  · cases hv
  · split at hv
    · cases hv
    · split at hv <;> cases hv
      exact h

theorem spelled_of_scan {offset : Nat} {cs : List Char} {ts : List Token} (h : scan offset cs = .ok ts) :
    Spelled cs (ts.map lexeme) ∧ WellCased (ts.map lexeme) := by
  fun_induction scan offset cs generalizing ts
  case case1 offset =>
    cases h
    exact ⟨.done, by simp [WellCased]⟩
  case case2 offset c rest hBlank ih => exact ⟨.blank hBlank (ih h).1, (ih h).2⟩
  case case3 offset rest hBlank ih =>
    obtain ⟨ts, hTs, rfl⟩ := Outcome.map_eq_ok_iff.mp h
    exact ⟨.leftParen (ih hTs).1, wellCased_cons.mpr ⟨by simp [lexeme], (ih hTs).2⟩⟩
  case case4 offset rest hBlank hLeft ih =>
    obtain ⟨ts, hTs, rfl⟩ := Outcome.map_eq_ok_iff.mp h
    exact ⟨.rightParen (ih hTs).1, wellCased_cons.mpr ⟨by simp [lexeme], (ih hTs).2⟩⟩
  case case5 => cases h
  case case6 offset c rest hBlank hLeft hRight word text kind hClassify ih =>
    obtain ⟨ts, hTs, rfl⟩ := Outcome.map_eq_ok_iff.mp h
    obtain ⟨hCased, hKind⟩ := classify_eq_ok_iff.mp hClassify
    have hLexeme := lexeme_of_kind_ofWord offset hKind
    have hc : isWordChar c = true :=
      Spelled.isWordChar_iff.mpr ⟨Bool.eq_false_iff.mpr hBlank, hLeft, hRight⟩
    rw [List.map_cons, hLexeme]
    exact ⟨.word_run hc (ih hTs).1, wellCased_cons.mpr ⟨wellCased_ofWord hCased, (ih hTs).2⟩⟩

theorem scan_of_spelled {cs : List Char} {ls : List Lexeme} (h : Spelled cs ls) (hCased : WellCased ls)
    (offset : Nat) : ∃ ts, scan offset cs = .ok ts ∧ ts.map lexeme = ls := by
  induction h generalizing offset with
  | done => exact ⟨[], by rw [scan], rfl⟩
  | blank hBlank _ ih =>
    rw [scan_blank hBlank]
    exact ih hCased _
  | leftParen _ ih =>
    obtain ⟨ts, hTs, hLexemes⟩ := ih (wellCased_cons.mp hCased).2 (offset + '('.utf8Size)
    rw [scan_leftParen, hTs]
    exact ⟨_, rfl, by rw [List.map_cons, hLexemes]; rfl⟩
  | rightParen _ ih =>
    obtain ⟨ts, hTs, hLexemes⟩ := ih (wellCased_cons.mp hCased).2 (offset + ')'.utf8Size)
    rw [scan_rightParen, hTs]
    exact ⟨_, rfl, by rw [List.map_cons, hLexemes]; rfl⟩
  | @word w cs ls hNonempty hWord hEnd _ ih =>
    obtain ⟨hHead, hRest⟩ := wellCased_cons.mp hCased
    obtain ⟨ts, hTs, hLexemes⟩ := ih hRest (offset + byteLength w)
    obtain ⟨c, w, rfl⟩ := List.exists_cons_of_ne_nil hNonempty
    have hClassify : classify (String.ofList (c :: w)) = .ok (Lexeme.ofWord (String.ofList (c :: w))).kind :=
      classify_eq_ok_iff.mpr ⟨not_isMiscased_of_ofWord hHead, rfl⟩
    rw [scan_word hWord hEnd hClassify, hTs]
    exact ⟨_, rfl, by rw [List.map_cons, lexeme_of_kind_ofWord offset rfl, hLexemes]⟩

/-- The scanner accepts the texts without miscased operators, and finds their lexemes. -/
theorem ofText_eq_ok_iff {s : String} {ls : List Lexeme} :
    (∃ ts, ofText s = .ok ts ∧ ts.map lexeme = ls) ↔ Spelled s.toList ls ∧ WellCased ls := by
  constructor
  · rintro ⟨ts, hTs, rfl⟩
    exact spelled_of_scan hTs
  · rintro ⟨h, hCased⟩
    exact scan_of_spelled h hCased 0

end Token

end PolicyLint.License
