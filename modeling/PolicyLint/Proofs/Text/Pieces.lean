import Mathlib.Data.List.TakeWhile
import PolicyLint.Text.Blank
import PolicyLint.Text.Split

/-!
# Trimmed texts and their pieces

A text is blank if trimming leaves nothing of it. The pieces of a text are the runs without a separator
that have a separator or an end of the text on both sides.
-/
namespace PolicyLint.Text
set_option autoImplicit false

theorem trimChars_eq_nil_iff {cs : List Char} : trimChars cs = [] ↔ ∀ c ∈ cs, isBlank c = true := by
  rw [trimChars, List.reverse_eq_nil_iff, List.dropWhile_eq_nil_iff]
  constructor
  · intro h c hc
    rw [← List.takeWhile_append_dropWhile (p := isBlank) (l := cs)] at hc
    rcases List.mem_append.mp hc with hc | hc
    · exact (List.mem_takeWhile_imp hc)
    · exact h c (List.mem_reverse.mpr hc)
  · intro h c hc
    exact h c ((List.dropWhile_sublist _).subset (List.mem_reverse.mp hc))

theorem isAllBlank_iff {s : String} : isAllBlank s = true ↔ trim s = "" := by
  rw [isAllBlank, List.all_eq_true, trim, String.ofList_eq_empty_iff, trimChars_eq_nil_iff]

/-- What trimming takes off a text is blank. -/
theorem exists_eq_trimChars (cs : List Char) : ∃ front back, cs = front ++ trimChars cs ++ back ∧
    (∀ c ∈ front, isBlank c = true) ∧ ∀ c ∈ back, isBlank c = true := by
  refine ⟨cs.takeWhile isBlank, ((cs.dropWhile isBlank).reverse.takeWhile isBlank).reverse, ?_,
    fun c hc => List.mem_takeWhile_imp hc, fun c hc => List.mem_takeWhile_imp (List.mem_reverse.mp hc)⟩
  rw [List.append_assoc, trimChars, ← List.reverse_append, List.takeWhile_append_dropWhile, List.reverse_reverse,
    List.takeWhile_append_dropWhile]

theorem isBlank_head_trimChars {cs rest : List Char} {c : Char} (h : trimChars cs = c :: rest) :
    isBlank c = false := by
  have hDropped : cs.dropWhile isBlank =
      trimChars cs ++ ((cs.dropWhile isBlank).reverse.takeWhile isBlank).reverse := by
    rw [trimChars, ← List.reverse_append, List.takeWhile_append_dropWhile, List.reverse_reverse]
  have hHead := List.head?_dropWhile_not isBlank cs
  rw [hDropped, h] at hHead
  exact hHead

theorem dropWhile_isBlank_append {front inner : List Char} (h : ∀ c ∈ inner.head?, isBlank c = false) :
    (front ++ inner).dropWhile isBlank = front.dropWhile isBlank ++ inner := by
  rw [List.dropWhile_append]
  split
  · rename_i hBlank
    rw [List.isEmpty_iff.mp hBlank, List.nil_append]
    cases inner with
    | nil => rfl
    | cons c rest => rw [List.dropWhile_cons, h c rfl, if_neg Bool.false_ne_true]
  · rfl

/-- Trimming works on both sides of a part without blanks and leaves the part itself alone. -/
theorem trimChars_append_append {inner : List Char} (front back : List Char) (hSome : inner ≠ [])
    (hInk : ∀ c ∈ inner, isBlank c = false) : trimChars (front ++ inner ++ back) =
      front.dropWhile isBlank ++ inner ++ (back.reverse.dropWhile isBlank).reverse := by
  have hFirst : ∀ c ∈ (inner ++ back).head?, isBlank c = false := by
    intro c hc
    rw [List.head?_append, List.head?_eq_some_head hSome, Option.some_or] at hc
    cases hc
    exact hInk _ (List.head_mem hSome)
  have hLast : ∀ c ∈ (inner.reverse ++ (front.dropWhile isBlank).reverse).head?, isBlank c = false := by
    intro c hc
    rw [List.head?_append, List.head?_reverse, List.getLast?_eq_some_getLast hSome, Option.some_or] at hc
    cases hc
    exact hInk _ (List.getLast_mem hSome)
  rw [trimChars, List.append_assoc, dropWhile_isBlank_append hFirst, List.reverse_append, List.reverse_append,
    List.append_assoc, dropWhile_isBlank_append hLast, List.reverse_append, List.reverse_append,
    List.reverse_reverse, List.reverse_reverse]

variable {p : Char → Bool}

/-- Nothing stands before a piece, or a separator does. -/
def EndsApart (p : Char → Bool) (front : List Char) : Prop := ∀ c ∈ front.getLast?, p c = true

/-- Nothing stands behind a piece, or a separator does. -/
def StartsApart (p : Char → Bool) (back : List Char) : Prop := ∀ c ∈ back.head?, p c = true

theorem eq_takeWhile_iff {piece cs : List Char} : piece = cs.takeWhile (fun c => !p c) ↔
    (∀ c ∈ piece, p c = false) ∧ ∃ back, StartsApart p back ∧ cs = piece ++ back := by
  constructor
  · rintro rfl
    refine ⟨fun c hc => ?_, cs.dropWhile fun c => !p c, fun c hc => ?_, List.takeWhile_append_dropWhile.symm⟩
    · simpa using List.mem_takeWhile_imp hc
    · have hHead := List.head?_dropWhile_not (fun c => !p c) cs
      rw [Option.mem_def.mp hc] at hHead
      simpa using hHead
  · rintro ⟨hClean, back, hBack, rfl⟩
    have hFront : ∀ c ∈ piece, (!p c) = true := fun c hc => by simp [hClean c hc]
    rw [List.takeWhile_append_of_pos hFront]
    cases back with
    | nil => simp
    | cons c back => simp [hBack c rfl]

/-- The first piece reaches to the first separator; the others come behind one. -/
theorem exists_splitAt_eq (cs : List Char) :
    ∃ pieces, splitAt p cs = cs.takeWhile (fun c => !p c) :: pieces ∧ ∀ piece, piece ∈ pieces ↔
      (∀ c ∈ piece, p c = false) ∧ ∃ front c back, p c = true ∧ StartsApart p back ∧
        cs = front ++ c :: (piece ++ back) := by
  induction cs with
  | nil => exact ⟨[], rfl, by simp⟩
  | cons d cs ih =>
    obtain ⟨pieces, hSplit, hPieces⟩ := ih
    cases hd : p d with
    | true =>
      refine ⟨cs.takeWhile (fun c => !p c) :: pieces, by simp [splitAt, hd, hSplit], fun piece => ?_⟩
      rw [List.mem_cons, eq_takeWhile_iff, hPieces, ← and_or_left]
      apply and_congr_right
      intro _
      constructor
      · rintro (⟨back, hBack, rfl⟩ | ⟨front, c, back, hc, hBack, rfl⟩)
        · exact ⟨[], d, back, hd, hBack, rfl⟩
        · exact ⟨d :: front, c, back, hc, hBack, rfl⟩
      · rintro ⟨front, c, back, hc, hBack, hEq⟩
        cases front with
        | nil =>
          obtain ⟨rfl, rfl⟩ := List.cons.inj hEq
          exact .inl ⟨back, hBack, rfl⟩
        | cons e front =>
          obtain ⟨rfl, rfl⟩ := List.cons.inj hEq
          exact .inr ⟨front, c, back, hc, hBack, rfl⟩
    | false =>
      refine ⟨pieces, by simp [splitAt, hd, hSplit], fun piece => ?_⟩
      rw [hPieces]
      apply and_congr_right
      intro _
      constructor
      · rintro ⟨front, c, back, hc, hBack, rfl⟩
        exact ⟨d :: front, c, back, hc, hBack, rfl⟩
      · rintro ⟨front, c, back, hc, hBack, hEq⟩
        cases front with
        | nil =>
          obtain ⟨rfl, -⟩ := List.cons.inj hEq
          rw [hd] at hc
          cases hc
        | cons e front =>
          obtain ⟨rfl, rfl⟩ := List.cons.inj hEq
          exact ⟨front, c, back, hc, hBack, rfl⟩

theorem mem_splitAt_iff {piece cs : List Char} : piece ∈ splitAt p cs ↔ (∀ c ∈ piece, p c = false) ∧
    ∃ front back, EndsApart p front ∧ StartsApart p back ∧ cs = front ++ piece ++ back := by
  obtain ⟨pieces, hSplit, hPieces⟩ := exists_splitAt_eq (p := p) cs
  rw [hSplit, List.mem_cons, eq_takeWhile_iff, hPieces, ← and_or_left]
  apply and_congr_right
  intro _
  constructor
  · rintro (⟨back, hBack, rfl⟩ | ⟨front, c, back, hc, hBack, rfl⟩)
    · exact ⟨[], back, fun _ h => (by cases h), hBack, rfl⟩
    · refine ⟨front ++ [c], back, fun d hd => ?_, hBack, by simp⟩
      rw [List.getLast?_concat] at hd
      cases hd
      exact hc
  · rintro ⟨front, back, hFront, hBack, rfl⟩
    rcases List.eq_nil_or_concat front with rfl | ⟨front, c, rfl⟩
    · exact .inl ⟨back, hBack, rfl⟩
    · rw [List.concat_eq_append] at hFront
      exact .inr ⟨front, c, back, hFront c List.getLast?_concat, hBack, by simp⟩

theorem EndsApart.dropWhile {front : List Char} (q : Char → Bool) (h : EndsApart p front) :
    EndsApart p (front.dropWhile q) := by
  obtain ⟨dropped, hParts⟩ := front.dropWhile_suffix q
  intro c hc
  apply h c
  rw [← hParts, List.getLast?_append, Option.mem_def.mp hc]
  rfl

theorem startsApart_reverse_iff {cs : List Char} : StartsApart p cs.reverse ↔ EndsApart p cs := by
  rw [StartsApart, EndsApart, List.head?_reverse]

/-- Trimming a text leaves each of its pieces alone that holds something and no blank. -/
theorem mem_splitAt_trimChars {piece cs : List Char} (hSome : piece ≠ [])
    (hInk : ∀ c ∈ piece, isBlank c = false) (h : piece ∈ splitAt p cs) : piece ∈ splitAt p (trimChars cs) := by
  obtain ⟨hClean, front, back, hFront, hBack, rfl⟩ := mem_splitAt_iff.mp h
  rw [← back.reverse_reverse, startsApart_reverse_iff] at hBack
  exact mem_splitAt_iff.mpr ⟨hClean, _, _, hFront.dropWhile isBlank,
    startsApart_reverse_iff.mpr (hBack.dropWhile isBlank), trimChars_append_append front back hSome hInk⟩

variable {c : Char} {piece cs : List Char}

theorem cutAt_append_cons (hClean : ∀ d ∈ piece, p d = false) (hc : p c = true) :
    cutAt p (piece ++ c :: cs) = some (piece, cs) := by
  induction piece with
  | nil => rw [List.nil_append, cutAt, if_pos hc]
  | cons d piece ih =>
    rw [List.forall_mem_cons] at hClean
    rw [List.cons_append, cutAt, hClean.1, ih hClean.2]
    rfl

theorem cutAt_eq_none (hClean : ∀ d ∈ cs, p d = false) : cutAt p cs = none := by
  induction cs with
  | nil => rfl
  | cons d cs ih =>
    rw [List.forall_mem_cons] at hClean
    rw [cutAt, hClean.1, ih hClean.2]
    rfl

theorem splitAt_eq_singleton (hClean : ∀ d ∈ piece, p d = false) : splitAt p piece = [piece] := by
  induction piece with
  | nil => rfl
  | cons d piece ih =>
    rw [List.forall_mem_cons] at hClean
    rw [splitAt, hClean.1, ih hClean.2]
    rfl

theorem splitAt_append_cons (hClean : ∀ d ∈ piece, p d = false) (hc : p c = true) :
    splitAt p (piece ++ c :: cs) = piece :: splitAt p cs := by
  induction piece with
  | nil => rw [List.nil_append, splitAt, if_pos hc]
  | cons d piece ih =>
    rw [List.forall_mem_cons] at hClean
    rw [List.cons_append, splitAt, hClean.1, ih hClean.2]
    rfl

/-- Pieces without the separator are found again between separators. -/
theorem splitAt_intercalate {pieces : List (List Char)} (hSome : pieces ≠ [])
    (hClean : ∀ piece ∈ pieces, ∀ d ∈ piece, p d = false) (hc : p c = true) :
    splitAt p ([c].intercalate pieces) = pieces := by
  induction pieces with
  | nil => exact absurd rfl hSome
  | cons piece pieces ih =>
    rw [List.forall_mem_cons] at hClean
    cases pieces with
    | nil => rw [List.intercalate_singleton, splitAt_eq_singleton hClean.1]
    | cons next pieces =>
      rw [List.intercalate_cons_cons, List.append_assoc, List.singleton_append,
        splitAt_append_cons hClean.1 hc, ih (List.cons_ne_nil _ _) hClean.2]

end PolicyLint.Text
