import PolicyLint.Proofs.License.Identifiers
import PolicyLint.Proofs.Outcome
import PolicyLint.Proofs.Text.Pieces
import PolicyLint.Version.Requirement

/-!
# Blanks around version requirements

Of the blanks around a requirement only spaces are skipped. The parts of a requirement end before any blank, so
a reading goes the same way with blanks behind the text and without, up to the point where nothing but blanks
is left.
-/
namespace PolicyLint.Version
open Text Outcome
set_option autoImplicit false

theorem isSegmentChar_of_isBlank {c : Char} (h : isBlank c = true) : isSegmentChar c = false := by
  rw [Bool.eq_false_iff]
  intro hSegment
  have hId : License.isIdChar c = true := by
    rw [isSegmentChar, Bool.or_eq_true] at hSegment
    rcases hSegment with hSegment | hSegment <;> simp [License.isIdChar, hSegment]
  have hRange := License.toNat_of_isIdChar hId
  have hWord := License.isWordChar_of_toNat hRange.1 hRange.2
  simp [License.Token.isWordChar, h] at hWord

theorem isDigit_of_isBlank {c : Char} (h : isBlank c = true) : c.isDigit = false := by
  have hSegment := isSegmentChar_of_isBlank h
  rw [isSegmentChar, Char.isAlphanum, Bool.or_eq_false_iff, Bool.or_eq_false_iff] at hSegment
  exact hSegment.1.2

theorem ne_of_isBlank {c d : Char} (h : isBlank c = true) (hd : isBlank d = false) : c ≠ d := by
  rintro rfl
  exact absurd h (by simp [hd])

theorem isWildcard_of_isBlank {c : Char} (h : isBlank c = true) : isWildcard c = false := by
  simp [isWildcard, ne_of_isBlank h (d := '*') (by decide), ne_of_isBlank h (d := 'x') (by decide),
    ne_of_isBlank h (d := 'X') (by decide)]

/-- The second reading leaves `tail` more than the first one. -/
def Leaves {α : Type} (tail : List Char) (p q : α × List Char) : Prop := q = (p.1, p.2 ++ tail)

theorem segments_nil (part : Part) (segment : List Char) :
    segments part segment [] = .ok (segment, []) ∨ ∃ fault, segments part segment [] = .error fault := by
  rw [segments]
  split
  · exact .inr ⟨_, rfl⟩
  · cases checkSegment part segment with
    | error fault => exact .inr ⟨fault, rfl⟩
    | ok _ => exact .inl rfl

theorem segments_cons {c : Char} (h : isSegmentChar c = false) (part : Part) (segment cs : List Char) :
    segments part segment (c :: cs) = (segments part segment [] >>= fun _ =>
      if c = '.' then segments part [] cs >>= fun p => .ok (segment ++ '.' :: p.1, p.2)
      else .ok (segment, c :: cs)) := by
  rw [segments, segments, h, if_neg Bool.false_ne_true]
  cases segment.isEmpty with
  | true => rfl
  | false =>
    cases checkSegment part segment with
    | error fault => rfl
    | ok _ => split <;> rfl

/-- What comes behind a full version and its pre-release. -/
def buildSuffix (pre : String) (part : Part) (cs : List Char) : Except Fault (String × Part × List Char) := do
  match cs with
  | '+' :: rest => do
    let (_, rest) ← segments .build [] rest
    return (pre, .build, rest)
  | _ => return (pre, part, cs)

theorem suffixes_hyphen (rest : List Char) : suffixes ('-' :: rest) =
    segments .prerelease [] rest >>= fun p => buildSuffix (String.ofList p.1) .prerelease p.2 := rfl

theorem suffixes_of_not_hyphen {cs : List Char} (h : ∀ rest, cs ≠ '-' :: rest) :
    suffixes cs = buildSuffix "" .patch cs := by
  rw [suffixes]
  · rfl
  · exact h

theorem skipSpaces_eq_nil_iff {cs : List Char} : skipSpaces cs = [] ↔ ∀ c ∈ cs, c = ' ' := by
  rw [skipSpaces, List.dropWhile_eq_nil_iff]
  simp only [beq_iff_eq]

/-- With nothing else left, the spaces behind are skipped too. -/
theorem skipSpaces_append_of_eq_nil {cs : List Char} (h : skipSpaces cs = []) (tail : List Char) :
    skipSpaces (cs ++ tail) = skipSpaces tail := by
  rw [skipSpaces, List.dropWhile_eq_nil_iff] at h
  exact List.dropWhile_append_of_pos h

theorem skipSpaces_append_of_eq_cons {cs rest : List Char} {c : Char} (h : skipSpaces cs = c :: rest)
    (tail : List Char) : skipSpaces (cs ++ tail) = c :: (rest ++ tail) := by
  rw [skipSpaces] at h ⊢
  rw [List.dropWhile_append, h]
  rfl

theorem number_cons_of_isBlank {c : Char} (h : isBlank c = true) (part : Part) (cs : List Char) :
    number part (c :: cs) = .error (.unexpectedChar part c) := by
  rw [number, isDigit_of_isBlank h]
  rfl

theorem operatorOf_cons_of_isBlank {c : Char} (h : isBlank c = true) (cs : List Char) :
    operatorOf (c :: cs) = (none, c :: cs) := by
  rw [operatorOf]
  all_goals
    intro rest hEq
    cases hEq
    exact absurd h (by decide)

/-- What may stand behind a comparator: nothing, or a comma and as many comparators as there is room for. -/
inductive Continues : Nat → List Char → Prop
  | nil (room : Nat) : Continues room []
  | comma {room : Nat} {rest : List Char} {v : List Comparator} (h : comparators room (skipSpaces rest) = .ok v) :
    Continues (room + 1) (',' :: rest)

theorem exists_comparators_iff {room : Nat} {cs : List Char} :
    (∃ v, comparators room cs = .ok v) ↔ ∃ p, comparator cs = .ok p ∧ Continues room p.2.2 := by
  rw [comparators]
  cases comparator cs with
  | error fault =>
    dsimp only
    split <;> simp
  | ok p =>
    obtain ⟨c, last, rest⟩ := p
    constructor
    · rintro ⟨v, h⟩
      refine ⟨_, rfl, ?_⟩
      dsimp only at h ⊢
      split at h
      · exact .nil room
      · split at h
        · subst_vars
          split at h
          · cases h
          · obtain ⟨v, hMore, -⟩ := map_eq_ok_iff.mp h
            exact .comma hMore
        · cases h
    · rintro ⟨_, ⟨⟩, h⟩
      cases h with
      | nil => exact ⟨_, rfl⟩
      | comma h => exact ⟨_, map_eq_ok_iff.mpr ⟨_, h, rfl⟩⟩

/-- What a text has to be behind the spaces it starts with: a lone wildcard, or comparators. -/
def IsRequirement (cs : List Char) : Prop :=
  (∃ c rest, cs = c :: rest ∧ isWildcard c = true ∧ skipSpaces rest = []) ∨
    ∃ v, comparators (maxComparators - 1) cs = .ok v

theorem not_exists_comparators_cons {c : Char} {cs : List Char} (hOperator : operatorOf (c :: cs) = (none, c :: cs))
    (hSpace : c ≠ ' ') (hDigit : c.isDigit = false) (room : Nat) : ¬∃ v, comparators room (c :: cs) = .ok v := by
  have hSkip : skipSpaces (c :: cs) = c :: cs := List.dropWhile_cons_of_neg (by simpa using hSpace)
  rw [exists_comparators_iff]
  rintro ⟨p, hp, -⟩
  rw [comparator, hOperator] at hp
  dsimp only at hp
  rw [hSkip, number, hDigit] at hp
  cases hp

theorem exists_parse_iff {s : String} : (∃ v, parse s = .ok v) ↔ IsRequirement (skipSpaces s.toList) := by
  rw [parse, IsRequirement]
  cases skipSpaces s.toList with
  | nil => simp
  | cons c rest =>
    cases hAny : isWildcard c with
    | false => simp [hAny]
    | true =>
      have hComparators : ¬∃ v, comparators (maxComparators - 1) (c :: rest) = .ok v := by
        simp only [isWildcard, Bool.or_eq_true, beq_iff_eq] at hAny
        rcases hAny with (rfl | rfl) | rfl <;> exact not_exists_comparators_cons rfl (by decide) (by decide) _
      rw [or_iff_left hComparators]
      cases hRest : skipSpaces rest with
      | nil => exact iff_of_true ⟨[], by simp [hAny, hRest]⟩ ⟨c, rest, rfl, hAny, hRest⟩
      | cons d more =>
        by_cases hComma : d = ',' <;> simp [hAny, hRest, hComma]

section

variable {tail : List Char} (hTail : ∀ c ∈ tail, isBlank c = true)

include hTail

/-- Blanks behind a text do not make it begin with another sign. -/
theorem append_ne_cons {cs : List Char} {d : Char} (hd : isBlank d = false) (h : ∀ rest, cs ≠ d :: rest) :
    ∀ rest, cs ++ tail ≠ d :: rest := by
  intro rest hEq
  cases cs with
  | nil =>
    rw [List.nil_append] at hEq
    exact ne_of_isBlank (hTail d (hEq ▸ List.mem_cons_self)) hd rfl
  | cons c cs => exact h cs (congrArg (· :: cs) (List.cons.inj hEq).1)

theorem operatorOf_append (cs : List Char) :
    operatorOf (cs ++ tail) = ((operatorOf cs).1, (operatorOf cs).2 ++ tail) := by
  fun_cases operatorOf cs
  case case3 cs hExact =>
    rw [List.cons_append, operatorOf]
    exact append_ne_cons hTail (by decide) hExact
  case case5 cs hExact =>
    rw [List.cons_append, operatorOf]
    exact append_ne_cons hTail (by decide) hExact
  case case8 hExact _ hGreater _ hLess hTilde hCaret =>
    rw [operatorOf]
    · exact append_ne_cons hTail (by decide) hExact
    · exact fun rest => append_ne_cons hTail (by decide) hGreater ('=' :: rest)
    · exact append_ne_cons hTail (by decide) hGreater
    · exact fun rest => append_ne_cons hTail (by decide) hLess ('=' :: rest)
    · exact append_ne_cons hTail (by decide) hLess
    · exact append_ne_cons hTail (by decide) hTilde
    · exact append_ne_cons hTail (by decide) hCaret
  all_goals rfl

theorem agrees_numberFrom (part : Part) (value : Nat) (cs : List Char) :
    Agrees (Leaves tail) (numberFrom part value cs) (numberFrom part value (cs ++ tail)) := by
  induction cs generalizing value with
  | nil =>
    cases tail with
    | nil => exact .ok rfl
    | cons c tail =>
      rw [List.nil_append, numberFrom, numberFrom, isDigit_of_isBlank (hTail c List.mem_cons_self)]
      exact .ok rfl
  | cons c cs ih =>
    rw [List.cons_append, numberFrom, numberFrom]
    split
    · split
      · exact .error _ _
      · dsimp only
        split
        · exact ih _
        · exact .error _ _
    · exact .ok rfl

theorem number_of_isBlank (part : Part) : ∃ fault, number part tail = .error fault := by
  cases tail with
  | nil => exact ⟨_, rfl⟩
  | cons c tail => exact ⟨_, number_cons_of_isBlank (hTail c List.mem_cons_self) part tail⟩

theorem agrees_number (part : Part) (cs : List Char) :
    Agrees (Leaves tail) (number part cs) (number part (cs ++ tail)) := by
  cases cs with
  | nil =>
    obtain ⟨fault, hFault⟩ := number_of_isBlank hTail part
    rw [List.nil_append, hFault]
    exact .error _ _
  | cons c cs =>
    rw [List.cons_append, number, number]
    split
    · exact agrees_numberFrom hTail part _ cs
    · exact .error _ _

theorem agrees_segments (part : Part) (segment cs : List Char) :
    Agrees (Leaves tail) (segments part segment cs) (segments part segment (cs ++ tail)) := by
  induction cs generalizing segment with
  | nil =>
    cases tail with
    | nil =>
      rcases segments_nil part segment with hEnd | ⟨fault, hEnd⟩ <;> rw [List.append_nil, hEnd]
      · exact .ok rfl
      · exact .error _ _
    | cons c tail =>
      have hBlank := hTail c List.mem_cons_self
      rw [List.nil_append, segments_cons (isSegmentChar_of_isBlank hBlank), if_neg (ne_of_isBlank hBlank (by decide))]
      rcases segments_nil part segment with hEnd | ⟨fault, hEnd⟩ <;> rw [hEnd]
      · exact .ok rfl
      · exact .error _ _
  | cons c cs ih =>
    rw [List.cons_append]
    cases hChar : isSegmentChar c with
    | true =>
      rw [segments, segments, if_pos hChar, if_pos hChar]
      exact ih _
    | false =>
      rw [segments_cons hChar, segments_cons hChar]
      rcases segments_nil part segment with hEnd | ⟨fault, hEnd⟩ <;> rw [hEnd]
      · change Agrees _ (ite _ _ _) (ite _ _ _)
        split
        · exact (ih []).bind fun p q h => .ok (by rw [h]; rfl)
        · exact .ok rfl
      · exact .error _ _

theorem slot_point_blank (part : Part) (wildcardOnly : Bool) :
    ∃ fault, slot part wildcardOnly ('.' :: tail) = .error fault := by
  cases wildcardOnly with
  | true =>
    cases tail with
    | nil => exact ⟨_, rfl⟩
    | cons c tail =>
      rw [slot, isWildcard_of_isBlank (hTail c List.mem_cons_self)]
      exact ⟨_, rfl⟩
  | false =>
    cases tail with
    | nil => exact ⟨_, rfl⟩
    | cons c tail =>
      have hBlank := hTail c List.mem_cons_self
      rw [slot, isWildcard_of_isBlank hBlank, number_cons_of_isBlank hBlank]
      exact ⟨_, rfl⟩

theorem agrees_slot (part : Part) (wildcardOnly : Bool) (cs : List Char) :
    Agrees (Leaves tail) (slot part wildcardOnly cs) (slot part wildcardOnly (cs ++ tail)) := by
  fun_cases slot part wildcardOnly cs
  case case1 c rest hAny =>
    rw [List.cons_append, List.cons_append, slot, if_pos hAny]
    exact .ok rfl
  case case2 c rest hAny hOnly =>
    rw [List.cons_append, List.cons_append, slot, if_neg hAny, if_pos hOnly]
    exact .error _ _
  case case3 c rest hAny hOnly =>
    rw [List.cons_append, List.cons_append, slot, if_neg hAny, if_neg hOnly]
    apply (agrees_number hTail part (c :: rest)).map
    intro p q h
    rw [h]
    rfl
  case case4 | case5 =>
    obtain ⟨fault, hFault⟩ := slot_point_blank hTail part wildcardOnly
    rw [List.singleton_append, hFault]
    exact .error _ _
  case case6 hPoint =>
    rw [slot]
    · exact .ok rfl
    · exact append_ne_cons hTail (by decide) hPoint

theorem agrees_buildSuffix (pre : String) (part : Part) (cs : List Char) :
    Agrees (fun p q => q.1 = p.1 ∧ Leaves tail p.2 q.2) (buildSuffix pre part cs)
      (buildSuffix pre part (cs ++ tail)) := by
  fun_cases buildSuffix pre part cs
  case case1 rest =>
    apply (agrees_segments hTail .build [] rest).bind
    intro p q h
    rw [h]
    exact .ok ⟨rfl, rfl⟩
  case case2 hPlus =>
    rw [buildSuffix]
    · exact .ok ⟨rfl, rfl⟩
    · exact append_ne_cons hTail (by decide) hPlus

theorem agrees_suffixes (cs : List Char) :
    Agrees (fun p q => q.1 = p.1 ∧ Leaves tail p.2 q.2) (suffixes cs) (suffixes (cs ++ tail)) := by
  by_cases hHyphen : ∃ rest, cs = '-' :: rest
  · obtain ⟨rest, rfl⟩ := hHyphen
    rw [List.cons_append, suffixes_hyphen, suffixes_hyphen]
    apply (agrees_segments hTail .prerelease [] rest).bind
    intro p q h
    rw [h]
    exact agrees_buildSuffix hTail _ _ _
  · rw [not_exists] at hHyphen
    rw [suffixes_of_not_hyphen hHyphen, suffixes_of_not_hyphen (append_ne_cons hTail (by decide) hHyphen)]
    exact agrees_buildSuffix hTail _ _ _

theorem mem_skipSpaces_isBlank : ∀ c ∈ skipSpaces tail, isBlank c = true :=
  fun c hc => hTail c ((List.dropWhile_sublist _).subset hc)

theorem agrees_number_skipSpaces (part : Part) (cs : List Char) :
    Agrees (Leaves tail) (number part (skipSpaces cs)) (number part (skipSpaces (cs ++ tail))) := by
  cases hSkip : skipSpaces cs with
  | nil =>
    obtain ⟨fault, hFault⟩ := number_of_isBlank (mem_skipSpaces_isBlank hTail) part
    rw [skipSpaces_append_of_eq_nil hSkip, hFault]
    exact .error _ _
  | cons c rest =>
    rw [skipSpaces_append_of_eq_cons hSkip]
    exact agrees_number hTail part (c :: rest)

/-- A comparator ends before the blanks behind it; what differs is what is left behind the spaces. -/
theorem agrees_comparator (cs : List Char) :
    Agrees (fun p q => q.1 = p.1 ∧ ∃ rest, p.2.2 = skipSpaces rest ∧ q.2.2 = skipSpaces (rest ++ tail))
      (comparator cs) (comparator (cs ++ tail)) := by
  rw [comparator, comparator, operatorOf_append hTail]
  apply (agrees_number_skipSpaces hTail .major _).bind
  rintro ⟨major, rest⟩ _ rfl
  apply (agrees_slot hTail .minor false rest).bind
  rintro ⟨minor, rest⟩ _ rfl
  apply (agrees_slot hTail .patch minor.isAny rest).bind
  rintro ⟨patch, rest⟩ _ rfl
  cases patch with
  | missing => exact .ok ⟨rfl, rest, rfl, rfl⟩
  | any => exact .ok ⟨rfl, rest, rfl, rfl⟩
  | is n =>
    apply (agrees_suffixes hTail rest).bind
    rintro ⟨pre, last, rest⟩ q ⟨hPre, hRest⟩
    obtain rfl : q = (pre, last, rest ++ tail) := Prod.ext hPre hRest
    exact .ok ⟨rfl, rest, rfl, rfl⟩

theorem comparator_of_isBlank : ∃ fault, comparator tail = .error fault :=
  (agrees_comparator hTail []).exists_error rfl

/-- What fails on blanks and takes or refuses the blanks behind a text does so behind the spaces before it. -/
theorem skipSpaces_append_iff {P : List Char → Prop} {Q : Prop}
    (hBlank : ∀ cs, (∀ c ∈ cs, isBlank c = true) → ¬P cs) (h : ∀ cs, P (cs ++ tail) ↔ P cs ∧ Q)
    (cs : List Char) : P (skipSpaces (cs ++ tail)) ↔ P (skipSpaces cs) ∧ Q := by
  cases hSkip : skipSpaces cs with
  | nil =>
    rw [skipSpaces_append_of_eq_nil hSkip]
    have hNil : ¬P [] := hBlank [] (by simp)
    simp [hNil, hBlank _ (mem_skipSpaces_isBlank hTail)]
  | cons c rest => rw [skipSpaces_append_of_eq_cons hSkip, ← h, List.cons_append]

theorem not_exists_comparators_of_isBlank (room : Nat) :
    ¬∃ v, comparators room tail = .ok v := by
  rw [exists_comparators_iff]
  rintro ⟨p, hp, -⟩
  obtain ⟨fault, hFault⟩ := comparator_of_isBlank hTail
  cases hFault.symm.trans hp

/-- Blanks behind comparators are skipped if they are spaces, and refused otherwise. -/
theorem exists_comparators_append_iff (room : Nat) (cs : List Char) : (∃ v, comparators room (cs ++ tail) = .ok v) ↔
    (∃ v, comparators room cs = .ok v) ∧ ∀ c ∈ tail, c = ' ' := by
  induction room using Nat.strongRecOn generalizing cs with
  | ind room ih =>
    rw [exists_comparators_iff, exists_comparators_iff, ← exists_and_right]
    simp only [and_assoc]
    symm
    apply (agrees_comparator hTail cs).exists_ok_iff
    rintro ⟨c, last, _⟩ ⟨c', last', _⟩ ⟨-, rest, rfl, rfl⟩
    change Continues room (skipSpaces rest) ∧ _ ↔ Continues room (skipSpaces (rest ++ tail))
    cases hSkip : skipSpaces rest with
    | nil =>
      rw [skipSpaces_append_of_eq_nil hSkip, ← skipSpaces_eq_nil_iff]
      constructor
      · rintro ⟨-, hEnd⟩
        rw [hEnd]
        exact .nil room
      · intro h
        refine ⟨.nil room, ?_⟩
        cases hEnd : skipSpaces tail with
        | nil => rfl
        | cons d more =>
          rw [hEnd] at h
          cases h
          exact absurd (mem_skipSpaces_isBlank hTail ',' (hEnd ▸ List.mem_cons_self)) (by decide)
    | cons d more =>
      -- Behind a comma there is less room, and the comparators there begin behind the spaces.
      have hStep : ∀ room' < room, (∃ v, comparators room' (skipSpaces (more ++ tail)) = .ok v) ↔
          (∃ v, comparators room' (skipSpaces more) = .ok v) ∧ ∀ c ∈ tail, c = ' ' := fun room' hRoom =>
        skipSpaces_append_iff hTail (fun _ hCs => not_exists_comparators_of_isBlank hCs room') (ih room' hRoom) more
      rw [skipSpaces_append_of_eq_cons hSkip]
      constructor
      · rintro ⟨h, hSpaces⟩
        cases h with
        | comma h =>
          obtain ⟨v, h⟩ := (hStep _ (Nat.lt_succ_self _)).mpr ⟨⟨_, h⟩, hSpaces⟩
          exact .comma h
      · intro h
        cases h with
        | comma h =>
          obtain ⟨⟨v, h⟩, hSpaces⟩ := (hStep _ (Nat.lt_succ_self _)).mp ⟨_, h⟩
          exact ⟨.comma h, hSpaces⟩

theorem not_isRequirement_of_isBlank : ¬IsRequirement tail := by
  rintro (⟨c, rest, rfl, hAny, -⟩ | h)
  · rw [isWildcard_of_isBlank (hTail c List.mem_cons_self)] at hAny
    cases hAny
  · exact not_exists_comparators_of_isBlank hTail _ h

theorem isRequirement_append_iff (cs : List Char) :
    IsRequirement (cs ++ tail) ↔ IsRequirement cs ∧ ∀ c ∈ tail, c = ' ' := by
  rw [IsRequirement, IsRequirement, or_and_right, exists_comparators_append_iff hTail]
  apply or_congr_left
  cases cs with
  | nil =>
    constructor
    · rintro ⟨c, rest, rfl, hAny, -⟩
      rw [isWildcard_of_isBlank (hTail c List.mem_cons_self)] at hAny
      cases hAny
    · rintro ⟨⟨c, rest, ⟨⟩, -⟩, -⟩
  | cons c cs => simp [skipSpaces_eq_nil_iff, List.mem_append, or_imp, forall_and, and_assoc]

end

/-- A text that starts with a blank but no space is no requirement. -/
theorem not_isRequirement_cons {c : Char} (hBlank : isBlank c = true) (hSpace : c ≠ ' ') (cs : List Char) :
    ¬IsRequirement (c :: cs) := by
  rintro (⟨_, _, ⟨⟩, hAny, -⟩ | h)
  · rw [isWildcard_of_isBlank hBlank] at hAny
    cases hAny
  · exact not_exists_comparators_cons (operatorOf_cons_of_isBlank hBlank cs) hSpace (isDigit_of_isBlank hBlank) _ h

theorem skipSpaces_trimChars (cs : List Char) : skipSpaces (trimChars cs) = trimChars cs := by
  cases hTrim : trimChars cs with
  | nil => rfl
  | cons c rest =>
    have hSpace : c ≠ ' ' := (ne_of_isBlank (by decide) (isBlank_head_trimChars hTrim)).symm
    exact List.dropWhile_cons_of_neg (by simpa using hSpace)

/-- A text is a requirement if it is one without the blanks around it, and these are spaces. -/
theorem exists_parse_iff_trim (s : String) : (∃ v, parse s = .ok v) ↔ (∃ v, parse (trim s) = .ok v) ∧
    ∃ n k, s.toList = List.replicate n ' ' ++ trimChars s.toList ++ List.replicate k ' ' := by
  rw [exists_parse_iff, exists_parse_iff, trim, String.toList_ofList, skipSpaces_trimChars]
  generalize s.toList = cs
  constructor
  · intro h
    obtain ⟨front, back, hParts, hFront, hBack⟩ := exists_eq_trimChars cs
    cases hSkip : skipSpaces front with
    | cons c more =>
      -- Behind the spaces comes another blank, and that begins no requirement.
      have hBlank : isBlank c = true := mem_skipSpaces_isBlank hFront c (hSkip ▸ List.mem_cons_self)
      have hSpace : c ≠ ' ' := by
        have hHead := List.head?_dropWhile_not (· == ' ') front
        rw [skipSpaces] at hSkip
        rw [hSkip] at hHead
        simpa using hHead
      rw [hParts, List.append_assoc, skipSpaces_append_of_eq_cons hSkip] at h
      exact absurd h (not_isRequirement_cons hBlank hSpace _)
    | nil =>
      rw [hParts, List.append_assoc, skipSpaces_append_of_eq_nil hSkip,
        skipSpaces_append_iff hBack (fun _ => not_isRequirement_of_isBlank) (isRequirement_append_iff hBack),
        skipSpaces_trimChars] at h
      refine ⟨h.1, front.length, back.length, ?_⟩
      rw [← List.eq_replicate_of_mem (skipSpaces_eq_nil_iff.mp hSkip), ← List.eq_replicate_of_mem h.2, ← hParts]
  · rintro ⟨h, n, k, hParts⟩
    have hFront : skipSpaces (List.replicate n ' ') = [] :=
      skipSpaces_eq_nil_iff.mpr fun c hc => List.eq_of_mem_replicate hc
    have hBack : ∀ c ∈ List.replicate k ' ', isBlank c = true := fun c hc => by
      rw [List.eq_of_mem_replicate hc]
      decide
    rw [hParts, List.append_assoc, skipSpaces_append_of_eq_nil hFront,
      skipSpaces_append_iff hBack (fun _ => not_isRequirement_of_isBlank) (isRequirement_append_iff hBack),
      skipSpaces_trimChars]
    exact ⟨h, fun c hc => List.eq_of_mem_replicate hc⟩

end PolicyLint.Version
