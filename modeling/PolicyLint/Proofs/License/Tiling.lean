import PolicyLint.Proofs.License.Tokens

/-!
# How tokens tile a text

A run is a longest stretch of characters that are neither blank nor parenthesis. Tokens are runs and single
parentheses, do not overlap, and leave out nothing but blanks. So every run of a text is one of its tokens, and the
scanner fails exactly at the first run that is an operator in the wrong case.
-/
namespace PolicyLint.License
open Text Token
set_option autoImplicit false

/-- Between these neighbours the word cannot be extended. -/
structure IsRun (front w back : List Char) : Prop where
  nonempty : w ≠ []
  word : ∀ c ∈ w, isWordChar c = true
  before : ∀ c ∈ front.getLast?, isWordChar c = false
  after : ∀ c ∈ back.head?, isWordChar c = false

def RunAt (cs : List Char) (offset : Nat) (w : String) : Prop :=
  ∃ front back, cs = front ++ w.toList ++ back ∧ byteLength front = offset ∧ IsRun front w.toList back

/-- The word is the operator but for the case of its letters. -/
def Miscases (w op : String) : Prop :=
  op ∈ operatorWords ∧ w ≠ op ∧ w.toList.map Char.toLower = op.toList.map Char.toLower

theorem isMiscased_iff {w : String} : IsMiscased w ↔ ∃ op, Miscases w op := by
  rw [IsMiscased]
  exact exists_congr fun op => Iff.rfl

theorem Token.miscases_of_classify {w : String} {cause : Cause} (h : classify w = .error cause) :
    ∃ op, Miscases w op ∧ cause = .lowercaseOperator w op := by
  have hLetters : ∀ {lower : String}, sameLetters w lower = true → w.toList.map Char.toLower = lower.toList :=
    fun hSame => by simpa [sameLetters] using hSame
  unfold classify at h
  split_ifs at h with hAnd hOr hWith hSame hSame hSame
  all_goals cases h
  · exact ⟨"AND", ⟨by decide, hAnd, (hLetters hSame).trans (by decide)⟩, rfl⟩
  · exact ⟨"OR", ⟨by decide, hOr, (hLetters hSame).trans (by decide)⟩, rfl⟩
  · exact ⟨"WITH", ⟨by decide, hWith, (hLetters hSame).trans (by decide)⟩, rfl⟩

namespace RunAt
variable {cs front : List Char} {c : Char} {offset offset' : Nat} {w w' : String}

theorem standsAt (h : RunAt cs offset w) : StandsAt cs offset w := by
  obtain ⟨front, back, rfl, hOffset, -⟩ := h
  exact ⟨front, List.prefix_append _ back, hOffset⟩

/-- A run does not start at a character that is no part of a word. -/
theorem later (h : RunAt (front ++ c :: cs) offset w) (hc : isWordChar c = false)
    (hLe : byteLength front ≤ offset) : byteLength (front ++ [c]) ≤ offset := by
  obtain ⟨before, back, hParts, rfl, hRun⟩ := h
  obtain ⟨d, word, hWord⟩ := List.exists_cons_of_ne_nil hRun.nonempty
  rw [hWord, List.append_assoc, List.cons_append] at hParts
  rcases eq_or_later hParts hLe with ⟨-, rfl⟩ | hLater
  · have hFirst : isWordChar c = true := hRun.word c (by simp [hWord])
    rw [hc] at hFirst
    cases hFirst
  · exact hLater

theorem eq_or_apart (h : RunAt cs offset w) (h' : RunAt cs offset' w') (hLe : offset ≤ offset') :
    (offset = offset' ∧ w = w') ∨ offset + byteLength w.toList ≤ offset' := by
  obtain ⟨front, back, rfl, rfl, hRun⟩ := h
  obtain ⟨front', back', hParts, rfl, hRun'⟩ := h'
  have hFirst : front <+: front ++ w.toList ++ back := by
    rw [List.append_assoc]
    exact List.prefix_append front _
  have hSecond : front' <+: front ++ w.toList ++ back := by
    rw [hParts, List.append_assoc]
    exact List.prefix_append front' _
  obtain ⟨middle, rfl⟩ := prefix_of_byteLength_le hFirst hSecond hLe
  simp only [List.append_assoc, List.append_cancel_left_eq] at hParts
  rw [byteLength_append]
  rcases List.append_eq_append_iff.mp hParts with ⟨more, hMiddle, -⟩ | ⟨more, hWord, hBack⟩
  · right
    rw [hMiddle, byteLength_append]
    omega
  · rcases List.eq_nil_or_concat middle with rfl | ⟨inner, d, rfl⟩
    · left
      refine ⟨by simp, String.toList_injective ?_⟩
      rw [List.nil_append] at hParts
      rw [← Spelled.takeWhile_word hRun.word hRun.after, hParts,
        Spelled.takeWhile_word hRun'.word hRun'.after]
    · -- The second run would start behind a character of the first.
      have hInside : isWordChar d = true := hRun.word d (by simp [hWord])
      have hOutside : isWordChar d = false := hRun'.before d (by simp [List.getLast?_append])
      rw [hInside] at hOutside
      cases hOutside

end RunAt

namespace Token

def stop (t : Token) : Nat := t.offset + byteLength t.text.toList

/-- One parenthesis, or a run that is no miscased operator; the kind says which. -/
def IsTile (t : Token) (cs : List Char) : Prop :=
  (t.kind = .leftParen ∧ t.text = "(" ∧ StandsAt cs t.offset "(") ∨
  (t.kind = .rightParen ∧ t.text = ")" ∧ StandsAt cs t.offset ")") ∨
  (t.kind = (Lexeme.ofWord t.text).kind ∧ ¬ IsMiscased t.text ∧ RunAt cs t.offset t.text)

theorem IsTile.standsAt {t : Token} {cs : List Char} (h : t.IsTile cs) : StandsAt cs t.offset t.text := by
  rcases h with ⟨-, hText, h⟩ | ⟨-, hText, h⟩ | ⟨-, -, h⟩
  · rwa [hText]
  · rwa [hText]
  · exact h.standsAt

/-- A tile that covers a character of a word is a run. -/
theorem IsTile.runAt {t : Token} {front cs : List Char} {c : Char} (h : t.IsTile (front ++ c :: cs))
    (hc : isWordChar c = true) (hStart : t.offset ≤ byteLength front) (hEnd : byteLength front < t.stop) :
    ¬ IsMiscased t.text ∧ RunAt (front ++ c :: cs) t.offset t.text := by
  have hParen : ∀ d, t.text.toList = [d] → StandsAt (front ++ c :: cs) t.offset t.text → c = d := by
    rintro d hText ⟨before, ⟨back, hParts⟩, hOffset⟩
    rw [hText, List.append_assoc] at hParts
    rw [stop, ← hOffset, ← byteLength_append, hText] at hEnd
    rcases eq_or_later hParts (hOffset ▸ hStart) with ⟨-, rfl⟩ | hLater
    · rfl
    · exact absurd hEnd (Nat.not_lt.mpr hLater)
  rcases id h with ⟨-, hText, -⟩ | ⟨-, hText, -⟩ | ⟨-, hCased, hRun⟩
  · obtain rfl := hParen '(' (by rw [hText]; rfl) h.standsAt
    exact absurd hc (by decide)
  · obtain rfl := hParen ')' (by rw [hText]; rfl) h.standsAt
    exact absurd hc (by decide)
  · exact ⟨hCased, hRun⟩

end Token

/-- From byte `start` on, the text is made of these tokens and of blanks. -/
structure Tiles (cs : List Char) (start : Nat) (ts : List Token) : Prop where
  tile : ∀ t ∈ ts, t.IsTile cs
  apart : ts.Pairwise fun t u => t.stop ≤ u.offset
  covers : ∀ front c back, cs = front ++ c :: back → start ≤ byteLength front → isBlank c = false →
    ∃ t ∈ ts, t.offset ≤ byteLength front ∧ byteLength front < t.stop

namespace Tiles
variable {cs front : List Char} {start : Nat} {ts : List Token}

theorem nil : Tiles cs (byteLength cs) [] := by
  refine ⟨by simp, .nil, ?_⟩
  rintro front c back rfl hLe -
  have hSize := c.utf8Size_pos
  simp only [byteLength_append, byteLength_cons] at hLe
  omega

theorem blank {c : Char} (hBlank : isBlank c = true)
    (h : Tiles (front ++ [c] ++ cs) (byteLength front + c.utf8Size) ts) :
    Tiles (front ++ c :: cs) (byteLength front) ts := by
  rw [List.append_assoc, List.singleton_append, ← byteLength_concat] at h
  refine ⟨h.tile, h.apart, ?_⟩
  intro before d back hParts hLe hInk
  rcases eq_or_later hParts hLe with ⟨-, rfl⟩ | hLater
  · rw [hBlank] at hInk
    cases hInk
  · exact h.covers before d back hParts hLater hInk

/-- What starts before the end of the first token is covered by it. -/
theorem cons {t : Token} {finish : Nat} (hTile : t.IsTile cs) (hStop : t.stop = finish) (h : Tiles cs finish ts)
    (hBehind : ∀ u ∈ ts, finish ≤ u.offset) : Tiles cs t.offset (t :: ts) := by
  subst hStop
  refine ⟨List.forall_mem_cons.mpr ⟨hTile, h.tile⟩, .cons hBehind h.apart, ?_⟩
  intro before d back hParts hLe hInk
  by_cases hEnd : byteLength before < t.stop
  · exact ⟨t, List.mem_cons_self, hLe, hEnd⟩
  · obtain ⟨u, hu, hCovers⟩ := h.covers before d back hParts (Nat.le_of_not_lt hEnd) hInk
    exact ⟨u, List.mem_cons_of_mem t hu, hCovers⟩

theorem paren {c : Char} {kind : Kind} {text : String} (hText : text.toList = [c])
    (hTile : IsTile ⟨kind, text, byteLength front⟩ (front ++ c :: cs))
    (h : Tiles (front ++ [c] ++ cs) (byteLength front + c.utf8Size) ts)
    (hBehind : ∀ u ∈ ts, byteLength front + c.utf8Size ≤ u.offset) :
    Tiles (front ++ c :: cs) (byteLength front) (⟨kind, text, byteLength front⟩ :: ts) := by
  rw [List.append_assoc, List.singleton_append] at h
  have hStop : stop ⟨kind, text, byteLength front⟩ = byteLength front + c.utf8Size := by
    rw [stop, hText]
    rfl
  exact .cons hTile hStop h hBehind

/-- Every run behind `start` is one of the tokens. -/
theorem exists_of_runAt {offset : Nat} {w : String} (h : Tiles cs start ts) (hRun : RunAt cs offset w)
    (hLe : start ≤ offset) : ∃ t ∈ ts, t.offset = offset ∧ t.text = w ∧ ¬ IsMiscased w := by
  obtain ⟨front, back, hParts, rfl, hLongest⟩ := id hRun
  obtain ⟨c, word, hWord⟩ := List.exists_cons_of_ne_nil hLongest.nonempty
  have hc : isWordChar c = true := hLongest.word c (by simp [hWord])
  rw [hWord, List.append_assoc, List.cons_append] at hParts
  obtain ⟨t, ht, hStart, hEnd⟩ := h.covers front c _ hParts hLe (Spelled.isWordChar_iff.mp hc).1
  obtain ⟨hCased, hToken⟩ := IsTile.runAt (hParts ▸ h.tile t ht) hc hStart hEnd
  rw [← hParts] at hToken
  rcases hToken.eq_or_apart hRun hStart with ⟨hOffset, rfl⟩ | hApart
  · exact ⟨t, ht, hOffset, rfl, hCased⟩
  · exact absurd hEnd (Nat.not_lt.mpr hApart)

end Tiles

/-- The fault names the first run from byte `start` on that is a miscased operator. -/
structure IsFirstMiscased (cs : List Char) (start : Nat) (f : Fault) : Prop where
  names : ∃ w op, f.cause = .lowercaseOperator w op ∧ Miscases w op ∧ RunAt cs f.offset w
  first : ∀ offset w, start ≤ offset → RunAt cs offset w → IsMiscased w → f.offset ≤ offset

namespace IsFirstMiscased
variable {cs front : List Char} {f : Fault}

theorem of_concat {c : Char} (hc : isWordChar c = false)
    (h : IsFirstMiscased (front ++ [c] ++ cs) (byteLength front + c.utf8Size) f) :
    IsFirstMiscased (front ++ c :: cs) (byteLength front) f := by
  rw [List.append_assoc, List.singleton_append, ← byteLength_concat] at h
  refine ⟨h.names, fun offset w hLe hRun hMiscased => ?_⟩
  exact h.first offset w (hRun.later hc hLe) hRun hMiscased

theorem of_run {start finish : Nat} {w : String} (hRun : RunAt cs start w) (hCased : ¬ IsMiscased w)
    (hStop : start + byteLength w.toList = finish) (h : IsFirstMiscased cs finish f) :
    IsFirstMiscased cs start f := by
  refine ⟨h.names, fun offset v hLe hOther hMiscased => ?_⟩
  rcases hRun.eq_or_apart hOther hLe with ⟨-, rfl⟩ | hApart
  · exact absurd hMiscased hCased
  · exact h.first offset v (hStop ▸ hApart) hOther hMiscased

end IsFirstMiscased

/-- No word goes on from `front` into `cs`. -/
def IsCut (front cs : List Char) : Prop :=
  ∀ c ∈ front.getLast?, ∀ d ∈ cs.head?, isWordChar d = true → isWordChar c = false

section
variable {front cs : List Char} {c : Char} {offset : Nat} {ts : List Token} {f : Fault}

theorem isCut_concat (hc : isWordChar c = false) : IsCut (front ++ [c]) cs := by
  intro d hd _ _ _
  rw [List.getLast?_concat] at hd
  cases hd
  exact hc

theorem isCut_dropWhile : IsCut front (cs.dropWhile isWordChar) := by
  intro _ _ d hd hWord
  have hOther : isWordChar d = false := by
    simpa [Option.mem_def.mp hd] using List.head?_dropWhile_not isWordChar cs
  rw [hWord] at hOther
  cases hOther

/-- What the scanner takes for a word is a run. -/
theorem runAt_of_isCut (hCut : IsCut front (c :: cs)) (hc : isWordChar c = true) :
    RunAt (front ++ c :: cs) (byteLength front) (String.ofList (c :: cs.takeWhile isWordChar)) := by
  refine ⟨front, cs.dropWhile isWordChar, ?_, rfl, ?_⟩
  · rw [String.toList_ofList, List.append_assoc, word_append_dropWhile]
  rw [String.toList_ofList]
  refine ⟨List.cons_ne_nil _ _, ?_, fun d hd => hCut d hd c rfl hc, ?_⟩
  · intro d hd
    rcases List.mem_cons.mp hd with rfl | hd
    · exact hc
    · exact List.mem_takeWhile_imp hd
  · intro d hd
    simpa [Option.mem_def.mp hd] using List.head?_dropWhile_not isWordChar cs

theorem tiles_of_scan (h : scan offset cs = .ok ts) (front : List Char) (hFront : byteLength front = offset)
    (hCut : IsCut front cs) : Tiles (front ++ cs) offset ts := by
  -- What was scanned before is kept as a front, as in `standsIn_of_scan`; no word may go on from it.
  fun_induction scan offset cs generalizing ts front
  case case1 offset =>
    cases h
    rw [List.append_nil, ← hFront]
    exact .nil
  case case2 offset c rest hBlank ih =>
    subst hFront
    exact .blank hBlank (ih h (front ++ [c]) byteLength_concat (isCut_concat (by simp [isWordChar, hBlank])))
  case case3 offset rest hBlank ih =>
    obtain ⟨ts, hTs, rfl⟩ := Outcome.map_eq_ok_iff.mp h
    subst hFront
    have hTile : IsTile ⟨.leftParen, "(", byteLength front⟩ (front ++ '(' :: rest) :=
      .inl ⟨rfl, rfl, front, ⟨rest, by simp⟩, rfl⟩
    have hRest := ih hTs (front ++ ['(']) byteLength_concat (isCut_concat (by decide))
    exact .paren rfl hTile hRest (pairwise_offset_of_scan hTs).1
  case case4 offset rest hBlank hLeft ih =>
    obtain ⟨ts, hTs, rfl⟩ := Outcome.map_eq_ok_iff.mp h
    subst hFront
    have hTile : IsTile ⟨.rightParen, ")", byteLength front⟩ (front ++ ')' :: rest) :=
      .inr (.inl ⟨rfl, rfl, front, ⟨rest, by simp⟩, rfl⟩)
    have hRest := ih hTs (front ++ [')']) byteLength_concat (isCut_concat (by decide))
    exact .paren rfl hTile hRest (pairwise_offset_of_scan hTs).1
  case case5 => cases h
  case case6 offset c rest hBlank hLeft hRight word text kind hClassify ih =>
    obtain ⟨ts, hTs, rfl⟩ := Outcome.map_eq_ok_iff.mp h
    subst hFront
    have hc : isWordChar c = true := Spelled.isWordChar_iff.mpr ⟨Bool.eq_false_iff.mpr hBlank, hLeft, hRight⟩
    obtain ⟨hCased, hKind⟩ := classify_eq_ok_iff.mp hClassify
    have hRest := ih hTs (front ++ word) (byteLength_append front word) isCut_dropWhile
    rw [List.append_assoc, word_append_dropWhile] at hRest
    have hTile : IsTile ⟨kind, text, byteLength front⟩ (front ++ c :: rest) :=
      .inr (.inr ⟨hKind, hCased, runAt_of_isCut hCut hc⟩)
    have hStop : stop ⟨kind, text, byteLength front⟩ = byteLength front + byteLength word := by
      simp only [stop, text, String.toList_ofList]
    exact .cons hTile hStop hRest (pairwise_offset_of_scan hTs).1

theorem isFirstMiscased_of_scan (h : scan offset cs = .error f) (front : List Char)
    (hFront : byteLength front = offset) (hCut : IsCut front cs) : IsFirstMiscased (front ++ cs) offset f := by
  fun_induction scan offset cs generalizing front
  case case1 => cases h
  case case2 offset c rest hBlank ih =>
    subst hFront
    have hc : isWordChar c = false := by simp [isWordChar, hBlank]
    exact .of_concat hc (ih h (front ++ [c]) byteLength_concat (isCut_concat hc))
  case case3 offset rest hBlank ih =>
    subst hFront
    have hRest := ih (Outcome.map_eq_error_iff.mp h) (front ++ ['(']) byteLength_concat (isCut_concat (by decide))
    exact .of_concat (by decide) hRest
  case case4 offset rest hBlank hLeft ih =>
    subst hFront
    have hRest := ih (Outcome.map_eq_error_iff.mp h) (front ++ [')']) byteLength_concat (isCut_concat (by decide))
    exact .of_concat (by decide) hRest
  case case5 offset c rest hBlank hLeft hRight word text cause hClassify =>
    cases h
    subst hFront
    have hc : isWordChar c = true := Spelled.isWordChar_iff.mpr ⟨Bool.eq_false_iff.mpr hBlank, hLeft, hRight⟩
    obtain ⟨op, hMiscases, rfl⟩ := miscases_of_classify hClassify
    exact ⟨⟨text, op, rfl, hMiscases, runAt_of_isCut hCut hc⟩, fun place w hLe _ _ => hLe⟩
  case case6 offset c rest hBlank hLeft hRight word text kind hClassify ih =>
    subst hFront
    have hc : isWordChar c = true := Spelled.isWordChar_iff.mpr ⟨Bool.eq_false_iff.mpr hBlank, hLeft, hRight⟩
    have hRest := ih (Outcome.map_eq_error_iff.mp h) (front ++ word) (byteLength_append front word) isCut_dropWhile
    rw [List.append_assoc, word_append_dropWhile] at hRest
    exact .of_run (runAt_of_isCut hCut hc) (classify_eq_ok_iff.mp hClassify).1 (by rw [String.toList_ofList]) hRest

end

/-- The tokens of a text are its parentheses and runs in the order of their offsets, apart from each other and with
nothing but blanks outside. The scanner fails exactly if some run is an operator in the wrong case, and then names
the first such run and the operator that is meant. -/
theorem ofText_tiles (s : String) :
    (∀ ts, ofText s = .ok ts →
      (∀ t ∈ ts, IsBoundary s.toList t.offset ∧ StandsAt s.toList t.offset t.text) ∧
      (ts.Pairwise fun t u => t.offset < u.offset) ∧ Tiles s.toList 0 ts) ∧
    ((∃ f, ofText s = .error f) ↔ ∃ offset w, RunAt s.toList offset w ∧ IsMiscased w) ∧
    ∀ f, ofText s = .error f → IsFirstMiscased s.toList 0 f := by
  have hCut : IsCut [] s.toList := by
    intro c hc
    cases hc
  have hTiles : ∀ ts, ofText s = .ok ts → Tiles s.toList 0 ts := fun ts h => tiles_of_scan h [] rfl hCut
  have hFirst : ∀ f, ofText s = .error f → IsFirstMiscased s.toList 0 f :=
    fun f h => isFirstMiscased_of_scan h [] rfl hCut
  refine ⟨fun ts h => ⟨?_, (pairwise_offset_of_scan h).2, hTiles ts h⟩, ⟨?_, ?_⟩, hFirst⟩
  · intro t ht
    have hStands := ((hTiles ts h).tile t ht).standsAt
    exact ⟨hStands.isBoundary, hStands⟩
  · rintro ⟨f, h⟩
    obtain ⟨w, op, -, hMiscases, hRun⟩ := (hFirst f h).names
    exact ⟨f.offset, w, hRun, isMiscased_iff.mpr ⟨op, hMiscases⟩⟩
  · rintro ⟨offset, w, hRun, hMiscased⟩
    cases h : ofText s with
    | error f => exact ⟨f, rfl⟩
    | ok ts =>
      obtain ⟨t, -, -, -, hCased⟩ := (hTiles ts h).exists_of_runAt hRun (Nat.zero_le offset)
      exact absurd hMiscased hCased

theorem ofText_tiles_blanks :
    ofText "(é AND\u00a0b)" = .ok [⟨.leftParen, "(", 0⟩, ⟨.name, "é", 1⟩, ⟨.andWord, "AND", 4⟩, ⟨.name, "b", 9⟩,
      ⟨.rightParen, ")", 10⟩] ∧
    RunAt "(é AND\u00a0b)".toList 9 "b" ∧
    ofText "é(And\u00a0or" = .error ⟨3, .lowercaseOperator "And" "AND"⟩ ∧
    ∀ offset w, RunAt "é(And\u00a0or".toList offset w → IsMiscased w → 3 ≤ offset := by
  have hTokens : ofText "(é AND\u00a0b)" = .ok [⟨.leftParen, "(", 0⟩, ⟨.name, "é", 1⟩, ⟨.andWord, "AND", 4⟩,
      ⟨.name, "b", 9⟩, ⟨.rightParen, ")", 10⟩] := by decide +kernel
  have hFault : ofText "é(And\u00a0or" = .error ⟨3, .lowercaseOperator "And" "AND"⟩ := by decide +kernel
  obtain ⟨-, -, hTiles⟩ := (ofText_tiles "(é AND\u00a0b)").1 _ hTokens
  have hFirst := ((ofText_tiles "é(And\u00a0or").2.2 _ hFault).first
  refine ⟨hTokens, ?_, hFault, fun offset w => hFirst offset w (Nat.zero_le offset)⟩
  rcases hTiles.tile ⟨.name, "b", 9⟩ (by simp) with ⟨hKind, -⟩ | ⟨hKind, -⟩ | ⟨-, -, hRun⟩
  · cases hKind
  · cases hKind
  · exact hRun

end PolicyLint.License
