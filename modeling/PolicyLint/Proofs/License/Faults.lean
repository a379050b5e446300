import PolicyLint.Proofs.License.Acceptance
import PolicyLint.Proofs.License.Failures
import PolicyLint.Proofs.License.Tokens

/-!
# Where faults point

A fault is about a word, a parenthesis, an operator or the end of the text. What a reader may blame is listed
once, for the tokens that it was given, and each reader is shown to blame nothing else. Since tokens stand in the
text where their offsets say, so does what a fault names. One fault stands elsewhere: a second exception of a
license in parentheses is blamed on the opening parenthesis.
-/
namespace PolicyLint.License
open Text Token
set_option autoImplicit false

/-- A license in parentheses that has an exception is followed by `WITH`; the fault stands at the parenthesis. -/
def IsSecondException (tokens : List Token) (f : Fault) : Prop :=
  ∃ before first license w after r, tokens = before ++ (first :: license ++ w :: after) ∧
    Derives .atom ((first :: license).map lexeme) (.license r) ∧ r.exception ≠ none ∧ w.kind = .withWord ∧
      f = ⟨first.offset, .unexpectedToken w.text⟩

theorem IsSecondException.append {tokens : List Token} {f : Fault} (h : IsSecondException tokens f)
    (front : List Token) : IsSecondException (front ++ tokens) f := by
  obtain ⟨before, first, license, w, after, r, rfl, h⟩ := h
  exact ⟨front ++ before, first, license, w, after, r, (List.append_assoc _ _ _).symm, h⟩

theorem Derives.exists_eq_leftParen_cons {ls : List Lexeme} {r : Requirement}
    (h : Derives .atom ls (.license r)) (hTaken : r.exception ≠ none) : ∃ ms, ls = .leftParen :: ms := by
  cases h with
  | name _ | later _ => exact absurd rfl hTaken
  | parens inner => exact ⟨_, rfl⟩

theorem IsSecondException.exists_leftParen {tokens : List Token} {f : Fault} (h : IsSecondException tokens f) :
    ∃ first ∈ tokens, first.kind = .leftParen ∧
      ∃ w ∈ tokens, w.kind = .withWord ∧ f = ⟨first.offset, .unexpectedToken w.text⟩ := by
  obtain ⟨before, first, license, w, after, r, rfl, hLicense, hTaken, hWith, rfl⟩ := h
  obtain ⟨ms, hOpen⟩ := hLicense.exists_eq_leftParen_cons hTaken
  refine ⟨first, by simp, ?_, w, by simp, hWith, rfl⟩
  rw [kind_eq_kind_lexeme, (List.cons.inj hOpen).1]
  rfl

/-- Without parentheses a layer above the joins derives a single license. -/
theorem Derives.exists_license {ls : List Lexeme} {e : Expr} (h : Derives .suffixed ls e)
    (hFlat : .leftParen ∉ ls) : ∃ r, e = .license r := by
  cases h with
  | bare h =>
    cases h with
    | name _ | later _ => exact ⟨_, rfl⟩
    | parens _ => exact absurd List.mem_cons_self hFlat
  | exception _ _ _ => exact ⟨_, rfl⟩

namespace Reader

/-- What may be blamed on the tokens of a text of `stop` bytes. -/
inductive Blames (stop : Nat) (tokens : List Token) : Fault → Prop
  | ending : Blames stop tokens ⟨stop, .unexpectedEnd⟩
  | word {t : Token} (h : t ∈ tokens) : Blames stop tokens ⟨t.offset, .unexpectedToken t.text⟩
  | identifier {t : Token} (h : t ∈ tokens) : Blames stop tokens ⟨t.offset, .invalidIdentifier t.text⟩
  | parenthesis {t : Token} (h : t ∈ tokens) (hKind : t.kind = .leftParen ∨ t.kind = .rightParen) :
      Blames stop tokens ⟨t.offset, .unbalancedParen⟩
  | nesting {t : Token} (h : t ∈ tokens) (hKind : t.kind = .leftParen) :
      Blames stop tokens ⟨t.offset, .tooDeep maxNesting⟩
  | joins {t : Token} (h : t ∈ tokens) (hKind : t.kind = .andWord ∨ t.kind = .orWord) :
      Blames stop tokens ⟨t.offset, .tooLong maxOperators⟩
  | exception {f : Fault} (h : IsSecondException tokens f) : Blames stop tokens f

variable {stop room : Nat} {read operand : Reader} {tokens : List Token} {f : Fault}

theorem Blames.append (h : Blames stop tokens f) (front : List Token) : Blames stop (front ++ tokens) f := by
  cases h with
  | ending => exact .ending
  | word h => exact .word (List.mem_append_right _ h)
  | identifier h => exact .identifier (List.mem_append_right _ h)
  | parenthesis h hKind => exact .parenthesis (List.mem_append_right _ h) hKind
  | nesting h hKind => exact .nesting (List.mem_append_right _ h) hKind
  | joins h hKind => exact .joins (List.mem_append_right _ h) hKind
  | exception h => exact .exception (h.append front)

/-- Whatever the reader blames, it blames on the tokens that it was given. -/
def BlamesOwn (read : Reader) (stop : Nat) : Prop :=
  ∀ budget tokens f, read budget tokens = .error f → Blames stop tokens f

theorem blamesOwn_atom {inside : Option Reader} (hInside : ∀ read ∈ inside, BlamesOwn read stop) :
    BlamesOwn (atom stop inside) stop := by
  intro budget tokens f hError
  cases atomFails_of_error hError with
  | ending => exact .ending
  | identifier _ => exact .identifier List.mem_cons_self
  | nesting hKind _ => exact .nesting List.mem_cons_self hKind
  | @inner t rest read _ _ hRead h => exact (hInside read hRead budget rest f h).append [t]
  | unclosed hKind _ _ _ => exact .parenthesis List.mem_cons_self (.inl hKind)
  | closing hKind => exact .parenthesis List.mem_cons_self (.inr hKind)
  | operator _ => exact .word List.mem_cons_self

theorem blamesOwn_suffixed (hOperand : BlamesOwn operand stop) (hSound : Sound operand .atom room) :
    BlamesOwn (suffixed stop operand) stop := by
  intro budget tokens f hError
  cases suffixedFails_of_error hError with
  | operand h => exact hOperand budget tokens f h
  | compound h _ _ =>
    obtain ⟨front, rfl, -⟩ := hSound _ _ _ _ _ h
    exact .word (by simp)
  | @second r _ w behind h hWith hTaken =>
    obtain ⟨front, rfl, hTakes⟩ := hSound _ _ _ _ _ h
    -- The atom begins where the reader began.
    cases front with
    | nil => exact absurd rfl hTakes.derives.ne_nil
    | cons first license =>
      exact .exception ⟨[], first, license, w, behind, r, rfl, hTakes.derives, hTaken, hWith, rfl⟩
  | ending _ _ _ => exact .ending
  | word h _ _ =>
    obtain ⟨front, rfl, -⟩ := hSound _ _ _ _ _ h
    exact .word (by simp)
  | identifier h _ _ =>
    obtain ⟨front, rfl, -⟩ := hSound _ _ _ _ _ h
    exact .identifier (by simp)

theorem ChainFails.blames {operator : Token.Kind} {join : Expr → Expr → Expr} {layer : Layer} {a : Expr}
    {budget : Nat} (hOperator : operator = .andWord ∨ operator = .orWord) (hOperand : BlamesOwn operand stop)
    (hSound : Sound operand layer room) (h : ChainFails operator join operand a budget tokens f) :
    Blames stop tokens f := by
  -- By the operands that are still read: each was given the tokens behind those of the last.
  induction h with
  | tooLong hKind => exact .joins List.mem_cons_self (hKind ▸ hOperator)
  | @operand _ budget t rest f _ h => exact (hOperand budget rest f h).append [t]
  | @step _ _ _ _ t _ _ _ _ hReads _ ih =>
    obtain ⟨front, rfl, -⟩ := hSound _ _ _ _ _ hReads
    exact ih.append (t :: front)

theorem blamesOwn_chain {operator : Token.Kind} {join : Expr → Expr → Expr} {layer : Layer}
    (hOperator : operator = .andWord ∨ operator = .orWord) (hOperand : BlamesOwn operand stop)
    (hSound : Sound operand layer room) : BlamesOwn (chain operator join operand) stop := by
  intro budget tokens f hError
  rcases chainFails_of_error hError with hFirst | ⟨a, middle, after, hReads, hChain⟩
  · exact hOperand budget tokens f hFirst
  · obtain ⟨front, rfl, -⟩ := hSound _ _ _ _ _ hReads
    exact (hChain.blames hOperator hOperand hSound).append front

theorem blamesOwn_levels (hInside : ∀ read ∈ inside stop room, BlamesOwn read stop) :
    BlamesOwn (levels stop (inside stop room)) stop := by
  have hBelow : ∀ lower, room = lower + 1 → Sound (expression stop lower) .disjunction lower :=
    fun lower _ => sound_expression stop lower
  have hSuffixed := blamesOwn_suffixed (blamesOwn_atom hInside) (sound_atom hBelow)
  have hConjunction : BlamesOwn (chain .andWord .and (suffixed stop (atom stop (inside stop room)))) stop :=
    blamesOwn_chain (.inl rfl) hSuffixed (sound_suffixed (sound_atom hBelow))
  exact blamesOwn_chain (.inr rfl) hConjunction (sound_conjunction hBelow)

theorem blamesOwn_expression (stop room : Nat) : BlamesOwn (expression stop room) stop := by
  induction room with
  | zero =>
    rw [expression_eq_levels]
    exact blamesOwn_levels fun read hRead => by cases hRead
  | succ room ih =>
    rw [expression_eq_levels]
    apply blamesOwn_levels
    rintro read ⟨⟩
    exact ih

theorem blames_finish {r : Reading tokens} {front : List Token} (hFront : tokens = front ++ r.rest)
    (hError : finish r = .error f) : Blames stop tokens f := by
  obtain ⟨t, rest, hRest, rfl⟩ := exists_of_finish_error hError
  have hMem : t ∈ tokens := by rw [hFront, hRest]; simp
  split_ifs with hClose
  · exact .parenthesis hMem (.inr hClose)
  · exact .word hMem

theorem blames_all {layer : Layer} {budget : Nat} (hOwn : BlamesOwn read stop) (hSound : Sound read layer room)
    (hError : (read budget tokens >>= finish) = .error f) : Blames stop tokens f := by
  rcases Outcome.bind_eq_error_iff.mp hError with hRead | ⟨r, hr, hFinish⟩
  · exact hOwn budget tokens f hRead
  · obtain ⟨front, hFront, -⟩ := hSound _ _ _ _ _ (reads_of_eq_ok hr)
    exact blames_finish hFront hFinish

end Reader

namespace Fault

/-- The fault stands at what it is about: the word it names, a parenthesis, a join, or the end. -/
def Points (f : Fault) (cs : List Char) : Prop :=
  match f.cause with
  | .empty => f.offset = 0
  | .unexpectedEnd => f.offset = byteLength cs
  | .unexpectedToken word | .invalidIdentifier word | .lowercaseOperator word _ | .compound word =>
    StandsAt cs f.offset word
  | .unbalancedParen | .tooDeep _ => StandsAt cs f.offset "(" ∨ StandsAt cs f.offset ")"
  | .tooLong _ => StandsAt cs f.offset "AND" ∨ StandsAt cs f.offset "OR"

theorem Points.isBoundary {f : Fault} {cs : List Char} (h : f.Points cs) : IsBoundary cs f.offset := by
  obtain ⟨offset, cause⟩ := f
  cases cause with
  | empty => exact h ▸ isBoundary_zero
  | unexpectedEnd => exact h ▸ isBoundary_byteLength
  | unexpectedToken _ | invalidIdentifier _ | lowercaseOperator _ _ | compound _ => exact StandsAt.isBoundary h
  | unbalancedParen | tooDeep _ | tooLong _ => exact h.elim StandsAt.isBoundary StandsAt.isBoundary

end Fault

/-- A parenthesis stands where the fault names `WITH`. -/
theorem IsSecondException.not_points {cs : List Char} {tokens : List Token} {f : Fault}
    (hTokens : ∀ t ∈ tokens, t.StandsIn cs) (h : IsSecondException tokens f) :
    IsBoundary cs f.offset ∧ ¬ f.Points cs := by
  obtain ⟨first, hFirst, hOpen, w, hMem, hWith, rfl⟩ := h.exists_leftParen
  have hParen : StandsAt cs first.offset "(" := (hTokens first hFirst).spelling (by rw [hOpen]; rfl)
  refine ⟨hParen.isBoundary, fun hWord => ?_⟩
  have hText : w.text = "WITH" := (hTokens w hMem).spelled "WITH" (by rw [hWith]; rfl)
  have hWord : StandsAt cs first.offset "WITH" := hText ▸ hWord
  exact absurd (hParen.prefix_or_prefix hWord) (by decide)

theorem Reader.Blames.points {cs : List Char} {tokens : List Token} {f : Fault}
    (hTokens : ∀ t ∈ tokens, t.StandsIn cs) (h : Blames (byteLength cs) tokens f) :
    f.Points cs ∨ IsSecondException tokens f := by
  cases h with
  | ending => exact .inl rfl
  | word h | identifier h => exact .inl (hTokens _ h).text
  | parenthesis h hKind =>
    refine .inl (hKind.imp (fun hLeft => (hTokens _ h).spelling ?_) fun hRight => (hTokens _ h).spelling ?_)
    · rw [hLeft]; rfl
    · rw [hRight]; rfl
  | nesting h hKind => exact .inl (.inl ((hTokens _ h).spelling (by rw [hKind]; rfl)))
  | joins h hKind =>
    refine .inl (hKind.imp (fun hAnd => (hTokens _ h).spelling ?_) fun hOr => (hTokens _ h).spelling ?_)
    · rw [hAnd]; rfl
    · rw [hOr]; rfl
  | exception h => exact .inr h

theorem points_of_ofText {s : String} {f : Fault} (h : ofText s = .error f) : f.Points s.toList := by
  obtain ⟨offset, cause⟩ := f
  obtain ⟨found, expected, rfl, hFound⟩ := standsAt_of_scan_error h [] rfl
  exact hFound

theorem standsIn_of_ofText {s : String} {tokens : List Token} (h : ofText s = .ok tokens) :
    ∀ t ∈ tokens, t.StandsIn s.toList := standsIn_of_scan h [] rfl

/-- An expression fails in the scanner, for want of tokens, or by what its reader blames. -/
theorem Expr.blames_of_parse {s : String} {f : Fault} (h : parse s = .error f) :
    ofText s = .error f ∨ f = ⟨0, .empty⟩ ∨
      ∃ tokens, ofText s = .ok tokens ∧ Reader.Blames (byteLength s.toList) tokens f := by
  rcases error_of_parse h with hText | hEmpty | ⟨tokens, hTokens, hRead⟩
  · exact .inl hText
  · exact .inr (.inl hEmpty)
  · exact .inr (.inr ⟨tokens, hTokens,
      Reader.blames_all (Reader.blamesOwn_expression _ _) (Reader.sound_expression _ _) hRead⟩)

theorem Requirement.exists_license_of_reads {stop budget left : Nat} {tokens : List Token} {e : Expr}
    (hFlat : .leftParen ∉ tokens.map Token.kind)
    (h : (Reader.suffixed stop (Reader.atom stop none)).Reads budget tokens e left []) :
    ∃ r, e = .license r := by
  obtain ⟨front, hFront, hTakes⟩ := Reader.sound_suffixed (Reader.sound_atom_none stop) _ _ _ _ _ h
  rw [List.append_nil] at hFront
  subst hFront
  refine hTakes.derives.exists_license fun hMem => hFlat ?_
  obtain ⟨t, ht, hOpen⟩ := List.mem_map.mp hMem
  exact List.mem_map.mpr ⟨t, ht, by rw [kind_eq_kind_lexeme, hOpen]; rfl⟩

/-- A requirement fails likewise, or at the first token that no requirement has. -/
theorem Requirement.blames_of_parse {s : String} {f : Fault} (h : parse s = .error f) :
    ofText s = .error f ∨ f = ⟨0, .empty⟩ ∨ ∃ tokens, ofText s = .ok tokens ∧
      ((∃ t ∈ tokens, f = ⟨t.offset, .compound t.text⟩) ∨
        (.leftParen ∉ tokens.map Token.kind ∧ Reader.Blames (byteLength s.toList) tokens f)) := by
  rcases Outcome.bind_eq_error_iff.mp h with hText | ⟨tokens, hTokens, h⟩
  · exact .inl hText
  cases tokens with
  | nil =>
    cases h
    exact .inr (.inl rfl)
  | cons t tokens =>
    refine .inr (.inr ⟨t :: tokens, hTokens, ?_⟩)
    simp only [List.isEmpty_cons, Bool.false_eq_true, if_false] at h
    split at h
    · rename_i u hu
      cases h
      exact .inl ⟨u, List.mem_of_find?_eq_some hu, rfl⟩
    · rename_i hNone
      have hFlat : .leftParen ∉ (t :: tokens).map Token.kind := by
        intro hMem
        obtain ⟨u, hu, hKind⟩ := List.mem_map.mp hMem
        have hOther := List.find?_eq_none.mp hNone u hu
        simp [hKind] at hOther
      have hSound := Reader.sound_atom_none (byteLength s.toList)
      have hOwn : Reader.BlamesOwn (Reader.atom (byteLength s.toList) none) (byteLength s.toList) :=
        Reader.blamesOwn_atom fun read hRead => by cases hRead
      refine .inr ⟨hFlat, ?_⟩
      rcases Outcome.bind_eq_error_iff.mp h with hRead | ⟨r, hr, h⟩
      · exact Reader.blamesOwn_suffixed hOwn hSound _ _ _ hRead
      rcases Outcome.bind_eq_error_iff.mp h with hFinish | ⟨e, he, h⟩
      · exact Reader.blames_all (Reader.blamesOwn_suffixed hOwn hSound) (Reader.sound_suffixed hSound)
          (Outcome.bind_eq_error_iff.mpr (.inr ⟨r, hr, hFinish⟩))
      · obtain ⟨left, hReads⟩ := Reader.finish_reads_iff.mp ⟨r, hr, he⟩
        obtain ⟨license, rfl⟩ := Requirement.exists_license_of_reads hFlat hReads
        cases h

/-- A fault stands on a boundary within the text, at what it is about. The exception is a license in parentheses
with an exception of its own, which is blamed for a second one in the place of the `WITH` behind it. -/
theorem points_of_parse_error (s : String) :
    (∀ f, Expr.parse s = .error f → f.offset ≤ byteLength s.toList ∧ IsBoundary s.toList f.offset ∧
      (f.Points s.toList ↔ ¬ ∃ tokens, ofText s = .ok tokens ∧ IsSecondException tokens f)) ∧
    ∀ f, Requirement.parse s = .error f → f.offset ≤ byteLength s.toList ∧ IsBoundary s.toList f.offset ∧
      f.Points s.toList := by
  have hSecond : ∀ f, (∃ tokens, ofText s = .ok tokens ∧ IsSecondException tokens f) →
      IsBoundary s.toList f.offset ∧ ¬ f.Points s.toList := by
    rintro f ⟨tokens, hTokens, h⟩
    exact h.not_points (standsIn_of_ofText hTokens)
  constructor
  · intro f h
    have hPoints : f.Points s.toList ∨ ∃ tokens, ofText s = .ok tokens ∧ IsSecondException tokens f := by
      rcases Expr.blames_of_parse h with hText | rfl | ⟨tokens, hTokens, hBlames⟩
      · exact .inl (points_of_ofText hText)
      · exact .inl rfl
      · exact (hBlames.points (standsIn_of_ofText hTokens)).imp_right fun h => ⟨tokens, hTokens, h⟩
    have hBoundary : IsBoundary s.toList f.offset := hPoints.elim Fault.Points.isBoundary fun h => (hSecond f h).1
    exact ⟨hBoundary.le, hBoundary, fun h hException => (hSecond f hException).2 h, hPoints.resolve_right⟩
  · intro f h
    have hPoints : f.Points s.toList := by
      rcases Requirement.blames_of_parse h with hText | rfl | ⟨tokens, hTokens, ⟨t, ht, rfl⟩ | ⟨hFlat, hBlames⟩⟩
      · exact points_of_ofText hText
      · exact rfl
      · exact (standsIn_of_ofText hTokens t ht).text
      · refine (hBlames.points (standsIn_of_ofText hTokens)).resolve_right fun hException => hFlat ?_
        obtain ⟨first, hFirst, hOpen, -⟩ := hException.exists_leftParen
        exact hOpen ▸ List.mem_map_of_mem hFirst
    exact ⟨hPoints.isBoundary.le, hPoints.isBoundary, hPoints⟩

theorem points_invalid_name :
    (Expr.parse "(\u00a0MIT AND b/c)" = .error ⟨11, .invalidIdentifier "b/c"⟩ ∧
      StandsAt "(\u00a0MIT AND b/c)".toList 11 "b/c") ∧
    Requirement.parse "\u00a0MIT AND b/c" = .error ⟨6, .compound "AND"⟩ ∧
      StandsAt "\u00a0MIT AND b/c".toList 6 "AND" := by
  have hExpr : Expr.parse "(\u00a0MIT AND b/c)" = .error ⟨11, .invalidIdentifier "b/c"⟩ := by decide +kernel
  have hRequirement : Requirement.parse "\u00a0MIT AND b/c" = .error ⟨6, .compound "AND"⟩ := by decide +kernel
  obtain ⟨-, -, hPoints⟩ := (points_of_parse_error _).1 _ hExpr
  refine ⟨⟨hExpr, hPoints.mpr ?_⟩, hRequirement, ((points_of_parse_error _).2 _ hRequirement).2.2⟩
  rintro ⟨tokens, -, hException⟩
  obtain ⟨first, -, -, w, -, -, hFault⟩ := hException.exists_leftParen
  cases congrArg Fault.cause hFault

/-- The fault names a `WITH` that does not stand where the fault says. -/
theorem parse_second_exception :
    Expr.parse "(A WITH B) WITH C" = .error ⟨0, .unexpectedToken "WITH"⟩ ∧
      ¬ StandsAt "(A WITH B) WITH C".toList 0 "WITH" := by
  refine ⟨by decide +kernel, ?_⟩
  rintro ⟨front, hFront, hOffset⟩
  obtain rfl := byteLength_eq_zero_iff.mp hOffset
  exact absurd hFront (by decide)

end PolicyLint.License
