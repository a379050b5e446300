import PolicyLint.Proofs.Json.Canonical
import PolicyLint.Proofs.Json.Readers

/-!
# Values are read back

The indented form of a value is read as the value with its members in byte order. Readers of elements and
members are followed along the printed list: each finds its element, a comma or the closing bracket, and the
blanks between.
-/
namespace PolicyLint.Json
open Text
set_option autoImplicit false

/-- Nothing but blanks. -/
def IsGap (cs : List Char) : Prop := ∀ c ∈ cs, isSpace c

/-- The gap before a line at this depth. -/
def lineGap (depth : Nat) : List Char := '\n' :: (indentation depth).toList

theorem isGap_lineGap (depth : Nat) : IsGap (lineGap depth) := by
  intro c hc
  rcases List.mem_cons.mp hc with rfl | hc
  · rfl
  · rw [indentation, String.toList_ofList] at hc
    rw [List.eq_of_mem_replicate hc]
    rfl

/-- The text starts like a value. -/
def StartsValue (cs : List Char) : Prop := ∃ c tail, cs = c :: tail ∧ isSpace c = false ∧ c ≠ ']'

theorem StartsValue.append {cs : List Char} (h : StartsValue cs) (rest : List Char) : StartsValue (cs ++ rest) := by
  obtain ⟨c, tail, rfl, hSpace, hClose⟩ := h
  exact ⟨c, tail ++ rest, rfl, hSpace, hClose⟩

theorem skipSpace_gap {gap : List Char} (hGap : IsGap gap) (cs : List Char) :
    skipSpace (gap ++ cs) = skipSpace cs := by
  induction gap with
  | nil => rfl
  | cons c gap ih =>
    rw [IsGap, List.forall_mem_cons] at hGap
    rw [List.cons_append, skipSpace, List.dropWhile_cons_of_pos hGap.1]
    exact ih hGap.2

theorem isDigit_of_isSpace {c : Char} (h : isSpace c) : c.isDigit = false ∧ c ≠ '.' ∧ c ≠ 'e' ∧ c ≠ 'E' := by
  simp only [isSpace, Bool.or_eq_true, beq_iff_eq] at h
  rcases h with ((rfl | rfl) | rfl) | rfl <;> decide

theorem IsGap.endsNumber {gap : List Char} (hGap : IsGap gap) {cs : List Char} (h : EndsNumber cs) :
    EndsNumber (gap ++ cs) := by
  cases gap with
  | nil => exact h
  | cons c gap => exact endsNumber_cons (isDigit_of_isSpace (hGap c List.mem_cons_self))

/-- The text is read as the value, whatever follows that does not go on a number. -/
def ReadsPart {α : Type} (element : Take α) (p : List Char × α) : Prop :=
  ∀ rest, EndsNumber rest → Reads element (p.1 ++ rest) p.2 rest

/-- The texts of further parts of a list, each behind a comma and a gap. -/
def furtherText {α : Type} (gap : List Char) (parts : List (List Char × α)) : List Char :=
  parts.flatMap fun p => ',' :: (gap ++ p.1)

theorem furtherText_cons {α : Type} (gap : List Char) (p : List Char × α) (parts : List (List Char × α))
    (rest : List Char) :
    furtherText gap (p :: parts) ++ rest = ',' :: (gap ++ (p.1 ++ (furtherText gap parts ++ rest))) := by
  simp only [furtherText, List.flatMap_cons, List.cons_append, List.append_assoc]

theorem reads_items {element : Take Value} {gap back : List Char} (hGap : IsGap gap) (hBack : IsGap back)
    {first : List Char × Value} {others : List (List Char × Value)} (hFirst : ReadsPart element first)
    (hOthers : ∀ p ∈ others, StartsValue p.1 ∧ ReadsPart element p) (rest : List Char) :
    Reads (items element) (first.1 ++ (furtherText gap others ++ (back ++ ']' :: rest)))
      (first.2 :: others.map Prod.snd) rest := by
  induction others generalizing first with
  | nil =>
    have hEnds : EndsNumber (back ++ ']' :: rest) := hBack.endsNumber (endsNumber_cons (by decide))
    have hClose : skipSpace (back ++ ']' :: rest) = ']' :: rest := by
      rw [skipSpace_gap hBack, skipSpace_cons rfl]
    exact reads_lastItem (hFirst _ hEnds) hClose
  | cons second others ih =>
    rw [List.forall_mem_cons] at hOthers
    let behind := second.1 ++ (furtherText gap others ++ (back ++ ']' :: rest))
    have hEnds : EndsNumber (',' :: (gap ++ behind)) := endsNumber_cons (by decide)
    obtain ⟨d, tail, hText, hSpace, hClose⟩ := hOthers.1.1.append (furtherText gap others ++ (back ++ ']' :: rest))
    have hMore : skipSpace (gap ++ behind) = d :: tail := by
      rw [skipSpace_gap hGap, ← skipSpace_cons hSpace tail, ← hText]
    have hNext := ih hOthers.1.2 hOthers.2
    rw [hText] at hNext
    rw [furtherText_cons]
    exact reads_nextItem (hFirst _ hEnds) (skipSpace_cons rfl _) hMore hClose hNext

/-- A member as it is written behind its opening quote. -/
def memberText (key : String) (text : List Char) : List Char :=
  key.toList.flatMap escapeChar ++ '"' :: ':' :: ' ' :: text

theorem readsPart_member {element : Take Value} {key : String} {text : List Char} {v : Value}
    (hStarts : StartsValue text) (h : ReadsPart element (text, v)) :
    ReadsPart (member element) (memberText key text, (key, v)) := by
  intro rest hEnds
  obtain ⟨c, tail, hText, hSpace, -⟩ := hStarts.append rest
  have hBlank : skipSpace (' ' :: (text ++ rest)) = text ++ rest := by
    rw [skipSpace, List.dropWhile_cons_of_pos rfl, hText]
    exact skipSpace_cons hSpace tail
  have hValue : Reads element (skipSpace (' ' :: (text ++ rest))) v rest := by
    rw [hBlank]
    exact h rest hEnds
  have hShape : memberText key text ++ rest =
      key.toList.flatMap escapeChar ++ '"' :: ':' :: ' ' :: (text ++ rest) := by
    simp only [memberText, List.append_assoc, List.cons_append]
  rw [hShape]
  exact reads_member (reads_escaped key.toList _) (skipSpace_cons rfl _) hValue

theorem reads_members {element : Take Value} {gap back : List Char} (hGap : IsGap gap) (hBack : IsGap back)
    {first : List Char × String × Value} {others : List (List Char × String × Value)}
    (hFirst : ReadsPart (member element) first) (hOthers : ∀ p ∈ others, ReadsPart (member element) p)
    (rest : List Char) :
    Reads (members element) (first.1 ++ (furtherText (gap ++ ['"']) others ++ (back ++ '\x7d' :: rest)))
      (first.2 :: others.map Prod.snd) rest := by
  induction others generalizing first with
  | nil =>
    have hEnds : EndsNumber (back ++ '\x7d' :: rest) := hBack.endsNumber (endsNumber_cons (by decide))
    have hClose : skipSpace (back ++ '\x7d' :: rest) = '\x7d' :: rest := by
      rw [skipSpace_gap hBack, skipSpace_cons rfl]
    exact reads_lastMember (hFirst _ hEnds) hClose
  | cons second others ih =>
    rw [List.forall_mem_cons] at hOthers
    let behind := second.1 ++ (furtherText (gap ++ ['"']) others ++ (back ++ '\x7d' :: rest))
    have hEnds : EndsNumber (',' :: ((gap ++ ['"']) ++ behind)) := endsNumber_cons (by decide)
    have hQuote : skipSpace ((gap ++ ['"']) ++ behind) = '"' :: behind := by
      rw [List.append_assoc, skipSpace_gap hGap, List.singleton_append, skipSpace_cons rfl]
    rw [furtherText_cons]
    exact reads_nextMember (hFirst _ hEnds) (skipSpace_cons rfl _) hQuote (ih hOthers.1 hOthers.2)

theorem reads_string (inside : Option (Take Value)) (s : String) (rest : List Char) :
    Reads (valueWith inside) ((renderString s).toList ++ rest) (.string s) rest := by
  have hShape : (renderString s).toList ++ rest = '"' :: (s.toList.flatMap escapeChar ++ '"' :: rest) := by
    simp only [renderString, String.toList_ofList, List.cons_append, List.append_assoc, List.nil_append]
  obtain ⟨t, hRead, hValue, hRest⟩ := reads_escaped s.toList rest
  rw [hShape]
  simp only [Reads, valueWith, if_true, hRead]
  refine ⟨_, rfl, ?_, hRest⟩
  exact (congrArg (Value.string ∘ String.ofList) hValue).trans (congrArg Value.string String.ofList_toList)

/-- A number starts with a digit or a sign. -/
theorem exists_render_eq_cons {n : Number} (h : n.Fits) :
    ∃ c tail, n.render.toList = c :: tail ∧ (c = '-' ∨ c.isDigit) := by
  cases n with
  | natural n =>
    obtain ⟨c, tail, hText⟩ := List.exists_cons_of_ne_nil (Nat.toDigits_ne_nil (n := n) (b := 10))
    refine ⟨c, tail, ?_, .inr (isDigit_of_mem_toDigits (hText ▸ List.mem_cons_self))⟩
    rw [Number.render, toList_toString, hText]
  | negative n =>
    refine ⟨'-', (toString (n + 1)).toList, ?_, .inl rfl⟩
    rw [Number.render, String.toList_append]
    rfl
  | float x => exact h.elim

theorem reads_number (inside : Option (Take Value)) {n : Number} (h : n.Fits) {rest : List Char}
    (hRest : EndsNumber rest) : Reads (valueWith inside) (n.render.toList ++ rest) (.number n) rest := by
  obtain ⟨c, tail, hText, hFirst⟩ := exists_render_eq_cons h
  have hWords : c ≠ '"' ∧ c ≠ 't' ∧ c ≠ 'f' ∧ c ≠ 'n' := by
    rcases hFirst with rfl | hDigit
    · decide
    · refine ⟨?_, ?_, ?_, ?_⟩ <;> (rintro rfl; exact absurd hDigit (by decide))
  have hRead := readNumber_render h hRest
  rw [hText, List.cons_append] at hRead ⊢
  have hShorter : rest.length < (c :: (tail ++ rest)).length := by
    rw [List.length_cons, List.length_append]
    omega
  simp only [Reads, valueWith, hWords, hFirst, if_false, if_true, number, hRead, hShorter, dite_true]
  exact ⟨_, rfl, rfl, rfl⟩

theorem prettyItems_eq (depth : Nat) (vs : List Value) : prettyItems depth vs = vs.map (Value.pretty depth) := by
  induction vs with
  | nil => rfl
  | cons v vs ih => rw [prettyItems, ih, List.map_cons]

theorem prettyMembers_eq (depth : Nat) (ms : List (String × Value)) :
    prettyMembers depth ms = ms.map fun m => renderString m.1 ++ ": " ++ m.2.pretty depth := by
  induction ms with
  | nil => rfl
  | cons m ms ih => rw [prettyMembers, ih, List.map_cons]

theorem toList_intercalate_cons (sep first : String) (others : List String) :
    (String.intercalate sep (first :: others)).toList =
      first.toList ++ others.flatMap fun s => sep.toList ++ s.toList := by
  induction others generalizing first with
  | nil => simp
  | cons second others ih =>
    rw [String.intercalate_cons_cons, String.toList_append, String.toList_append, ih, List.flatMap_cons,
      List.append_assoc, List.append_assoc]

theorem toList_block (opening closing : String) (depth : Nat) (first : String) (others : List String) :
    (block opening closing depth (first :: others)).toList = opening.toList ++ (lineGap (depth + 1) ++
      (first.toList ++ (others.flatMap (fun s => ',' :: (lineGap (depth + 1) ++ s.toList)) ++
        (lineGap depth ++ closing.toList)))) := by
  simp only [block, lineGap, String.toList_append, toList_intercalate_cons, List.append_assoc]
  rfl

/-- The text of a value and what is read from it. -/
def part (depth : Nat) (v : Value) : List Char × Value := ((v.pretty depth).toList, v.canonical)

def memberPart (depth : Nat) (m : String × Value) : List Char × String × Value :=
  (memberText m.1 (m.2.pretty depth).toList, (m.1, m.2.canonical))

theorem toList_pretty_array (depth : Nat) (v : Value) (vs : List Value) (rest : List Char) :
    ((Value.array (v :: vs)).pretty depth).toList ++ rest = '[' :: (lineGap (depth + 1) ++
      ((part (depth + 1) v).1 ++ (furtherText (lineGap (depth + 1)) (vs.map (part (depth + 1))) ++
        (lineGap depth ++ ']' :: rest)))) := by
  rw [Value.pretty, toList_block, prettyItems_eq]
  simp only [furtherText, part, List.flatMap_map, List.append_assoc, String.reduceToList, List.cons_append,
    List.nil_append]

theorem toList_renderMember (key text : String) :
    (renderString key ++ ": " ++ text).toList = '"' :: memberText key text.toList := by
  simp only [renderString, memberText, String.toList_append, String.toList_ofList, List.cons_append,
    List.append_assoc, String.reduceToList, List.nil_append]

theorem toList_pretty_object (depth : Nat) (m : String × Value) (ms : List (String × Value)) (rest : List Char) :
    ((Value.object (m :: ms)).pretty depth).toList ++ rest = '\x7b' :: (lineGap (depth + 1) ++
      '"' :: ((memberPart (depth + 1) m).1 ++
        (furtherText (lineGap (depth + 1) ++ ['"']) (ms.map (memberPart (depth + 1))) ++
          (lineGap depth ++ '\x7d' :: rest)))) := by
  obtain ⟨key, v⟩ := m
  rw [Value.pretty, toList_block, prettyMembers_eq]
  simp only [furtherText, memberPart, List.flatMap_map, List.append_assoc, String.reduceToList, List.cons_append,
    List.nil_append, toList_renderMember]

/-- What is read as a value starts like one. -/
theorem startsValue_of_readsPart {room : Nat} {p : List Char × Value} (h : ReadsPart (value room) p) :
    StartsValue p.1 := by
  have hReads := h [] endsNumber_nil
  rw [List.append_nil, value_eq_valueWith] at hReads
  obtain ⟨text, v⟩ := p
  -- The reader fails at once if the text is empty or starts with a blank or a bracket.
  cases text with
  | nil =>
    obtain ⟨t, hRead, -⟩ := hReads
    cases hRead
  | cons c tail =>
    have hSpace : ¬ isSpace c := by
      intro hSpace
      simp only [isSpace, Bool.or_eq_true, beq_iff_eq] at hSpace
      obtain ⟨t, hRead, -⟩ := hReads
      rcases hSpace with ((rfl | rfl) | rfl) | rfl <;> cases hRead
    have hClose : c ≠ ']' := by
      rintro rfl
      obtain ⟨t, hRead, -⟩ := hReads
      cases hRead
    exact ⟨c, tail, rfl, Bool.not_eq_true _ ▸ hSpace, hClose⟩

theorem reads_null (inside : Option (Take Value)) (rest : List Char) :
    Reads (valueWith inside) (Value.null.render.toList ++ rest) .null rest := by
  obtain ⟨t, hRead, hValue, hRest⟩ := reads_keyword .null 'u' ['l', 'l'] rest
  have hOpen : valueWith inside (Value.null.render.toList ++ rest) =
      (keyword .null 'u' ['l', 'l'] ('u' :: (['l', 'l'] ++ rest))).map (·.lift (Nat.le_succ _)) := rfl
  rw [Reads, hOpen, hRead]
  exact ⟨_, rfl, hValue, hRest⟩

theorem reads_boolean (inside : Option (Take Value)) (b : Bool) (rest : List Char) :
    Reads (valueWith inside) ((Value.boolean b).render.toList ++ rest) (.boolean b) rest := by
  cases b with
  | false =>
    obtain ⟨t, hRead, hValue, hRest⟩ := reads_keyword (.boolean false) 'a' ['l', 's', 'e'] rest
    have hOpen : valueWith inside ("false".toList ++ rest) = (keyword (.boolean false) 'a' ['l', 's', 'e']
        ('a' :: (['l', 's', 'e'] ++ rest))).map (·.lift (Nat.le_succ _)) := rfl
    exact ⟨_, hOpen.trans (congrArg _ hRead), hValue, hRest⟩
  | true =>
    obtain ⟨t, hRead, hValue, hRest⟩ := reads_keyword (.boolean true) 'r' ['u', 'e'] rest
    have hOpen : valueWith inside ("true".toList ++ rest) = (keyword (.boolean true) 'r' ['u', 'e']
        ('r' :: (['u', 'e'] ++ rest))).map (·.lift (Nat.le_succ _)) := rfl
    exact ⟨_, hOpen.trans (congrArg _ hRead), hValue, hRest⟩

theorem readsPart_array {room depth : Nat} {vs : List Value}
    (h : ∀ v ∈ vs, ReadsPart (value room) (part (depth + 1) v)) :
    ReadsPart (value (room + 1)) (part depth (.array vs)) := by
  intro rest _
  cases vs with
  | nil =>
    have hText : ((Value.array []).pretty depth).toList = ['[', ']'] := by
      rw [Value.pretty]
      rfl
    rw [part, hText]
    exact reads_array (reads_emptyArray (skipSpace_cons rfl rest))
  | cons v vs =>
    have hParts : ∀ p ∈ vs.map (part (depth + 1)), StartsValue p.1 ∧ ReadsPart (value room) p := by
      refine List.forall_mem_map.mpr fun v' hv' => ?_
      have hPart := h v' (List.mem_cons_of_mem v hv')
      exact ⟨startsValue_of_readsPart hPart, hPart⟩
    have hFirst := h v List.mem_cons_self
    have hItems := reads_items (isGap_lineGap (depth + 1)) (isGap_lineGap depth) hFirst hParts rest
    obtain ⟨c, tail, hText, hSpace, hClose⟩ := (startsValue_of_readsPart hFirst).append
      (furtherText (lineGap (depth + 1)) (vs.map (part (depth + 1))) ++ (lineGap depth ++ ']' :: rest))
    have hMore : skipSpace (lineGap (depth + 1) ++ c :: tail) = c :: tail := by
      rw [skipSpace_gap (isGap_lineGap _), skipSpace_cons hSpace]
    rw [hText, List.map_map] at hItems
    rw [part, toList_pretty_array, hText, canonical_array]
    exact reads_array (reads_arrayBody hMore hClose hItems)

theorem readsPart_object {room depth : Nat} {ms : List (String × Value)}
    (h : ∀ m ∈ ms, ReadsPart (value room) (part (depth + 1) m.2)) :
    ReadsPart (value (room + 1)) (part depth (.object ms)) := by
  intro rest _
  cases ms with
  | nil =>
    have hText : ((Value.object []).pretty depth).toList = ['\x7b', '\x7d'] := by
      rw [Value.pretty]
      rfl
    rw [part, hText]
    exact reads_object (reads_emptyObject (skipSpace_cons rfl rest))
  | cons m ms =>
    have hMember : ∀ m' ∈ m :: ms, ReadsPart (member (value room)) (memberPart (depth + 1) m') := fun m' hm' =>
      readsPart_member (startsValue_of_readsPart (h m' hm')) (h m' hm')
    rw [List.forall_mem_cons] at hMember
    have hMembers := reads_members (isGap_lineGap (depth + 1)) (isGap_lineGap depth) hMember.1
      (List.forall_mem_map.mpr hMember.2) rest
    have hQuote : ∀ tail, skipSpace (lineGap (depth + 1) ++ '"' :: tail) = '"' :: tail := by
      intro tail
      rw [skipSpace_gap (isGap_lineGap _), skipSpace_cons rfl]
    rw [List.map_map] at hMembers
    rw [part, toList_pretty_object, canonical_object]
    exact reads_object (reads_objectBody (hQuote _) hMembers)

theorem readsPart_value {room : Nat} {v : Value} (h : v.Fits room) (depth : Nat) :
    ReadsPart (value room) (part depth v) := by
  induction h generalizing depth with
  | null room =>
    intro rest _
    have hText : Value.null.pretty depth = Value.null.render := rfl
    rw [value_eq_valueWith, part, hText]
    exact reads_null _ rest
  | boolean room b =>
    intro rest _
    rw [value_eq_valueWith]
    exact reads_boolean _ b rest
  | number room n hNumber =>
    intro rest hEnds
    rw [value_eq_valueWith]
    exact reads_number _ hNumber hEnds
  | string room s =>
    intro rest _
    rw [value_eq_valueWith]
    exact reads_string _ s rest
  | array room vs _ ih => exact readsPart_array fun v hv => ih v hv (depth + 1)
  | object room ms _ ih => exact readsPart_object fun m hm => ih m hm (depth + 1)

/-- A printed value on a line of its own is read as the value with its members in byte order. -/
theorem parse_pretty {v : Value} (h : v.Fits maxNesting) : parse (v.pretty 0 ++ "\n") = .ok v.canonical := by
  have hPart := readsPart_value h 0
  obtain ⟨c, tail, hText, hSpace, -⟩ := startsValue_of_readsPart hPart
  obtain ⟨t, hRead, hValue, hRest⟩ := hPart ['\n'] (endsNumber_cons (by decide))
  have hSkip : skipSpace (v.pretty 0 ++ "\n").toList = (part 0 v).1 ++ ['\n'] := by
    have hShape : (v.pretty 0 ++ "\n").toList = (part 0 v).1 ++ ['\n'] := String.toList_append
    rw [hShape, hText, List.cons_append, skipSpace_cons hSpace]
  have hEnd : skipSpace t.rest = [] := by
    rw [hRest]
    rfl
  have hAll : readAll (v.pretty 0 ++ "\n").toList = .ok v.canonical := by
    rw [readAll, hSkip]
    simp only [hRead, bind, Except.bind, hEnd]
    exact congrArg Except.ok hValue
  rw [parse, hAll]
  rfl

end PolicyLint.Json
