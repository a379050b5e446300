import PolicyLint.Glob.Match
import PolicyLint.Proofs.Text.Lines

/-!
# Patterns for one text

A pattern of characters that all stand for themselves matches one text and no other. There is one for every
text: a backslash makes any character stand for itself.
-/
namespace PolicyLint.Glob
open Text
set_option autoImplicit false

/-- The characters that do not stand for themselves, and the comma, which does not do so inside of braces. -/
def isSpecial (c : Char) : Bool := ['?', '*', '[', '{', '}', ',', '\\'].contains c

def escapedChar (c : Char) : List Char := if isSpecial c then ['\\', c] else [c]

/-- The pattern that stands for a text. -/
def escaped (s : String) : String := String.ofList (s.toList.flatMap escapedChar)

theorem read_escapedChar (current : Pattern) (previous : Option Char) (c : Char) (rest : List Char) :
    read [] current previous (escapedChar c ++ rest) = read [] (current ++ [.literal c]) (some c) rest := by
  rw [escapedChar]
  cases hSpecial : isSpecial c with
  | true => rw [if_pos rfl, List.cons_append, List.singleton_append, read]
  | false =>
    rw [if_neg Bool.false_ne_true, List.singleton_append, read]
    all_goals
      intros
      subst_vars
      exact absurd hSpecial (by decide)

theorem read_escaped (current : Pattern) (previous : Option Char) (cs : List Char) :
    read [] current previous (cs.flatMap escapedChar) = .ok (current ++ cs.map .literal) := by
  induction cs generalizing current previous with
  | nil =>
    rw [List.flatMap_nil, read]
    simp
  | cons c cs ih =>
    rw [List.flatMap_cons, read_escapedChar, ih, List.append_assoc, List.map_cons, List.singleton_append]

theorem parse_escaped (s : String) : parse (escaped s) = .ok (s.toList.map .literal) := by
  rw [parse, escaped, String.toList_ofList, read_escaped, List.nil_append]

theorem charBytes_eq (c : Char) : charBytes c = String.utf8EncodeChar c := by
  rw [charBytes, toList_toUTF8, String.toList_singleton, List.flatMap_singleton]

theorem toUTF8_eq_flatMap_charBytes_iff (s : String) (cs : List Char) :
    s.toUTF8.toList = cs.flatMap charBytes ↔ s = String.ofList cs := by
  have hBytes : ∀ t : String, t.toByteArray = (t.toList.flatMap String.utf8EncodeChar).toByteArray :=
    fun t => t.utf8Encode_toList.symm
  rw [toList_toUTF8, funext charBytes_eq, ← String.toByteArray_inj, hBytes, hBytes, String.toList_ofList]
  constructor
  · intro h
    rw [h]
  · intro h
    rw [← List.toList_data_toByteArray (l := s.toList.flatMap _), h, List.toList_data_toByteArray]

theorem stripBytes_eq_some_iff {front bytes rest : Bytes} :
    stripBytes front bytes = some rest ↔ bytes = front ++ rest := by
  induction front generalizing bytes with
  | nil => simp [stripBytes]
  | cons f front ih =>
    cases bytes with
    | nil => simp [stripBytes]
    | cons b bytes =>
      rw [stripBytes]
      split
      · rename_i hEq
        rw [ih, hEq, List.cons_append, List.cons.injEq, and_iff_right rfl]
      · rename_i hNe
        simp [Ne.symm hNe]

theorem mem_patternRests_literals_iff {cs : List Char} {texts : List Bytes} {rest : Bytes} :
    rest ∈ patternRests (cs.map .literal) texts ↔ cs.flatMap charBytes ++ rest ∈ texts := by
  induction cs generalizing texts with
  | nil => simp [patternRests]
  | cons c cs ih =>
    rw [List.map_cons, patternRests, ih, Part.rests, List.mem_filterMap]
    simp only [stripBytes_eq_some_iff, List.flatMap_cons, List.append_assoc]
    simp

theorem usesUp_literals_iff (cs : List Char) (bytes : Bytes) :
    Pattern.usesUp (cs.map .literal) bytes = true ↔ bytes = cs.flatMap charBytes := by
  rw [Pattern.usesUp]
  · rw [List.any_eq_true]
    simp only [List.isEmpty_iff, exists_eq_right, mem_patternRests_literals_iff, List.append_nil, List.mem_singleton]
    exact eq_comm
  · cases cs <;> simp

theorem literals?_literals (cs : List Char) : literals? (cs.map .literal) = some cs := by
  induction cs with
  | nil => rfl
  | cons c cs ih => rw [List.map_cons, literals?, ih, Option.map_some]

theorem asksForName_literals (cs : List Char) : Pattern.asksForName (cs.map .literal) = false := by
  cases cs with
  | nil => rfl
  | cons c cs =>
    have hAll := literals?_literals (c :: cs)
    rw [List.map_cons] at hAll ⊢
    simp [Pattern.asksForName, hAll]

theorem deepest_literals (cs : List Char) : deepest (cs.map .literal) = 0 := by
  induction cs with
  | nil => rfl
  | cons c cs ih => rw [List.map_cons, deepest, ih, Part.depth, Nat.max_self]

/-- Characters that stand for themselves match the text that they make up. -/
theorem anyMatches_singleton_iff {glob : String} {cs : List Char} (h : parse glob = .ok (cs.map .literal))
    (text : String) : anyMatches [glob] text = true ↔ text = String.ofList cs := by
  have hShallow : isShallow glob = true := by
    rw [isShallow, h]
    simp [Pattern.isShallow, deepest_literals, maxDepth]
  rw [anyMatches_eq_true_iff]
  simp only [List.mem_singleton, forall_eq, exists_eq_left, hShallow, true_and]
  rw [matchesText, h]
  simp only [Pattern.matchesBytes, asksForName_literals, Bool.false_and, Bool.not_false, Bool.and_true,
    usesUp_literals_iff, toUTF8_eq_flatMap_charBytes_iff]

theorem anyMatches_escaped_iff (s text : String) : anyMatches [escaped s] text = true ↔ text = s := by
  rw [anyMatches_singleton_iff (parse_escaped s), String.ofList_toList]

end PolicyLint.Glob
