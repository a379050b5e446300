import PolicyLint.Proofs.Json.Numbers
import PolicyLint.Proofs.Json.Strings

/-!
# What readers find

What each reader of values finds once it is known what stands behind the next blanks. Readers of lists take
one element or member at a time.
-/
namespace PolicyLint.Json
open Text
set_option autoImplicit false

theorem skipSpace_cons {c : Char} (h : isSpace c = false) (cs : List Char) : skipSpace (c :: cs) = c :: cs :=
  List.dropWhile_cons_of_neg (by simp [h])

section Lists

variable {element : Take Value} {cs mid more tail rest : List Char} {v : Value} {vs : List Value}
  {m : String × Value} {ms : List (String × Value)} {c : Char}

theorem reads_lastItem (h : Reads element cs v mid) (hClose : skipSpace mid = ']' :: rest) :
    Reads (items element) cs [v] rest := by
  obtain ⟨t, hRead, rfl, rfl⟩ := h
  rw [Reads, items]
  simp only [hRead, bind, Except.bind]
  split
  · rename_i hNil
    cases hClose.symm.trans hNil
  · rename_i c more hCons
    cases hClose.symm.trans hCons
    exact ⟨_, if_pos rfl, rfl, rfl⟩

theorem reads_nextItem (h : Reads element cs v mid) (hComma : skipSpace mid = ',' :: more)
    (hMore : skipSpace more = c :: tail) (hClose : c ≠ ']') (hOthers : Reads (items element) (c :: tail) vs rest) :
    Reads (items element) cs (v :: vs) rest := by
  obtain ⟨t, hRead, rfl, rfl⟩ := h
  rw [← hMore] at hOthers
  obtain ⟨u, hReadOthers, rfl, rfl⟩ := hOthers
  rw [Reads, items]
  simp only [hRead, bind, Except.bind]
  split
  · rename_i hNil
    cases hComma.symm.trans hNil
  · rename_i d back hCons
    cases hComma.symm.trans hCons
    rw [if_neg (by decide), if_pos rfl]
    split
    · rename_i hNil
      cases hMore.symm.trans hNil
    · rename_i d back hCons'
      cases hMore.symm.trans hCons'
      rw [if_neg hClose, hReadOthers]
      exact ⟨_, rfl, rfl, rfl⟩

theorem reads_member {key : String} (hKey : Reads stringBody cs key.toList mid)
    (hColon : skipSpace mid = ':' :: more) (h : Reads element (skipSpace more) v rest) :
    Reads (member element) cs (key, v) rest := by
  obtain ⟨k, hReadKey, hChars, rfl⟩ := hKey
  obtain ⟨t, hRead, rfl, rfl⟩ := h
  rw [Reads, member]
  simp only [hReadKey, bind, Except.bind]
  split
  · rename_i hNil
    cases hColon.symm.trans hNil
  · rename_i c back hCons
    cases hColon.symm.trans hCons
    rw [if_pos rfl, hRead]
    refine ⟨_, rfl, ?_, rfl⟩
    rw [hChars, String.ofList_toList]

theorem reads_lastMember (h : Reads (member element) cs m mid) (hClose : skipSpace mid = '\x7d' :: rest) :
    Reads (members element) cs [m] rest := by
  obtain ⟨t, hRead, rfl, rfl⟩ := h
  rw [Reads, members]
  simp only [hRead, bind, Except.bind]
  split
  · rename_i hNil
    cases hClose.symm.trans hNil
  · rename_i c more hCons
    cases hClose.symm.trans hCons
    exact ⟨_, if_pos rfl, rfl, rfl⟩

theorem reads_nextMember (h : Reads (member element) cs m mid) (hComma : skipSpace mid = ',' :: more)
    (hQuote : skipSpace more = '"' :: tail) (hOthers : Reads (members element) tail ms rest) :
    Reads (members element) cs (m :: ms) rest := by
  obtain ⟨t, hRead, rfl, rfl⟩ := h
  obtain ⟨u, hReadOthers, rfl, rfl⟩ := hOthers
  rw [Reads, members]
  simp only [hRead, bind, Except.bind]
  split
  · rename_i hNil
    cases hComma.symm.trans hNil
  · rename_i d back hCons
    cases hComma.symm.trans hCons
    rw [if_neg (by decide), if_pos rfl]
    split
    · rename_i hNil
      cases hQuote.symm.trans hNil
    · rename_i d back hCons'
      cases hQuote.symm.trans hCons'
      rw [if_pos rfl, hReadOthers]
      exact ⟨_, rfl, rfl, rfl⟩

theorem reads_emptyArray (hClose : skipSpace cs = ']' :: rest) : Reads (arrayBody element) cs (.array []) rest := by
  rw [Reads, arrayBody]
  split
  · rename_i hNil
    cases hClose.symm.trans hNil
  · rename_i c more hCons
    cases hClose.symm.trans hCons
    exact ⟨_, if_pos rfl, rfl, rfl⟩

theorem reads_arrayBody (hMore : skipSpace cs = c :: tail) (hClose : c ≠ ']')
    (h : Reads (items element) (c :: tail) vs rest) : Reads (arrayBody element) cs (.array vs) rest := by
  obtain ⟨t, hRead, rfl, rfl⟩ := h
  rw [Reads, arrayBody]
  split
  · rename_i hNil
    cases hMore.symm.trans hNil
  · rename_i d more hCons
    cases hMore.symm.trans hCons
    simp only [if_neg hClose, hRead]
    exact ⟨_, rfl, rfl, rfl⟩

theorem reads_emptyObject (hClose : skipSpace cs = '\x7d' :: rest) :
    Reads (objectBody element) cs (.object []) rest := by
  rw [Reads, objectBody]
  split
  · rename_i hNil
    cases hClose.symm.trans hNil
  · rename_i c more hCons
    cases hClose.symm.trans hCons
    exact ⟨_, if_pos rfl, rfl, rfl⟩

theorem reads_objectBody (hQuote : skipSpace cs = '"' :: tail) (h : Reads (members element) tail ms rest) :
    Reads (objectBody element) cs (.ofMembers ms) rest := by
  obtain ⟨t, hRead, rfl, rfl⟩ := h
  rw [Reads, objectBody]
  split
  · rename_i hNil
    cases hQuote.symm.trans hNil
  · rename_i d more hCons
    cases hQuote.symm.trans hCons
    rw [if_neg (by decide), if_pos rfl, hRead]
    exact ⟨_, rfl, rfl, rfl⟩

end Lists

theorem reads_array {element : Take Value} {cs rest : List Char} {v : Value}
    (h : Reads (arrayBody element) cs v rest) : Reads (valueWith (some element)) ('[' :: cs) v rest := by
  obtain ⟨t, hRead, hValue, hRest⟩ := h
  have hOpen : valueWith (some element) ('[' :: cs) = (arrayBody element cs).map (·.lift (Nat.le_succ _)) := rfl
  rw [Reads, hOpen, hRead]
  exact ⟨_, rfl, hValue, hRest⟩

theorem reads_object {element : Take Value} {cs rest : List Char} {v : Value}
    (h : Reads (objectBody element) cs v rest) : Reads (valueWith (some element)) ('\x7b' :: cs) v rest := by
  obtain ⟨t, hRead, hValue, hRest⟩ := h
  have hOpen : valueWith (some element) ('\x7b' :: cs) = (objectBody element cs).map (·.lift (Nat.le_succ _)) := rfl
  rw [Reads, hOpen, hRead]
  exact ⟨_, rfl, hValue, hRest⟩

theorem reads_keyword (v : Value) (first : Char) (others rest : List Char) :
    Reads (keyword v first others) (first :: (others ++ rest)) v rest := by
  induction others generalizing first with
  | nil => exact ⟨_, if_pos rfl, rfl, rfl⟩
  | cons next others ih =>
    obtain ⟨t, hRead, hValue, hRest⟩ := ih next
    have hNext : keyword v first (next :: others) (first :: ((next :: others) ++ rest)) =
        (keyword v next others (next :: (others ++ rest))).map (·.lift (Nat.le_succ _)) := if_pos rfl
    rw [Reads, hNext, hRead]
    exact ⟨_, rfl, hValue, hRest⟩

/-- The reader of the elements of a value that nests `room` levels deep. -/
def inner : (room : Nat) → Option (Take Value)
  | 0 => none
  | room + 1 => some (value room)

theorem value_eq_valueWith (room : Nat) : value room = valueWith (inner room) := by
  cases room <;> rfl

end PolicyLint.Json
