import PolicyLint.Json.NumberReader
import PolicyLint.Text.Taken

/-!
# Reading JSON

A text holds one value between blanks. Arrays and objects nest to `maxNesting` levels. The first fault from
the front counts.
-/
namespace PolicyLint.Json
open Text
set_option autoImplicit false

def maxNesting : Nat := 127

abbrev Take (α : Type) := (cs : List Char) → Except Stop (Taken α cs)

def isSpace (c : Char) : Bool := c == ' ' || c == '\n' || c == '\t' || c == '\r'

def skipSpace (cs : List Char) : List Char := cs.dropWhile isSpace

theorem length_skipSpace_le (cs : List Char) : (skipSpace cs).length ≤ cs.length :=
  (List.dropWhile_suffix _).length_le

def hexOf? (c : Char) : Option Nat :=
  if '0' ≤ c ∧ c ≤ '9' then some (c.toNat - 48)
  else if 'a' ≤ c ∧ c ≤ 'f' then some (c.toNat - 87)
  else if 'A' ≤ c ∧ c ≤ 'F' then some (c.toNat - 55)
  else none

/-- The code unit that four digits stand for. -/
def unit? : List Char → Option Nat
  | [a, b, c, d] => do
    let a ← hexOf? a
    let b ← hexOf? b
    let c ← hexOf? c
    let d ← hexOf? d
    return ((a * 16 + b) * 16 + c) * 16 + d
  | _ => none

/-- The code unit in the next four bytes. -/
def codeUnit (cs : List Char) : Except Stop Nat :=
  match unit? (cs.take 4) with
  | some u => .ok u
  | none =>
    if byteLength cs < 4 then .error (Cause.endInString.before [])
    else .error ⟨.escape, byteLength cs - 4⟩

/-- The backslash and the letter before the second half of a pair. -/
def pairMark : List Char → List Char → Except Stop (List Char)
  | [], cs => .ok cs
  | _ :: _, [] => .error (Cause.endInString.before [])
  | m :: marks, c :: cs => if c = m then pairMark marks cs else .error (Cause.halfPair.at_ (c :: cs))

/-- The character of an escape behind `\u`, and how many characters it takes. Code units of a pair must come
as a pair. -/
def escapedUnits (cs : List Char) : Except Stop (Char × Nat) := do
  let high ← codeUnit cs
  if 0xDC00 ≤ high ∧ high ≤ 0xDFFF then .error (Cause.loneSurrogate.before (cs.drop 4))
  else if 0xD800 ≤ high ∧ high ≤ 0xDBFF then
    let more ← pairMark ['\\', 'u'] (cs.drop 4)
    let low ← codeUnit more
    if 0xDC00 ≤ low ∧ low ≤ 0xDFFF then
      .ok (Char.ofNat (0x10000 + (high - 0xD800) * 0x400 + (low - 0xDC00)), 10)
    else .error (Cause.loneSurrogate.before (more.drop 4))
  else .ok (Char.ofNat high, 4)

/-- The character of an escape behind its backslash, and how many characters it takes. -/
def escaped (cs : List Char) : Except Stop (Char × Nat) :=
  match cs with
  | [] => .error (Cause.endInString.before [])
  | '"' :: _ => .ok ('"', 1)
  | '\\' :: _ => .ok ('\\', 1)
  | '/' :: _ => .ok ('/', 1)
  | 'b' :: _ => .ok ('\x08', 1)
  | 'f' :: _ => .ok ('\x0c', 1)
  | 'n' :: _ => .ok ('\n', 1)
  | 'r' :: _ => .ok ('\r', 1)
  | 't' :: _ => .ok ('\t', 1)
  | 'u' :: rest => do
    let (c, n) ← escapedUnits rest
    return (c, n + 1)
  | cs => .error (Cause.escape.at_ cs)

/-- The characters of a string behind its opening quote, and what follows the closing one. -/
def stringBody (cs : List Char) : Except Stop (Taken (List Char) cs) :=
  match cs with
  | [] => .error (Cause.endInString.before [])
  | c :: rest =>
    if c = '"' then .ok (.of [] c rest)
    else if c = '\\' then
      match escaped rest with
      | .ok (d, n) => (stringBody (rest.drop n)).map fun t =>
        (t.map (d :: ·)).lift (Nat.le_succ_of_le (List.drop_sublist n rest).length_le)
      | .error stop => .error stop
    else if c.toNat < 0x20 then .error (Cause.control.before rest)
    else (stringBody rest).map fun t => (t.map (c :: ·)).lift (Nat.le_succ _)
termination_by cs.length
decreasing_by
  · exact Nat.lt_succ_of_le (List.drop_sublist n rest).length_le
  · exact Nat.lt_succ_self _

/-- A value whose word is the first letter and the others. -/
def keyword (v : Value) (first : Char) (others : List Char) : Take Value := fun cs =>
  match cs with
  | [] => .error (Cause.endInValue.before [])
  | c :: rest =>
    if c = first then
      match others with
      | [] => .ok (.of v c rest)
      | next :: others => (keyword v next others rest).map (·.lift (Nat.le_succ _))
    else .error (Cause.noWord.at_ (c :: rest))

def number : Take Value := fun cs =>
  match readNumber cs with
  | .ok (n, rest) =>
    if h : rest.length < cs.length then .ok ⟨.number n, rest, h⟩ else .error (Cause.number.at_ cs)
  | .error stop => .error stop

/-- The elements of an array from the first element on. -/
def items (element : Take Value) (cs : List Char) : Except Stop (Taken (List Value) cs) := do
  let first ← element cs
  match h : skipSpace first.rest with
  | [] => .error (Cause.endInList.before [])
  | c :: rest =>
    have shorter : rest.length < cs.length := by
      have := length_skipSpace_le first.rest
      have := first.shorter
      simp [h] at *
      omega
    if c = ']' then .ok ⟨[first.value], rest, shorter⟩
    else if c = ',' then
      have fewer : (skipSpace rest).length < cs.length := Nat.lt_of_le_of_lt (length_skipSpace_le rest) shorter
      match skipSpace rest with
      | [] => .error (Cause.endInValue.before [])
      | d :: more =>
        if d = ']' then .error (Cause.trailingComma.at_ (d :: more))
        else do
          let others ← items element (skipSpace rest)
          return (others.map (first.value :: ·)).lift (Nat.le_of_lt fewer)
    else .error (Cause.noListComma.at_ (c :: rest))
termination_by cs.length

/-- A key without its opening quote, a colon and a value. -/
def member (element : Take Value) : Take (String × Value) := fun cs => do
  let key ← stringBody cs
  match h : skipSpace key.rest with
  | [] => .error (Cause.endInObject.before [])
  | c :: rest =>
    if c = ':' then do
      let v ← element (skipSpace rest)
      return ⟨(String.ofList key.value, v.value), v.rest, by
        have := length_skipSpace_le key.rest
        have := length_skipSpace_le rest
        have := key.shorter
        have := v.shorter
        simp [h] at *
        omega⟩
    else .error (Cause.noColon.at_ (c :: rest))

/-- The members of an object from behind the opening quote of the first key on. -/
def members (element : Take Value) (cs : List Char) :
    Except Stop (Taken (List (String × Value)) cs) := do
  let first ← member element cs
  match h : skipSpace first.rest with
  | [] => .error (Cause.endInObject.before [])
  | c :: rest =>
    have shorter : rest.length < cs.length := by
      have := length_skipSpace_le first.rest
      have := first.shorter
      simp [h] at *
      omega
    if c = '\x7d' then .ok ⟨[first.value], rest, shorter⟩
    else if c = ',' then
      match h' : skipSpace rest with
      | [] => .error (Cause.endInValue.before [])
      | d :: more =>
        have fewer : more.length < cs.length := by
          have := length_skipSpace_le rest
          simp [h'] at *
          omega
        if d = '"' then do
          let others ← members element more
          return (others.map (first.value :: ·)).lift (Nat.le_of_lt fewer)
        else if d = '\x7d' then .error (Cause.trailingComma.at_ (d :: more))
        else .error (Cause.keyNotString.at_ (d :: more))
    else .error (Cause.noObjectComma.at_ (c :: rest))
termination_by cs.length

def arrayBody (element : Take Value) : Take Value := fun cs =>
  match h : skipSpace cs with
  | [] => .error (Cause.endInList.before [])
  | c :: rest =>
    have : (c :: rest).length ≤ cs.length := h ▸ length_skipSpace_le cs
    if c = ']' then .ok ((Taken.of (.array []) c rest).lift this)
    else (items element (c :: rest)).map fun t => (t.map .array).lift this

def objectBody (element : Take Value) : Take Value := fun cs =>
  match h : skipSpace cs with
  | [] => .error (Cause.endInObject.before [])
  | c :: rest =>
    have : (c :: rest).length ≤ cs.length := h ▸ length_skipSpace_le cs
    if c = '\x7d' then .ok ((Taken.of (.object []) c rest).lift this)
    else if c = '"' then
      (members element rest).map fun t => (t.map .ofMembers).lift (Nat.le_of_succ_le this)
    else .error (Cause.keyNotString.at_ (c :: rest))

/-- A value without blanks before it; arrays and objects are read by `inside`, if a further level is
allowed. -/
def valueWith (inside : Option (Take Value)) : Take Value := fun cs =>
  match cs with
  | [] => .error (Cause.endInValue.before [])
  | c :: rest =>
    if c = '"' then
      (stringBody rest).map fun t => (t.map fun s => .string (String.ofList s)).lift (Nat.le_succ _)
    else if c = 't' then (keyword (.boolean true) 'r' ['u', 'e'] rest).map (·.lift (Nat.le_succ _))
    else if c = 'f' then (keyword (.boolean false) 'a' ['l', 's', 'e'] rest).map (·.lift (Nat.le_succ _))
    else if c = 'n' then (keyword .null 'u' ['l', 'l'] rest).map (·.lift (Nat.le_succ _))
    else if c = '-' ∨ c.isDigit then number (c :: rest)
    else if c = '[' ∨ c = '\x7b' then
      match inside with
      | none => .error (Cause.tooDeep.at_ (c :: rest))
      | some element =>
        (if c = '[' then arrayBody element rest else objectBody element rest).map
          (·.lift (Nat.le_succ _))
    else .error (Cause.noValue.at_ (c :: rest))

/-- A value with at most `room` further levels of nesting. -/
def value : (room : Nat) → Take Value
  | 0 => valueWith none
  | room + 1 => valueWith (some (value room))

def readAll (cs : List Char) : Except Stop Value := do
  let v ← value maxNesting (skipSpace cs)
  match skipSpace v.rest with
  | [] => return v.value
  | rest => .error (Cause.trailing.at_ rest)

def parse (s : String) : Except Fault Value := (readAll s.toList).mapError (·.locate s.toList)

end PolicyLint.Json
