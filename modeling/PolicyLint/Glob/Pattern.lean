import PolicyLint.Text.Taken

/-!
# Glob patterns

The written form of patterns. A star matches anything, a question mark one byte, brackets one byte of a
class, and braces one of several patterns. Two stars are special only as a whole component between slashes.
-/
namespace PolicyLint.Glob
open Text
set_option autoImplicit false

inductive Fault where
  | unclosedClass
  | invalidRange (low high : Char)
  | unopenedGroup
  | unclosedGroup
  | danglingEscape
  deriving DecidableEq, Repr

def Fault.message : Fault → String
  | unclosedClass => "unclosed character class; missing ']'"
  | invalidRange low high =>
    "invalid range; '" ++ String.singleton low ++ "' > '" ++ String.singleton high ++ "'"
  | unopenedGroup =>
    "unopened alternate group; missing '\x7b' (maybe escape '\x7d' with '[\x7d]'?)"
  | unclosedGroup =>
    "unclosed alternate group; missing '\x7d' (maybe escape '\x7b' with '[\x7b]'?)"
  | danglingEscape => "dangling '\\'"

inductive Part where
  | literal (c : Char)
  | anyByte
  | anything
  /-- Any directories at the start, each with its slash, or none. -/
  | leadingDirs
  /-- A slash and anything behind it. -/
  | trailingDirs
  /-- One slash, or two with anything between them. -/
  | innerDirs
  | oneOf (negated : Bool) (ranges : List (Char × Char))
  /-- One of some patterns, none of which matches only the empty text; no pattern at all matches that. -/
  | choice (branches : List (List Part))
  deriving Repr, Inhabited

abbrev Pattern := List Part

/-- A part that can match nothing but the empty text. -/
def Part.isSilent : Part → Bool
  | choice [] => true
  | _ => false

/-- Extends the last range up to `c`. -/
def extendRange (c : Char) : List (Char × Char) → Except Fault (List (Char × Char))
  | [] => .ok [(c, c)]
  | (low, _) :: ranges => if c < low then .error (.invalidRange low c) else .ok ((low, c) :: ranges)

/-- The ranges of a class up to its closing bracket, the last one first. A hyphen between two characters
makes a range; a bracket in first place and a hyphen in first or last place stand for themselves. -/
def classBody (ranges : List (Char × Char)) (first inRange : Bool) :
    (cs : List Char) → Except Fault (Taken (List (Char × Char)) cs)
  | [] => .error .unclosedClass
  | c :: cs =>
    if c = ']' && !first then
      .ok (.of (if inRange then ('-', '-') :: ranges else ranges) c cs)
    else if c = '-' && !first && !inRange then
      (classBody ranges false true cs).map (·.lift (by simp))
    else if inRange then do
      let ranges ← extendRange c ranges
      return (← classBody ranges false false cs).lift (by simp)
    else (classBody ((c, c) :: ranges) false false cs).map (·.lift (by simp))

def classPart (cs : List Char) : Except Fault (Taken Part cs) :=
  match cs with
  | '!' :: rest => (classBody [] true false rest).map fun t =>
    (t.map fun ranges => .oneOf true ranges.reverse).lift (by simp)
  | '^' :: rest => (classBody [] true false rest).map fun t =>
    (t.map fun ranges => .oneOf true ranges.reverse).lift (by simp)
  | rest => (classBody [] true false rest).map fun t => t.map fun ranges => .oneOf false ranges.reverse

/-- A group of alternatives that is still open: the pattern before it and its finished branches. -/
structure OpenGroup where
  outer : Pattern
  branches : List Pattern

/-- What two stars stand for: the pattern so far with them, and the text behind them. -/
structure Stars where
  pattern : Pattern
  previous : Char
  rest : List Char

/-- The part that two stars between slashes put in place of the slash before them. -/
def joinDirs (current : Pattern) (atEnd : Bool) : Pattern :=
  match current.getLast? with
  | some .leadingDirs => current
  | some .trailingDirs => current
  | _ => current.dropLast ++ [if atEnd then .trailingDirs else .innerDirs]

/-- Two stars between `previous` and `rest`. -/
def doubleStar (current : Pattern) (inGroup : Bool) (previous : Option Char) (rest : List Char) : Stars :=
  let plain : Stars := ⟨current ++ [.anything, .anything], '*', rest⟩
  if current.isEmpty then
    match rest with
    | [] => ⟨[.leadingDirs], '*', rest⟩
    | c :: more => if c = '/' then ⟨[.leadingDirs], '/', more⟩ else plain
  else if previous ≠ some '/' && !(inGroup && (previous == some ',' || previous == some '{')) then plain
  else
    match rest with
    | [] => ⟨joinDirs current true, '*', rest⟩
    | c :: more =>
      if inGroup && (c == ',' || c == '}') then ⟨joinDirs current true, '*', rest⟩
      else if c = '/' then ⟨joinDirs current false, '/', more⟩
      else plain

theorem length_doubleStar_le (current : Pattern) (inGroup : Bool) (previous : Option Char)
    (rest : List Char) : (doubleStar current inGroup previous rest).rest.length ≤ rest.length := by
  unfold doubleStar
  dsimp only
  split
  · split
    · simp
    · split <;> simp
  · split
    · simp
    · split
      · simp
      · split
        · simp
        · split <;> simp

/-- Closes a branch: one that matches only the empty text is left out. -/
def addBranch (branches : List Pattern) (branch : Pattern) : List Pattern :=
  if branch.all Part.isSilent then branches else branches ++ [branch]

/-- Reads a pattern. `groups` are the open groups, the innermost first; `current` is the branch being
read; `previous` is the character before `cs`. -/
def read (groups : List OpenGroup) (current : Pattern) (previous : Option Char) (cs : List Char) :
    Except Fault Pattern :=
  match cs with
  | [] => if groups.isEmpty then .ok current else .error .unclosedGroup
  | '?' :: rest => read groups (current ++ [.anyByte]) (some '?') rest
  | '*' :: '*' :: rest =>
    let stars := doubleStar current (!groups.isEmpty) previous rest
    read groups stars.pattern (some stars.previous) stars.rest
  | '*' :: rest => read groups (current ++ [.anything]) (some '*') rest
  | '[' :: rest => do
    let t ← classPart rest
    read groups (current ++ [t.value]) (some ']') t.rest
  | '{' :: rest => read (⟨current, []⟩ :: groups) [] (some '{') rest
  | '}' :: rest =>
    match groups with
    | [] => .error .unopenedGroup
    | group :: groups =>
      read groups (group.outer ++ [.choice (addBranch group.branches current)]) (some '}') rest
  | ',' :: rest =>
    match groups with
    | [] => read groups (current ++ [.literal ',']) (some ',') rest
    | group :: groups =>
      read (⟨group.outer, addBranch group.branches current⟩ :: groups) [] (some ',') rest
  | '\\' :: c :: rest => read groups (current ++ [.literal c]) (some c) rest
  | ['\\'] => .error .danglingEscape
  | c :: rest => read groups (current ++ [.literal c]) (some c) rest
termination_by cs.length
decreasing_by
  all_goals first
    | exact Nat.lt_succ_self _
    | exact Nat.lt_succ_of_lt (Nat.lt_succ_self _)
    | exact Nat.lt_succ_of_lt t.shorter
    | exact Nat.lt_succ_of_lt (Nat.lt_succ_of_le (length_doubleStar_le _ _ _ _))

def parse (s : String) : Except Fault Pattern := read [] [] none s.toList

end PolicyLint.Glob
