import PolicyLint.Glob.FileName
import PolicyLint.Glob.Nesting

/-!
# Matching globs

A pattern is matched against the bytes of a whole text. Each part takes some bytes from the front; what may
be left is computed for all ways at once, so that no choice has to be undone. What may be left are tails of
one text, and they stand in a row from the longest to the shortest.
-/
namespace PolicyLint.Glob
set_option autoImplicit false

abbrev Bytes := List UInt8

def charBytes (c : Char) : Bytes := (String.singleton c).toUTF8.toList

def slash : UInt8 := 47

def stripBytes : (front bytes : Bytes) → Option Bytes
  | [], bytes => some bytes
  | _ :: _, [] => none
  | f :: fs, b :: bs => if f = b then stripBytes fs bs else none

def stripByte (fits : UInt8 → Bool) : Bytes → Option Bytes
  | [] => none
  | b :: bs => if fits b then some bs else none

/-- The text itself and everything left when bytes are taken from its front. -/
def tails : Bytes → List Bytes
  | [] => [[]]
  | b :: bs => (b :: bs) :: tails bs

def afterSlashes : Bytes → List Bytes
  | [] => []
  | b :: bs => if b = slash then bs :: afterSlashes bs else afterSlashes bs

/-- Two rows of tails of one text as a single row. -/
def union : List Bytes → List Bytes → List Bytes
  | [], others => others
  | texts, [] => texts
  | text :: texts, other :: others =>
    if other.length < text.length then text :: union texts (other :: others)
    else if text.length < other.length then other :: union (text :: texts) others
    else text :: union texts others
termination_by texts others => texts.length + others.length

/-- What is left behind any number of bytes, of some texts. -/
def behindAnything : List Bytes → List Bytes
  | [] => []
  | longest :: _ => tails longest

/-- What is left behind any number of directories, of some texts. -/
def behindDirs : List Bytes → List Bytes
  | [] => []
  | longest :: texts => union (longest :: texts) (afterSlashes longest)

/-- Whether a byte belongs to a class. A character that is no ASCII stands for its bytes, and a range
goes from the last byte of its lower end to the first byte of its upper one. -/
def inRanges (b : UInt8) (ranges : List (Char × Char)) : Bool :=
  ranges.any fun (low, high) =>
    if low = high then (charBytes low).contains b
    else
      let lows := charBytes low
      let highs := charBytes high
      lows.dropLast.contains b || highs.tail.contains b ||
        (match lows.getLast?, highs.head? with
          | some l, some h => l ≤ b && b ≤ h
          | _, _ => false)

mutual

def Part.rests : Part → List Bytes → List Bytes
  | .literal c, texts => texts.filterMap (stripBytes (charBytes c))
  | .anyByte, texts => texts.filterMap (stripByte fun _ => true)
  | .anything, texts => behindAnything texts
  | .leadingDirs, texts => behindDirs texts
  | .trailingDirs, texts => behindAnything (texts.filterMap (stripByte (· == slash)))
  | .innerDirs, texts => behindDirs (texts.filterMap (stripByte (· == slash)))
  | .oneOf negated ranges, texts => texts.filterMap (stripByte fun b => inRanges b ranges != negated)
  | .choice [], texts => texts
  | .choice (branch :: branches), texts =>
    union (patternRests branch texts) (branchRests branches texts)

def branchRests : List (List Part) → List Bytes → List Bytes
  | [], _ => []
  | branch :: branches, texts => union (patternRests branch texts) (branchRests branches texts)

def patternRests : List Part → List Bytes → List Bytes
  | [], texts => texts
  | part :: parts, texts => patternRests parts (part.rests texts)

end

/-- Whether the parts of a pattern use up a text. Two stars alone match every text. -/
def Pattern.usesUp (p : Pattern) (bytes : Bytes) : Bool :=
  match p with
  | [.leadingDirs] => true
  | _ => (patternRests p [bytes]).any List.isEmpty

/-- Whether a pattern matches a text. One that asks for a name does not match a step up. -/
def Pattern.matchesBytes (p : Pattern) (bytes : Bytes) : Bool :=
  p.usesUp bytes && !(p.asksForName && endsInStepUp bytes)

/-- Whether a written pattern matches a text. A text that is no pattern matches nothing. -/
def matchesText (glob text : String) : Bool :=
  match parse glob with
  | .ok p => Pattern.matchesBytes p text.toUTF8.toList
  | .error _ => false

/-- Whether a written pattern can be compiled. A text that is no pattern is passed over. -/
def isShallow (glob : String) : Bool :=
  match parse glob with
  | .ok p => p.isShallow
  | .error _ => true

/-- Whether one of some written patterns matches a text. The patterns are compiled together, so a single
one that nests too deeply leaves the others without effect. -/
def anyMatches (globs : List String) (text : String) : Bool :=
  globs.all isShallow && globs.any (matchesText · text)

theorem anyMatches_eq_true_iff (globs : List String) (text : String) :
    anyMatches globs text = true ↔
      (∀ g ∈ globs, isShallow g = true) ∧ ∃ g ∈ globs, matchesText g text = true := by
  simp [anyMatches]

/-- Each of two parts of a list of globs needs the other one to be compiled. -/
theorem anyMatches_append (globs globs' : List String) (text : String) : anyMatches (globs ++ globs') text =
    (globs'.all isShallow && anyMatches globs text || globs.all isShallow && anyMatches globs' text) := by
  rw [anyMatches, anyMatches, anyMatches, List.all_append, List.any_append]
  cases globs.all isShallow <;> cases globs'.all isShallow <;> simp

end PolicyLint.Glob
