import PolicyLint.Decimal.Bounds
import PolicyLint.Text.Quoted

/-!
# Version requirements

A requirement is a wildcard alone, or comparators between commas. A comparator has an optional operator and
a version whose minor and patch numbers may be missing or wildcards. Only spaces are skipped, and only before
the requirement, behind an operator, behind a comparator and behind a comma.
-/
namespace PolicyLint.Version
open Text
set_option autoImplicit false

inductive Part where
  | major | minor | patch | prerelease | build
  deriving DecidableEq, Repr

def Part.name : Part → String
  | major => "major version number"
  | minor => "minor version number"
  | patch => "patch version number"
  | prerelease => "pre-release identifier"
  | build => "build metadata"

inductive Fault where
  | unexpectedEnd (part : Part)
  | unexpectedChar (part : Part) (found : Char)
  | expectedComma (part : Part) (found : Char)
  | leadingZero (part : Part)
  | overflow (part : Part)
  | emptySegment (part : Part)
  | wildcardNotAlone (wildcard : Char)
  | afterWildcard
  | tooMany
  deriving DecidableEq, Repr

def Fault.message : Fault → String
  | unexpectedEnd p => "unexpected end of input while parsing " ++ p.name
  | unexpectedChar p c => "unexpected character " ++ quotedOne c ++ " while parsing " ++ p.name
  | expectedComma p c => "expected comma after " ++ p.name ++ ", found " ++ quotedOne c
  | leadingZero p => "invalid leading zero in " ++ p.name
  | overflow p => "value of " ++ p.name ++ " exceeds u64::MAX"
  | emptySegment p => "empty identifier segment in " ++ p.name
  | wildcardNotAlone c =>
    "wildcard req (" ++ String.singleton c ++ ") must be the only comparator in the version req"
  | afterWildcard => "unexpected character after wildcard in version req"
  | tooMany => "excessive number of version comparators"

inductive Operator where
  | exact | greater | greaterEqual | less | lessEqual | tilde | caret | wildcard
  deriving DecidableEq, Repr

structure Comparator where
  operator : Operator
  major : Nat
  minor : Option Nat
  patch : Option Nat
  prerelease : String
  deriving DecidableEq, Repr

def maxComparators : Nat := 32

def skipSpaces (cs : List Char) : List Char := cs.dropWhile (· == ' ')

def isWildcard (c : Char) : Bool := c == '*' || c == 'x' || c == 'X'

/-- An operator and what follows it; without one there is nothing to take. -/
def operatorOf : List Char → Option Operator × List Char
  | '=' :: cs => (some .exact, cs)
  | '>' :: '=' :: cs => (some .greaterEqual, cs)
  | '>' :: cs => (some .greater, cs)
  | '<' :: '=' :: cs => (some .lessEqual, cs)
  | '<' :: cs => (some .less, cs)
  | '~' :: cs => (some .tilde, cs)
  | '^' :: cs => (some .caret, cs)
  | cs => (none, cs)

/-- The further digits of a number of which one digit at least is read. -/
def numberFrom (part : Part) (value : Nat) : List Char → Except Fault (Nat × List Char)
  | [] => .ok (value, [])
  | c :: cs =>
    if c.isDigit then
      if value = 0 then .error (.leadingZero part)
      else
        let next := value * 10 + (c.toNat - 48)
        if next < Decimal.word64 then numberFrom part next cs else .error (.overflow part)
    else .ok (value, c :: cs)

def number (part : Part) : List Char → Except Fault (Nat × List Char)
  | [] => .error (.unexpectedEnd part)
  | c :: cs =>
    if c.isDigit then numberFrom part (c.toNat - 48) cs else .error (.unexpectedChar part c)

def isSegmentChar (c : Char) : Bool := c.isAlphanum || c == '-'

/-- Refuses a segment of digits that starts with a zero, where that matters. -/
def checkSegment (part : Part) (segment : List Char) : Except Fault Unit :=
  if part = .prerelease ∧ segment.all Char.isDigit ∧ segment.length > 1 ∧ segment.head? = some '0' then
    .error (.leadingZero part)
  else .ok ()

/-- The segments between points, none of them empty: `segment` holds what is read of the last one. -/
def segments (part : Part) (segment : List Char) : List Char → Except Fault (List Char × List Char)
  | [] => do
    if segment.isEmpty then throw (.emptySegment part)
    checkSegment part segment
    return (segment, [])
  | c :: cs =>
    if isSegmentChar c then segments part (segment ++ [c]) cs
    else do
      if segment.isEmpty then throw (.emptySegment part)
      checkSegment part segment
      if c = '.' then
        let (more, rest) ← segments part [] cs
        return (segment ++ '.' :: more, rest)
      else return (segment, c :: cs)

/-- A minor or patch number behind a point, or a wildcard in its place. -/
inductive Slot where
  | missing
  | any
  | is (value : Nat)

/-- A slot; behind a wildcard only a wildcard may come. -/
def slot (part : Part) (wildcardOnly : Bool) : List Char → Except Fault (Slot × List Char)
  | '.' :: cs =>
    match cs with
    | c :: rest =>
      if isWildcard c then .ok (.any, rest)
      else if wildcardOnly then .error .afterWildcard
      else (number part cs).map fun (n, rest) => (.is n, rest)
    | [] => if wildcardOnly then .error .afterWildcard else .error (.unexpectedEnd part)
  | cs => .ok (.missing, cs)

def Slot.value? : Slot → Option Nat
  | is n => some n
  | _ => none

def Slot.isAny : Slot → Bool
  | any => true
  | _ => false

def Slot.isMissing : Slot → Bool
  | missing => true
  | _ => false

/-- The pre-release behind a hyphen and the build data behind a plus sign, which only a full version may
have: the pre-release, the last part read and the rest. -/
def suffixes (cs : List Char) : Except Fault (String × Part × List Char) := do
  let (pre, part, cs) ←
    match cs with
    | '-' :: rest => do
      let (s, rest) ← segments .prerelease [] rest
      pure (String.ofList s, Part.prerelease, rest)
    | _ => pure ("", Part.patch, cs)
  match cs with
  | '+' :: rest => do
    let (_, rest) ← segments .build [] rest
    return (pre, .build, rest)
  | _ => return (pre, part, cs)

/-- A comparator, the last part it has, and the rest behind it. -/
def comparator (cs : List Char) : Except Fault (Comparator × Part × List Char) := do
  let (operator, cs) := operatorOf cs
  let (major, cs) ← number .major (skipSpaces cs)
  let (minor, cs) ← slot .minor false cs
  let (patch, cs) ← slot .patch minor.isAny cs
  let last : Part := if !patch.isMissing then .patch else if !minor.isMissing then .minor else .major
  let (pre, last, cs) ←
    match patch with
    | .is _ => suffixes cs
    | _ => pure ("", last, cs)
  let operator := operator.getD (if minor.isAny || patch.isAny then .wildcard else .caret)
  return (⟨operator, major, minor.value?, patch.value?, pre⟩, last, skipSpaces cs)

/-- A wildcard with nothing but spaces up to a comma or the end. -/
def loneWildcard? : List Char → Option Char
  | [] => none
  | c :: cs =>
    if isWildcard c && ((skipSpaces cs).isEmpty || (skipSpaces cs).head? == some ',') then some c else none

/-- The comparators between commas, of which `room` and one more may come. -/
def comparators : (room : Nat) → List Char → Except Fault (List Comparator)
  | room, cs =>
    match comparator cs with
    | .error fault =>
      match loneWildcard? cs with
      | some c => .error (.wildcardNotAlone c)
      | none => .error fault
    | .ok (c, last, rest) =>
      match rest with
      | [] => .ok [c]
      | d :: rest =>
        if d = ',' then
          match room with
          | 0 => .error .tooMany
          | room + 1 => (comparators room (skipSpaces rest)).map (c :: ·)
        else .error (.expectedComma last d)

def parse (s : String) : Except Fault (List Comparator) :=
  let cs := skipSpaces s.toList
  match cs with
  | c :: rest =>
    if isWildcard c then
      match skipSpaces rest with
      | [] => .ok []
      | d :: _ => if d = ',' then .error (.wildcardNotAlone c) else .error .afterWildcard
    else comparators (maxComparators - 1) cs
  | [] => comparators (maxComparators - 1) cs

end PolicyLint.Version
