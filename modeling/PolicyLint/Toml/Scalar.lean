import PolicyLint.Toml.Number
import PolicyLint.Toml.Moment
import PolicyLint.Toml.Node

/-!
# Single values and keys in TOML

What one token, or a few words in a row, stands for. An unquoted value is first taken for what its first
characters make it look like; faults are then those of a value of that kind.
-/
namespace PolicyLint.Toml
open Text Decimal
set_option autoImplicit false

inductive Look where
  | boolean (value : Bool)
  | infinite
  | nan
  | whole (base : Nat)
  | real
  | moment
  deriving DecidableEq, Repr

structure Bare where
  start : Nat
  text : List Char
  deriving DecidableEq, Repr

namespace Bare

def span (b : Bare) : Span := ⟨b.start, b.start + byteLength b.text⟩

def endsWith (tail cs : List Char) : Bool := tail.reverse.isPrefixOf cs.reverse

/-- The quotes that may end a text whose opening ones are missing, the longest first. -/
def closings : List String := ["'''", "\"\"\"", "'", "\""]

/-- The fault of what looks like no value at all: perhaps a text that should stand in quotes. -/
def unknown (b : Bare) : Fault :=
  match closings.find? (fun quote => endsWith quote.toList b.text) with
  | some quote => .before b.start (.quoteNotOpened quote)
  | none => ⟨b.span, .notQuoted⟩

/-- The rest of a value behind its first `n` characters, which are ASCII. -/
def drop (n : Nat) (b : Bare) : Bare := ⟨b.start + n, b.text.drop n⟩

/-- What a text of digits and more is. -/
def lookOfDigits (all b : Bare) : Except Fault Look :=
  match b.text.dropWhile Char.isDigit with
  | [] => do
    checkLeadingZero b.start b.text
    return .whole 10
  | c :: rest =>
    if c = '-' ∨ c = ':' then .ok .moment
    else if (c :: rest).contains ' ' then .error all.unknown
    else if (c :: rest).any (fun d => d == '.' || d == 'e' || d == 'E') then do
      checkFloat b.start b.text
      return .real
    else if c = '_' then do
      checkLeadingZero b.start b.text
      return .whole 10
    else .error all.unknown

/-- The bases other than ten: the letter that marks them and what their numbers are called. -/
def bases : List (Char × Nat × String) := [('x', 16, "hexadecimal"), ('o', 8, "octal"), ('b', 2, "binary")]

/-- What a text that starts with a zero is. Only without a sign may it be to another base. -/
def lookOfZero (all b : Bare) : Except Fault Look :=
  match b.text.drop 1 with
  | [] => .ok (.whole 10)
  | c :: ds =>
    let mark : Span := ⟨b.start, b.start + 2⟩
    match bases.find? (fun base => base.1 == c.toLower) with
    | some (letter, base, kind) =>
      if all.start < b.start then .error ⟨⟨all.start, all.start + 1⟩, .signedBase⟩
      else if c ≠ letter then .error ⟨mark, .capitalBase (String.ofList ['0', letter])⟩
      else do
        checkBased base kind (b.start + 2) ds
        return .whole base
    | none => if c = 'd' ∨ c = 'D' then .error ⟨mark, .needlessBase⟩ else lookOfDigits all b

/-- A value that must be one of the words of the language. -/
def lookOfWord (all b : Bare) (kind word : String) (look : Look) : Except Fault Look :=
  if b.text = word.toList then .ok look
  else if all.start = b.start ∧ b.text.contains ' ' then .error all.unknown
  else .error ⟨b.span, .wrongWord kind word⟩

/-- What a number without its sign is. -/
def lookOfNumber (all b : Bare) : Except Fault Look :=
  match b.text with
  | [] => .error all.unknown
  | c :: _ =>
    if c = '0' then lookOfZero all b
    else if c.isDigit ∨ c = '_' then lookOfDigits all b
    else if c = '.' then do
      checkFloat b.start b.text
      return .real
    else if c = 'i' ∨ c = 'I' then lookOfWord all b "float" "inf" .infinite
    else if c = 'n' ∨ c = 'N' then lookOfWord all b "float" "nan" .nan
    else .error all.unknown

/-- What an unquoted value looks like, if it is a right one of that kind. -/
def look (b : Bare) : Except Fault Look :=
  match b.text with
  | [] => .error b.unknown
  | c :: rest =>
    if c = '+' ∨ c = '-' then
      if rest.head? = some '+' ∨ rest.head? = some '-' then
        .error ⟨⟨b.start + 1, b.start + 2⟩, .extraSign⟩
      else lookOfNumber b (b.drop 1)
    else if c = 't' ∨ c = 'T' then lookOfWord b b "boolean" "true" (.boolean true)
    else if c = 'f' ∨ c = 'F' then lookOfWord b b "boolean" "false" (.boolean false)
    else lookOfNumber b b

def node (b : Bare) : Except Fault Node := do
  match ← b.look with
  | .boolean value => return .boolean b.span value
  | .infinite => return .float b.span (some (.infinite (b.text.head? == some '-')))
  | .nan => return .float b.span (some .nan)
  | .whole 10 =>
    return .integer b.span (whole? 10 (← withoutUnderscores isHexDigit b.span b.start b.text))
  | .whole base =>
    let digits := b.drop 2
    return .integer b.span (whole? base (← withoutUnderscores isHexDigit b.span digits.start digits.text))
  | .real =>
    return .float b.span (floatValue (← withoutUnderscores Char.isDigit b.span b.start b.text))
  | .moment =>
    match moment? b.text with
    | some text => return .moment b.span (String.ofList text)
    | none => throw ⟨b.span, .moment⟩

end Bare

/-- Unquoted keys hold letters and digits of ASCII, hyphens and underscores. -/
def isKeyChar (c : Char) : Bool := c.isAlphanum || c == '-' || c == '_'

def bareKey (t : Token) : Except Fault String :=
  let good := t.text.takeWhile isKeyChar
  match t.text.drop good.length with
  | [] => if good.isEmpty then .error (.before t.start .emptyKey) else .ok (String.ofList good)
  | c :: _ =>
    let place := t.start + good.length
    .error ⟨⟨place, place + c.utf8Size⟩, .keyCharacter⟩

/-- The key that a token stands for. A text between three quotes is no key. -/
def Token.key (t : Token) : Except Fault Key :=
  (⟨·, t.span⟩) <$>
    match t.kind with
    | .quoted .basic => t.quotedText .basic
    | .quoted .literal => t.quotedText .literal
    | .quoted style => .error ⟨t.span, .blockKey style⟩
    | _ => bareKey t

end PolicyLint.Toml
