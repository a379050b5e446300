import PolicyLint.Toml.Fault
import PolicyLint.Toml.Token

/-!
# Quoted texts in TOML

Texts between single quotes are taken as written. Between double quotes a backslash starts an escape.
Between three quotes a text may run over several lines: a line end right behind the opening quotes is
dropped, and a backslash at the end of a line joins it to the next word. Readers take the byte offset of
what they read, so that each fault has its place.
-/
namespace PolicyLint.Toml
open Text
set_option autoImplicit false

/-- Controls other than the tab are not allowed in a text. -/
def isControl (c : Char) : Bool := (c.toNat < 0x20 && c != '\t') || c.toNat == 0x7F

def hexValue? (c : Char) : Option Nat :=
  if '0' ≤ c ∧ c ≤ '9' then some (c.toNat - 48)
  else if 'a' ≤ c ∧ c ≤ 'f' then some (c.toNat - 87)
  else if 'A' ≤ c ∧ c ≤ 'F' then some (c.toNat - 55)
  else none

def valueOf (base : Nat) (ds : List Char) : Nat :=
  ds.foldl (fun n c => n * base + (hexValue? c).getD 0) 0

/-- The scalar value with a code, if there is one. -/
def scalar? (n : Nat) : Option Char := if n.isValidChar then some (Char.ofNat n) else none

/-- The character with the code that `count` hexadecimal digits give. -/
def coded (offset count : Nat) (cs : List Char) : Except Fault Char :=
  let ds := (cs.take count).takeWhile fun c => (hexValue? c).isSome
  if ds.length < count then .error (.before (offset + ds.length) .fewEscapeDigits)
  else
    match scalar? (valueOf 16 ds) with
    | some c => .ok c
    | none => .error (.before offset .escapeValue)

/-- The character that an escape stands for, and how many characters behind the backslash it takes. -/
def escape (offset : Nat) : List Char → Except Fault (Char × Nat)
  | 'b' :: _ => .ok ('\x08', 1)
  | 't' :: _ => .ok ('\t', 1)
  | 'n' :: _ => .ok ('\n', 1)
  | 'f' :: _ => .ok ('\x0c', 1)
  | 'r' :: _ => .ok ('\r', 1)
  | 'e' :: _ => .ok ('\x1b', 1)
  | '"' :: _ => .ok ('"', 1)
  | '\\' :: _ => .ok ('\\', 1)
  | 'x' :: cs => (coded (offset + 1) 2 cs).map (·, 3)
  | 'u' :: cs => (coded (offset + 1) 4 cs).map (·, 5)
  | 'U' :: cs => (coded (offset + 1) 8 cs).map (·, 9)
  | _ => .error (.before offset .unknownEscape)

def literalText (offset : Nat) : List Char → Except Fault (List Char)
  | [] => .ok []
  | c :: cs =>
    if isControl c then .error (.before offset (.textCharacter .literal))
    else (literalText (offset + c.utf8Size) cs).map (c :: ·)

/-- All controls in a row that may not stand in a text. -/
def controlsAt (offset : Nat) (style : QuoteStyle) (cs : List Char) : Fault :=
  ⟨⟨offset, offset + byteLength (cs.takeWhile isControl)⟩, .textCharacter style⟩

def basicText (offset : Nat) (cs : List Char) : Except Fault (List Char) :=
  match cs with
  | [] => .error (.before offset (.textNotClosed .basic))
  | '"' :: _ => .ok []
  | '\\' :: rest => do
    let (c, n) ← escape (offset + 1) rest
    return c :: (← basicText (offset + 1 + byteLength (rest.take n)) (rest.drop n))
  | c :: rest =>
    if isControl c then .error (controlsAt offset .basic (c :: rest))
    else (basicText (offset + c.utf8Size) rest).map (c :: ·)
termination_by cs.length
decreasing_by all_goals simp only [List.length_drop, List.length_cons]; omega

/-- The text before the quotes that close a block, and whether they are there. -/
def closedBlock (quote : Char) (cs : List Char) : List Char × Bool :=
  match cs.reverse with
  | a :: b :: c :: rest => if a = quote ∧ b = quote ∧ c = quote then (rest.reverse, true) else (cs, false)
  | _ => (cs, false)

/-- Drops a line end at the start of a block; also says how many bytes it took. -/
def dropFirstLineEnd : List Char → Nat × List Char
  | '\n' :: cs => (1, cs)
  | '\r' :: '\n' :: cs => (2, cs)
  | cs => (0, cs)

/-- Whether a character is a carriage return that no line feed follows. -/
def isBareReturn (c : Char) (rest : List Char) : Bool := c == '\r' && rest.head? != some '\n'

/-- Controls that may not stand in a block. A line end is allowed. -/
def isBlockControl (c : Char) : Bool := isControl c && c != '\n' && c != '\r'

def literalBlockText (offset : Nat) : List Char → Except Fault (List Char)
  | [] => .ok []
  | c :: cs =>
    if isBareReturn c cs then .error (.before (offset + 1) .bareReturn)
    else if isBlockControl c then .error (.before offset (.textCharacter .literalBlock))
    else (literalBlockText (offset + c.utf8Size) cs).map (c :: ·)

/-- How many of the first characters are blanks and line ends. -/
def spacing : List Char → Nat
  | [] => 0
  | '\r' :: '\n' :: cs => spacing cs + 2
  | c :: cs => if c = ' ' ∨ c = '\t' ∨ c = '\n' then spacing cs + 1 else 0

/-- The blanks and line ends behind a backslash at the end of a line, if the line does end there. -/
def joinedLines (cs : List Char) : Option Nat :=
  match cs.dropWhile fun c => c == ' ' || c == '\t' with
  | '\n' :: _ => some (spacing cs)
  | '\r' :: '\n' :: _ => some (spacing cs)
  | _ => none

def basicBlockText (offset : Nat) (cs : List Char) : Except Fault (List Char) :=
  match cs with
  | [] => .ok []
  | '\\' :: rest =>
    match joinedLines rest with
    | some n => basicBlockText (offset + 1 + byteLength (rest.take n)) (rest.drop n)
    | none => do
      let (c, n) ← escape (offset + 1) rest
      return c :: (← basicBlockText (offset + 1 + byteLength (rest.take n)) (rest.drop n))
  | c :: rest =>
    if isBareReturn c rest then .error (.before (offset + 1) .bareReturn)
    else if isBlockControl c then
      .error (controlsAt offset .basicBlock (c :: rest.takeWhile isBlockControl))
    else (basicBlockText (offset + c.utf8Size) rest).map (c :: ·)
termination_by cs.length
decreasing_by all_goals simp only [List.length_drop, List.length_cons]; omega

/-- The text that a token quoted in some style stands for. Between single quotes a missing end is found
before any character is looked at, between double quotes behind all of them. -/
def Token.quotedText (t : Token) (style : QuoteStyle) : Except Fault String :=
  let notClosed : Fault := .before t.stop (.textNotClosed style)
  String.ofList <$>
    match style with
    | .literal =>
      let body := t.text.drop 1
      if body.getLast? = some '\'' then literalText (t.start + 1) body.dropLast else .error notClosed
    | .basic => basicText (t.start + 1) (t.text.drop 1)
    | .literalBlock =>
      let (body, closed) := closedBlock '\'' (t.text.drop 3)
      let (n, body) := dropFirstLineEnd body
      if closed then literalBlockText (t.start + 3 + n) body else .error notClosed
    | .basicBlock => do
      let (body, closed) := closedBlock '"' (t.text.drop 3)
      let (n, body) := dropFirstLineEnd body
      let cs ← basicBlockText (t.start + 3 + n) body
      if closed then .ok cs else .error notClosed

end PolicyLint.Toml
