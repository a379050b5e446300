import PolicyLint.Text.Blank
import PolicyLint.Text.Bytes

/-!
# Words of a license expression

An expression is cut at blanks and parentheses. The words `AND`, `OR` and `WITH` are operators; any
other spelling of them by case is refused where it stands.
-/
namespace PolicyLint.License
open Text
set_option autoImplicit false

inductive Cause where
  | empty
  | unexpectedEnd
  | unexpectedToken (found : String)
  | unbalancedParen
  | invalidIdentifier (id : String)
  | lowercaseOperator (found expected : String)
  | tooDeep (max : Nat)
  | tooLong (max : Nat)
  | compound (found : String)
  deriving DecidableEq, Repr, Inhabited

structure Fault where
  offset : Nat
  cause : Cause
  deriving DecidableEq, Repr, Inhabited

def Cause.message : Cause → String
  | empty => "expression is empty"
  | unexpectedEnd => "expression ends unexpectedly"
  | unexpectedToken found => "unexpected `" ++ found ++ "`"
  | unbalancedParen => "unbalanced parenthesis"
  | invalidIdentifier id => "`" ++ id ++ "` is not a valid license identifier"
  | lowercaseOperator found expected =>
    "operator `" ++ found ++ "` must be upper-case (did you mean `" ++ expected ++ "`?)"
  | tooDeep max => "parentheses nest deeper than " ++ toString max ++ " levels"
  | tooLong max => "more than " ++ toString max ++ " AND/OR operators"
  | compound found => "`" ++ found ++ "` joins licenses; expected a single license"

def Fault.message (f : Fault) : String :=
  f.cause.message ++ " (at offset " ++ toString f.offset ++ ")"

inductive Token.Kind where
  | leftParen | rightParen | andWord | orWord | withWord | name
  deriving DecidableEq, Repr, Inhabited

structure Token where
  kind : Token.Kind
  text : String
  offset : Nat
  deriving DecidableEq, Repr, Inhabited

namespace Token

/-- A character of a word: neither blank nor parenthesis. -/
def isWordChar (c : Char) : Bool := !(isBlank c || c == '(' || c == ')')

/-- Whether two words differ at most in the case of ASCII letters. -/
def sameLetters (word lower : String) : Bool := word.toList.map Char.toLower == lower.toList

/-- Operators are upper-case; their other spellings are refused. -/
def classify (word : String) : Except Cause Kind :=
  if word = "AND" then .ok .andWord
  else if word = "OR" then .ok .orWord
  else if word = "WITH" then .ok .withWord
  else if sameLetters word "and" then .error (.lowercaseOperator word "AND")
  else if sameLetters word "or" then .error (.lowercaseOperator word "OR")
  else if sameLetters word "with" then .error (.lowercaseOperator word "WITH")
  else .ok .name

/-- The tokens of the characters that start at byte `offset`, up to the first wrong word. -/
def scan (offset : Nat) (cs : List Char) : Except Fault (List Token) :=
  match cs with
  | [] => .ok []
  | c :: rest =>
    if isBlank c then scan (offset + c.utf8Size) rest
    else if c = '(' then
      (scan (offset + c.utf8Size) rest).map (⟨.leftParen, "(", offset⟩ :: ·)
    else if c = ')' then
      (scan (offset + c.utf8Size) rest).map (⟨.rightParen, ")", offset⟩ :: ·)
    else
      let word := c :: rest.takeWhile isWordChar
      let text := String.ofList word
      match classify text with
      | .error cause => .error ⟨offset, cause⟩
      | .ok kind =>
        (scan (offset + byteLength word) (rest.dropWhile isWordChar)).map (⟨kind, text, offset⟩ :: ·)
termination_by cs.length
decreasing_by
  all_goals first
    | exact Nat.lt_succ_self _
    | exact Nat.lt_succ_of_le (List.dropWhile_suffix _).length_le

def ofText (s : String) : Except Fault (List Token) := scan 0 s.toList

end Token

end PolicyLint.License
