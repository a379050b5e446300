import PolicyLint.Text.Bytes

/-!
# Faults of JSON texts

What can be wrong with a text that is not JSON. A reader notes a fault with the bytes that are left of the
text behind the place where it gives up; with the whole text these are a line and a column.
-/
namespace PolicyLint.Json
open Text
set_option autoImplicit false

inductive Cause where
  | endInList
  | endInObject
  | endInString
  | endInValue
  | noColon
  | noListComma
  | noObjectComma
  | noWord
  | noValue
  | escape
  | number
  | numberRange
  | control
  | keyNotString
  | loneSurrogate
  | trailingComma
  | trailing
  | halfPair
  | tooDeep
  deriving DecidableEq, Repr

def Cause.message : Cause → String
  | endInList => "EOF while parsing a list"
  | endInObject => "EOF while parsing an object"
  | endInString => "EOF while parsing a string"
  | endInValue => "EOF while parsing a value"
  | noColon => "expected `:`"
  | noListComma => "expected `,` or `]`"
  | noObjectComma => "expected `,` or `\x7d`"
  | noWord => "expected ident"
  | noValue => "expected value"
  | escape => "invalid escape"
  | number => "invalid number"
  | numberRange => "number out of range"
  | control => "control character (\\u0000-\\u001F) found while parsing a string"
  | keyNotString => "key must be a string"
  | loneSurrogate => "lone leading surrogate in hex escape"
  | trailingComma => "trailing comma"
  | trailing => "trailing characters"
  | halfPair => "unexpected end of hex escape"
  | tooDeep => "recursion limit exceeded"

/-- A fault as a reader notes it: how many bytes of the text are behind its place. -/
structure Stop where
  cause : Cause
  left : Nat
  deriving DecidableEq, Repr

/-- The fault whose place is behind what was read. -/
def Cause.before (cause : Cause) (cs : List Char) : Stop := ⟨cause, byteLength cs⟩

/-- The fault whose place is behind the next byte, or at the end of the text. -/
def Cause.at_ (cause : Cause) (cs : List Char) : Stop := ⟨cause, byteLength cs - 1⟩

/-- A fault by its line, from one, and the bytes up to its place on that line. -/
structure Fault where
  cause : Cause
  line : Nat
  column : Nat
  deriving DecidableEq, Repr

def Fault.message (f : Fault) : String :=
  f.cause.message ++ " at line " ++ toString f.line ++ " column " ++ toString f.column

def Stop.locate (s : Stop) (cs : List Char) : Fault :=
  let offset := byteLength cs - s.left
  ⟨s.cause, feedsBefore offset cs + 1, columnAt offset 0 cs⟩

end PolicyLint.Json
