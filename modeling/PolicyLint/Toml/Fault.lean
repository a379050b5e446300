import PolicyLint.Text.Span

/-!
# Faults of a TOML text

What can be wrong with a text, where, and how each fault is worded: a headline, and for most what would
have been right in that place.
-/
namespace PolicyLint.Toml
open Text
set_option autoImplicit false

/-- The ways to quote a text: single or double quotes, one of them or three. -/
inductive QuoteStyle where
  | literal | basic | literalBlock | basicBlock
  deriving DecidableEq, Repr, Inhabited

namespace QuoteStyle

def name : QuoteStyle → String
  | literal => "literal string"
  | basic => "basic string"
  | literalBlock => "multi-line literal string"
  | basicBlock => "multi-line basic string"

def mark : QuoteStyle → String
  | literal | literalBlock => "`'`"
  | basic | basicBlock => "`\"`"

/-- What may stand between the quotes. -/
def content : QuoteStyle → List String
  | literal => ["non-single-quote visible characters"]
  | basic => ["non-double-quote visible characters", "`\\`"]
  | literalBlock => ["non-single-quote characters"]
  | basicBlock => ["`\\`", "characters"]

end QuoteStyle

inductive Cause where
  /-- A comment holds a control character. -/
  | commentCharacter
  /-- A carriage return stands without a line feed. -/
  | bareReturn
  /-- Brackets and braces nest too deeply. -/
  | tooDeep
  /-- A line starts with what is neither a key nor a header. -/
  | noStatement
  | noEquals
  /-- A further equals sign where a value should stand. -/
  | extraEquals
  /-- A line goes on behind its statement. -/
  | trailingText
  | headerNotOpened
  | headerNotClosed
  /-- A header of an array of tables lacks these brackets. -/
  | tablesHeaderNotClosed (brackets : String)
  | arrayNotOpened
  | arrayNotClosed
  | commaInArray
  | equalsInArray
  | noCommaInArray
  | bracesNotOpened
  | bracesNotClosed
  /-- A comma between braces where something else should stand. -/
  | commaInBraces (wanted : String)
  | equalsInBraces (wanted : String)
  | noKeyInBraces
  | noEqualsInBraces
  | noCommaInBraces
  | emptyKey
  | keyCharacter
  /-- A key stands between three quotes. -/
  | blockKey (style : QuoteStyle)
  | duplicateKey
  | textNotClosed (style : QuoteStyle)
  | textCharacter (style : QuoteStyle)
  | unknownEscape
  | fewEscapeDigits
  /-- The number in an escape is not the code of a character. -/
  | escapeValue
  | notQuoted
  | quoteNotOpened (quote : String)
  /-- A value starts like one of the words of the language and is none. -/
  | wrongWord (kind word : String)
  | extraSign
  | leadingZero
  /-- A sign stands before the mark of a base. -/
  | signedBase
  /-- The mark of a base is a capital letter. -/
  | capitalBase (mark : String)
  | needlessBase
  /-- A sign stands behind the mark of a base. -/
  | signInBase
  | baseDigit (kind : String)
  | mantissa
  | fraction
  | exponent
  /-- A floating point number goes on behind its last part. -/
  | floatTail
  /-- An underscore does not stand between two digits. -/
  | underscore
  | moment
  deriving DecidableEq, Repr, Inhabited

namespace Cause

def headline : Cause → String
  | commentCharacter => "invalid comment character"
  | bareReturn => "carriage return must be followed by newline"
  | tooDeep => "cannot recurse further; max recursion depth met"
  | noStatement => "invalid key-value pair"
  | noEquals => "key with no value"
  | extraEquals => "extra `=`"
  | trailingText => "unexpected key or value"
  | headerNotOpened => "missing table open"
  | headerNotClosed => "unclosed table"
  | tablesHeaderNotClosed _ => "unclosed array table"
  | arrayNotOpened => "missing array opening"
  | arrayNotClosed => "unclosed array"
  | commaInArray => "extra comma in array"
  | equalsInArray => "unexpected `=` in array"
  | noCommaInArray => "missing comma between array elements"
  | bracesNotOpened => "missing inline table opening"
  | bracesNotClosed => "unclosed inline table"
  | commaInBraces _ => "extra comma in inline table"
  | equalsInBraces _ => "extra assignment between key-value pairs"
  | noKeyInBraces => "missing key for inline table element"
  | noEqualsInBraces => "missing assignment between key-value pairs"
  | noCommaInBraces => "missing comma between key-value pairs"
  | emptyKey => "unquoted keys cannot be empty"
  | keyCharacter => "invalid unquoted key"
  | blockKey style => "keys cannot be " ++ style.name ++ "s"
  | duplicateKey => "duplicate key"
  | textNotClosed style | textCharacter style => "invalid " ++ style.name
  | unknownEscape => "missing escaped value"
  | fewEscapeDigits => "too few unicode value digits"
  | escapeValue => "invalid value"
  | notQuoted => "string values must be quoted"
  | quoteNotOpened _ => "missing opening quote"
  | wrongWord kind _ => "invalid " ++ kind
  | extraSign => "redundant numeric sign"
  | leadingZero => "unexpected leading zero"
  | signedBase => "integers with a radix cannot be signed"
  | capitalBase _ => "radix must be lowercase"
  | needlessBase => "redundant integer number prefix"
  | signInBase => "unexpected sign"
  | baseDigit kind => "invalid " ++ kind ++ " number"
  | mantissa => "invalid mantissa"
  | fraction => "invalid fraction"
  | exponent => "invalid exponent"
  | floatTail => "invalid float"
  | underscore => "`_` may only go between digits"
  | moment => "invalid datetime"

def wanted : Cause → List String
  | commentCharacter => ["printable characters"]
  | bareReturn => ["newline"]
  | noStatement | noKeyInBraces => ["key"]
  | noEquals | noEqualsInBraces => ["`=`"]
  | extraEquals | extraSign | leadingZero | signedBase | needlessBase | signInBase | floatTail => ["nothing"]
  | trailingText => ["newline", "`#`"]
  | headerNotOpened | arrayNotOpened => ["`[`"]
  | headerNotClosed | arrayNotClosed => ["`]`"]
  | tablesHeaderNotClosed brackets => ["`" ++ brackets ++ "`"]
  | commaInArray => ["value"]
  | equalsInArray => ["value", "`]`"]
  | noCommaInArray | noCommaInBraces => ["`,`"]
  | bracesNotOpened => ["`\x7b`"]
  | bracesNotClosed => ["`\x7d`"]
  | commaInBraces wanted | equalsInBraces wanted => [wanted]
  | emptyKey | keyCharacter => ["letters", "numbers", "`-`", "`_`"]
  | blockKey _ => ["basic string", "literal string"]
  | textNotClosed style => [style.mark]
  | textCharacter style => style.content
  | unknownEscape => ["`b`", "`e`", "`f`", "`n`", "`r`", "`\\`", "`\"`", "`x`", "`u`", "`U`"]
  | fewEscapeDigits | escapeValue => ["unicode hexadecimal value"]
  | notQuoted => ["literal string"]
  | quoteNotOpened quote => ["`" ++ quote ++ "`"]
  | wrongWord _ word => ["`" ++ word ++ "`"]
  | capitalBase mark => ["`" ++ mark ++ "`"]
  | baseDigit _ | mantissa | fraction | exponent | underscore => ["digits"]
  | tooDeep | duplicateKey | moment => []

def message (c : Cause) : String :=
  if c.wanted.isEmpty then c.headline
  else c.headline ++ ", expected " ++ String.intercalate ", " c.wanted

end Cause

structure Fault where
  span : Span
  cause : Cause
  deriving DecidableEq, Repr, Inhabited

/-- A fault in front of the byte at `place`. -/
def Fault.before (place : Nat) (cause : Cause) : Fault := ⟨⟨place, place⟩, cause⟩

def Fault.message (f : Fault) : String := f.cause.message

end PolicyLint.Toml
