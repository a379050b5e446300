import PolicyLint.Text.Quoted

/-!
# Mismatches

How a value can differ from the type that is wanted, and the wording of each difference. Policies, linter
configurations and reports share the wording.
-/
namespace PolicyLint.Text
set_option autoImplicit false

/-- A value as a message shows it. -/
inductive Found where
  | integer (value : Int)
  /-- A whole number beyond 64 bits, and whether it fits into 128 bits with a sign. -/
  | wideInteger (value : Int) (fitsSigned : Bool)
  | float (text : String)
  | boolean (value : Bool)
  | string (text : String)
  | sequence
  | map
  | null
  deriving DecidableEq, Repr, Inhabited

def Found.describe : Found → String
  | integer n => "integer `" ++ toString n ++ "`"
  | wideInteger n fitsSigned =>
    "integer `" ++ toString n ++ "` as " ++ (if fitsSigned then "i128" else "u128")
  | float text => "floating point `" ++ text ++ "`"
  | boolean b => "boolean `" ++ (if b then "true" else "false") ++ "`"
  | string s => "string " ++ quoted s
  | sequence => "sequence"
  | map => "map"
  | null => "null"

inductive Mismatch where
  | invalidType (found : Found) (wanted : String)
  | invalidValue (found : Found) (wanted : String)
  | invalidLength (length : Nat) (wanted : String)
  | missingField (name : String)
  | unknownField (name : String) (known : List String)
  | unknownVariant (name : String) (known : List String)
  | notStringOrTable
  | noElement
  | severalElements
  | notEmptyTable
  | notEmptyArray
  | notTable (found : String)
  | integerOverflow
  | floatOverflow
  /-- A text that does not have the form it should have. -/
  | malformed (reason : String)
  deriving DecidableEq, Repr, Inhabited

/-- The names that would have been right. -/
def alternatives (none : String) (names : List String) : String :=
  match names.map (fun n => "`" ++ n ++ "`") with
  | [] => none
  | [a] => "expected " ++ a
  | [a, b] => "expected " ++ a ++ " or " ++ b
  | many => "expected one of " ++ String.intercalate ", " many

def Mismatch.message : Mismatch → String
  | invalidType found wanted => "invalid type: " ++ found.describe ++ ", expected " ++ wanted
  | invalidValue found wanted => "invalid value: " ++ found.describe ++ ", expected " ++ wanted
  | invalidLength n wanted => "invalid length " ++ toString n ++ ", expected " ++ wanted
  | missingField name => "missing field `" ++ name ++ "`"
  | unknownField name known =>
    "unknown field `" ++ name ++ "`, " ++ alternatives "there are no fields" known
  | unknownVariant name known =>
    "unknown variant `" ++ name ++ "`, " ++ alternatives "there are no variants" known
  | notStringOrTable => "wanted string or table"
  | noElement => "wanted exactly 1 element, found 0 elements"
  | severalElements => "wanted exactly 1 element, more than 1 element"
  | notEmptyTable => "expected empty table"
  | notEmptyArray => "expected empty array"
  | notTable found => "expected table, found " ++ found
  | integerOverflow => "integer number overflowed"
  | floatOverflow => "floating-point number overflowed"
  | malformed reason => reason

end PolicyLint.Text
