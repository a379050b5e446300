import PolicyLint.Text.Span
import PolicyLint.Text.Bytes
import PolicyLint.Decimal.Binary64

/-!
# Document trees

What a TOML text says: values with their places, and tables whose keys stand in byte order. A table also
keeps how it was written, because that decides whether later lines may still add to it.
-/
namespace PolicyLint.Toml
open Text
set_option autoImplicit false

structure Key where
  name : String
  span : Span
  deriving DecidableEq, Repr, Inhabited

/-- How a table came about: by its own header, by a header of a table inside it, by a dotted key, or
between braces. -/
inductive Form where
  | header | implied | dotted | inline
  deriving DecidableEq, Repr, Inhabited

inductive Node where
  | string (span : Span) (text : String)
  /-- A whole number. What is written like one and is none, or beyond 128 bits, has no value. -/
  | integer (span : Span) (value : Option Int)
  /-- A finite literal beyond the range of numbers has no value. -/
  | float (span : Span) (value : Option Decimal.Binary64)
  | boolean (span : Span) (value : Bool)
  /-- A date, a time or both, in their written form. -/
  | moment (span : Span) (text : String)
  | array (span : Span) (ofTables : Bool) (items : List Node)
  | table (span : Span) (form : Form) (entries : List (Key × Node))
  deriving Inhabited

abbrev Entries := List (Key × Node)

def Node.span : Node → Span
  | string s _ | integer s _ | float s _ | boolean s _ | moment s _ | array s _ _ | table s _ _ => s

def Node.kindName : Node → String
  | string _ _ => "string"
  | integer _ _ => "integer"
  | float _ _ => "float"
  | boolean _ _ => "boolean"
  | moment _ _ => "datetime"
  | array _ _ _ => "array"
  | table _ _ _ => "table"

namespace Entries

def find? (name : String) (es : Entries) : Option Node :=
  (List.find? (fun e : Key × Node => e.1.name == name) es).map Prod.snd

/-- Puts a new entry at its place in byte order. -/
def insert (key : Key) (node : Node) : Entries → Entries
  | [] => [(key, node)]
  | e :: es => if before key.name e.1.name then (key, node) :: e :: es else e :: insert key node es

/-- Changes the value of an entry and keeps its key. -/
def replace (name : String) (node : Node) (es : Entries) : Entries :=
  List.map (fun e : Key × Node => if e.1.name == name then (e.1, node) else e) es

def erase (name : String) (es : Entries) : Entries :=
  List.filter (fun e : Key × Node => e.1.name != name) es

end Entries

end PolicyLint.Toml
