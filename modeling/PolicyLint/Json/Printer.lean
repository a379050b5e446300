import PolicyLint.Json.Value

/-!
# Writing JSON

The compact form has no blanks; the indented form puts each element on a line of its own, two spaces deeper
than its container. Only quotes, backslashes and controls are escaped.
-/
namespace PolicyLint.Json
set_option autoImplicit false

def Number.render : Number → String
  | natural n => toString n
  | negative n => "-" ++ toString (n + 1)
  | float x => x.compact

def fourHex (n : Nat) : List Char :=
  let ds := Nat.toDigits 16 n
  List.replicate (4 - ds.length) '0' ++ ds

def escapeChar (c : Char) : List Char :=
  if c = '"' then ['\\', '"']
  else if c = '\\' then ['\\', '\\']
  else if c = '\x08' then ['\\', 'b']
  else if c = '\t' then ['\\', 't']
  else if c = '\n' then ['\\', 'n']
  else if c = '\x0c' then ['\\', 'f']
  else if c = '\r' then ['\\', 'r']
  else if c.toNat < 0x20 then ['\\', 'u'] ++ fourHex c.toNat
  else [c]

def renderString (s : String) : String :=
  String.ofList ('"' :: s.toList.flatMap escapeChar ++ ['"'])

def indentation (depth : Nat) : String := String.ofList (List.replicate (2 * depth) ' ')

mutual

/-- The form without blanks. -/
def Value.render : Value → String
  | .null => "null"
  | .boolean b => if b then "true" else "false"
  | .number n => n.render
  | .string s => renderString s
  | .array items => "[" ++ String.intercalate "," (renderItems items) ++ "]"
  | .object members => "\x7b" ++ String.intercalate "," (renderMembers members) ++ "\x7d"

def renderItems : List Value → List String
  | [] => []
  | v :: vs => v.render :: renderItems vs

def renderMembers : List (String × Value) → List String
  | [] => []
  | (key, v) :: ms => (renderString key ++ ":" ++ v.render) :: renderMembers ms

end

/-- The lines of a container that is not empty. -/
def block (opening closing : String) (depth : Nat) (parts : List String) : String :=
  let inner := "\n" ++ indentation (depth + 1)
  opening ++ inner ++ String.intercalate ("," ++ inner) parts ++ "\n" ++ indentation depth ++ closing

mutual

def Value.pretty (depth : Nat) : Value → String
  | .array [] => "[]"
  | .array (v :: vs) => block "[" "]" depth (v.pretty (depth + 1) :: prettyItems (depth + 1) vs)
  | .object [] => "\x7b\x7d"
  | .object ((key, v) :: ms) =>
    block "\x7b" "\x7d" depth
      ((renderString key ++ ": " ++ v.pretty (depth + 1)) :: prettyMembers (depth + 1) ms)
  | v => v.render

def prettyItems (depth : Nat) : List Value → List String
  | [] => []
  | v :: vs => v.pretty depth :: prettyItems depth vs

def prettyMembers (depth : Nat) : List (String × Value) → List String
  | [] => []
  | (key, v) :: ms => (renderString key ++ ": " ++ v.pretty depth) :: prettyMembers depth ms

end

end PolicyLint.Json
