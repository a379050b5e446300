import PolicyLint.Text.Bytes
import PolicyLint.Toml.Fault

/-!
# Tokens of a TOML text

Every character belongs to one token. A quoted text is one token even if its end is missing: one on a
single line then ends with the line, one on several lines ends with the text.
-/
namespace PolicyLint.Toml
open Text
set_option autoImplicit false

inductive Token.Kind where
  | dot | equals | comma | leftBracket | rightBracket | leftBrace | rightBrace
  | blank | comment | newline | word
  | quoted (style : QuoteStyle)
  deriving DecidableEq, Repr, Inhabited

structure Token where
  kind : Token.Kind
  text : List Char
  start : Nat
  deriving DecidableEq, Repr, Inhabited

namespace Token

def stop (t : Token) : Nat := t.start + byteLength t.text

def span (t : Token) : Span := ⟨t.start, t.stop⟩

/-- The characters that end a bare word. A quote does not. -/
def endsWord (c : Char) : Bool := ".=,[]{} \t#\r\n".toList.contains c

/-- The length of the tail of a quoted text on one line, its closing quote included. -/
def literalTail : List Char → Nat
  | [] => 0
  | c :: cs => if c = '\'' then 1 else if c = '\n' then 0 else literalTail cs + 1

/-- As `literalTail`, for double quotes; a backslash takes a quote or a backslash with it. -/
def basicTail : List Char → Nat
  | [] => 0
  | '"' :: _ => 1
  | '\n' :: _ => 0
  | '\\' :: '"' :: cs => basicTail cs + 2
  | '\\' :: '\\' :: cs => basicTail cs + 2
  | _ :: cs => basicTail cs + 1

/-- Up to two quotes of the content may stand before the three that close it. -/
def extraQuotes (quote : Char) (cs : List Char) : Nat := ((cs.take 2).takeWhile (· == quote)).length

def literalBlockTail : List Char → Nat
  | [] => 0
  | '\'' :: '\'' :: '\'' :: cs => 3 + extraQuotes '\'' cs
  | _ :: cs => literalBlockTail cs + 1

def basicBlockTail : List Char → Nat
  | [] => 0
  | '"' :: '"' :: '"' :: cs => 3 + extraQuotes '"' cs
  | '\\' :: '"' :: cs => basicBlockTail cs + 2
  | '\\' :: '\\' :: cs => basicBlockTail cs + 2
  | _ :: cs => basicBlockTail cs + 1

/-- The kind of the token that `c :: cs` starts with, and how many characters of `cs` belong to it. -/
def shape (c : Char) (cs : List Char) : Kind × Nat :=
  match c with
  | '.' => (.dot, 0)
  | '=' => (.equals, 0)
  | ',' => (.comma, 0)
  | '[' => (.leftBracket, 0)
  | ']' => (.rightBracket, 0)
  | '{' => (.leftBrace, 0)
  | '}' => (.rightBrace, 0)
  | '\n' => (.newline, 0)
  | '\r' => (.newline, if cs.head? == some '\n' then 1 else 0)
  | ' ' | '\t' => (.blank, (cs.takeWhile fun d => d == ' ' || d == '\t').length)
  | '#' => (.comment, (cs.takeWhile fun d => d != '\r' && d != '\n').length)
  | '\'' =>
    match cs with
    | '\'' :: '\'' :: rest => (.quoted .literalBlock, 2 + literalBlockTail rest)
    | _ => (.quoted .literal, literalTail cs)
  | '"' =>
    match cs with
    | '"' :: '"' :: rest => (.quoted .basicBlock, 2 + basicBlockTail rest)
    | _ => (.quoted .basic, basicTail cs)
  | _ => (.word, (cs.takeWhile fun d => !endsWord d).length)

def scan (offset : Nat) (cs : List Char) : List Token :=
  match cs with
  | [] => []
  | c :: rest =>
    let (kind, n) := shape c rest
    let text := c :: rest.take n
    ⟨kind, text, offset⟩ :: scan (offset + byteLength text) (rest.drop n)
termination_by cs.length
decreasing_by simp only [List.length_drop, List.length_cons]; omega

def ofText (s : String) : List Token :=
  match s.toList with
  | '\uFEFF' :: cs => scan 3 cs
  | cs => scan 0 cs

end Token

end PolicyLint.Toml
