import PolicyLint.Text.Bytes
import PolicyLint.Text.Span
import PolicyLint.Text.Split

/-!
# Faults in their place

A message about a text, below the line it is about, with marks under the part that is wrong.
-/
namespace PolicyLint.Toml
open Text
set_option autoImplicit false

/-- The column of a byte in a line. A byte inside a character, other than its last, is counted in bytes. -/
def columnIn (offset : Nat) : (within column : Nat) → List Char → Nat
  | _, column, [] => column
  | within, column, c :: cs =>
    if within < c.utf8Size then (if within + 1 = c.utf8Size then column else offset)
    else columnIn offset (within - c.utf8Size) (column + 1) cs

/-- The bytes of the lines before a line, with their line feeds. -/
def bytesBefore (lines : List (List Char)) (line : Nat) : Nat :=
  (lines.take line).foldl (fun n l => n + byteLength l + 1) 0

/-- A place in a text: the line, its content and the column, both numbers from zero. -/
structure Mark where
  line : Nat
  column : Nat
  content : List Char

/-- The place of a byte. One behind the text stands behind its last character. -/
def markOf (cs : List Char) (offset : Nat) : Mark :=
  let lines := splitAt (· == '\n') cs
  let inside := min offset (byteLength cs - 1)
  let line := feedsBefore inside cs
  let content := lines.getD line []
  let within := inside - bytesBefore lines line
  ⟨line, columnIn within within 0 (content ++ ['\n']) + (offset - inside), content⟩

def blanks (n : Nat) : String := String.ofList (List.replicate n ' ')

/-- The message about a part of a text. At least one mark is set, and none beyond the line. -/
def excerpt (source : String) (span : Span) (message : String) : String :=
  let mark := markOf source.toList span.start
  let number := toString (mark.line + 1)
  let gutter := blanks (number.length + 1) ++ "|"
  let marks := max 1 (min (span.stop - span.start) (byteLength mark.content - mark.column))
  "TOML parse error at line " ++ number ++ ", column " ++ toString (mark.column + 1) ++ "\n" ++
    gutter ++ "\n" ++ number ++ " | " ++ String.ofList mark.content ++ "\n" ++
    gutter ++ blanks (mark.column + 1) ++ String.ofList (List.replicate marks '^') ++ "\n" ++
    message ++ "\n"

end PolicyLint.Toml
