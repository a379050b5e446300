import PolicyLint.Text.Split

/-!
# Failures with their causes

A failure is told from the outside in: what was to be done, then why it could not be done. It is shown on one
line, or as a block with the causes below.
-/
namespace PolicyLint.Text
set_option autoImplicit false

structure Trail where
  headline : String
  causes : List String := []
  deriving DecidableEq, Repr, Inhabited

namespace Trail

def within (t : Trail) (headline : String) : Trail := ⟨headline, t.headline :: t.causes⟩

/-- All on one line, the causes behind colons. -/
def line (t : Trail) : String := String.intercalate ": " (t.headline :: t.causes)

/-- The lines of a cause, further ones as deep as the first. -/
def indented (first others : String) (cause : String) : String :=
  first ++ String.intercalate ("\n" ++ others)
    ((splitAt (· == '\n') cause.toList).map String.ofList)

/-- Causes below each other; several are numbered. -/
def causeLines : List String → List String
  | [cause] => [indented "    " "    " cause]
  | causes => causes.zipIdx.map fun (cause, i) =>
    let number := toString i
    indented (String.ofList (List.replicate (5 - number.length) ' ') ++ number ++ ": ") "       " cause

/-- The failure with its causes below. -/
def block (t : Trail) : String :=
  t.headline ++
    if t.causes.isEmpty then ""
    else "\n\nCaused by:\n" ++ String.intercalate "\n" (causeLines t.causes)

end Trail

end PolicyLint.Text
