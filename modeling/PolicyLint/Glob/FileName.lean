import PolicyLint.Glob.Pattern

/-!
# Patterns about file names

Some patterns ask for the last name of a path: for a whole name in any directory, or for the extension of a
name. The component `..` is a step up and no name, so such a pattern does not match a text that ends in it,
even where its parts would.
-/
namespace PolicyLint.Glob
set_option autoImplicit false

def literals? : List Part → Option (List Char)
  | [] => some []
  | .literal c :: parts => (literals? parts).map (c :: ·)
  | _ :: _ => none

/-- A point, and behind it neither a further point nor a slash. -/
def isExtension : List Char → Bool
  | c :: cs => c == '.' && !cs.contains '.' && !cs.contains '/'
  | [] => false

/-- Whether parts, given from the last one to the first, start with an extension written backwards. -/
def endsExtension : List Part → Bool
  | .literal c :: parts => c == '.' || (c != '/' && endsExtension parts)
  | _ => false

/-- Whether a pattern asks for the last name of a path. Behind any directories that is a text without a
slash, which is the whole name; behind a star it is an extension; a pattern of another kind asks for a name
if it ends in an extension. -/
def Pattern.asksForName (p : Pattern) : Bool :=
  let body := if p.head? matches some .leadingDirs then p.tail else p
  match literals? body with
  | some cs => body.length < p.length && !cs.isEmpty && !cs.contains '/'
  | none =>
    match body with
    | .anything :: parts =>
      match literals? parts with
      | some cs => isExtension cs
      | none => endsExtension p.reverse
    | _ => endsExtension p.reverse

/-- Whether the last component of a path, given as bytes, is a step up. -/
def endsInStepUp (bytes : List UInt8) : Bool :=
  match bytes.reverse with
  | 46 :: 46 :: rest => rest.head?.all (· == 47)
  | _ => false

end PolicyLint.Glob
