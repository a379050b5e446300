/-!
# Policy paths

The path of a policy as findings show it: forward slashes only, no `./` in front, and a default for the
empty path.
-/
namespace PolicyLint.Policy
set_option autoImplicit false

structure FilePath where
  text : String
  deriving DecidableEq, Repr, Inhabited

namespace FilePath

def default : FilePath := ⟨"deny.toml"⟩

def forward (cs : List Char) : List Char := cs.map fun c => if c = '\\' then '/' else c

/-- Takes every `./` off the front. -/
def stripDots : List Char → List Char
  | '.' :: '/' :: cs => stripDots cs
  | cs => cs

def ofText (s : String) : FilePath :=
  match stripDots (forward s.toList) with
  | [] => default
  | cs => ⟨String.ofList cs⟩

end FilePath

end PolicyLint.Policy
