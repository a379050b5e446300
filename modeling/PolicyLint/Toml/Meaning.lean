import PolicyLint.Toml.Scalar
import PolicyLint.Toml.Statement
import PolicyLint.Toml.Table

/-!
# The values of terms

What a written value stands for. Between braces the assignments take effect in order, so a key that is
assigned twice is a fault at its second place even if a later value is faulty too.
-/
namespace PolicyLint.Toml
open Text
set_option autoImplicit false

def Token.node (t : Token) : Except Fault Node :=
  match t.kind with
  | .quoted style => (t.quotedText style).map (.string t.span)
  | _ => Bare.node ⟨t.start, t.text⟩

mutual

def Term.node : Term → Except Fault Node
  | .scalar t => t.node
  | .array span items => (Term.nodes items).map (.array span false)
  | .braces span members => (Term.addAll [] members).map (.table span .inline)

def Term.nodes : List Term → Except Fault (List Node)
  | [] => .ok []
  | t :: ts => do return (← t.node) :: (← Term.nodes ts)

/-- Adds the assignments between braces to an inline table. -/
def Term.addAll (entries : Entries) : List (List Token × Term) → Except Fault Entries
  | [] => .ok entries
  | (path, value) :: rest => do
    let path ← path.mapM Token.key
    let node ← value.node
    Term.addAll (← Entries.assign path node entries) rest

end

end PolicyLint.Toml
