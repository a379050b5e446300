import PolicyLint.Policy.FilePath
import PolicyLint.Policy.KnownKeys
import PolicyLint.Policy.Load

/-!
# Policies with their text

What the checks look at: the policy, the keys that the schema does not know, and the text that gives spans
their lines. Without a text nothing has a line.
-/
namespace PolicyLint.Policy
open Text
set_option autoImplicit false

structure Model where
  path : FilePath
  document : Document
  unknownKeys : List UnknownKey
  source : String

namespace Model

def ofSource (path : FilePath) (source : String) : Except LoadError Model :=
  (load source).map fun document => ⟨path, document, Policy.unknownKeys source, source⟩

def ofDocument (path : FilePath) (document : Document) : Model := ⟨path, document, [], ""⟩

/-- The line of a span, if both the span and a text are there. -/
def lineOf (m : Model) : Option Span → Option Nat
  | some span => if m.source.isEmpty then none else some (lineAt m.source span.start)
  | none => none

def licenses (m : Model) : Licenses := m.document.licenses.getD {}

def bans (m : Model) : Bans := m.document.bans.getD {}

end Model

end PolicyLint.Policy
