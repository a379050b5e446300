/-!
# Spans

Where a value stands in the text it was read from, as a range of byte offsets.
-/
namespace PolicyLint.Text
set_option autoImplicit false

/-- A range of byte offsets; `stop` is the first offset behind it. -/
structure Span where
  start : Nat
  stop : Nat
  deriving DecidableEq, Repr, Inhabited

structure Spanned (α : Type) where
  value : α
  span : Span
  deriving DecidableEq, Repr

def Spanned.map {α β : Type} (f : α → β) (s : Spanned α) : Spanned β := ⟨f s.value, s.span⟩

end PolicyLint.Text
