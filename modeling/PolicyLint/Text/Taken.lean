/-!
# Readings from the front

What a reader takes from the front of a list, and the rest, which is shorter. That is what lets readers
call each other in a loop and still end.
-/
namespace PolicyLint.Text
set_option autoImplicit false

/-- A value read from the front of `input`, and what follows it. -/
structure Taken {τ : Type} (α : Type) (input : List τ) where
  value : α
  rest : List τ
  shorter : rest.length < input.length

namespace Taken

variable {τ α β : Type}

def of (a : α) (t : τ) (rest : List τ) : Taken α (t :: rest) := ⟨a, rest, Nat.lt_succ_self _⟩

/-- The same reading seen from a longer input. -/
def lift {fewer more : List τ} (h : fewer.length ≤ more.length) (t : Taken α fewer) : Taken α more :=
  ⟨t.value, t.rest, Nat.lt_of_lt_of_le t.shorter h⟩

def map {input : List τ} (f : α → β) (t : Taken α input) : Taken β input :=
  ⟨f t.value, t.rest, t.shorter⟩

def append {input : List τ} (a : Taken α input) (b : Taken β a.rest) : Taken (α × β) input :=
  ⟨(a.value, b.value), b.rest, Nat.lt_trans b.shorter a.shorter⟩

end Taken

end PolicyLint.Text
