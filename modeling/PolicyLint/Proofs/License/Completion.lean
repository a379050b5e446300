import PolicyLint.Proofs.License.Parentheses
import PolicyLint.Proofs.License.Written

/-!
# Completing a text

A text that ends where an operand or the name of an exception has to follow becomes an expression with one name
more and with a closing parenthesis for each one that is open. Neither limit stands in the way, since the name
joins nothing and nothing more is opened.
-/
namespace PolicyLint.License
open Text Token
set_option autoImplicit false

/-- A name, and what closes `depth` parentheses. -/
def completion (depth : Nat) : List Lexeme := .name "A" :: List.replicate depth .rightParen

def completionText (depth : Nat) : String := String.ofList ('A' :: List.replicate depth ')')

theorem completion_succ (depth : Nat) : completion (depth + 1) = completion depth ++ [.rightParen] := by
  simp [completion, List.replicate_succ']

theorem leftParen_not_mem_completion (depth : Nat) : .leftParen ∉ completion depth := by simp [completion]

theorem joins_completion (depth : Nat) : joins (completion depth) = 0 := by
  simp [joins, completion, List.count_replicate]

theorem spelled_closings (depth : Nat) :
    Spelled (List.replicate depth ')') (List.replicate depth .rightParen) := by
  induction depth with
  | zero => exact .done
  | succ depth ih => exact .rightParen ih

theorem spelled_completionText (depth : Nat) : Spelled (completionText depth).toList (completion depth) := by
  have hName : Spelled ['A'] [.name "A"] :=
    Spelled.ofWord (w := "A") (by decide) (List.all_eq_true.mp (by decide))
  rw [completionText, String.toList_ofList]
  refine hName.append (spelled_closings depth) ?_
  intro c hc
  rw [List.eq_of_mem_replicate (List.mem_of_mem_head? hc)]
  decide

/-- Where an operand or an exception has to follow, a name and the closing parentheses complete a derivation. -/
theorem Begins.derives {next : Awaited} {layer : Layer} {depth : Nat} {ls : List Lexeme}
    (h : Begins next layer depth ls) (hOpen : next ≠ .closing) : ∃ e, Derives layer (ls ++ completion depth) e := by
  have hValid : isValidId "A" = true := by decide
  induction h with
  | operand => exact ⟨_, .bare (.name hValid)⟩
  | @exception ls r hLicense hNone =>
    refine ⟨.license { r with exception := some "A" }, ?_⟩
    rw [List.append_assoc]
    exact .exception hLicense hNone hValid
  | closing _ => exact absurd rfl hOpen
  | @parens next depth ls _ ih =>
    obtain ⟨e, h⟩ := ih hOpen
    refine ⟨e, ?_⟩
    rw [completion_succ, List.cons_append, ← List.append_assoc]
    exact .bare (.parens h)
  | factor _ ih =>
    obtain ⟨e, h⟩ := ih hOpen
    exact ⟨e, .factor h⟩
  | and hLeft _ ih =>
    obtain ⟨e, h⟩ := ih hOpen
    rw [List.append_assoc]
    exact ⟨_, .and hLeft h⟩
  | disjunct _ ih =>
    obtain ⟨e, h⟩ := ih hOpen
    exact ⟨e, .operand h⟩
  | or hLeft _ ih =>
    obtain ⟨e, h⟩ := ih hOpen
    rw [List.append_assoc]
    exact ⟨_, .or hLeft h⟩

namespace Expr

/-- A text that ends unexpectedly is the beginning of an expression: behind a blank, a name and closing
parentheses complete it. -/
theorem exists_completion {s : String} {offset : Nat} (h : parse s = .error ⟨offset, .unexpectedEnd⟩) :
    ∃ depth ≤ 64, ∃ e, parse (s ++ " " ++ completionText depth) = .ok e := by
  obtain ⟨tokens, hTokens, hStops | ⟨hCause, -⟩⟩ := stops_of_parse h .ending
  · obtain ⟨next, depth, front, rest, rfl, hBegun, hStalls⟩ := hStops
    obtain ⟨hSpelled, hCased⟩ := ofText_eq_ok_iff.mp ⟨_, hTokens, rfl⟩
    cases hStalls with
    | ending hOpen =>
      rw [List.append_nil] at hSpelled hCased
      obtain ⟨e, hDerives⟩ := hBegun.begins.derives hOpen
      have hDepth : depth ≤ maxNesting := by
        obtain ⟨-, hCount⟩ := (openAfter_eq_some_iff (by decide)).mp (hBegun.begins.openParens_eq 0)
        have hNests := hBegun.nests _ List.prefix_rfl
        omega
      refine ⟨depth, hDepth, e, parse_of_derives ?_ ?_ hDerives ?_ ?_⟩
      · rw [String.append_assoc, String.toList_append, String.toList_append]
        exact hSpelled.append_blank (spelled_completionText depth)
      · intro w hw
        rcases List.mem_append.mp hw with hw | hw
        · exact hCased w hw
        · obtain rfl : w = "A" := by simpa [completion] using hw
          decide
      · exact hBegun.nests.append_of_not_mem (leftParen_not_mem_completion depth)
      · rw [joins_append, joins_completion]
        exact hBegun.pays
  · cases hCause

theorem exists_completion_with :
    parse "(B OR (C+ WITH" = .error ⟨14, .unexpectedEnd⟩ ∧
      ∃ depth ≤ 64, ∃ e, parse ("(B OR (C+ WITH" ++ " " ++ completionText depth) = .ok e := by
  have h : parse "(B OR (C+ WITH" = .error ⟨14, .unexpectedEnd⟩ := by decide +kernel
  exact ⟨h, exists_completion h⟩

end Expr

end PolicyLint.License
