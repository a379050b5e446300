import PolicyLint.Proofs.Text.Digits
import PolicyLint.Proofs.Text.Lines
import PolicyLint.Report.Markdown

/-!
# The shape of the table

In a table a line end ends a row, and a bar ends a cell unless an odd number of backslashes stands in front of
it. The names of checks and codes hold none of these. A message is escaped, except for its backslashes, and a
path is written as it is; so the shape of the table depends on the texts of both.
-/
namespace PolicyLint
open Text
set_option autoImplicit false

namespace Report
open Lint

end Report

namespace Lint.Finding
open Report

/-- The names are those of a check and a code, or of a fault of the run itself. -/
structure IsRegistered (f : Finding) : Prop where
  check : f.check ∈ toolCheck :: Check.allNames
  code : f.code ∈ "runtime_error" :: "policy_parse" :: Code.allNames

end Lint.Finding

namespace Report
open Lint

/-- The character ends neither a cell nor a line, and it is no backslash. -/
def isPlain (c : Char) : Bool := c ≠ '|' && c ≠ '\\' && !isLineEnd c

section
variable {n : Nat} {c : Char} {a b cs : List Char}

end

/-- A row without the end of its line. -/
def rowLine (f : Finding) : String :=
  "| " ++ f.severity.name ++ " | " ++ kindText f ++ " | " ++ locationCell f ++ " | " ++
    escapeCell f.message ++ " |"

theorem row_eq (f : Finding) : row f = rowLine f ++ "\n" := by
  have hEnd : " |\n" = " |" ++ "\n" := rfl
  rw [row, rowLine, hEnd, ← String.append_assoc]

theorem table_eq (r : Report) : r.table = tableHead ++ unlines (r.findings.map rowLine) := by
  rw [table, unlines, List.map_map]
  exact congrArg (fun rows => tableHead ++ String.join rows) (List.map_congr_left fun f _ => row_eq f)

theorem markdown_eq {r : Report} (hSome : r.findings ≠ []) : r.markdown =
    r.heading ++ "## Findings\n\n" ++ tableHead ++ unlines (r.findings.map rowLine) ++ r.helpSection := by
  rw [markdown, if_neg (by simpa using hSome), table_eq]
  simp only [String.append_assoc]

section
variable {f : Finding}

theorem isOneLine_of_isPlain {s : String} (h : ∀ c ∈ s.toList, isPlain c) : IsOneLine s := by
  intro c hc
  have hPlain := h c hc
  simp only [isPlain, Bool.and_eq_true, Bool.not_eq_true'] at hPlain
  exact hPlain.2

theorem isPlain_of_mem_kindText (h : f.IsRegistered) : ∀ c ∈ (kindText f).toList, isPlain c := by
  have hChecks : ∀ name ∈ toolCheck :: Check.allNames, name.toList.all isPlain := by decide
  have hCodes : ∀ name ∈ "runtime_error" :: "policy_parse" :: Code.allNames, name.toList.all isPlain := by decide
  have hTick : "`".toList.all isPlain := by decide
  have hSlash : " / ".toList.all isPlain := by decide
  rw [← List.all_eq_true]
  simp only [kindText, code, String.toList_append, List.all_append, hChecks f.check h.check,
    hCodes f.code h.code, hTick, hSlash, Bool.and_self]

end

theorem isRegistered_policyFailure (now : Time.Stamp) (path : Policy.FilePath) (profile : String)
    (line : Option Nat) (message : String) :
    ∀ f ∈ (policyFailure now path profile line message).findings, f.IsRegistered := by
  intro f hf
  obtain rfl := List.mem_singleton.mp hf
  exact ⟨List.mem_cons_self, List.mem_cons_of_mem _ List.mem_cons_self⟩

end Report
end PolicyLint
