import PolicyLint.Proofs.Outcome
import PolicyLint.Text.Blank
import PolicyLint.Toml.Document

/-!
# Texts of nothing but blanks

Not every blank is one to a TOML text: some are words. But a text of blanks has no equals sign and no bracket, so
if it can be read at all then it says nothing.
-/
namespace PolicyLint.Toml
open Text
set_option autoImplicit false

/-- Neither a sign nor a comment nor in quotes. -/
def Token.IsPlain (t : Token) : Prop := t.kind = .blank ∨ t.kind = .newline ∨ t.kind = .word

theorem isPlain_shape {c : Char} (h : isBlank c = true) (cs text : List Char) (start : Nat) :
    Token.IsPlain ⟨(Token.shape c cs).1, text, start⟩ := by
  unfold Token.shape Token.IsPlain
  split
  all_goals first
    | exact absurd h (by decide)
    | simp

theorem isPlain_of_mem_scan {cs : List Char} (h : ∀ c ∈ cs, isBlank c = true) (offset : Nat) :
    ∀ t ∈ Token.scan offset cs, t.IsPlain := by
  fun_induction Token.scan offset cs with
  | case1 => exact List.forall_mem_nil _
  | case2 offset c rest kind n hShape text ih =>
    rw [List.forall_mem_cons] at h
    rw [List.forall_mem_cons]
    constructor
    · have hPlain := isPlain_shape h.1 rest text offset
      rwa [hShape] at hPlain
    · exact ih fun d hd => h.2 d (List.mem_of_mem_drop hd)

theorem isPlain_of_mem_ofText {s : String} (h : isAllBlank s = true) : ∀ t ∈ Token.ofText s, t.IsPlain := by
  rw [isAllBlank, List.all_eq_true] at h
  rw [Token.ofText]
  split
  · rename_i cs hList
    rw [hList, List.forall_mem_cons] at h
    exact isPlain_of_mem_scan h.2 3
  · exact isPlain_of_mem_scan h 0

theorem keys_suffix (ending : Ending) (wanted : Bool) (tokens : List Token) :
    (keys ending wanted tokens).2 <:+ tokens := by
  induction tokens generalizing wanted with
  | nil => exact List.suffix_refl _
  | cons t rest ih =>
    rw [keys]
    split
    · exact (ih _).trans (List.suffix_cons _ _)
    · split
      · exact (ih _).trans (List.suffix_cons _ _)
      · split
        · exact (ih _).trans (List.suffix_cons _ _)
        · exact List.suffix_refl _

section
variable {ending : Ending} {tokens : List Token}

theorem assignment_ne_ok (h : ∀ t ∈ tokens, t.IsPlain) {s : Taken Statement tokens} :
    assignment ending tokens ≠ .ok s := by
  unfold assignment
  split
  · exact nofun
  · rename_i t rest hKeys
    have hMem : t ∈ tokens := (keys_suffix ending true tokens).subset (hKeys ▸ List.mem_cons_self)
    have hKind : t.kind ≠ .equals := by
      rcases h t hMem with hKind | hKind | hKind <;> rw [hKind] <;> decide
    dsimp only
    rw [if_neg hKind]
    exact nofun

theorem statements_eq_nil (h : ∀ t ∈ tokens, t.IsPlain) {ss : List Statement}
    (hRead : statements ending tokens = .ok ss) : ss = [] := by
  induction tokens with
  | nil =>
    rw [statements] at hRead
    cases hRead
    rfl
  | cons t rest ih =>
    have hRest := (List.forall_mem_cons.mp h).2
    rw [statements] at hRead
    rcases h t List.mem_cons_self with hKind | hKind | hKind
    · simp only [hKind] at hRead
      exact ih hRest (Outcome.seq_eq_ok_iff.mp hRead).2
    · simp only [hKind] at hRead
      exact ih hRest (Outcome.seq_eq_ok_iff.mp hRead).2
    · simp only [hKind] at hRead
      obtain ⟨taken, hStatement, -⟩ := Outcome.bind_eq_ok_iff.mp hRead
      rw [statement, hKind, if_neg (by decide)] at hStatement
      obtain ⟨s, hAssignment, -⟩ := Outcome.bind_eq_ok_iff.mp hStatement
      exact absurd hAssignment (assignment_ne_ok h)

end

/-- If a text of blanks can be read, then as a table without entries. -/
theorem parse_of_isAllBlank {s : String} (h : isAllBlank s = true) {tree : Node} (hParse : parse s = .ok tree) :
    ∃ span form, tree = .table span form [] := by
  obtain ⟨ss, hStatements, hParse⟩ := Outcome.bind_eq_ok_iff.mp hParse
  obtain rfl := statements_eq_nil (isPlain_of_mem_ofText h) hStatements
  obtain ⟨draft, hDraft, hParse⟩ := Outcome.bind_eq_ok_iff.mp hParse
  cases hDraft
  obtain ⟨root, hRoot, hTree⟩ := Outcome.bind_eq_ok_iff.mp hParse
  cases hRoot
  cases hTree
  exact ⟨_, _, rfl⟩

end PolicyLint.Toml
