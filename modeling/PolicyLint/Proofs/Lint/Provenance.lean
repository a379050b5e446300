import PolicyLint.Lint.Explanation
import PolicyLint.Proofs.Lint.Emission
import PolicyLint.Proofs.Lint.Fingerprints
import PolicyLint.Proofs.Policy.IgnoredKeys
import PolicyLint.Proofs.Text.Lines

/-!
# Where findings come from

A finding names a check and a code that can be explained, and it has the severity that the plan gives to the
check. It says what to do, it can be recognised again, and it points into the policy: whatever span a value
was read with, its line is one of the lines of the text.
-/
namespace PolicyLint
open Text Policy Toml
set_option autoImplicit false

namespace Digest

def hexDigits : List Char := "0123456789abcdef".toList

theorem digitChar_mem_hexDigits {n : Nat} (h : n < 16) : digitChar n ∈ hexDigits := by
  decide +revert

theorem mem_hexDigits_of_mem_hex {s : State} {c : Char} (h : c ∈ hex s) : c ∈ hexDigits := by
  obtain ⟨word, -, hWord⟩ := List.mem_flatMap.mp h
  obtain ⟨shift, -, rfl⟩ := List.mem_map.mp hWord
  exact digitChar_mem_hexDigits (Nat.mod_lt _ (by decide))

theorem toList_sha256 (text : String) :
    (sha256 text).toList.length = 64 ∧ ∀ c ∈ (sha256 text).toList, c ∈ hexDigits := by
  rw [sha256, String.toList_ofList]
  exact ⟨length_hex _, fun _ => mem_hexDigits_of_mem_hex⟩

end Digest

namespace Policy

theorem exists_line_of_mem_unknownKeys {source : String} {k : UnknownKey} (h : k ∈ unknownKeys source) :
    ∃ offset, k.line = lineAt source offset := by
  have hReport : ∀ {pre known es}, k ∈ unknownIn source pre known es → ∃ offset, k.line = lineAt source offset := by
    intro pre known es hk
    obtain ⟨e, -, -, rfl⟩ := mem_unknownIn_iff.mp hk
    exact ⟨_, rfl⟩
  rw [unknownKeys] at h
  split at h
  · rename_i tree hTree
    obtain ⟨span, form, root, rfl⟩ := exists_eq_table hTree
    rcases (mem_unknownInTree_iff span form).mp h with
      ⟨p, es, -, hk⟩ | ⟨bans, -, name, -, i, item, -, hk⟩
    · exact hReport hk
    · exact hReport hk
  · cases h

theorem Model.eq_of_ofSource {path : FilePath} {source : String} {m : Model}
    (h : Model.ofSource path source = .ok m) :
    m.path = path ∧ m.source = source ∧ m.unknownKeys = Policy.unknownKeys source := by
  obtain ⟨document, -, rfl⟩ := Outcome.map_eq_ok_iff.mp h
  exact ⟨rfl, rfl, rfl⟩

end Policy

namespace Lint

variable {m : Model}

/-- The line is one of the text, counted from one. -/
def IsLineOf (source : String) (line : Nat) : Prop := 1 ≤ line ∧ line ≤ 1 + feeds source

theorem isLineOf_lineAt (source : String) (offset : Nat) : IsLineOf source (lineAt source offset) :=
  ⟨one_le_lineAt source offset, lineAt_le source offset⟩

theorem Issue.Common.isLineOf {i : Issue} (h : i.Common m) {path : FilePath} {source : String}
    (hModel : Model.ofSource path source = .ok m) {line : Nat} (hLine : line ∈ i.line) :
    IsLineOf source line := by
  obtain ⟨-, hSource, hKeys⟩ := Model.eq_of_ofSource hModel
  rcases h.line with ⟨span, hSpan⟩ | ⟨key, hKey, hOf⟩
  · rw [hSpan] at hLine
    cases span with
    | none => cases hLine
    | some span =>
      rw [Model.lineOf, hSource] at hLine
      split at hLine
      · cases hLine
      · cases hLine
        exact isLineOf_lineAt source _
  · rw [hKeys] at hKey
    obtain ⟨offset, hOffset⟩ := exists_line_of_mem_unknownKeys hKey
    rw [hOf] at hLine
    cases hLine
    exact hOffset ▸ isLineOf_lineAt source offset

structure Finding.WellFormed (m : Model) (plan : Plan) (f : Finding) : Prop where
  check : f.check ∈ Check.allNames ∧ (Explanation.find? f.check).isSome
  code : f.code ∈ Code.allNames ∧ (Explanation.find? f.code).isSome
  rule : ∃ rule, plan.rules.find? f.check = some rule ∧ rule.enabled ∧ f.severity = rule.severity
  help : f.help.isSome
  fingerprint : ∃ digest, f.fingerprint = some digest ∧ digest.toList.length = 64 ∧
    ∀ c ∈ digest.toList, c ∈ Digest.hexDigits
  path : f.location.map Location.path = some m.path
  line : ∀ source, Model.ofSource m.path source = .ok m → ∀ place ∈ f.location, ∀ line ∈ place.line,
    IsLineOf source line

theorem Explanation.isSome_find?_name (code : Code) : (find? code.name).isSome := by
  cases code <;> rfl

theorem Check.wellFormed_finding {check : Check} {plan : Plan} {rule : Rule} (hRule : rule ∈ plan.rule? check)
    {allowed : String → Bool} {i : Issue} (hi : i ∈ check.issues m allowed) :
    (i.finding check rule.severity m.path).WellFormed m plan where
  check := ⟨List.mem_map_of_mem check.mem_all, Explanation.find?_name check ▸ rfl⟩
  code := ⟨List.mem_map_of_mem i.code.mem_all, Explanation.isSome_find?_name i.code⟩
  rule := by
    obtain ⟨hFind, hEnabled⟩ := Option.filter_eq_some_iff.mp hRule
    exact ⟨rule, hFind, hEnabled, rfl⟩
  help := rfl
  fingerprint := ⟨_, rfl, Digest.toList_sha256 _⟩
  path := rfl
  line := by
    intro source hModel place hPlace line hLine
    cases hPlace
    exact (Check.common_of_mem hi).isLineOf hModel hLine

/-- Every finding of a run is well-formed, whatever the policy and the plan are. -/
theorem wellFormed_of_mem_findings (m : Model) (plan : Plan) :
    ∀ f ∈ (evaluate m plan).findings, f.WellFormed m plan := by
  intro f hf
  obtain ⟨check, rule, hRule, i, hi, rfl⟩ := mem_findingsOf_iff.mp (mem_findingsOf_of_mem_findings hf)
  exact Check.wellFormed_finding hRule hi

def typoPolicy : String := "\nban=1"

def typoModel : Model := ⟨.default, {}, [⟨"ban", "ban", 2⟩], typoPolicy⟩

def typoFinding : Finding :=
  (UnknownKeys.issue ⟨"ban", "ban", 2⟩).finding .unknownKeys .error .default

theorem ofSource_typoPolicy : Model.ofSource .default typoPolicy = .ok typoModel := by
  cbv

theorem findings_typoModel : (evaluate typoModel strictPlan).findings = [typoFinding] := by
  have hAll : findingsOf typoModel strictPlan Check.all = [typoFinding] := rfl
  rw [evaluate, evaluateChecks, hAll]
  simp only [sortFindings, List.mergeSort_singleton]
  rfl

theorem wellFormed_typoFinding :
    typoFinding ∈ (evaluate typoModel strictPlan).findings ∧ typoFinding.WellFormed typoModel strictPlan ∧
      IsLineOf typoPolicy 2 := by
  have hMem : typoFinding ∈ (evaluate typoModel strictPlan).findings := by
    rw [findings_typoModel]
    exact List.mem_singleton_self _
  have hFormed := wellFormed_of_mem_findings typoModel strictPlan typoFinding hMem
  exact ⟨hMem, hFormed, hFormed.line typoPolicy ofSource_typoPolicy _ rfl 2 rfl⟩

end Lint

end PolicyLint
