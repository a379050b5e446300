import Mathlib.Data.Prod.Lex
import Mathlib.Data.String.Basic
import PolicyLint.Lint.Run

/-!
# The order of a report

Findings are ordered by a key of six parts, the first of which that differs decides. Sorting is stable, so
the findings with one key stand as they were found, and cutting the sorted list drops no finding whose key
is smaller than that of a listed one.
-/
namespace PolicyLint.Lint
open Policy
set_option autoImplicit false

/-- The lesser of two severities has the greater rank. -/
instance : LE Severity := ⟨fun a b => b.rank ≤ a.rank⟩

instance (a b : Severity) : Decidable (a ≤ b) := inferInstanceAs (Decidable (_ ≤ _))

theorem Severity.error_le_iff {s : Severity} : .error ≤ s ↔ s = .error := by
  cases s <;> decide

/-- Severity, path, line, check, code and message. -/
abbrev SortKey := Nat ×ₗ String ×ₗ Nat ×ₗ String ×ₗ String ×ₗ String

namespace Finding

def sortKey (f : Finding) : SortKey :=
  toLex (f.severity.rank, toLex (f.orderPath, toLex (f.orderLine,
    toLex (f.check, toLex (f.code, f.message)))))

theorem notAfter_iff {a b : Finding} : a.notAfter b = true ↔ a.sortKey ≤ b.sortKey := by
  have hOrder : order a b = compare a.sortKey b.sortKey := rfl
  rw [notAfter, hOrder, ← Ordering.ne_gt_iff_isLE]
  exact compare_le_iff_le

theorem severity_le_severity {a b : Finding} (h : a.sortKey ≤ b.sortKey) : b.severity ≤ a.severity :=
  Prod.Lex.monotone_fst _ _ h

theorem notAfter_trans (a b c : Finding) (hab : a.notAfter b = true) (hbc : b.notAfter c = true) :
    a.notAfter c = true :=
  notAfter_iff.mpr ((notAfter_iff.mp hab).trans (notAfter_iff.mp hbc))

theorem notAfter_total (a b : Finding) : (a.notAfter b || b.notAfter a) = true := by
  rw [Bool.or_eq_true, notAfter_iff, notAfter_iff]
  exact le_total _ _

end Finding

theorem sortFindings_perm (fs : List Finding) : (sortFindings fs).Perm fs := List.mergeSort_perm _ _

theorem pairwise_sortFindings (fs : List Finding) :
    (sortFindings fs).Pairwise fun a b => a.sortKey ≤ b.sortKey := by
  have hSorted := List.pairwise_mergeSort Finding.notAfter_trans Finding.notAfter_total fs
  exact hSorted.imp Finding.notAfter_iff.mp

theorem filter_sortFindings (fs : List Finding) (key : SortKey) :
    (sortFindings fs).filter (fun f => f.sortKey = key) = fs.filter fun f => f.sortKey = key := by
  have hSame : (fs.filter fun f => f.sortKey = key).Pairwise fun a b => a.notAfter b = true := by
    refine List.pairwise_of_forall_mem_list fun a ha b hb => ?_
    have hKeyA : a.sortKey = key := by simpa using (List.mem_filter.mp ha).2
    have hKeyB : b.sortKey = key := by simpa using (List.mem_filter.mp hb).2
    rw [Finding.notAfter_iff, hKeyA, hKeyB]
  -- The findings with one key are in order before the sort, and such a part of a list stays a part of it.
  have hSub : (fs.filter fun f => f.sortKey = key).Sublist (sortFindings fs) :=
    List.sublist_mergeSort Finding.notAfter_trans Finding.notAfter_total hSame List.filter_sublist
  have hFilter := hSub.filter fun f => decide (f.sortKey = key)
  rw [List.filter_filter] at hFilter
  simp only [Bool.and_self] at hFilter
  exact (hFilter.eq_of_length ((sortFindings_perm fs).filter _).length_eq.symm).symm

/-- What a report lists of the findings `found` if it lists at most `limit` of them. -/
structure Ranks (limit : Nat) (found listed : List Finding) : Prop where
  length : listed.length = min limit found.length
  ordered : listed.Pairwise fun a b => a.sortKey ≤ b.sortKey
  complete : found.length ≤ limit → listed.Perm found
  stable : found.length ≤ limit → ∀ key,
    listed.filter (fun f => f.sortKey = key) = found.filter fun f => f.sortKey = key
  cut : ∃ dropped, (listed ++ dropped).Perm found
  smallest : ∀ dropped, (listed ++ dropped).Perm found →
    ∀ a ∈ listed, ∀ b ∈ dropped, ¬ b.sortKey < a.sortKey
  errorsFirst : ∀ dropped, (listed ++ dropped).Perm found →
    ∀ a ∈ listed, ∀ b ∈ dropped, b.severity = .error → a.severity = .error

theorem ranks_take_sortFindings (limit : Nat) (found : List Finding) :
    Ranks limit found ((sortFindings found).take limit) := by
  have hPerm := sortFindings_perm found
  have hWhole : found.length ≤ limit → (sortFindings found).take limit = sortFindings found := fun h =>
    List.take_of_length_le (hPerm.length_eq ▸ h)
  have hCut : ((sortFindings found).take limit ++ (sortFindings found).drop limit).Perm found := by
    rw [List.take_append_drop]
    exact hPerm
  have hBehind : ∀ dropped, ((sortFindings found).take limit ++ dropped).Perm found →
      ∀ a ∈ (sortFindings found).take limit, ∀ b ∈ dropped, a.sortKey ≤ b.sortKey := by
    intro dropped hDropped a ha b hb
    have hSame := (List.perm_append_left_iff _).mp (hDropped.trans hCut.symm)
    have hSorted := pairwise_sortFindings found
    rw [← List.take_append_drop limit (sortFindings found), List.pairwise_append] at hSorted
    exact hSorted.2.2 a ha b (hSame.mem_iff.mp hb)
  exact {
    length := by rw [List.length_take, hPerm.length_eq]
    ordered := (pairwise_sortFindings found).sublist (List.take_sublist _ _)
    complete := fun h => by rw [hWhole h]; exact hPerm
    stable := fun h key => by rw [hWhole h, filter_sortFindings]
    cut := ⟨_, hCut⟩
    smallest := fun dropped h a ha b hb => not_lt_of_ge (hBehind dropped h a ha b hb)
    errorsFirst := fun dropped h a ha b hb hError =>
      Severity.error_le_iff.mp (hError ▸ Finding.severity_le_severity (hBehind dropped h a ha b hb)) }

/-- A run lists what its checks find in the order of a report. -/
theorem ranks_evaluate (m : Model) (plan : Plan) :
    Ranks plan.maxFindings (findingsOf m plan Check.all) (evaluate m plan).findings :=
  ranks_take_sortFindings _ _

end PolicyLint.Lint
