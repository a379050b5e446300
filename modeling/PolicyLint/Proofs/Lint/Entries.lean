import Mathlib.Data.List.Nodup
import PolicyLint.Proofs.Lint.WellFormed

/-!
# Entries and what was met before them

What the checks on lists have in common: the names and versions of packages, and the keys that a walk
remembers in order to find an entry again.
-/
namespace PolicyLint.Lint
open Text Policy
set_option autoImplicit false

theorem packageName_eq_none_iff {name : Option (Spanned String)} :
    packageName name = none ↔ trimmed name = "" := by
  cases name with
  | none => simp [packageName, trimmed]
  | some s =>
    rw [packageName, trimmed, Option.map_some, Option.getD_some, ← isAllBlank_iff]
    split
    · rename_i h
      simp [h]
    · rename_i h
      simp [h]

theorem eq_trimmed_of_packageName {name : Option (Spanned String)} {n : String}
    (h : packageName name = some n) : n = trimmed name := by
  cases name with
  | none => cases h
  | some s =>
    rw [packageName] at h
    split at h
    · cases h
    · exact (Option.some.inj h).symm

theorem named_of_packageName {name : Option (Spanned String)} {n : String} (h : packageName name = some n) :
    trimmed name ≠ "" := by
  rw [Ne, ← packageName_eq_none_iff, h]
  simp

theorem versionFault_eq_none_iff {s : String} : versionFault s = none ↔ IsVersion s := by
  rw [versionFault, IsVersion]
  split
  · rename_i v h
    simp [h]
  · rename_i fault h
    simp [h]

/-- What a check of an optional version reports is told by the version. -/
theorem versionIssues_eq_nil_iff {version : Option (Spanned String)} {text : Spanned String → String}
    {issues : List Issue} (hNone : version = none → issues = [])
    (hSome : ∀ v, version = some v → (issues = [] ↔ versionFault (text v) = none)) :
    issues = [] ↔ ∀ v ∈ version, IsVersion (text v) := by
  cases version with
  | none => exact iff_of_true (hNone rfl) (by simp)
  | some v =>
    rw [hSome v rfl, versionFault_eq_none_iff]
    simp

theorem allowsPackage_none (name : Option (Spanned String)) :
    allowsPackage (fun _ => false) name = false := by
  rw [allowsPackage]
  split <;> rfl

theorem map_zipIdx {α β : Type} (f : α → β) (l : List α) : (l.zipIdx.map fun p => f p.1) = l.map f := by
  rw [← Function.comp_def f Prod.fst, ← List.map_map, List.zipIdx_map_fst]

theorem forall_mem_zipIdx_iff {α : Type} {P : α → Prop} {l : List α} :
    (∀ p ∈ l.zipIdx, P p.1) ↔ ∀ a ∈ l, P a := by
  rw [← List.forall_mem_map, List.zipIdx_map_fst]

/-- The keys differ from each other and from those seen before. -/
def NewTo {κ : Type} (seen keys : List κ) : Prop := keys.Nodup ∧ ∀ k ∈ keys, k ∉ seen

theorem newTo_nil {κ : Type} (seen : List κ) : NewTo seen [] := ⟨.nil, fun _ h => by cases h⟩

theorem newTo_cons_iff {κ : Type} {seen keys : List κ} {k : κ} :
    NewTo seen (k :: keys) ↔ k ∉ seen ∧ NewTo (k :: seen) keys := by
  rw [NewTo, NewTo, List.nodup_cons, List.forall_mem_cons]
  constructor
  · rintro ⟨⟨hk, hNodup⟩, hSeen, hNew⟩
    refine ⟨hSeen, hNodup, fun k' hk' hMem => ?_⟩
    rcases List.mem_cons.mp hMem with rfl | hMem
    · exact hk hk'
    · exact hNew k' hk' hMem
  · rintro ⟨hSeen, hNodup, hNew⟩
    refine ⟨⟨fun hk => ?_, hNodup⟩, hSeen, fun k' hk' hMem => ?_⟩
    · exact hNew k hk List.mem_cons_self
    · exact hNew k' hk' (List.mem_cons_of_mem _ hMem)

theorem newTo_empty_iff {κ : Type} {keys : List κ} : NewTo [] keys ↔ keys.Nodup :=
  and_iff_left fun _ _ => List.not_mem_nil

end PolicyLint.Lint
