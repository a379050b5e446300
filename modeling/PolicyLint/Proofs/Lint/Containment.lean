import Mathlib.Algebra.Order.BigOperators.Group.List
import PolicyLint.Proofs.Lint.Clarifications

/-!
# License files stay inside their package

A path is walked segment by segment. If no segment leads up and the path has no root, then no part of the walk
leaves the directory it starts from; blanks around the path make no difference to this. The check refuses every
segment that leads up, also one that only takes back an earlier one.
-/
namespace PolicyLint.Lint.Clarifications
open Text Policy
set_option autoImplicit false

/-- What a path is cut into at slashes and backslashes. -/
def segments (path : List Char) : List (List Char) := splitAt (IsSeparator ·) path

def parentSegment : List Char := ['.', '.']

/-- How many levels a segment leads down. -/
def rise (segment : List Char) : Int :=
  if segment = [] ∨ segment = ['.'] then 0 else if segment = parentSegment then -1 else 1

/-- How far below the start some segments lead. -/
def depth (walked : List (List Char)) : Int := (walked.map rise).sum

/-- Somewhere on its way the path is above where it started. -/
def Climbs (path : List Char) : Prop := ∃ walked, walked <+: segments path ∧ depth walked < 0

/-- The path starts with a separator or with a drive. -/
def IsRooted (path : List Char) : Prop :=
  (∃ c ∈ path.head?, IsSeparator c) ∨ ∃ letter rest, path = letter :: ':' :: rest ∧ letter.isAlpha = true

section
variable {path : List Char}

theorem not_climbs_of_not_mem (h : parentSegment ∉ segments path) : ¬ Climbs path := by
  rintro ⟨walked, hFront, hDepth⟩
  have hRise : ∀ n ∈ walked.map rise, 0 ≤ n := by
    intro n hn
    obtain ⟨segment, hSegment, rfl⟩ := List.mem_map.mp hn
    have hNe : segment ≠ parentSegment := fun hEq => h (hEq ▸ hFront.subset hSegment)
    rw [rise, if_neg hNe]
    split <;> decide
  have hSum := List.sum_nonneg hRise
  rw [depth] at hDepth
  omega

theorem mem_segments_iff_goesUp : parentSegment ∈ segments path ↔ goesUp path = true := by
  rw [goesUp, funext isSlash_eq, List.contains_iff_mem]
  rfl

theorem isRooted_iff_isAbsolute : IsRooted path ↔ isAbsolute path = true := by
  rw [← Bool.not_eq_false, isAbsolute_eq_false_iff, Classical.not_and_iff_not_or_not, IsRooted]
  apply or_congr
  · push Not
    rfl
  · push Not
    simp only [ne_eq, Bool.not_eq_false]

theorem insidePackage_iff_segments :
    InsidePackage path ↔ path ≠ [] ∧ ¬ IsRooted path ∧ parentSegment ∉ segments path := by
  rw [insidePackage_iff, isRooted_iff_isAbsolute, mem_segments_iff_goesUp, Bool.not_eq_true, Bool.not_eq_true]

end

theorem isBlank_eq_false_of_isSeparator {c : Char} (h : IsSeparator c) : isBlank c = false := by
  rcases h with rfl | rfl <;> rfl

theorem isBlank_eq_false_of_isAlpha {c : Char} (h : c.isAlpha = true) : isBlank c = false := by
  have hBounds : (65 ≤ c.toNat ∧ c.toNat ≤ 90) ∨ (97 ≤ c.toNat ∧ c.toNat ≤ 122) := by
    rcases Bool.or_eq_true_iff.mp h with hUpper | hLower
    · exact .inl (of_decide_eq_true hUpper)
    · obtain ⟨hLow, hHigh⟩ := Bool.and_eq_true_iff.mp hLower
      exact .inr ⟨of_decide_eq_true hLow, of_decide_eq_true hHigh⟩
  rw [isBlank]
  simp only [Bool.or_eq_false_iff, Bool.and_eq_false_iff, decide_eq_false_iff_not, beq_eq_false_iff_ne]
  omega

theorem IsRooted.trimChars {path : List Char} (h : IsRooted path) : IsRooted (trimChars path) := by
  rcases h with ⟨c, hHead, hSeparator⟩ | ⟨letter, rest, rfl, hLetter⟩
  · obtain ⟨rest, rfl⟩ := List.head?_eq_some_iff.mp hHead
    have hInk : ∀ d ∈ [c], isBlank d = false := by simpa using isBlank_eq_false_of_isSeparator hSeparator
    have hTrimmed := trimChars_append_append [] rest (List.cons_ne_nil c []) hInk
    exact .inl ⟨c, congrArg List.head? hTrimmed, hSeparator⟩
  · have hInk : ∀ d ∈ [letter, ':'], isBlank d = false := by
      simpa using ⟨isBlank_eq_false_of_isAlpha hLetter, rfl⟩
    exact .inr ⟨letter, _, trimChars_append_append [] rest (List.cons_ne_nil _ _) hInk, hLetter⟩

theorem Climbs.mem_segments {path : List Char} (h : Climbs path) : parentSegment ∈ segments path :=
  Classical.not_not.mp fun hNot => not_climbs_of_not_mem hNot h

/-- Blanks around a path do not hide where it leads up. -/
theorem Climbs.mem_segments_trimChars {path : List Char} (h : Climbs path) :
    parentSegment ∈ segments (Text.trimChars path) := by
  have hInk : ∀ c ∈ parentSegment, isBlank c = false := by
    intro c hc
    rw [List.eq_of_mem_replicate (n := 2) hc]
    rfl
  exact mem_splitAt_trimChars (List.cons_ne_nil _ _) hInk h.mem_segments

/-- A path, taken as it stands, that is a path of some file below the directory it starts from. -/
structure StaysInside (path : List Char) : Prop where
  notEmpty : path ≠ []
  noRoot : ¬ IsRooted path
  neverAbove : ∀ walked, walked <+: segments path → 0 ≤ depth walked

theorem staysInside_of_insidePackage {path : List Char} (h : InsidePackage path) : StaysInside path := by
  obtain ⟨hSome, hRoot, hParent⟩ := insidePackage_iff_segments.mp h
  refine ⟨hSome, hRoot, ?_⟩
  intro walked hFront
  exact Int.not_lt.mp fun hBelow => not_climbs_of_not_mem hParent ⟨walked, hFront, hBelow⟩

/-- Faults of a file that the check must not miss; blanks around its path count or do not count. -/
inductive Misplaced (file : LicenseFile) : Prop
  | blank : trimChars file.path.value.toList = [] → Misplaced file
  | rooted : IsRooted file.path.value.toList ∨ IsRooted (trimChars file.path.value.toList) → Misplaced file
  | climbs : Climbs file.path.value.toList ∨ Climbs (trimChars file.path.value.toList) → Misplaced file
  | wide : ¬ (0 ≤ file.hash.value ∧ file.hash.value < 2 ^ 32) → Misplaced file

theorem Misplaced.not_soundFile {file : LicenseFile} (h : Misplaced file) : ¬ SoundFile file := by
  intro hSound
  obtain ⟨hSome, hRoot, hParent⟩ := insidePackage_iff_segments.mp hSound.path
  cases h with
  | blank hBlank => exact hSome hBlank
  | rooted hRooted => exact hRoot (hRooted.elim IsRooted.trimChars id)
  | climbs hClimbs => exact hParent (hClimbs.elim Climbs.mem_segments_trimChars Climbs.mem_segments)
  | wide hWide => exact hWide hSound.hash

/-- A license file is accepted if its path, without the blanks around it, has no root and no segment that leads
up, and its checksum has 32 bits. So every accepted path stays below its start, and no path that leaves it is
accepted. -/
theorem acceptedFiles_stayInside (file : LicenseFile) :
    (fileProblem file = none ↔
      trimChars file.path.value.toList ≠ [] ∧ ¬ IsRooted (trimChars file.path.value.toList) ∧
        parentSegment ∉ segments (trimChars file.path.value.toList) ∧
        0 ≤ file.hash.value ∧ file.hash.value < 2 ^ 32) ∧
    (fileProblem file = none → StaysInside (trimChars file.path.value.toList) ∧
      0 ≤ file.hash.value ∧ file.hash.value < 2 ^ 32) ∧
    (Misplaced file → ∃ problem, fileProblem file = some problem) := by
  refine ⟨?_, ?_, ?_⟩
  · rw [fileProblem_eq_none_iff]
    constructor
    · intro hSound
      obtain ⟨hSome, hRoot, hParent⟩ := insidePackage_iff_segments.mp hSound.path
      exact ⟨hSome, hRoot, hParent, hSound.hash⟩
    · rintro ⟨hSome, hRoot, hParent, hHash⟩
      exact ⟨insidePackage_iff_segments.mpr ⟨hSome, hRoot, hParent⟩, hHash⟩
  · intro h
    have hSound := fileProblem_eq_none_iff.mp h
    exact ⟨staysInside_of_insidePackage hSound.path, hSound.hash⟩
  · intro hMisplaced
    apply Option.ne_none_iff_exists'.mp
    rw [ne_eq, fileProblem_eq_none_iff]
    exact hMisplaced.not_soundFile

end PolicyLint.Lint.Clarifications
