import Mathlib.Data.List.Forall2
import PolicyLint.Glob.Match

/-!
# The effect of a list of globs

A list of globs is compiled as a whole. So one glob is enough for a list to match every text, and one is enough
for it to match none: a glob whose braces nest too deeply can be read, but not compiled.
-/
namespace PolicyLint.Glob
set_option autoImplicit false

/-- A glob that matches every text. -/
def MatchesAll (glob : String) : Prop := ∀ text, matchesText glob text = true

theorem nil_mem_tails (bytes : Bytes) : [] ∈ tails bytes := by
  induction bytes with
  | nil => exact List.mem_cons_self
  | cons b bytes ih => exact List.mem_cons_of_mem _ ih

theorem matchesAll_star : MatchesAll "*" := by
  intro text
  have hParse : parse "*" = .ok [.anything] := by
    rw [parse, show "*".toList = ['*'] from rfl, read, read]
    · rfl
    · simp
  rw [matchesText, hParse]
  simp only [Pattern.matchesBytes, Pattern.usesUp, patternRests, Part.rests, behindAnything, Bool.and_eq_true]
  exact ⟨List.any_eq_true.mpr ⟨[], nil_mem_tails _, rfl⟩, rfl⟩

section

variable {globs : List String} {glob : String}

theorem anyMatches_of_matchesAll (hShallow : ∀ g ∈ globs, isShallow g = true) (hGlob : glob ∈ globs)
    (hAll : MatchesAll glob) : anyMatches globs = fun _ => true := by
  funext text
  exact (anyMatches_eq_true_iff globs text).mpr ⟨hShallow, glob, hGlob, hAll text⟩

theorem anyMatches_of_not_isShallow (hGlob : glob ∈ globs) (hDeep : isShallow glob = false) :
    anyMatches globs = fun _ => false := by
  funext text
  have hAll : globs.all isShallow = false := List.all_eq_false.mpr ⟨glob, hGlob, by simp [hDeep]⟩
  rw [anyMatches, hAll, Bool.false_and]

end

/-- The patterns that globs are read as, one after another. -/
def Reads (globs : List String) (patterns : List Pattern) : Prop :=
  List.Forall₂ (fun glob p => parse glob = .ok p) globs patterns

theorem exists_reads {globs : List String} (h : ∀ glob ∈ globs, ∃ p, parse glob = .ok p) :
    ∃ patterns, Reads globs patterns := by
  induction globs with
  | nil => exact ⟨[], .nil⟩
  | cons glob globs ih =>
    obtain ⟨⟨p, hp⟩, hRest⟩ := List.forall_mem_cons.mp h
    obtain ⟨patterns, hPatterns⟩ := ih hRest
    exact ⟨p :: patterns, .cons hp hPatterns⟩

section

variable {globs : List String} {patterns : List Pattern} (h : Reads globs patterns)

include h

theorem Reads.all_isShallow : globs.all isShallow = patterns.all Pattern.isShallow := by
  induction h with
  | nil => rfl
  | cons hp _ ih => rw [List.all_cons, List.all_cons, ih, isShallow, hp]

theorem Reads.any_matchesText (text : String) : globs.any (matchesText · text) =
    patterns.any fun p => p.matchesBytes text.toUTF8.toList := by
  induction h with
  | nil => rfl
  | cons hp _ ih => rw [List.any_cons, List.any_cons, ih, matchesText, hp]

theorem Reads.anyMatches_iff (text : String) : anyMatches globs text = true ↔
    (∀ p ∈ patterns, p.isShallow = true) ∧ ∃ p ∈ patterns, p.matchesBytes text.toUTF8.toList = true := by
  rw [anyMatches, h.all_isShallow, h.any_matchesText, Bool.and_eq_true, List.all_eq_true, List.any_eq_true]

end

/-- A letter inside of braces. -/
def nested (braces : Nat) : String :=
  String.ofList (List.replicate braces '{' ++ 'a' :: List.replicate braces '}')

def nestedPattern : Nat → Pattern
  | 0 => [.literal 'a']
  | n + 1 => [.choice [nestedPattern n]]

theorem read_opening (groups : List OpenGroup) (previous : Option Char) (n : Nat) (rest : List Char) :
    ∃ previous', read groups [] previous (List.replicate n '{' ++ rest) =
      read (List.replicate n ⟨[], []⟩ ++ groups) [] previous' rest := by
  induction n generalizing groups previous with
  | zero => exact ⟨previous, rfl⟩
  | succ n ih =>
    obtain ⟨previous', ih⟩ := ih (⟨[], []⟩ :: groups) (some '{')
    refine ⟨previous', ?_⟩
    rw [List.replicate_succ, List.cons_append, read, ih, List.replicate_succ', List.append_assoc,
      List.singleton_append]

theorem read_closing (previous : Option Char) (k n : Nat) :
    read (List.replicate n ⟨[], []⟩) (nestedPattern k) previous (List.replicate n '}') =
      .ok (nestedPattern (k + n)) := by
  induction n generalizing k previous with
  | zero =>
    rw [List.replicate_zero, List.replicate_zero, read]
    rfl
  | succ n ih =>
    -- What is inside of the braces is not empty, so it is a branch.
    have hBranch : addBranch [] (nestedPattern k) = [nestedPattern k] := by
      cases k <;> rfl
    rw [List.replicate_succ, List.replicate_succ, read, hBranch, List.nil_append]
    exact (ih (some '}') (k + 1)).trans (by rw [Nat.add_assoc, Nat.add_comm 1])

theorem parse_nested (n : Nat) : parse (nested n) = .ok (nestedPattern n) := by
  obtain ⟨previous, hOpening⟩ := read_opening [] none n ('a' :: List.replicate n '}')
  rw [parse, nested, String.toList_ofList, hOpening, List.append_nil, read]
  · exact (read_closing _ 0 n).trans (by rw [Nat.zero_add])
  all_goals simp

theorem deepest_nestedPattern (n : Nat) : deepest (nestedPattern n) = n := by
  induction n with
  | zero => rfl
  | succ n ih =>
    have hRow : rowItems (nestedPattern n) = 1 := by
      cases n <;> rfl
    rw [nestedPattern, deepest, Part.depth, rowDepth, hRow, if_pos (by decide), ih, deepest, Nat.max_zero]

theorem isShallow_nested_iff (n : Nat) : isShallow (nested n) = true ↔ n < maxDepth := by
  rw [isShallow, parse_nested]
  simp only [Pattern.isShallow, deepest_nestedPattern, decide_eq_true_eq, Nat.succ_le_iff]

end PolicyLint.Glob
