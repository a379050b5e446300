import PolicyLint.Glob.Pattern

/-!
# How deeply patterns nest

Patterns are compiled to items that nest: repetitions, classes, groups, alternatives and rows of several
items each count as a level. A pattern that nests beyond `maxDepth` levels cannot be compiled.
-/
namespace PolicyLint.Glob
set_option autoImplicit false

def maxDepth : Nat := 250

/-- The items of a class: a character that is no ASCII is as many as it has bytes, and of two such that
bound a range, the bytes between them are one. -/
def rangeItems (range : Char × Char) : Nat :=
  if range.1 = range.2 then range.1.utf8Size else range.1.utf8Size + range.2.utf8Size - 1

def classItems (ranges : List (Char × Char)) : Nat := (ranges.map rangeItems).foldl (· + ·) 0

/-- How many items a part is in the row that it stands in. -/
def Part.items : Part → Nat
  | .literal c => c.utf8Size
  | .trailingDirs => 2
  | .choice [] => 0
  | _ => 1

def rowItems (parts : List Part) : Nat := (parts.map Part.items).foldl (· + ·) 0

/-- The levels of a row of items, of which the deepest has `depth` levels. -/
def rowDepth (parts : List Part) (depth : Nat) : Nat := if rowItems parts < 2 then depth else depth + 1

mutual

def Part.depth : Part → Nat
  | .literal _ | .anyByte | .choice [] => 0
  | .anything | .trailingDirs => 1
  | .leadingDirs | .innerDirs => 4
  | .oneOf _ ranges => if classItems ranges < 2 then 1 else 2
  | .choice [branch] => rowDepth branch (deepest branch) + 1
  | .choice (branch :: branches) => max (rowDepth branch (deepest branch)) (deepestRow branches) + 2

/-- The levels of the deepest of some parts. -/
def deepest : List Part → Nat
  | [] => 0
  | part :: parts => max part.depth (deepest parts)

/-- The levels of the deepest of some rows. -/
def deepestRow : List (List Part) → Nat
  | [] => 0
  | row :: rows => max (rowDepth row (deepest row)) (deepestRow rows)

end

/-- Whether a pattern can be compiled. The whole pattern is always a row, with its two ends as items. -/
def Pattern.isShallow (p : Pattern) : Bool := deepest p + 1 ≤ maxDepth

end PolicyLint.Glob
