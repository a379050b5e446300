import PolicyLint.License.Reader
import PolicyLint.Lint.Checks.Packages
import PolicyLint.Lint.Plan
import PolicyLint.Proofs.Decimal.Value
import PolicyLint.Proofs.Text.Pieces

/-!
# Well-formed policies

What a policy has to be for nothing in it to be wrong, said without the checks: entries that name their
packages, texts that parse, numbers in range, and no two entries of one list about the same package.
-/
namespace PolicyLint.Lint
open Text Policy License
set_option autoImplicit false

def IsVersion (s : String) : Prop := ∃ v, Version.parse s = .ok v

def IsLicense (s : String) : Prop := ∃ r, Requirement.parse s = .ok r

def IsExpression (s : String) : Prop := ∃ e, Expr.parse s = .ok e

/-- A text without the blanks around it. A missing text is the empty one. -/
def trimmed (s : Option (Spanned String)) : String := (s.map fun t => trim t.value).getD ""

/-- What an entry is about. -/
def package (name version : Option (Spanned String)) : PackageKey := ⟨trimmed name, trimmed version⟩

/-- No license is listed twice, in one list or in both. -/
def DistinctLicenses (l : Licenses) : Prop :=
  ∃ rs : List Requirement, rs.Nodup ∧
    (l.allow ++ l.deny).map (fun license => Requirement.parse license.value) = rs.map .ok

def InUnit (x : Decimal.Binary64) : Prop := ∃ q, x.value = some q ∧ 0 ≤ q ∧ q ≤ 1

structure SoundException (e : Exception) : Prop where
  named : trimmed e.name ≠ ""
  version : ∀ v ∈ e.version, IsVersion (trim v.value)
  allows : e.allow ≠ []
  licenses : ∀ license ∈ e.allow, IsLicense license.value

def IsSeparator (c : Char) : Prop := c = '/' ∨ c = '\\'

instance (c : Char) : Decidable (IsSeparator c) := inferInstanceAs (Decidable (_ ∨ _))

/-- A path below the root of its package. -/
structure InsidePackage (path : List Char) : Prop where
  notEmpty : path ≠ []
  noRoot : ∀ c ∈ path.head?, ¬ IsSeparator c
  noDrive : ∀ letter rest, path = letter :: ':' :: rest → letter.isAlpha = false
  /-- No segment leads one level up. -/
  noParent : ∀ front back, path = front ++ ['.', '.'] ++ back →
    ¬ (EndsApart (IsSeparator ·) front ∧ StartsApart (IsSeparator ·) back)

structure SoundFile (f : LicenseFile) : Prop where
  path : InsidePackage (trimChars f.path.value.toList)
  hash : 0 ≤ f.hash.value ∧ f.hash.value < 2 ^ 32

structure SoundClarification (c : Clarification) : Prop where
  named : trimmed c.name ≠ ""
  /-- Here the requirement counts as it is written. -/
  version : ∀ v ∈ c.version, IsVersion v.value
  expression : ∃ x ∈ c.expression, IsExpression x.value
  hasFiles : c.licenseFiles ≠ []
  files : ∀ f ∈ c.licenseFiles, SoundFile f

/-- An entry of the skip list or of the skipped trees. -/
structure SoundSkip (name version : Option (Spanned String)) : Prop where
  named : trimmed name ≠ ""
  version : ∀ v ∈ version, IsVersion (trim v.value)

structure WellFormed (m : Model) : Prop where
  licenses : DistinctLicenses m.licenses
  threshold : ∀ t ∈ m.licenses.confidenceThreshold, InUnit t.value
  exceptions : ∀ e ∈ m.licenses.exceptions, SoundException e
  exceptionPackages : (m.licenses.exceptions.map fun e => package e.name e.version).Nodup
  clarifications : ∀ c ∈ m.licenses.clarify, SoundClarification c
  skips : ∀ s ∈ m.bans.skip, SoundSkip s.name s.version
  skipPackages : (m.bans.skip.map fun s => package s.name s.version).Nodup
  treeSkips : ∀ s ∈ m.bans.skipTree, SoundSkip s.name s.version
  treeSkipPackages : (m.bans.skipTree.map fun s => package s.name s.version).Nodup
  keys : m.unknownKeys = []

/-- Every check is on and passes over nothing. -/
def Plan.ChecksAll (plan : Plan) : Prop := ∀ check, ∃ rule, plan.rule? check = some rule ∧ rule.allow = []

end PolicyLint.Lint
