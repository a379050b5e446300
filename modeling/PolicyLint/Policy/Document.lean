import PolicyLint.Text.Span
import PolicyLint.Decimal.Binary64

/-!
# Policy documents

What a dependency policy says, with the places of the values that findings point at. Names may be missing
and identifiers malformed here; only the types of values are fixed.
-/
namespace PolicyLint.Policy
open Text
set_option autoImplicit false

inductive LintLevel where
  | deny | warn | allow
  deriving DecidableEq, Repr, Inhabited

inductive FreeSoftware where
  | yes | no | neither | both | either | osiOnly | fsfOnly
  deriving DecidableEq, Repr, Inhabited

/-- Extra licenses granted to one package. -/
structure Exception where
  name : Option (Spanned String) := none
  version : Option (Spanned String) := none
  allow : List (Spanned String) := []
  deriving DecidableEq, Repr, Inhabited

structure LicenseFile where
  path : Spanned String
  hash : Spanned Int
  deriving DecidableEq, Repr

/-- An explicit license expression for one package. -/
structure Clarification where
  name : Option (Spanned String) := none
  version : Option (Spanned String) := none
  expression : Option (Spanned String) := none
  licenseFiles : List LicenseFile := []
  deriving DecidableEq, Repr, Inhabited

structure Licenses where
  unlicensed : Option LintLevel := none
  copyleft : Option LintLevel := none
  freeSoftware : Option FreeSoftware := none
  otherwise : Option LintLevel := none
  confidenceThreshold : Option (Spanned Decimal.Binary64) := none
  allow : List (Spanned String) := []
  deny : List (Spanned String) := []
  exceptions : List Exception := []
  clarify : List Clarification := []
  deriving DecidableEq, Repr, Inhabited

/-- A package that the ban on several versions does not cover. -/
structure Skip where
  name : Option (Spanned String) := none
  version : Option (Spanned String) := none
  reason : Option String := none
  deriving DecidableEq, Repr, Inhabited

/-- As `Skip`, with the dependencies of the package down to a depth. -/
structure TreeSkip where
  name : Option (Spanned String) := none
  version : Option (Spanned String) := none
  depth : Option Nat := none
  reason : Option String := none
  deriving DecidableEq, Repr, Inhabited

structure Bans where
  multipleVersions : Option LintLevel := none
  wildcards : Option LintLevel := none
  skip : List Skip := []
  skipTree : List TreeSkip := []
  deriving DecidableEq, Repr, Inhabited

structure Sources where
  unknownRegistry : Option LintLevel := none
  unknownGit : Option LintLevel := none
  allowRegistry : List String := []
  allowGit : List String := []
  deriving DecidableEq, Repr, Inhabited

structure Document where
  licenses : Option Licenses := none
  bans : Option Bans := none
  sources : Option Sources := none
  deriving DecidableEq, Repr, Inhabited

def LintLevel.name : LintLevel → String
  | deny => "deny"
  | warn => "warn"
  | allow => "allow"

def FreeSoftware.name : FreeSoftware → String
  | yes => "yes"
  | no => "no"
  | neither => "neither"
  | both => "both"
  | either => "either"
  | osiOnly => "osi-only"
  | fsfOnly => "fsf-only"

namespace Document

/-- The sections that are there, in the order of the schema. -/
def sectionNames (d : Document) : List String :=
  (if d.licenses.isSome then ["licenses"] else []) ++
  (if d.bans.isSome then ["bans"] else []) ++
  (if d.sources.isSome then ["sources"] else [])

def declaredLicenses (d : Document) : Nat :=
  match d.licenses with
  | some l => l.allow.length + l.deny.length
  | none => 0

def clarifications (d : Document) : Nat :=
  match d.licenses with
  | some l => l.clarify.length
  | none => 0

def skipEntries (d : Document) : Nat :=
  match d.bans with
  | some b => b.skip.length + b.skipTree.length
  | none => 0

end Document

end PolicyLint.Policy
