import PolicyLint.Lint.Issue
import PolicyLint.Version.Requirement

/-!
# Entries about packages

What the checks on exceptions, clarifications and skip entries share: how a package with its version is
shown, and when two entries are about the same one.
-/
namespace PolicyLint.Lint
open Text Policy
set_option autoImplicit false

/-- A package name and a version requirement, both trimmed. A missing version is the empty one. -/
structure PackageKey where
  name : String
  version : String
  deriving DecidableEq, Repr

def trimmedVersion (version : Option (Spanned String)) : Option String :=
  version.map fun v => trim v.value

def PackageKey.of (name : String) (version : Option String) : PackageKey := ⟨name, version.getD ""⟩

def packageText (name : String) (version : Option String) : String :=
  match version with
  | some v => name ++ "@" ++ v
  | none => name

/-- The fault of a version requirement that is given and cannot be read. -/
def versionFault (version : String) : Option Version.Fault :=
  match Version.parse version with
  | .ok _ => none
  | .error fault => some fault

/-- Whether an entry is about a package that the caller allows. -/
def allowsPackage (allowed : String → Bool) (name : Option (Spanned String)) : Bool :=
  match packageName name with
  | some n => allowed n
  | none => false

end PolicyLint.Lint
