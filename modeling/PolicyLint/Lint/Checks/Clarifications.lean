import PolicyLint.Decimal.Bounds
import PolicyLint.License.Reader
import PolicyLint.Lint.Checks.Packages
import PolicyLint.Text.Split

/-!
# License clarifications

A clarification names its package and gives a license expression and the files it was derived from, each
inside the package and with a checksum of 32 bits.
-/
namespace PolicyLint.Lint.Clarifications
open Text Policy License
set_option autoImplicit false

inductive FileProblem where
  | empty | absolute | escapes | wideHash
  deriving DecidableEq, Repr

def FileProblem.message : FileProblem → String
  | empty => "path is empty"
  | absolute => "path is absolute"
  | escapes => "path escapes the package root"
  | wideHash => "hash does not fit in 32 bits"

def isSlash (c : Char) : Bool := c == '/' || c == '\\'

def isAbsolute : List Char → Bool
  | c :: d :: _ => isSlash c || (c.isAlpha && d == ':')
  | [c] => isSlash c
  | [] => false

def goesUp (path : List Char) : Bool := (splitAt isSlash path).contains ['.', '.']

/-- The first problem of a path and its checksum. -/
def problemOf (path : String) (hash : Int) : Option FileProblem :=
  let path := trimChars path.toList
  if path.isEmpty then some .empty
  else if isAbsolute path then some .absolute
  else if goesUp path then some .escapes
  else if Decimal.fitsUnsigned Decimal.word32 hash then none
  else some .wideHash

def fileProblem (f : LicenseFile) : Option FileProblem := problemOf f.path.value f.hash.value

/-- A clarification at its position in the list. -/
structure Placed where
  index : Nat
  entry : Clarification

namespace Placed

def label (c : Placed) : String := entryLabel "licenses.clarify" c.index

/-- What identifies the clarification: its package, or its position if it names none. -/
def subject (c : Placed) : String := (packageName c.entry.name).getD c.label

def shown (c : Placed) : String :=
  match packageName c.entry.name with
  | some name => ticked name
  | none => c.label

def anchor (c : Placed) : Option Span :=
  (spanOf c.entry.name).or ((spanOf c.entry.expression).or (spanOf c.entry.version))

/-- An issue of this clarification, whose message starts alike for all. -/
def issue (m : Model) (c : Placed) (code : Code) (span : Option Span) (remark help : String)
    (data : List (String × Json.Value)) : Issue where
  code := code
  subject := c.subject
  message := "clarification for " ++ c.shown ++ remark
  line := m.lineOf span
  help := help
  data := ("entry", .string c.label) :: data

def nameIssues (m : Model) (c : Placed) : List Issue :=
  match packageName c.entry.name with
  | some _ => []
  | none =>
    [.missingName c.label c.subject "Add `name = \"<crate>\"` to the clarification." (m.lineOf c.anchor)]

def versionIssues (m : Model) (c : Placed) : List Issue :=
  match c.entry.version with
  | none => []
  | some version =>
    match versionFault version.value with
    | none => []
    | some fault =>
      [c.issue m .invalidVersion (some version.span)
        (" has an invalid version requirement " ++ ticked version.value ++ ": " ++ fault.message)
        "Use a semver requirement such as `0.17` or `=0.17.8`."
        [("version", .string version.value)]]

def expressionIssues (m : Model) (c : Placed) : List Issue :=
  match c.entry.expression with
  | none =>
    [c.issue m .invalidExpression c.anchor " has no license expression"
      "Add `expression = \"<SPDX expression>\"`." []]
  | some expression =>
    match Expr.parse expression.value with
    | .ok _ => []
    | .error fault =>
      [c.issue m .invalidExpression (some expression.span)
        (" has an invalid license expression " ++ ticked expression.value ++ ": " ++ fault.message)
        "Use SPDX identifiers joined by upper-case AND, OR, and WITH."
        [("expression", .string expression.value), ("offset", .ofNat fault.offset)]]

def noFilesIssues (m : Model) (c : Placed) : List Issue :=
  if c.entry.licenseFiles.isEmpty then
    [c.issue m .missingLicenseFiles c.anchor " lists no license files"
      "List the files the expression was derived from in `license-files`." []]
  else []

def fileIssue (m : Model) (c : Placed) (file : LicenseFile) : Option Issue :=
  (fileProblem file).map fun problem =>
    c.issue m .invalidLicenseFile (some file.path.span)
      (" has an invalid license file " ++ ticked file.path.value ++ ": " ++ problem.message)
      "Use a path relative to the package root and a 32-bit content hash."
      [("path", .string file.path.value), ("hash", .ofInt file.hash.value)]

def issues (m : Model) (c : Placed) : List Issue :=
  c.nameIssues m ++ c.versionIssues m ++ c.expressionIssues m ++ c.noFilesIssues m ++
    c.entry.licenseFiles.filterMap (c.fileIssue m)

end Placed

def issues (m : Model) (allowed : String → Bool) : List Issue :=
  (m.licenses.clarify.zipIdx.filter fun (c, _) => !allowsPackage allowed c.name).flatMap
    fun (c, index) => Placed.issues m ⟨index, c⟩

end PolicyLint.Lint.Clarifications
