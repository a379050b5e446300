import PolicyLint.License.Reader
import PolicyLint.Lint.Checks.Packages

/-!
# License exceptions

An exception names its package, may restrict its version, and allows at least one license. No package and
version has two exceptions.
-/
namespace PolicyLint.Lint.Exceptions
open Text Policy License
set_option autoImplicit false

def label (index : Nat) : String := entryLabel "licenses.exceptions" index

/-- Where findings about the whole entry point: its first value that has a place. -/
def anchor (e : Exception) : Option Span :=
  (spanOf e.name).or ((spanOf e.version).or (e.allow.head?.map Spanned.span))

structure Named where
  index : Nat
  name : String
  entry : Exception

namespace Named

def version (e : Named) : Option String := trimmedVersion e.entry.version

def shown (e : Named) : String := packageText e.name e.version

def key (e : Named) : PackageKey := .of e.name e.version

def place (e : Named) : List (String × Json.Value) :=
  [("entry", .string (label e.index)), ("package", .string e.name)]

def invalidVersion (m : Model) (e : Named) : List Issue :=
  match e.entry.version with
  | none => []
  | some version =>
    match versionFault (trim version.value) with
    | none => []
    | some fault =>
      [{ code := .invalidVersion
         subject := e.shown
         message := "exception for " ++ ticked e.name ++ " has an invalid version requirement " ++
           ticked (trim version.value) ++ ": " ++ fault.message
         line := m.lineOf (some version.span)
         help := "Use a semver requirement such as `0.17` or `=0.17.8`."
         data := e.place ++ [("version", .string (trim version.value))] }]

def duplicate (m : Model) (e : Named) : Issue where
  code := .duplicateException
  subject := e.shown
  message := ticked e.shown ++ " has more than one entry in licenses.exceptions"
  line := m.lineOf (anchor e.entry)
  help := "Merge the `allow` lists into a single exception."
  data := e.place ++ [("version", .ofOption .string e.version)]

def emptyAllow (m : Model) (e : Named) : List Issue :=
  if e.entry.allow.isEmpty then
    [{ code := .emptyAllow
       subject := e.shown
       message := "exception for " ++ ticked e.name ++ " does not allow any license"
       line := m.lineOf (anchor e.entry)
       help := "List the extra licenses the package may use, or remove the exception."
       data := e.place }]
  else []

def invalidLicense (m : Model) (e : Named) (license : Spanned String) : Option Issue :=
  match Requirement.parse license.value with
  | .ok _ => none
  | .error fault =>
    some {
      code := .invalidLicenseId
      subject := e.shown ++ ":" ++ license.value
      message := "exception for " ++ ticked e.name ++ " allows " ++ ticked license.value ++
        ", which is not a valid SPDX license identifier: " ++ fault.cause.message
      line := m.lineOf (some license.span)
      help := "Use the exact SPDX short identifier."
      data := e.place ++ [("license", .string license.value)] }

/-- The issues of one exception; `again` says whether its package and version came before. -/
def issues (m : Model) (again : Bool) (e : Named) : List Issue :=
  e.invalidVersion m ++ (if again then [e.duplicate m] else []) ++ e.emptyAllow m ++
    e.entry.allow.filterMap (e.invalidLicense m)

end Named

/-- The issues of the exceptions in turn; `seen` are the packages and versions before them. -/
def walk (m : Model) (seen : List PackageKey) : List (Exception × Nat) → List Issue
  | [] => []
  | (e, index) :: es =>
    match packageName e.name with
    | none =>
      .missingName (label index) (label index) "Add `name = \"<crate>\"` to the exception."
        (m.lineOf (anchor e)) :: walk m seen es
    | some name =>
      let named : Named := ⟨index, name, e⟩
      named.issues m (seen.contains named.key) ++ walk m (named.key :: seen) es

def issues (m : Model) (allowed : String → Bool) : List Issue :=
  walk m [] (m.licenses.exceptions.zipIdx.filter fun (e, _) => !allowsPackage allowed e.name)

end PolicyLint.Lint.Exceptions
