import PolicyLint.License.Reader
import PolicyLint.Lint.Issue

/-!
# License lists

Each entry of the allowed and the denied licenses must be one license, and no license may be listed twice,
be it in one list or in both. Entries that the caller allows are passed over and count for nothing.
-/
namespace PolicyLint.Lint.LicenseLists
open Text Policy License
set_option autoImplicit false

inductive ListName where
  | allow | deny
  deriving DecidableEq, Repr

def ListName.text : ListName → String
  | allow => "allow"
  | deny => "deny"

structure Entry where
  list : ListName
  license : Spanned String
  deriving DecidableEq, Repr

/-- The allowed licenses, then the denied ones. -/
def entries (l : Licenses) : List Entry :=
  l.allow.map (Entry.mk .allow) ++ l.deny.map (Entry.mk .deny)

def Entry.isAllowed (allowed : String → Bool) (e : Entry) : Bool := allowed (trim e.license.value)

def listField (l : ListName) : String := "licenses." ++ l.text

def invalid (m : Model) (e : Entry) (fault : Fault) : Issue where
  code := .invalidLicenseId
  subject := e.list.text ++ ":" ++ e.license.value
  message := listField e.list ++ " entry " ++ ticked e.license.value ++
    " is not a valid SPDX license identifier: " ++ fault.cause.message
  line := m.lineOf (some e.license.span)
  help := "Use the exact SPDX short identifier, e.g. `Apache-2.0` or `Apache-2.0 WITH LLVM-exception`."
  data := [("list", .string e.list.text), ("license", .string e.license.value),
    ("offset", .ofNat fault.offset)]

/-- A license that `first` lists already. -/
def duplicate (m : Model) (e : Entry) (license : Requirement) (first : ListName) : Issue :=
  let again := first = e.list
  { code := .duplicateLicense
    subject := e.list.text ++ ":" ++ license.render
    message := "license " ++ ticked license.render ++
      if again then " is listed more than once in " ++ listField e.list
      else " is listed in both " ++ listField first ++ " and " ++ listField e.list
    line := m.lineOf (some e.license.span)
    help :=
      if again then "Remove the duplicate entry."
      else "Keep each license in exactly one of `allow` or `deny`."
    data := [("list", .string e.list.text), ("license", .string license.render)] ++
      if again then [] else [("first_list", .string first.text)] }

/-- The licenses listed so far as they are written, each with the list that had it first. -/
abbrev Seen := List (String × ListName)

/-- The issues of the entries in turn. -/
def walk (m : Model) (seen : Seen) : List Entry → List Issue
  | [] => []
  | e :: es =>
    match Requirement.parse e.license.value with
    | .error fault => invalid m e fault :: walk m seen es
    | .ok license =>
      match seen.lookup license.render with
      | some first => duplicate m e license first :: walk m seen es
      | none => walk m ((license.render, e.list) :: seen) es

def issues (m : Model) (allowed : String → Bool) : List Issue :=
  walk m [] ((entries m.licenses).filter fun e => !e.isAllowed allowed)

end PolicyLint.Lint.LicenseLists
