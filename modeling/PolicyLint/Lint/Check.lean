/-!
# Checks and codes

The checks a run may make and the kinds of finding they report, each with the name that configurations and
reports use.
-/
namespace PolicyLint.Lint
set_option autoImplicit false

inductive Check where
  | licenseLists | confidenceThreshold | exceptions | clarifications | skipEntries | unknownKeys
  deriving DecidableEq, Repr, Inhabited

namespace Check

def name : Check → String
  | licenseLists => "licenses.allow_identifiers"
  | confidenceThreshold => "licenses.confidence_threshold"
  | exceptions => "licenses.exceptions"
  | clarifications => "licenses.clarify"
  | skipEntries => "bans.skip"
  | unknownKeys => "schema.unknown_key"

/-- All checks, in the order in which they run. -/
def all : List Check :=
  [licenseLists, confidenceThreshold, exceptions, clarifications, skipEntries, unknownKeys]

def allNames : List String := all.map name

def ofName? (s : String) : Option Check := all.find? fun c => c.name == s

theorem mem_all (c : Check) : c ∈ all := by cases c <;> decide

theorem ofName?_name (c : Check) : ofName? c.name = some c := by cases c <;> rfl

theorem name_injective {a b : Check} (h : a.name = b.name) : a = b :=
  Option.some.inj (by rw [← ofName?_name a, h, ofName?_name b])

end Check

inductive Code where
  | invalidLicenseId | duplicateLicense | thresholdOutOfRange | missingName | invalidVersion | emptyAllow
  | duplicateException | invalidExpression | missingLicenseFiles | invalidLicenseFile | duplicateSkip
  | unknownKey
  deriving DecidableEq, Repr, Inhabited

namespace Code

def name : Code → String
  | invalidLicenseId => "invalid_license_id"
  | duplicateLicense => "duplicate_license"
  | thresholdOutOfRange => "threshold_out_of_range"
  | missingName => "missing_name"
  | invalidVersion => "invalid_version_req"
  | emptyAllow => "empty_allow"
  | duplicateException => "duplicate_exception"
  | invalidExpression => "invalid_expression"
  | missingLicenseFiles => "missing_license_files"
  | invalidLicenseFile => "invalid_license_file"
  | duplicateSkip => "duplicate_skip"
  | unknownKey => "unknown_key"

def all : List Code :=
  [invalidLicenseId, duplicateLicense, thresholdOutOfRange, missingName, invalidVersion, emptyAllow,
    duplicateException, invalidExpression, missingLicenseFiles, invalidLicenseFile, duplicateSkip,
    unknownKey]

def allNames : List String := all.map name

def ofName? (s : String) : Option Code := all.find? fun c => c.name == s

theorem mem_all (c : Code) : c ∈ all := by cases c <;> decide

theorem ofName?_name (c : Code) : ofName? c.name = some c := by cases c <;> rfl

theorem name_injective {a b : Code} (h : a.name = b.name) : a = b :=
  Option.some.inj (by rw [← ofName?_name a, h, ofName?_name b])

end Code

end PolicyLint.Lint
