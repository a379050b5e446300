import PolicyLint.Text.Blank
import PolicyLint.Text.Bytes
import PolicyLint.Lint.Check

/-!
# Explanations

What a check or a kind of finding is about, how to fix it, and an example of a policy before and after. Most
kinds of finding share the explanation of their check under a title of their own.
-/
namespace PolicyLint.Lint
open Text
set_option autoImplicit false

structure Explanation where
  title : String
  description : String
  remediation : String
  /-- A part of a policy that is flagged. -/
  before : String
  /-- A part of a policy that is accepted. -/
  after : String
  deriving DecidableEq, Repr, Inhabited

namespace Explanation

def lines (ls : List String) : String := String.intercalate "\n" ls

def licenseLists : Explanation where
  title := "License Allow/Deny Identifiers"
  description := lines [
    "Validates the `allow` and `deny` lists under `[licenses]`.",
    "",
    "Every entry must be a syntactically valid SPDX license identifier",
    "(`[A-Za-z0-9.-]+`, optionally `LicenseRef-...`). An entry that is not a",
    "valid identifier can never match a real license, so the policy silently",
    "becomes stricter (or looser) than intended. Duplicates and identifiers that",
    "appear in both lists are flagged as well."]
  remediation := lines [
    "Use the exact SPDX short identifier:",
    "- `Apache-2.0`, not `Apache 2.0` or `Apache-2`",
    "- `MIT`, not `mit license`",
    "- Put each identifier in exactly one of `allow` or `deny`"]
  before := lines [
    "[licenses]",
    "allow = [\"MIT\", \"Apache 2.0\", \"MIT\"]"]
  after := lines [
    "[licenses]",
    "allow = [\"MIT\", \"Apache-2.0\"]"]

def confidenceThreshold : Explanation where
  title := "License Confidence Threshold"
  description := lines [
    "Checks that `confidence-threshold` under `[licenses]` lies within [0.0, 1.0].",
    "",
    "The threshold is the minimum score a license text must reach before the",
    "auditing tool accepts it as a match. Values outside the unit interval are",
    "either meaningless (negative) or impossible to reach (above 1.0)."]
  remediation := "Pick a value between 0.0 and 1.0. Values around 0.8 to 0.95 are typical."
  before := lines [
    "[licenses]",
    "confidence-threshold = 93"]
  after := lines [
    "[licenses]",
    "confidence-threshold = 0.93"]

def exceptions : Explanation where
  title := "License Exceptions"
  description := lines [
    "Validates the entries of `[licenses] exceptions`.",
    "",
    "Each exception grants extra licenses to one package. It must name the",
    "package, may constrain its version with a semver requirement, and must list",
    "at least one valid license identifier to allow. A package and version may",
    "have only one exception."]
  remediation := lines [
    "Give every exception a `name` and a non-empty `allow` list:",
    "",
    "    exceptions = [\x7b name = \"ring\", allow = [\"OpenSSL\"] \x7d]"]
  before := lines [
    "[licenses]",
    "exceptions = [\x7b allow = [] \x7d]"]
  after := lines [
    "[licenses]",
    "exceptions = [\x7b name = \"ring\", version = \"0.17\", allow = [\"OpenSSL\"] \x7d]"]

def clarifications : Explanation where
  title := "License Clarifications"
  description := lines [
    "Validates `[[licenses.clarify]]` records.",
    "",
    "A clarification overrides the license of a package whose own declaration is",
    "missing or unparseable. It must name the package, carry a valid SPDX license",
    "expression, and list the license files (relative path plus content hash) the",
    "expression was derived from, so that a change to those files invalidates the",
    "clarification."]
  remediation := lines [
    "Write the expression with upper-case operators and list each license file:",
    "",
    "    [[licenses.clarify]]",
    "    name = \"ring\"",
    "    expression = \"MIT AND ISC AND OpenSSL\"",
    "    license-files = [\x7b path = \"LICENSE\", hash = 0xbd0eed23 \x7d]"]
  before := lines [
    "[[licenses.clarify]]",
    "name = \"ring\"",
    "expression = \"MIT and ISC\"",
    "license-files = []"]
  after := lines [
    "[[licenses.clarify]]",
    "name = \"ring\"",
    "expression = \"MIT AND ISC AND OpenSSL\"",
    "license-files = [\x7b path = \"LICENSE\", hash = 0xbd0eed23 \x7d]"]

def skipEntries : Explanation where
  title := "Multiple-Versions Skip List"
  description := lines [
    "Validates `skip` and `skip-tree` under `[bans]`.",
    "",
    "Skip entries exempt a package from the multiple-versions ban. Each entry must",
    "name the package and, if it pins a version, use a valid semver requirement.",
    "Listing the same (name, version) pair twice usually means one entry is stale."]
  remediation := lines [
    "Keep one entry per package/version and remove stale ones:",
    "",
    "    skip = [\x7b name = \"windows-sys\", version = \"0.48\" \x7d]"]
  before := lines [
    "[bans]",
    "skip = [\x7b name = \"syn\", version = \"1\" \x7d, \x7b name = \"syn\", version = \"1\" \x7d]"]
  after := lines [
    "[bans]",
    "skip = [\x7b name = \"syn\", version = \"1\" \x7d]"]

def unknownKeys : Explanation where
  title := "Unknown Policy Key"
  description := lines [
    "A key in the policy file is not part of the known schema.",
    "",
    "Unknown keys are ignored by the consuming tool, which usually means a typo",
    "(`multiple-version` instead of `multiple-versions`) and a rule that silently",
    "does not apply."]
  remediation := lines [
    "Fix the spelling or remove the key. Known sections are `[licenses]`,",
    "`[[licenses.clarify]]`, `[bans]`, and `[sources]`."]
  before := lines [
    "[bans]",
    "multiple-version = \"deny\""]
  after := lines [
    "[bans]",
    "multiple-versions = \"deny\""]

def missingName : Explanation where
  title := "Missing Package Name"
  description := lines [
    "An exception, clarification, or skip entry has no `name`, or the name is",
    "empty. Such an entry cannot apply to any package."]
  remediation := "Add the crate name exactly as it appears in Cargo.lock."
  before := lines [
    "[bans]",
    "skip = [\x7b version = \"0.3\" \x7d]"]
  after := lines [
    "[bans]",
    "skip = [\x7b name = \"rand\", version = \"0.3\" \x7d]"]

def invalidVersion : Explanation where
  title := "Invalid Version Requirement"
  description := lines [
    "The `version` of an entry is not a valid semver requirement, so the entry",
    "would never match any version of the package."]
  remediation := "Use a semver requirement such as `1`, `0.3.2`, `=0.3.2`, or `>=1.0, <2`."
  before := lines [
    "[bans]",
    "skip = [\x7b name = \"rand\", version = \"v0.3\" \x7d]"]
  after := lines [
    "[bans]",
    "skip = [\x7b name = \"rand\", version = \"0.3\" \x7d]"]

def invalidExpression : Explanation where
  title := "Invalid License Expression"
  description := lines [
    "A clarification's `expression` is not a valid SPDX license expression.",
    "",
    "Expressions combine identifiers with upper-case `AND`, `OR`, and `WITH`,",
    "and may group with parentheses. Lower-case operators, unbalanced",
    "parentheses, and identifiers with spaces are rejected."]
  remediation := lines [
    "Rewrite the expression with valid identifiers and upper-case operators:",
    "",
    "    expression = \"(MIT OR Apache-2.0) AND Unicode-3.0\""]
  before := "expression = \"MIT or (Apache-2.0\""
  after := "expression = \"MIT OR Apache-2.0\""

def invalidLicenseFile : Explanation where
  title := "Invalid License File Reference"
  description := lines [
    "A `license-files` entry has an empty or absolute path, a path escaping the",
    "package root, or a hash that does not fit in 32 bits."]
  remediation := lines [
    "Use a path relative to the package root and the 32-bit hash reported by the",
    "auditing tool:",
    "",
    "    license-files = [\x7b path = \"LICENSE\", hash = 0xbd0eed23 \x7d]"]
  before := "license-files = [\x7b path = \"/src/ring/LICENSE\", hash = -1 \x7d]"
  after := "license-files = [\x7b path = \"LICENSE\", hash = 0xbd0eed23 \x7d]"

def entitled (title : String) (e : Explanation) : Explanation := { e with title := title }

def ofCheck : Check → Explanation
  | .licenseLists => licenseLists
  | .confidenceThreshold => confidenceThreshold
  | .exceptions => exceptions
  | .clarifications => clarifications
  | .skipEntries => skipEntries
  | .unknownKeys => unknownKeys

def ofCode : Code → Explanation
  | .invalidLicenseId => licenseLists.entitled "Invalid License Identifier"
  | .duplicateLicense => licenseLists.entitled "Duplicate License Identifier"
  | .thresholdOutOfRange => confidenceThreshold.entitled "Threshold Out Of Range"
  | .missingName => missingName
  | .invalidVersion => invalidVersion
  | .emptyAllow => exceptions.entitled "Exception Allows Nothing"
  | .duplicateException => exceptions.entitled "Duplicate Exception"
  | .invalidExpression => invalidExpression
  | .missingLicenseFiles => clarifications.entitled "Clarification Without License Files"
  | .invalidLicenseFile => invalidLicenseFile
  | .duplicateSkip => skipEntries.entitled "Duplicate Skip Entry"
  | .unknownKey => unknownKeys

/-- The explanation of a check or a code, found by its name. Blanks around the name do not matter. -/
def find? (identifier : String) : Option Explanation :=
  let name := trim identifier
  ((Check.ofName? name).map ofCheck).or ((Code.ofName? name).map ofCode)

def snippet (label body : String) : String := label ++ "\n```toml\n" ++ body ++ "\n```\n"

def render (e : Explanation) : String :=
  e.title ++ "\n" ++ String.ofList (List.replicate (byteLength e.title.toList) '=') ++ "\n\n" ++
    e.description ++ "\n\nRemediation\n-----------\n" ++ e.remediation ++
    "\n\nExamples\n--------\n\n" ++ snippet "Flagged:" e.before ++ "\n" ++ snippet "Accepted:" e.after

def bullets (names : List String) : String := String.join (names.map fun n => "  - " ++ n ++ "\n")

/-- What a terminal shows for a name that is neither a check nor a code. -/
def notFound (identifier : String) : String :=
  "Unknown check_id or code: " ++ identifier ++ "\n\nAvailable check_ids:\n" ++ bullets Check.allNames ++
    "\nAvailable codes:\n" ++ bullets Code.allNames

theorem find?_name (c : Check) : find? c.name = some (ofCheck c) := by cases c <;> rfl

end Explanation

end PolicyLint.Lint
