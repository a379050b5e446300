import PolicyLint.Text.Blank
import PolicyLint.Toml.Document
import PolicyLint.Toml.Shape
import PolicyLint.Policy.Document

/-!
# Loading a policy

A text becomes a policy in two steps: the text is read as a tree, and the tree as typed sections. Keys that
no section knows are ignored here; `KnownKeys` finds them.
-/
namespace PolicyLint.Policy
open Text Toml Toml.Decode
set_option autoImplicit false

inductive LoadError where
  | syntaxFault (line : Nat) (cause : Cause)
  | typeFault (line : Nat) (mismatch : Mismatch)
  deriving DecidableEq, Repr

def LoadError.line : LoadError → Nat
  | syntaxFault line _ | typeFault line _ => line

def LoadError.wording : LoadError → String
  | syntaxFault _ cause => cause.message
  | typeFault _ mismatch => mismatch.message

def LoadError.message (e : LoadError) : String :=
  "invalid policy file at line " ++ toString e.line ++ ": " ++ e.wording

def level : Decode LintLevel :=
  choice ["deny", "warn", "allow"] (([.deny, .warn, .allow] : List LintLevel).map fun l => (l.name, l))

def freeSoftwareKinds : List FreeSoftware :=
  [.yes, .no, .neither, .both, .either, .osiOnly, .fsfOnly]

def freeSoftware : Decode FreeSoftware :=
  choice (freeSoftwareKinds.map FreeSoftware.name) (freeSoftwareKinds.map fun k => (k.name, k))

def place : Decode (Option (Spanned String)) := optional (spanned text)

def exceptionRecord : Record Exception where
  wanted := "struct LicenseException"
  fields := [
    field "name" place fun e v => { e with name := v },
    field "version" place fun e v => { e with version := v },
    field "allow" (list (spanned text)) fun e v => { e with allow := v }]
  initial := {}
  strict := false

/-- A license file whose fields are being read. -/
structure FileDraft where
  path : Option (Spanned String) := none
  hash : Option (Spanned Int) := none

def fileRecord : Record FileDraft where
  wanted := "struct LicenseFile"
  fields := [
    field "path" place fun f v => { f with path := v },
    field "hash" (optional (spanned signed64)) fun f v => { f with hash := v }]
  initial := {}
  strict := false

/-- Both fields of a license file must be there. -/
def licenseFile : Decode LicenseFile := fun node => do
  let draft ← fileRecord.read node
  match draft.path, draft.hash with
  | some path, some hash => return ⟨path, hash⟩
  | _, _ =>
    match node with
    | .array span _ items =>
      throw ⟨span, .invalidLength items.length "struct LicenseFile with 2 elements"⟩
    | _ =>
      throw ⟨node.span, .missingField (if draft.path.isNone then "path" else "hash")⟩

def clarificationRecord : Record Clarification where
  wanted := "struct Clarification"
  fields := [
    field "name" place fun c v => { c with name := v },
    field "version" place fun c v => { c with version := v },
    field "expression" place fun c v => { c with expression := v },
    field "license-files" (list licenseFile) fun c v => { c with licenseFiles := v }]
  initial := {}
  strict := false

def licensesRecord : Record Licenses where
  wanted := "struct LicensesSection"
  fields := [
    field "unlicensed" (optional level) fun l v => { l with unlicensed := v },
    field "copyleft" (optional level) fun l v => { l with copyleft := v },
    field "allow-osi-fsf-free" (optional freeSoftware) fun l v => { l with freeSoftware := v },
    field "default" (optional level) fun l v => { l with otherwise := v },
    field "confidence-threshold" (optional (spanned number)) fun l v =>
      { l with confidenceThreshold := v },
    field "allow" (list (spanned text)) fun l v => { l with allow := v },
    field "deny" (list (spanned text)) fun l v => { l with deny := v },
    field "exceptions" (list exceptionRecord.read) fun l v => { l with exceptions := v },
    field "clarify" (list clarificationRecord.read) fun l v => { l with clarify := v }]
  initial := {}
  strict := false

def skipRecord : Record Skip where
  wanted := "struct PackageSpec"
  fields := [
    field "name" place fun s v => { s with name := v },
    field "version" place fun s v => { s with version := v },
    field "reason" (optional text) fun s v => { s with reason := v }]
  initial := {}
  strict := false

def treeSkipRecord : Record TreeSkip where
  wanted := "struct TreeSkip"
  fields := [
    field "name" place fun s v => { s with name := v },
    field "version" place fun s v => { s with version := v },
    field "depth" (optional natural32) fun s v => { s with depth := v },
    field "reason" (optional text) fun s v => { s with reason := v }]
  initial := {}
  strict := false

def bansRecord : Record Bans where
  wanted := "struct BansSection"
  fields := [
    field "multiple-versions" (optional level) fun b v => { b with multipleVersions := v },
    field "wildcards" (optional level) fun b v => { b with wildcards := v },
    field "skip" (list skipRecord.read) fun b v => { b with skip := v },
    field "skip-tree" (list treeSkipRecord.read) fun b v => { b with skipTree := v }]
  initial := {}
  strict := false

def sourcesRecord : Record Sources where
  wanted := "struct SourcesSection"
  fields := [
    field "unknown-registry" (optional level) fun s v => { s with unknownRegistry := v },
    field "unknown-git" (optional level) fun s v => { s with unknownGit := v },
    field "allow-registry" (list text) fun s v => { s with allowRegistry := v },
    field "allow-git" (list text) fun s v => { s with allowGit := v }]
  initial := {}
  strict := false

def documentRecord : Record Document where
  wanted := "struct PolicyDocument"
  fields := [
    field "licenses" (optional licensesRecord.read) fun d v => { d with licenses := v },
    field "bans" (optional bansRecord.read) fun d v => { d with bans := v },
    field "sources" (optional sourcesRecord.read) fun d v => { d with sources := v }]
  initial := {}
  strict := false

def ofTree : Decode Document := documentRecord.read

/-- The policy in a text. A text of nothing but blanks is the empty policy. -/
def load (s : String) : Except LoadError Document :=
  if isAllBlank s then .ok {}
  else
    match Toml.parse s with
    | .error fault => .error (.syntaxFault (lineAt s fault.span.start) fault.cause)
    | .ok tree =>
      match ofTree tree with
      | .error fault => .error (.typeFault (lineAt s fault.span.start) fault.mismatch)
      | .ok document => .ok document

end PolicyLint.Policy
