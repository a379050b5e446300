import PolicyLint.Lint.Checks.Packages

/-!
# Skip entries

A skip entry names its package and may restrict its version. Neither the skip list nor the list of skipped
trees has two entries for the same package and version.
-/
namespace PolicyLint.Lint.SkipEntries
open Text Policy
set_option autoImplicit false

inductive ListName where
  | skip | skipTree
  deriving DecidableEq, Repr

def ListName.text : ListName → String
  | skip => "skip"
  | skipTree => "skip-tree"

/-- An entry of one of the lists. -/
structure Entry where
  list : ListName
  index : Nat
  name : Option (Spanned String)
  version : Option (Spanned String)
  deriving DecidableEq, Repr

/-- The skipped packages, then the skipped trees. -/
def entries (b : Bans) : List Entry :=
  b.skip.zipIdx.map (fun (s, i) => ⟨.skip, i, s.name, s.version⟩) ++
    b.skipTree.zipIdx.map (fun (s, i) => ⟨.skipTree, i, s.name, s.version⟩)

namespace Entry

def label (e : Entry) : String := entryLabel ("bans." ++ e.list.text) e.index

def anchor (e : Entry) : Option Span := (spanOf e.name).or (spanOf e.version)

def trimmed (e : Entry) : Option String := trimmedVersion e.version

def shown (e : Entry) (name : String) : String := packageText name e.trimmed

def subject (e : Entry) (name : String) : String := e.list.text ++ ":" ++ e.shown name

def place (e : Entry) (name : String) : List (String × Json.Value) :=
  [("entry", .string e.label), ("package", .string name)]

def invalidVersion (m : Model) (e : Entry) (name : String) : List Issue :=
  match e.version with
  | none => []
  | some version =>
    match versionFault (trim version.value) with
    | none => []
    | some fault =>
      [{ code := .invalidVersion
         subject := e.subject name
         message := e.label ++ " (" ++ ticked name ++ ") has an invalid version requirement " ++
           ticked (trim version.value) ++ ": " ++ fault.message
         line := m.lineOf (some version.span)
         help := "Use a semver requirement such as `1`, `0.3.2`, or `=0.3.2`."
         data := e.place name ++ [("version", .string (trim version.value))] }]

def duplicate (m : Model) (e : Entry) (name : String) : Issue where
  code := .duplicateSkip
  subject := e.subject name
  message := ticked (e.shown name) ++ " appears more than once in bans." ++ e.list.text
  line := m.lineOf e.anchor
  help := "Remove the duplicate entry."
  data := e.place name ++ [("version", .ofOption .string e.trimmed)]

end Entry

/-- The entries met so far, by list and package. -/
abbrev Seen := List (ListName × PackageKey)

/-- The issues of the entries in turn. -/
def walk (m : Model) (seen : Seen) : List Entry → List Issue
  | [] => []
  | e :: es =>
    match packageName e.name with
    | none =>
      .missingName e.label e.label "Add `name = \"<crate>\"` to the entry." (m.lineOf e.anchor) ::
        walk m seen es
    | some name =>
      let key := (e.list, PackageKey.of name e.trimmed)
      e.invalidVersion m name ++ (if seen.contains key then [e.duplicate m name] else []) ++
        walk m (key :: seen) es

def issues (m : Model) (allowed : String → Bool) : List Issue :=
  walk m [] ((entries m.bans).filter fun e => !allowsPackage allowed e.name)

end PolicyLint.Lint.SkipEntries
