import PolicyLint.Toml.Document

/-!
# Keys outside the schema

A misspelled key turns a rule into nothing. The walk goes through the tables whose keys the schema lists,
in a fixed order, and reports every other key with its path and line. It follows only tables: a value of
the wrong kind has no keys to report.
-/
namespace PolicyLint.Policy
open Text Toml
set_option autoImplicit false

/-- A key that is not part of the schema, for instance `licenses.clarify[0].nmae`. -/
structure UnknownKey where
  path : String
  key : String
  line : Nat
  deriving DecidableEq, Repr

namespace KnownKeys

def topLevel : List String := ["licenses", "bans", "sources", "advisories", "graph", "output"]

def licenses : List String :=
  ["version", "unlicensed", "copyleft", "allow-osi-fsf-free", "default", "confidence-threshold",
    "allow", "deny", "exceptions", "clarify", "private"]

def exception : List String := ["name", "version", "allow"]

def clarification : List String := ["name", "version", "expression", "license-files"]

def licenseFile : List String := ["path", "hash"]

def bans : List String :=
  ["version", "multiple-versions", "wildcards", "highlight", "skip", "skip-tree", "deny", "allow"]

def skip : List String := ["name", "version", "reason"]

def treeSkip : List String := ["name", "version", "depth", "reason"]

def sources : List String := ["unknown-registry", "unknown-git", "allow-registry", "allow-git"]

end KnownKeys

def tableEntries? : Node → Option Entries
  | .table _ _ entries => some entries
  | _ => none

/-- The elements of an entry that is an array; none if it is missing or of another kind. -/
def arrayItems (entries : Entries) (name : String) : List Node :=
  match entries.find? name with
  | some (.array _ _ items) => items
  | _ => []

/-- The elements with their positions, those that are tables only. -/
def tableItems (entries : Entries) (name : String) : List (Nat × Entries) :=
  (arrayItems entries name).zipIdx.filterMap fun (node, i) => (tableEntries? node).map (i, ·)

def dotted (pre name : String) : String := if pre.isEmpty then name else pre ++ "." ++ name

def indexed (pre name : String) (i : Nat) : String := pre ++ "." ++ name ++ "[" ++ toString i ++ "]"

/-- The keys of one table that are not known, in byte order. -/
def unknownIn (source pre : String) (known : List String) (entries : Entries) : List UnknownKey :=
  (List.filter (fun e : Key × Node => !known.contains e.1.name) entries).map fun e =>
    ⟨dotted pre e.1.name, e.1.name, lineAt source e.1.span.start⟩

def unknownInItems (source pre name : String) (known : List String) (entries : Entries) :
    List UnknownKey :=
  (tableItems entries name).flatMap fun (i, item) => unknownIn source (indexed pre name i) known item

def unknownInLicenses (source : String) (entries : Entries) : List UnknownKey :=
  unknownIn source "licenses" KnownKeys.licenses entries ++
  unknownInItems source "licenses" "exceptions" KnownKeys.exception entries ++
  unknownInItems source "licenses" "clarify" KnownKeys.clarification entries ++
  (tableItems entries "clarify").flatMap fun (i, item) =>
    unknownInItems source (indexed "licenses" "clarify" i) "license-files" KnownKeys.licenseFile item

def unknownInBans (source : String) (entries : Entries) : List UnknownKey :=
  unknownIn source "bans" KnownKeys.bans entries ++
  unknownInItems source "bans" "skip" KnownKeys.skip entries ++
  unknownInItems source "bans" "skip-tree" KnownKeys.treeSkip entries ++
  unknownInItems source "bans" "deny" KnownKeys.skip entries ++
  unknownInItems source "bans" "allow" KnownKeys.skip entries

def unknownInSection (root : Entries) (name : String) (walk : Entries → List UnknownKey) :
    List UnknownKey :=
  match (root.find? name).bind tableEntries? with
  | some entries => walk entries
  | none => []

/-- The unknown keys of a tree that was read from `source`. -/
def unknownInTree (source : String) (root : Entries) : List UnknownKey :=
  unknownIn source "" KnownKeys.topLevel root ++
  unknownInSection root "licenses" (unknownInLicenses source) ++
  unknownInSection root "bans" (unknownInBans source) ++
  unknownInSection root "sources" (unknownIn source "sources" KnownKeys.sources)

/-- The keys of a text that are outside the schema; a text that cannot be read has none. -/
def unknownKeys (source : String) : List UnknownKey :=
  match Toml.parse source with
  | .ok tree => unknownInTree source ((tableEntries? tree).getD [])
  | .error _ => []

end PolicyLint.Policy
