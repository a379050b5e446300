import PolicyLint.Policy.KnownKeys
import PolicyLint.Proofs.Policy.Records

/-!
# The places of a policy

Where the loader reads records: the document, its sections, and the entries of their lists. At each place
it heeds the fields of one kind of record.
-/
namespace PolicyLint.Policy
open Text Toml Toml.Decode
set_option autoImplicit false

inductive Kind where
  | document | licenses | exception | clarification | licenseFile | bans | skip | treeSkip | sources
  deriving DecidableEq, Repr

namespace Kind

/-- The keys that the loader reads. -/
def fields : Kind → List String
  | document => documentRecord.names
  | licenses => licensesRecord.names
  | exception => exceptionRecord.names
  | clarification => clarificationRecord.names
  | licenseFile => fileRecord.names
  | bans => bansRecord.names
  | skip => skipRecord.names
  | treeSkip => treeSkipRecord.names
  | sources => sourcesRecord.names

/-- The keys that are part of the schema although nothing reads them. -/
def unmodelled : Kind → List String
  | document => ["advisories", "graph", "output"]
  | licenses => ["version", "private"]
  | bans => ["version", "highlight", "deny", "allow"]
  | _ => []

/-- The keys that are not reported. -/
def known : Kind → List String
  | document => KnownKeys.topLevel
  | licenses => KnownKeys.licenses
  | exception => KnownKeys.exception
  | clarification => KnownKeys.clarification
  | licenseFile => KnownKeys.licenseFile
  | bans => KnownKeys.bans
  | skip => KnownKeys.skip
  | treeSkip => KnownKeys.treeSkip
  | sources => KnownKeys.sources

/-- The two tables of keys agree. -/
theorem known_perm (k : Kind) : k.known.Perm (k.fields ++ k.unmodelled) := by
  cases k <;> decide

theorem mem_known_iff {k : Kind} {name : String} :
    name ∈ k.known ↔ name ∈ k.fields ∨ name ∈ k.unmodelled := by
  rw [k.known_perm.mem_iff, List.mem_append]

end Kind

/-- Where the loader reads a record. Entries of lists have their index. -/
inductive Place where
  | document | licenses | bans | sources
  | exception (index : Nat)
  | clarification (index : Nat)
  | licenseFile (clarification index : Nat)
  | skip (index : Nat)
  | treeSkip (index : Nat)
  deriving DecidableEq, Repr

namespace Place

def kind : Place → Kind
  | document => .document
  | licenses => .licenses
  | bans => .bans
  | sources => .sources
  | exception _ => .exception
  | clarification _ => .clarification
  | licenseFile _ _ => .licenseFile
  | skip _ => .skip
  | treeSkip _ => .treeSkip

/-- How to get to a section. -/
def sectionPath (name : String) : Path := [.field documentRecord.names name]

/-- How to get from a record to an entry of one of its lists. -/
def entryPath {σ : Type} (r : Record σ) (name : String) (index : Nat) : Path :=
  [.field r.names name, .item index]

/-- How to get there in the tree. -/
def path : Place → Path
  | document => []
  | licenses => sectionPath "licenses"
  | bans => sectionPath "bans"
  | sources => sectionPath "sources"
  | exception i => sectionPath "licenses" ++ entryPath licensesRecord "exceptions" i
  | clarification i => sectionPath "licenses" ++ entryPath licensesRecord "clarify" i
  | licenseFile i j => sectionPath "licenses" ++ entryPath licensesRecord "clarify" i ++
      entryPath clarificationRecord "license-files" j
  | skip i => sectionPath "bans" ++ entryPath bansRecord "skip" i
  | treeSkip i => sectionPath "bans" ++ entryPath bansRecord "skip-tree" i

/-- The place as it stands in front of a reported key. -/
def text : Place → String
  | document => ""
  | licenses => "licenses"
  | bans => "bans"
  | sources => "sources"
  | exception i => indexed "licenses" "exceptions" i
  | clarification i => indexed "licenses" "clarify" i
  | licenseFile i j => indexed (indexed "licenses" "clarify" i) "license-files" j
  | skip i => indexed "bans" "skip" i
  | treeSkip i => indexed "bans" "skip-tree" i

/-- The records around this one, from the inside to the outside. -/
def around : Place → List Place
  | document => []
  | licenses | bans | sources => [document]
  | exception _ | clarification _ => [licenses, document]
  | licenseFile i _ => [clarification i, licenses, document]
  | skip _ | treeSkip _ => [bans, document]

theorem hasPart_section {σ : Type} {r : Record σ} {name : String} {set : Document → Option σ → Document}
    {get : Document → Option σ} (h : documentRecord.Holds name (optional r.read) set get) :
    ofTree.HasPart (sectionPath name) r.read get :=
  (h.hasPart documentRecord_isPlain).trans (hasPart_optional r.read)

theorem hasPart_entry {σ α : Type} {r : Record σ} {name : String} {d : Decode α} {set : σ → List α → σ}
    {get : σ → List α} (hPlain : r.IsPlain) (h : r.Holds name (list d) set get) (index : Nat) :
    r.read.HasPart (entryPath r name index) d fun s => (get s)[index]? :=
  (h.hasPart hPlain).trans (hasPart_list d index)

/-- The loader reads what stands at a place as a part of the document, heeds its fields and forgets further
keys. -/
theorem exists_reader (p : Place) : ∃ (α : Type) (d : Decode α) (part : Document → Option α),
    ofTree.HasPart p.path d part ∧ d.Heeds p.kind.fields ∧ d.Forgets p.kind.fields := by
  have hRecord {σ : Type} {r : Record σ} {path : Path} {part : Document → Option σ} (hPlain : r.IsPlain)
      (hVaried : r.IsVaried) (hPart : ofTree.HasPart path r.read part) :
      ∃ (α : Type) (d : Decode α) (part : Document → Option α),
        ofTree.HasPart path d part ∧ d.Heeds r.names ∧ d.Forgets r.names :=
    ⟨σ, r.read, part, hPart, Record.heeds hPlain hVaried, Record.forgets hPlain.lax⟩
  have hLicenses := hasPart_section documentRecord_holds_licenses
  have hBans := hasPart_section documentRecord_holds_bans
  have hClarification (i : Nat) :=
    hLicenses.trans (hasPart_entry licensesRecord_isPlain licensesRecord_holds_clarify i)
  cases p with
  | document => exact hRecord documentRecord_isPlain documentRecord_isVaried (hasPart_self ofTree)
  | licenses => exact hRecord licensesRecord_isPlain licensesRecord_isVaried hLicenses
  | bans => exact hRecord bansRecord_isPlain bansRecord_isVaried hBans
  | sources =>
    exact hRecord sourcesRecord_isPlain sourcesRecord_isVaried (hasPart_section documentRecord_holds_sources)
  | exception i =>
    exact hRecord exceptionRecord_isPlain exceptionRecord_isVaried
      (hLicenses.trans (hasPart_entry licensesRecord_isPlain licensesRecord_holds_exceptions i))
  | clarification i =>
    exact hRecord clarificationRecord_isPlain clarificationRecord_isVaried (hClarification i)
  | licenseFile i j =>
    exact ⟨_, _, _, (hClarification i).trans
      (hasPart_entry clarificationRecord_isPlain clarificationRecord_holds_licenseFiles j), licenseFile_heeds,
      licenseFile_forgets⟩
  | skip i =>
    exact hRecord skipRecord_isPlain skipRecord_isVaried
      (hBans.trans (hasPart_entry bansRecord_isPlain bansRecord_holds_skip i))
  | treeSkip i =>
    exact hRecord treeSkipRecord_isPlain treeSkipRecord_isVaried
      (hBans.trans (hasPart_entry bansRecord_isPlain bansRecord_holds_skipTree i))

end Place

end PolicyLint.Policy
