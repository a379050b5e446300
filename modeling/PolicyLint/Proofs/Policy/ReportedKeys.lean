import PolicyLint.Proofs.Policy.IgnoredKeys

/-!
# Reported keys are ignored

A key that the walk reports can be taken out of the tree, and the same document is loaded. The walk looks
for keys at the places of the policy and in the entries of two lists below the bans that the loader does not
read; a report tells at which of these sites its key stands.
-/
namespace PolicyLint.Policy
open Text Toml Toml.Decode
set_option autoImplicit false

inductive UnreadList where
  | deny | allow

def UnreadList.name : UnreadList → String
  | deny => "deny"
  | allow => "allow"

theorem UnreadList.exists_name_iff {name : String} :
    (∃ list : UnreadList, list.name = name) ↔ name ∈ ["deny", "allow"] := by
  simp only [List.mem_cons, List.not_mem_nil, or_false]
  constructor
  · rintro ⟨_ | _, rfl⟩
    · exact .inl rfl
    · exact .inr rfl
  · rintro (rfl | rfl)
    · exact ⟨.deny, rfl⟩
    · exact ⟨.allow, rfl⟩

/-- Where the walk looks for keys. -/
inductive Site where
  | record (p : Place)
  | unread (list : UnreadList) (index : Nat)

namespace Site

def path : Site → Path
  | record p => p.path
  | unread list i => Place.sectionPath "bans" ++ Place.entryPath bansRecord list.name i

/-- The site as it stands in front of a reported key. -/
def text : Site → String
  | record p => p.text
  | unread list i => indexed "bans" list.name i

/-- The keys that are not reported. -/
def known : Site → List String
  | record p => p.kind.known
  | unread _ _ => KnownKeys.skip

theorem text_injective {p q : Site} (h : p.text = q.text) : p = q := by
  have hApart (p : Place) (list : UnreadList) (i : Nat) : p.text ≠ indexed "bans" list.name i :=
    Place.text_ne_unread (UnreadList.exists_name_iff.mp ⟨list, rfl⟩)
  have hStarts (i : Nat) : StartsApart (· == '[') (bracketed i []) := by
    rintro c ⟨⟩
    rfl
  have hClean (list : UnreadList) : ∀ c ∈ "bans".toList ++ '.' :: list.name.toList, (c == '[') = false := by
    cases list <;> simp [UnreadList.name]
  cases p with
  | record p =>
    cases q with
    | record q => exact congrArg record (Place.text_injective h)
    | unread list i => exact absurd h (hApart p list i)
  | unread list i =>
    cases q with
    | record q => exact absurd h.symm (hApart q list i)
    | unread list' j =>
      have hList := congrArg String.toList h
      rw [text, text, toList_indexed, toList_indexed] at hList
      -- Neither list has a bracket in its name, so the first bracket ends the name in both texts.
      obtain ⟨hFront, hIndex⟩ := cut_unique hList (hClean list) (hClean list') (hStarts i) (hStarts j)
      obtain ⟨rfl, -⟩ := bracketed_inj.mp hIndex
      cases list <;> cases list' <;> simp_all [UnreadList.name]

/-- Whatever stands at a site is a part of what is loaded, and whoever reads it forgets the keys that are
reported there. -/
theorem exists_forgetful_reader (p : Site) : ∃ (α : Type) (d : Decode α) (part : Document → Option α),
    ofTree.HasPart p.path d part ∧ d.Forgets p.known := by
  cases p with
  | record p =>
    obtain ⟨α, d, part, hPart, -, hForgets⟩ := p.exists_reader
    exact ⟨α, d, part, hPart, hForgets.mono fun name hName => Kind.mem_known_iff.mpr (.inl hName)⟩
  | unread list i =>
    have hName : list.name ∉ bansRecord.names := by cases list <;> decide
    have hBans := Place.hasPart_section documentRecord_holds_bans
    exact ⟨Unit, Node.checkRange, _,
      hBans.trans ((Record.hasPart_unread bansRecord_isPlain hName).trans (hasPart_element i)),
      checkRange_forgets _⟩

end Site

/-- The report is about a key of the table at a site. -/
structure Blames (source : String) (tree : Node) (p : Site) (key : Key) (k : UnknownKey) : Prop where
  stands : ∃ span form es value, tree.at? p.path = some (.table span form es) ∧ (key, value) ∈ es
  reported : k = report source p.text key

section

variable {source : String} {tree : Node} {k : UnknownKey}

theorem Blames.unique {p q : Site} {key key' : Key} (h : Blames source tree p key k)
    (h' : Blames source tree q key' k) : p = q ∧ key.name = key'.name := by
  obtain ⟨hText, hName, -⟩ := UnknownKey.mk.inj (h.reported.symm.trans h'.reported)
  rw [hName] at hText
  exact ⟨Site.text_injective (dotted_inj hText), hName⟩

theorem blames_of_mem_unknownIn {p : Site} {span : Span} {form : Form} {es : Entries}
    (hAt : tree.at? p.path = some (.table span form es)) (hk : k ∈ unknownIn source p.text p.known es) :
    ∃ p key, Blames source tree p key k ∧ key.name ∉ p.known := by
  obtain ⟨⟨key, value⟩, hMem, hUnknown, hReport⟩ := mem_unknownIn_iff.mp hk
  exact ⟨p, key, ⟨⟨span, form, es, value, hAt, hMem⟩, hReport⟩, hUnknown⟩

theorem exists_blames (span : Span) (form : Form) {root : Entries} (hk : k ∈ unknownInTree source root) :
    ∃ p key, Blames source (.table span form root) p key k ∧ key.name ∉ p.known := by
  rcases (mem_unknownInTree_iff span form).mp hk with
    ⟨p, es, hVisits, hReports⟩ | ⟨bans, hVisits, name, hName, i, item, hItem, hReports⟩
  · obtain ⟨_, _, hAt⟩ := hVisits.hasTable
    exact blames_of_mem_unknownIn (p := .record p) hAt hReports
  · obtain ⟨list, rfl⟩ := UnreadList.exists_name_iff.mpr hName
    obtain ⟨_, _, hBans⟩ := hVisits.hasTable
    obtain ⟨_, _, items, hList, itemSpan, itemForm, hGet⟩ := mem_tableItems_iff.mp hItem
    have hAt : (Node.table span form root).at? (Site.unread list i).path =
        some (.table itemSpan itemForm item) := by
      rw [Site.path, Node.at?_append]
      refine Option.bind_eq_some_iff.mpr ⟨_, hBans, ?_⟩
      exact Option.bind_eq_some_iff.mpr ⟨_, hList, Option.bind_eq_some_iff.mpr ⟨_, hGet, rfl⟩⟩
    exact blames_of_mem_unknownIn hAt hReports

/-- Every report is about a key of the tree, and without this key the same document is loaded. -/
theorem ofTree_withoutKey_of_reported {span : Span} {form : Form} {root : Entries} {doc : Document}
    (hTree : (Node.table span form root).HasDistinctKeys) (hDoc : ofTree (.table span form root) = .ok doc)
    (hk : k ∈ unknownInTree source root) :
    (∃ p key, Blames source (.table span form root) p key k) ∧
      ∀ p key, Blames source (.table span form root) p key k →
        ofTree ((Node.table span form root).withoutKey p.path key.name) = .ok doc := by
  obtain ⟨q, key, hBlames, hUnknown⟩ := exists_blames span form hk
  refine ⟨⟨q, key, hBlames⟩, fun p key' hBlames' => ?_⟩
  -- Where the report was made it was checked that the key is unknown, and it was made nowhere else.
  obtain ⟨rfl, hName⟩ := hBlames.unique hBlames'
  obtain ⟨α, d, part, hPart, hForgets⟩ := q.exists_forgetful_reader
  obtain ⟨span', form', es, value, hAt, -⟩ := hBlames.stands
  exact hPart.read_withoutKey hForgets hTree hDoc hAt (hName ▸ hUnknown)

end

/-- A clarification whose only file has a misspelled key besides its path and its hash. -/
def filePolicy : String := "licenses=\x7bclarify=[\x7blicense-files=[\x7bpath='L',hash=1,hsh=2\x7d]\x7d]\x7d"

def fileRoot : Entries :=
  [(⟨"licenses", ⟨0, 8⟩⟩, .table ⟨9, 62⟩ .inline [(⟨"clarify", ⟨10, 17⟩⟩, .array ⟨18, 61⟩ false
    [.table ⟨19, 60⟩ .inline [(⟨"license-files", ⟨20, 33⟩⟩, .array ⟨34, 59⟩ false
      [.table ⟨35, 58⟩ .inline [(⟨"hash", ⟨45, 49⟩⟩, .integer ⟨50, 51⟩ (some 1)),
        (⟨"hsh", ⟨52, 55⟩⟩, .integer ⟨56, 57⟩ (some 2)),
        (⟨"path", ⟨36, 40⟩⟩, .string ⟨41, 44⟩ "L")]])]])])]

def fileTree : Node := .table ⟨0, 62⟩ .header fileRoot

def fileDocument : Document where
  licenses := some { clarify := [{ licenseFiles := [⟨⟨"L", ⟨41, 44⟩⟩, ⟨1, ⟨50, 51⟩⟩⟩] }] }

set_option maxRecDepth 20000 in
theorem readsTree_filePolicy : ReadsTree filePolicy fileTree := ⟨by decide, by cbv⟩

theorem load_filePolicy : load filePolicy = .ok fileDocument := by
  decide +kernel

theorem hsh_removed_from_filePolicy :
    (fileTree.HasDistinctKeys ∧ ofTree fileTree = .ok fileDocument ∧
      ⟨"licenses.clarify[0].license-files[0].hsh", "hsh", 1⟩ ∈ unknownInTree filePolicy fileRoot) ∧
    ofTree (fileTree.withoutKey (Place.licenseFile 0 0).path "hsh") = .ok fileDocument := by
  have hTree := hasDistinctKeys_of_parse readsTree_filePolicy.2
  have hDoc := readsTree_filePolicy.ofTree_eq_ok load_filePolicy
  have hReported : ⟨"licenses.clarify[0].license-files[0].hsh", "hsh", 1⟩ ∈
      unknownInTree filePolicy fileRoot := by decide +kernel
  have hAt : fileTree.at? (Place.licenseFile 0 0).path = some (.table ⟨35, 58⟩ .inline
      [(⟨"hash", ⟨45, 49⟩⟩, .integer ⟨50, 51⟩ (some 1)), (⟨"hsh", ⟨52, 55⟩⟩, .integer ⟨56, 57⟩ (some 2)),
        (⟨"path", ⟨36, 40⟩⟩, .string ⟨41, 44⟩ "L")]) := by cbv
  have hBlames : Blames filePolicy fileTree (.record (.licenseFile 0 0)) ⟨"hsh", ⟨52, 55⟩⟩
      ⟨"licenses.clarify[0].license-files[0].hsh", "hsh", 1⟩ := by
    refine ⟨⟨_, _, _, _, hAt, List.mem_cons_of_mem _ List.mem_cons_self⟩, ?_⟩
    decide +kernel
  have hIgnored := @ofTree_withoutKey_of_reported filePolicy _ ⟨0, 62⟩ .header fileRoot fileDocument hTree hDoc
    hReported
  exact ⟨⟨hTree, hDoc, hReported⟩, hIgnored.2 _ _ hBlames⟩

end PolicyLint.Policy
