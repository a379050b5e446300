import Mathlib.Data.List.Nodup
import PolicyLint.Proofs.Policy.ReportedKeys

/-!
# The walk reports every unknown key once

A position is a way through tables and arrays. The walk goes to each site of the schema once, and from the
table that stands there, if one does, it reports the keys outside the list of the site. Nothing else of the
tree is looked at.
-/
namespace PolicyLint.Policy
open Text Toml Toml.Decode
set_option autoImplicit false

/-- A step to the value of a key. Only tables have keys: an array is not read as a table without names for its
elements. -/
def keyStep (name : String) : Step := .field [] name

/-- A position with a further step, as it is written. -/
def extended (pre : String) : Step → String
  | .field _ name => dotted pre name
  | .item index => pre ++ "[" ++ toString index ++ "]"

def positionText (position : Path) : String := position.foldl extended ""

/-- A table stands at the position. -/
def HasTableAt (tree : Node) (position : Path) (es : Entries) : Prop :=
  ∃ span form, tree.at? position = some (.table span form es)

namespace Site

def position : Site → Path
  | record .document => []
  | record .licenses => [keyStep "licenses"]
  | record .bans => [keyStep "bans"]
  | record .sources => [keyStep "sources"]
  | record (.exception i) => [keyStep "licenses", keyStep "exceptions", .item i]
  | record (.clarification i) => [keyStep "licenses", keyStep "clarify", .item i]
  | record (.licenseFile i j) =>
    [keyStep "licenses", keyStep "clarify", .item i, keyStep "license-files", .item j]
  | record (.skip i) => [keyStep "bans", keyStep "skip", .item i]
  | record (.treeSkip i) => [keyStep "bans", keyStep "skip-tree", .item i]
  | unread list i => [keyStep "bans", keyStep list.name, .item i]

/-- The table at the site has the key, which is not one of those known there. -/
def HasUnknown (tree : Node) (p : Site) (key : Key) : Prop :=
  ∃ es value, HasTableAt tree p.position es ∧ (key, value) ∈ es ∧ key.name ∉ p.known

theorem positionText_position (p : Site) : positionText p.position = p.text := by
  have hItem (pre name : String) (h : pre.isEmpty = false) (i : Nat) :
      extended (extended pre (keyStep name)) (.item i) = indexed pre name i := by
    change dotted pre name ++ "[" ++ toString i ++ "]" = _
    rw [dotted, h, indexed]
    rfl
  have hClarify (i : Nat) : (indexed "licenses" "clarify" i).isEmpty = false := by
    rw [Bool.eq_false_iff, ne_eq, String.isEmpty_iff]
    intro hEmpty
    have hList := congrArg String.toList hEmpty
    rw [toList_indexed] at hList
    cases hList
  cases p with
  | unread list i => exact hItem "bans" list.name rfl i
  | record p =>
    cases p with
    | document | licenses | bans | sources => rfl
    | exception i => exact hItem "licenses" "exceptions" rfl i
    | clarification i => exact hItem "licenses" "clarify" rfl i
    | licenseFile i j =>
      calc
        _ = extended (extended (indexed "licenses" "clarify" i) (keyStep "license-files")) (.item j) :=
          congrArg (fun pre => extended (extended pre (keyStep "license-files")) (.item j))
            (hItem "licenses" "clarify" rfl i)
        _ = _ := hItem _ _ (hClarify i) j
    | skip i => exact hItem "bans" "skip" rfl i
    | treeSkip i => exact hItem "bans" "skip-tree" rfl i

/-- The key at its position. -/
def keyPosition (p : Site) (key : Key) : Path := p.position ++ [keyStep key.name]

theorem report_eq (source : String) (p : Site) (key : Key) : report source p.text key =
    ⟨positionText (p.keyPosition key), key.name, lineAt source key.span.start⟩ := by
  rw [keyPosition, positionText, List.foldl_append, ← positionText, positionText_position]
  rfl

end Site

/-- The entries of a value; none if it is no table. -/
def heldEntries (node : Node) : Entries := (tableEntries? node).getD []

/-- The entries of a section; none if it is missing or no table. -/
def sectionEntries (root : Entries) (name : String) : Entries :=
  ((root.find? name).bind tableEntries?).getD []

def sectionTables (p : Place) (name : String) (root : Entries) : List (Site × Entries) :=
  ((root.find? name).bind tableEntries?).toList.map fun es => (.record p, es)

/-- The tables in a list of a table, each with its site. -/
def listTables (site : Nat → Site) (name : String) (es : Entries) : List (Site × Entries) :=
  (tableItems es name).map fun (i, item) => (site i, item)

def licensesParts (es : Entries) : List (List (Site × Entries)) :=
  [listTables (.record <| .exception ·) "exceptions" es,
    listTables (.record <| .clarification ·) "clarify" es,
    (tableItems es "clarify").flatMap fun (i, item) =>
      listTables (.record <| .licenseFile i ·) "license-files" item]

def bansParts (es : Entries) : List (List (Site × Entries)) :=
  [listTables (.record <| .skip ·) "skip" es, listTables (.record <| .treeSkip ·) "skip-tree" es,
    listTables (.unread .deny ·) "deny" es, listTables (.unread .allow ·) "allow" es]

def walkParts (root : Entries) : List (List (Site × Entries)) :=
  [(.record .document, root)] ::
    (sectionTables .licenses "licenses" root :: licensesParts (sectionEntries root "licenses") ++
    (sectionTables .bans "bans" root :: bansParts (sectionEntries root "bans") ++
    [sectionTables .sources "sources" root]))

/-- The tables that the walk goes to, in its order. -/
def visited (root : Entries) : List (Site × Entries) := (walkParts root).flatten

/-- The part of the walk that goes to a site. -/
def Site.part : Site → Nat
  | record .document => 0
  | record .licenses => 1
  | record (.exception _) => 2
  | record (.clarification _) => 3
  | record (.licenseFile _ _) => 4
  | record .bans => 5
  | record (.skip _) => 6
  | record (.treeSkip _) => 7
  | unread .deny _ => 8
  | unread .allow _ => 9
  | record .sources => 10

/-- What the walk reports from a table. -/
def unknownAt (source : String) (e : Site × Entries) : List UnknownKey :=
  unknownIn source e.1.text e.1.known e.2

section
variable {source : String} {root : Entries}

theorem unknownInItems_eq {pre name : String} {known : List String} (site : Nat → Site)
    (hText : ∀ i, (site i).text = indexed pre name i) (hKnown : ∀ i, (site i).known = known) (es : Entries) :
    unknownInItems source pre name known es = (listTables site name es).flatMap (unknownAt source) := by
  rw [unknownInItems, listTables, List.flatMap_map]
  simp only [unknownAt, hText, hKnown]

theorem unknownInLicenses_eq (es : Entries) : unknownInLicenses source es =
    unknownAt source (.record .licenses, es) ++ (licensesParts es).flatten.flatMap (unknownAt source) := by
  have hExceptions : unknownInItems source "licenses" "exceptions" KnownKeys.exception es = _ :=
    unknownInItems_eq (.record <| .exception ·) (fun _ => rfl) (fun _ => rfl) es
  have hClarify : unknownInItems source "licenses" "clarify" KnownKeys.clarification es = _ :=
    unknownInItems_eq (.record <| .clarification ·) (fun _ => rfl) (fun _ => rfl) es
  have hFiles (i : Nat) (item : Entries) : unknownInItems source (indexed "licenses" "clarify" i)
      "license-files" KnownKeys.licenseFile item = _ :=
    unknownInItems_eq (.record <| .licenseFile i ·) (fun _ => rfl) (fun _ => rfl) item
  simp only [licensesParts, List.flatten_cons, List.flatten_nil, List.append_nil, List.flatMap_append,
    List.flatMap_assoc]
  rw [unknownInLicenses, List.append_assoc, List.append_assoc, hExceptions, hClarify]
  simp only [hFiles]
  rfl

theorem unknownInBans_eq (es : Entries) : unknownInBans source es =
    unknownAt source (.record .bans, es) ++ (bansParts es).flatten.flatMap (unknownAt source) := by
  have hSkip : unknownInItems source "bans" "skip" KnownKeys.skip es = _ :=
    unknownInItems_eq (.record <| .skip ·) (fun _ => rfl) (fun _ => rfl) es
  have hTreeSkip : unknownInItems source "bans" "skip-tree" KnownKeys.treeSkip es = _ :=
    unknownInItems_eq (.record <| .treeSkip ·) (fun _ => rfl) (fun _ => rfl) es
  have hDeny : unknownInItems source "bans" "deny" KnownKeys.skip es = _ :=
    unknownInItems_eq (.unread .deny ·) (fun _ => rfl) (fun _ => rfl) es
  have hAllow : unknownInItems source "bans" "allow" KnownKeys.skip es = _ :=
    unknownInItems_eq (.unread .allow ·) (fun _ => rfl) (fun _ => rfl) es
  simp only [bansParts, List.flatten_cons, List.flatten_nil, List.append_nil, List.flatMap_append]
  rw [unknownInBans, List.append_assoc, List.append_assoc, List.append_assoc, hSkip, hTreeSkip, hDeny, hAllow]
  rfl

theorem unknownInSection_eq (p : Place) (name : String) {walk : Entries → List UnknownKey}
    (parts : Entries → List (List (Site × Entries))) (hNil : (parts []).flatten = [])
    (hWalk : ∀ es, walk es =
      unknownAt source (.record p, es) ++ (parts es).flatten.flatMap (unknownAt source)) :
    unknownInSection root name walk =
      (sectionTables p name root :: parts (sectionEntries root name)).flatten.flatMap (unknownAt source) := by
  rw [unknownInSection, sectionTables, sectionEntries]
  cases (root.find? name).bind tableEntries? with
  | some es => exact hWalk es
  | none => simp [hNil]

theorem unknownInTree_eq : unknownInTree source root = (visited root).flatMap (unknownAt source) := by
  have hLicenses := @unknownInSection_eq source root .licenses "licenses" _ licensesParts rfl
    (@unknownInLicenses_eq source)
  have hBans := @unknownInSection_eq source root .bans "bans" _ bansParts rfl
    (@unknownInBans_eq source)
  have hSources : unknownInSection root "sources" (unknownIn source "sources" KnownKeys.sources) = _ :=
    unknownInSection_eq .sources "sources" (fun _ => []) rfl fun es => (List.append_nil _).symm
  rw [unknownInTree, hLicenses, hBans, hSources, visited, walkParts]
  simp only [List.flatten_cons, List.flatten_append, List.flatMap_append, List.flatMap_cons, List.append_assoc,
    List.cons_append, List.nil_append]
  rfl

end

section
variable {root : Entries}

theorem child?_keyStep (node : Node) (name : String) :
    node.child? (keyStep name) = (heldEntries node).find? name := by
  cases node <;> rfl

theorem heldEntries_of_mem_tableItems {node : Node} {name : String} {e : Nat × Entries}
    (h : e ∈ tableItems (heldEntries node) name) : tableEntries? node = some (heldEntries node) := by
  rw [heldEntries] at h ⊢
  cases hTable : tableEntries? node with
  | some es => rfl
  | none =>
    rw [hTable] at h
    cases h

theorem hasTableAt_item_iff {node : Node} {name : String} {i : Nat} {es : Entries} :
    HasTableAt node [keyStep name, .item i] es ↔ (i, es) ∈ tableItems (heldEntries node) name := by
  rw [mem_tableItems_iff, HasTableAt, Node.at?, child?_keyStep]
  constructor
  · rintro ⟨span, form, hAt⟩
    obtain ⟨list, hFind, hItem⟩ := Option.bind_eq_some_iff.mp hAt
    obtain ⟨listSpan, ofTables, items, rfl, hGet⟩ := eq_array_of_child? (at?_singleton hItem)
    exact ⟨listSpan, ofTables, items, hFind, span, form, hGet⟩
  · rintro ⟨listSpan, ofTables, items, hFind, span, form, hGet⟩
    exact ⟨span, form, Option.bind_eq_some_iff.mpr ⟨_, hFind, Option.bind_eq_some_iff.mpr ⟨_, hGet, rfl⟩⟩⟩

theorem hasTableAt_append_iff {node : Node} {p q : Path} {es : Entries} :
    HasTableAt node (p ++ q) es ↔ ∃ inner, node.at? p = some inner ∧ HasTableAt inner q es := by
  simp only [HasTableAt, Node.at?_append, Option.bind_eq_some_iff]
  constructor
  · rintro ⟨span, form, inner, hInner, hAt⟩
    exact ⟨inner, hInner, span, form, hAt⟩
  · rintro ⟨inner, hInner, span, form, hAt⟩
    exact ⟨span, form, inner, hInner, hAt⟩

variable {span : Span} {form : Form}

theorem at?_section_eq (name : String) : (Node.table span form root).at? [keyStep name] = root.find? name := by
  rw [Node.at?, child?_keyStep]
  exact Option.bind_fun_some _

theorem hasTableAt_section_iff {name : String} {es : Entries} :
    HasTableAt (.table span form root) [keyStep name] es ↔
      (root.find? name).bind tableEntries? = some es := by
  rw [HasTableAt, at?_section_eq, Option.bind_eq_some_iff]
  simp only [tableEntries?_eq_some_iff]
  constructor
  · rintro ⟨span, form, h⟩
    exact ⟨_, h, span, form, rfl⟩
  · rintro ⟨node, h, span, form, rfl⟩
    exact ⟨span, form, h⟩

theorem hasTableAt_sectionItem_iff {outer name : String} {i : Nat} {es : Entries} :
    HasTableAt (.table span form root) [keyStep outer, keyStep name, .item i] es ↔
      (i, es) ∈ tableItems (sectionEntries root outer) name := by
  rw [← List.singleton_append, hasTableAt_append_iff, at?_section_eq, sectionEntries]
  simp only [hasTableAt_item_iff]
  cases root.find? outer with
  | none => simp [tableItems, arrayItems, Entries.find?]
  | some node => simp [heldEntries]

theorem hasTableAt_innerItem_iff {outer middle name : String} {i j : Nat} {es : Entries} :
    HasTableAt (.table span form root)
        [keyStep outer, keyStep middle, .item i, keyStep name, .item j] es ↔
      ∃ item, (i, item) ∈ tableItems (sectionEntries root outer) middle ∧ (j, es) ∈ tableItems item name := by
  have hPath : [keyStep outer, keyStep middle, .item i, keyStep name, .item j] =
      [keyStep outer, keyStep middle, .item i] ++ [keyStep name, .item j] := rfl
  have hItems (item : Entries) : (i, item) ∈ tableItems (sectionEntries root outer) middle ↔
      HasTableAt (.table span form root) [keyStep outer, keyStep middle, .item i] item :=
    hasTableAt_sectionItem_iff.symm
  rw [hPath, hasTableAt_append_iff]
  simp only [hItems, hasTableAt_item_iff]
  constructor
  · rintro ⟨inner, hInner, hItem⟩
    obtain ⟨innerSpan, innerForm, hTable⟩ :=
      tableEntries?_eq_some_iff.mp (heldEntries_of_mem_tableItems hItem)
    exact ⟨_, ⟨innerSpan, innerForm, hInner.trans (congrArg some hTable)⟩, hItem⟩
  · rintro ⟨item, ⟨innerSpan, innerForm, hInner⟩, hItem⟩
    exact ⟨_, hInner, hItem⟩

theorem mem_visited_iff {p : Site} {es : Entries} :
    (p, es) ∈ visited root ↔ HasTableAt (.table span form root) p.position es := by
  have hRoot : HasTableAt (.table span form root) [] es ↔ es = root := by
    simp [HasTableAt, Node.at?, eq_comm]
  rw [visited, walkParts]
  cases p with
  | unread list i =>
    cases list <;> simp [licensesParts, bansParts, listTables, sectionTables, Site.position,
      hasTableAt_sectionItem_iff, UnreadList.name]
  | record p =>
    cases p <;> simp [licensesParts, bansParts, listTables, sectionTables, Site.position, hRoot,
      hasTableAt_section_iff, hasTableAt_sectionItem_iff, hasTableAt_innerItem_iff]

theorem nodup_tableItems (es : Entries) (name : String) : ((tableItems es name).map Prod.fst).Nodup := by
  have hIndices : List.Pairwise (fun e f : Node × Nat => e.2 ≠ f.2) (arrayItems es name).zipIdx := by
    rw [← List.pairwise_map, List.zipIdx_map_snd]
    exact List.nodup_range'
  rw [List.Nodup, List.pairwise_map, tableItems]
  refine List.Pairwise.filterMap _ ?_ hIndices
  rintro ⟨node, i⟩ ⟨node', j⟩ hNe e he f hf
  obtain ⟨item, -, rfl⟩ := Option.map_eq_some_iff.mp he
  obtain ⟨item', -, rfl⟩ := Option.map_eq_some_iff.mp hf
  exact hNe

theorem nodup_listTables {site : Nat → Site} (hSite : Function.Injective site) (name : String) (es : Entries) :
    ((listTables site name es).map Prod.fst).Nodup := by
  have hMap := (nodup_tableItems es name).map hSite
  rw [listTables, List.map_map]
  rwa [List.map_map] at hMap

theorem nodup_sectionTables (p : Place) (name : String) (root : Entries) :
    ((sectionTables p name root).map Prod.fst).Nodup := by
  rw [sectionTables]
  cases (root.find? name).bind tableEntries? <;> simp

theorem nodup_files (es : Entries) : (((tableItems es "clarify").flatMap fun (i, item) =>
    listTables (.record <| .licenseFile i ·) "license-files" item).map Prod.fst).Nodup := by
  rw [List.map_flatMap, List.nodup_flatMap]
  constructor
  · rintro ⟨i, item⟩ -
    apply nodup_listTables
    rintro j k ⟨⟩
    rfl
  · refine List.Pairwise.imp ?_ (List.pairwise_map.mp (nodup_tableItems es "clarify"))
    rintro ⟨i, item⟩ ⟨j, item'⟩ hNe
    rw [Function.onFun, List.disjoint_left]
    simp only [listTables, List.map_map, List.mem_map, Function.comp_apply]
    rintro p ⟨e, -, rfl⟩ ⟨f, -, hEq⟩
    injection hEq with hPlace
    injection hPlace with hIndex
    exact hNe hIndex.symm

theorem nodup_walkParts (root : Entries) : ∀ part ∈ walkParts root, (part.map Prod.fst).Nodup := by
  simp only [walkParts, licensesParts, bansParts, List.cons_append, List.nil_append, List.forall_mem_cons,
    nodup_sectionTables, nodup_files, true_and]
  refine ⟨List.nodup_singleton _, ?_, ?_, ?_, ?_, ?_, ?_, List.forall_mem_nil _⟩ <;>
    · apply nodup_listTables
      rintro i j ⟨⟩
      rfl

theorem part_eq_of_mem_walkParts : ∀ e ∈ (walkParts root).zipIdx, ∀ f ∈ e.1, f.1.part = e.2 := by
  have hList (site : Nat → Site) (name : String) (es : Entries) (n : Nat) (h : ∀ i, (site i).part = n) :
      ∀ f ∈ listTables site name es, f.1.part = n := by
    intro f hf
    obtain ⟨item, -, rfl⟩ := List.mem_map.mp hf
    exact h item.1
  have hSection (p : Place) (name : String) (n : Nat) (h : (Site.record p).part = n) :
      ∀ f ∈ sectionTables p name root, f.1.part = n := by
    intro f hf
    obtain ⟨es, -, rfl⟩ := List.mem_map.mp hf
    exact h
  simp only [walkParts, licensesParts, bansParts, List.cons_append, List.nil_append, List.zipIdx_cons,
    List.zipIdx_nil, List.forall_mem_cons, List.mem_singleton, forall_eq]
  refine ⟨rfl, hSection _ _ _ rfl, hList _ _ _ _ fun _ => rfl, hList _ _ _ _ fun _ => rfl, ?_,
    hSection _ _ _ rfl, hList _ _ _ _ fun _ => rfl, hList _ _ _ _ fun _ => rfl, hList _ _ _ _ fun _ => rfl,
    hList _ _ _ _ fun _ => rfl, hSection _ _ _ rfl⟩
  intro f hf
  obtain ⟨⟨i, item⟩, -, hFile⟩ := List.mem_flatMap.mp hf
  exact hList (.record <| .licenseFile i ·) _ _ _ (fun _ => rfl) f hFile

/-- The walk goes to every site once at most. -/
theorem nodup_visited (root : Entries) : ((visited root).map Prod.fst).Nodup := by
  rw [visited, List.map_flatten, List.nodup_flatten, List.pairwise_map, List.pairwise_iff_getElem]
  constructor
  · intro sites hSites
    obtain ⟨part, hPart, rfl⟩ := List.mem_map.mp hSites
    exact nodup_walkParts root part hPart
  · intro m n hm hn hLess
    -- The parts of the walk go to different sites, since a site tells its part.
    rw [List.disjoint_left]
    intro p hFirst hSecond
    have hPart (k : Nat) (hk : k < (walkParts root).length) (h : p ∈ ((walkParts root)[k]).map Prod.fst) :
        p.part = k := by
      obtain ⟨f, hf, rfl⟩ := List.mem_map.mp h
      exact part_eq_of_mem_walkParts (_, k)
        (List.mem_zipIdx_iff_getElem?.mpr (List.getElem?_eq_getElem hk)) f hf
    have hLeft := hPart m hm hFirst
    have hRight := hPart n hn hSecond
    omega

end

/-- The keys of a visited table that are not known there. -/
def unknownEntries (e : Site × Entries) : List (Site × Key) :=
  (List.filter (fun f : Key × Node => !e.1.known.contains f.1.name) e.2).map fun f => (e.1, f.1)

def Site.reported (source : String) (found : Site × Key) : UnknownKey :=
  ⟨positionText (found.1.keyPosition found.2), found.2.name, lineAt source found.2.span.start⟩

/-- The reports are those of the unknown keys of the tree, each of them found once. -/
structure Enumerates (source : String) (tree : Node) (found : List (Site × Key))
    (reports : List UnknownKey) : Prop where
  reports_eq : reports = found.map (Site.reported source)
  once : (found.map fun f => (f.1, f.2.name)).Nodup
  exact : ∀ p key, (p, key) ∈ found ↔ p.HasUnknown tree key

section
variable {source : String} {root : Entries}

theorem unknownAt_eq (e : Site × Entries) : unknownAt source e = (unknownEntries e).map (Site.reported source) := by
  rw [unknownAt, unknownIn, unknownEntries, List.map_map]
  apply List.map_congr_left
  intro f _
  exact e.1.report_eq source f.1

theorem mem_unknownEntries_iff {e : Site × Entries} {p : Site} {key : Key} :
    (p, key) ∈ unknownEntries e ↔ p = e.1 ∧ ∃ value, (key, value) ∈ e.2 ∧ key.name ∉ p.known := by
  rw [unknownEntries, List.mem_map]
  constructor
  · rintro ⟨f, hf, hEq⟩
    obtain ⟨hMem, hUnknown⟩ := List.mem_filter.mp hf
    cases hEq
    exact ⟨rfl, f.2, hMem, by simpa using hUnknown⟩
  · rintro ⟨rfl, value, hMem, hUnknown⟩
    exact ⟨(key, value), List.mem_filter.mpr ⟨hMem, by simpa using hUnknown⟩, rfl⟩

theorem nodup_unknownEntries {e : Site × Entries} (h : e.2.AreDistinct) :
    ((unknownEntries e).map fun f => (f.1, f.2.name)).Nodup := by
  have hNames : List.Pairwise (fun f g : Key × Node => f.1.name ≠ g.1.name) e.2 := List.pairwise_map.mp h.names
  rw [unknownEntries, List.map_map, List.Nodup, List.pairwise_map]
  refine (hNames.filter _).imp ?_
  intro f g hNe hEq
  exact hNe (congrArg Prod.snd hEq)

theorem HasTableAt.areDistinct {tree : Node} (hTree : tree.HasDistinctKeys) {position : Path} {es : Entries}
    (h : HasTableAt tree position es) : es.AreDistinct := by
  obtain ⟨span, form, hAt⟩ := h
  exact Entries.areDistinct_iff.mp (hTree.at? hAt)

theorem enumerates_unknownInTree (source : String) {span : Span} {form : Form}
    (hTree : (Node.table span form root).HasDistinctKeys) : Enumerates source (.table span form root)
      ((visited root).flatMap unknownEntries) (unknownInTree source root) where
  reports_eq := by
    rw [unknownInTree_eq, List.map_flatMap]
    exact congrArg (visited root).flatMap (funext unknownAt_eq)
  once := by
    rw [List.map_flatMap, List.nodup_flatMap]
    constructor
    · rintro ⟨p, es⟩ hMem
      exact nodup_unknownEntries ((mem_visited_iff.mp hMem).areDistinct hTree)
    · refine List.Pairwise.imp ?_ (List.pairwise_map.mp (nodup_visited root))
      rintro e f hNe
      rw [Function.onFun, List.disjoint_left]
      intro g hFirst hSecond
      obtain ⟨⟨p, key⟩, hKey, rfl⟩ := List.mem_map.mp hFirst
      obtain ⟨⟨q, key'⟩, hKey', hEq⟩ := List.mem_map.mp hSecond
      obtain ⟨rfl, -⟩ := mem_unknownEntries_iff.mp hKey
      obtain ⟨rfl, -⟩ := mem_unknownEntries_iff.mp hKey'
      exact hNe (congrArg Prod.fst hEq).symm
  exact p key := by
    rw [List.mem_flatMap, Site.HasUnknown]
    constructor
    · rintro ⟨⟨q, es⟩, hVisited, hKey⟩
      obtain ⟨rfl, value, hMem, hUnknown⟩ := mem_unknownEntries_iff.mp hKey
      exact ⟨es, value, mem_visited_iff.mp hVisited, hMem, hUnknown⟩
    · rintro ⟨es, value, hTable, hMem, hUnknown⟩
      exact ⟨(p, es), mem_visited_iff.mpr hTable, mem_unknownEntries_iff.mpr ⟨rfl, value, hMem, hUnknown⟩⟩

theorem unknownIn_eq_keys (source pre : String) (known : List String) (es : Entries) :
    unknownIn source pre known es =
      ((es.map Prod.fst).filter fun key => !known.contains key.name).map (report source pre) := by
  rw [List.filter_map, List.map_map]
  rfl

theorem map_key_replace (name : String) (value : Node) (es : Entries) :
    (es.replace name value).map Prod.fst = es.map Prod.fst := by
  rw [Entries.replace, List.map_map]
  apply List.map_congr_left
  intro e _
  rw [Function.comp_apply]
  split <;> rfl

/-- What stands at a key that is no section that the walk enters makes no difference. -/
theorem unknownInTree_replace (source : String) {name : String} (h : name ∉ ["licenses", "bans", "sources"])
    (root : Entries) (value : Node) : unknownInTree source (root.replace name value) = unknownInTree source root := by
  have hKeys : unknownIn source "" KnownKeys.topLevel (root.replace name value) =
      unknownIn source "" KnownKeys.topLevel root := by
    rw [unknownIn_eq_keys, map_key_replace, ← unknownIn_eq_keys]
  have hSection (other : String) (hOther : other ∈ ["licenses", "bans", "sources"])
      (walk : Entries → List UnknownKey) :
      unknownInSection (root.replace name value) other walk = unknownInSection root other walk := by
    have hNe : other ≠ name := by
      rintro rfl
      exact h hOther
    rw [unknownInSection, Entries.find?_replace_of_ne hNe, unknownInSection]
  rw [unknownInTree, hKeys, hSection _ (by simp), hSection _ (by simp), hSection _ (by simp), unknownInTree]

/-- The walk reports exactly the unknown keys at the sites of the schema, each once and at its position. -/
theorem unknownKeys_enumerates (source : String) :
    (∀ span form root, (Node.table span form root).HasDistinctKeys →
      ∃ found, Enumerates source (.table span form root) found (unknownInTree source root)) ∧
    (∀ root name value, name ∉ ["licenses", "bans", "sources"] →
      unknownInTree source (root.replace name value) = unknownInTree source root) ∧
    (∀ tree, Toml.parse source = .ok tree → ∃ found, Enumerates source tree found (unknownKeys source)) ∧
    ∀ fault, Toml.parse source = .error fault → unknownKeys source = [] := by
  refine ⟨?_, ?_, ?_, ?_⟩
  · intro span form root hTree
    exact ⟨_, enumerates_unknownInTree source hTree⟩
  · intro root name value hName
    exact unknownInTree_replace source hName root value
  · intro tree hParse
    obtain ⟨span, form, root, rfl⟩ := exists_eq_table hParse
    rw [unknownKeys, hParse]
    exact ⟨_, enumerates_unknownInTree source (hasDistinctKeys_of_parse hParse)⟩
  · intro fault hParse
    rw [unknownKeys, hParse]

end

end PolicyLint.Policy
