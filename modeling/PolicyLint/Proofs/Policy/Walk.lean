import PolicyLint.Proofs.Policy.Labels

/-!
# The walk over unknown keys

The walk visits the places all of whose records are tables, and below the bans two lists that nothing else
reads.
-/
namespace PolicyLint.Policy
open Text Toml Toml.Decode
set_option autoImplicit false

/-- A key as the walk reports it. -/
def report (source pre : String) (key : Key) : UnknownKey :=
  ⟨dotted pre key.name, key.name, lineAt source key.span.start⟩

theorem mem_unknownIn_iff {source pre : String} {known : List String} {es : Entries} {k : UnknownKey} :
    k ∈ unknownIn source pre known es ↔ ∃ e ∈ es, e.1.name ∉ known ∧ k = report source pre e.1 := by
  rw [unknownIn, List.mem_map]
  apply exists_congr
  intro e
  rw [List.mem_filter, Bool.not_eq_true', List.contains_eq_mem, decide_eq_false_iff_not, and_assoc]
  exact and_congr_right fun _ => and_congr_right fun _ => eq_comm

theorem tableEntries?_eq_some_iff {node : Node} {es : Entries} :
    tableEntries? node = some es ↔ ∃ span form, node = .table span form es := by
  cases node <;> simp [tableEntries?]

theorem mem_tableItems_iff {es item : Entries} {name : String} {i : Nat} :
    (i, item) ∈ tableItems es name ↔ ∃ span ofTables items, es.find? name = some (.array span ofTables items) ∧
      ∃ span' form, items[i]? = some (.table span' form item) := by
  have hItems : ∀ items : List Node, (i, item) ∈ (items.zipIdx.filterMap fun p =>
      (tableEntries? p.1).map (p.2, ·)) ↔ ∃ span form, items[i]? = some (.table span form item) := by
    intro items
    rw [List.mem_filterMap]
    constructor
    · rintro ⟨⟨node, j⟩, hMem, hMap⟩
      obtain ⟨es, hes, hEq⟩ := Option.map_eq_some_iff.mp hMap
      cases hEq
      obtain ⟨span, form, rfl⟩ := tableEntries?_eq_some_iff.mp hes
      exact ⟨span, form, List.mem_zipIdx_iff_getElem?.mp hMem⟩
    · rintro ⟨span, form, hItem⟩
      exact ⟨(_, i), List.mem_zipIdx_iff_getElem?.mpr hItem, rfl⟩
  rw [tableItems]
  refine (hItems _).trans ?_
  rw [arrayItems]
  split
  · rename_i span ofTables items hFind
    simp [hFind]
  · rename_i hOther
    simp only [List.getElem?_nil, reduceCtorEq, exists_false, false_iff]
    rintro ⟨span, ofTables, items, hFind, -⟩
    exact hOther span ofTables items hFind

theorem mem_unknownInItems_iff {source pre name : String} {known : List String} {es : Entries}
    {k : UnknownKey} : k ∈ unknownInItems source pre name known es ↔
      ∃ i item, (i, item) ∈ tableItems es name ∧ k ∈ unknownIn source (indexed pre name i) known item := by
  rw [unknownInItems, List.mem_flatMap, Prod.exists]

theorem mem_unknownInSection_iff {root : Entries} {name : String} {walk : Entries → List UnknownKey}
    {k : UnknownKey} : k ∈ unknownInSection root name walk ↔
      ∃ span form es, root.find? name = some (.table span form es) ∧ k ∈ walk es := by
  rw [unknownInSection]
  split
  · rename_i es hes
    obtain ⟨node, hFind, hTable⟩ := Option.bind_eq_some_iff.mp hes
    obtain ⟨span, form, rfl⟩ := tableEntries?_eq_some_iff.mp hTable
    simp [hFind]
  · rename_i hNone
    simp only [List.not_mem_nil, false_iff]
    rintro ⟨span, form, es, hFind, -⟩
    rw [hFind] at hNone
    cases hNone

namespace Place

/-- The record at the place is written as a table. -/
def HasTable (tree : Node) (p : Place) (es : Entries) : Prop :=
  ∃ span form, tree.at? p.path = some (.table span form es)

/-- The records around the place are written as tables. -/
def InTables (tree : Node) (p : Place) : Prop := ∀ q ∈ p.around, ∃ es, q.HasTable tree es

theorem at?_section (span : Span) (form : Form) (root : Entries) (name : String) :
    (Node.table span form root).at? (sectionPath name) = root.find? name := by
  rw [sectionPath, Node.at?, Node.child?, Node.members]
  cases root.find? name <;> rfl

theorem hasTable_document (span : Span) (form : Form) (root : Entries) :
    document.HasTable (.table span form root) root := ⟨span, form, rfl⟩

theorem HasTable.unique {tree : Node} {p : Place} {es es' : Entries} (h : p.HasTable tree es)
    (h' : p.HasTable tree es') : es = es' := by
  obtain ⟨span, form, hAt⟩ := h
  obtain ⟨span', form', hAt'⟩ := h'
  rw [hAt] at hAt'
  cases hAt'
  rfl

theorem hasTable_entry_iff {tree : Node} {p q : Place} {outer es : Entries} (hq : q.HasTable tree outer)
    {σ : Type} {r : Record σ} {name : String} {i : Nat} (hPath : p.path = q.path ++ entryPath r name i) :
    p.HasTable tree es ↔ (i, es) ∈ tableItems outer name := by
  obtain ⟨span, form, hAt⟩ := hq
  rw [mem_tableItems_iff, HasTable, hPath, Node.at?_append, hAt, Option.bind_some, entryPath]
  constructor
  · rintro ⟨span', form', hEntry⟩
    obtain ⟨list, hFind, hItem⟩ := Option.bind_eq_some_iff.mp hEntry
    obtain ⟨listSpan, ofTables, items, rfl, hGet⟩ := eq_array_of_child? (at?_singleton hItem)
    exact ⟨listSpan, ofTables, items, hFind, span', form', hGet⟩
  · rintro ⟨listSpan, ofTables, items, hFind, span', form', hGet⟩
    exact ⟨span', form', Option.bind_eq_some_iff.mpr ⟨_, hFind, Option.bind_eq_some_iff.mpr ⟨_, hGet, rfl⟩⟩⟩

end Place

/-- A table that the walk visits, as the record at a place. -/
structure Visits (tree : Node) (p : Place) (es : Entries) : Prop where
  inTables : p.InTables tree
  hasTable : p.HasTable tree es

namespace Visits

variable {tree : Node} {p q : Place} {es outer : Entries}

theorem exists_outer (h : Visits tree p es) (hAround : p.around = q :: q.around) :
    ∃ outer, Visits tree q outer := by
  obtain ⟨outer, hOuter⟩ := h.inTables q (hAround ▸ List.mem_cons_self)
  exact ⟨outer, fun r hr => h.inTables r (hAround ▸ List.mem_cons_of_mem _ hr), hOuter⟩

theorem entry_iff (hq : Visits tree q outer) (hAround : p.around = q :: q.around) {σ : Type}
    {r : Record σ} {name : String} {i : Nat} (hPath : p.path = q.path ++ Place.entryPath r name i) :
    Visits tree p es ↔ (i, es) ∈ tableItems outer name := by
  rw [← Place.hasTable_entry_iff hq.hasTable hPath]
  constructor
  · exact Visits.hasTable
  · intro h
    refine ⟨fun s hs => ?_, h⟩
    rcases List.mem_cons.mp (hAround ▸ hs) with rfl | hs
    · exact ⟨outer, hq.hasTable⟩
    · exact hq.inTables s hs

theorem document_iff {span : Span} {form : Form} {root : Entries} :
    Visits (.table span form root) .document es ↔ es = root := by
  have hRoot := Place.hasTable_document span form root
  constructor
  · intro h
    exact h.hasTable.unique hRoot
  · rintro rfl
    exact ⟨fun _ hs => (by cases hs), hRoot⟩

theorem section_iff {span : Span} {form : Form} {root : Entries} {name : String}
    (hAround : p.around = [.document]) (hPath : p.path = Place.sectionPath name) :
    Visits (.table span form root) p es ↔ ∃ span form, root.find? name = some (.table span form es) := by
  rw [← Place.at?_section span form root name, ← hPath]
  constructor
  · exact Visits.hasTable
  · intro h
    refine ⟨fun s hs => ?_, h⟩
    obtain rfl := List.mem_singleton.mp (hAround ▸ hs)
    exact ⟨root, Place.hasTable_document span form root⟩

end Visits

/-- The key is reported from the table at a place. -/
def Reports (source : String) (p : Place) (es : Entries) (k : UnknownKey) : Prop :=
  k ∈ unknownIn source p.text p.kind.known es

/-- The key is reported from the lists below the bans that the loader does not read. -/
def ReportsUnread (source : String) (bans : Entries) (k : UnknownKey) : Prop :=
  ∃ name ∈ ["deny", "allow"], ∃ i item, (i, item) ∈ tableItems bans name ∧
    k ∈ unknownIn source (indexed "bans" name i) KnownKeys.skip item

/-- The places of the entries of a list. -/
structure Lists {σ : Type} (q : Place) (r : Record σ) (name : String) (known : List String)
    (p : Nat → Place) : Prop where
  around : ∀ i, (p i).around = q :: q.around
  path : ∀ i, (p i).path = q.path ++ Place.entryPath r name i
  text : ∀ i, (p i).text = indexed q.text name i
  known : ∀ i, (p i).kind.known = known

section

variable {source : String} {k : UnknownKey} {root : Entries}

theorem mem_unknownInSection_iff_visits (span : Span) (form : Form) {p : Place} {name : String}
    (hAround : p.around = [.document]) (hPath : p.path = Place.sectionPath name)
    {walk : Entries → List UnknownKey} :
    k ∈ unknownInSection root name walk ↔ ∃ es, Visits (.table span form root) p es ∧ k ∈ walk es := by
  rw [mem_unknownInSection_iff]
  constructor
  · rintro ⟨span', form', es, hFind, hk⟩
    exact ⟨es, (Visits.section_iff hAround hPath).mpr ⟨span', form', hFind⟩, hk⟩
  · rintro ⟨es, hVisits, hk⟩
    obtain ⟨span', form', hFind⟩ := (Visits.section_iff hAround hPath).mp hVisits
    exact ⟨span', form', es, hFind, hk⟩

variable {tree : Node} {outer : Entries}

theorem mem_unknownInItems_iff_visits {q : Place} (hq : Visits tree q outer) {σ : Type} {r : Record σ}
    {name : String} {known : List String} {p : Nat → Place} (h : Lists q r name known p) :
    k ∈ unknownInItems source q.text name known outer ↔
      ∃ i es, Visits tree (p i) es ∧ Reports source (p i) es k := by
  rw [mem_unknownInItems_iff]
  apply exists_congr
  intro i
  apply exists_congr
  intro es
  rw [hq.entry_iff (h.around i) (h.path i), Reports, h.text, h.known]

theorem mem_unknownInLicenses_iff (h : Visits tree .licenses outer) :
    k ∈ unknownInLicenses source outer ↔ Reports source .licenses outer k ∨
      (∃ i es, Visits tree (.exception i) es ∧ Reports source (.exception i) es k) ∨
      (∃ i es, Visits tree (.clarification i) es ∧ Reports source (.clarification i) es k) ∨
      ∃ i j es, Visits tree (.licenseFile i j) es ∧ Reports source (.licenseFile i j) es k := by
  have hExceptions : Lists .licenses licensesRecord "exceptions" KnownKeys.exception .exception :=
    ⟨fun _ => rfl, fun _ => rfl, fun _ => rfl, fun _ => rfl⟩
  have hClarify : Lists .licenses licensesRecord "clarify" KnownKeys.clarification .clarification :=
    ⟨fun _ => rfl, fun _ => rfl, fun _ => rfl, fun _ => rfl⟩
  have hFiles (i : Nat) : Lists (.clarification i) clarificationRecord "license-files" KnownKeys.licenseFile
      (.licenseFile i) :=
    ⟨fun _ => rfl, fun _ => rfl, fun _ => rfl, fun _ => rfl⟩
  have hInner : (k ∈ (tableItems outer "clarify").flatMap fun e =>
        unknownInItems source (indexed "licenses" "clarify" e.1) "license-files" KnownKeys.licenseFile e.2) ↔
      ∃ i j es, Visits tree (.licenseFile i j) es ∧ Reports source (.licenseFile i j) es k := by
    rw [List.mem_flatMap, Prod.exists]
    apply exists_congr
    intro i
    constructor
    · rintro ⟨item, hItem, hk⟩
      have hVisits := (h.entry_iff (hClarify.around i) (hClarify.path i)).mpr hItem
      exact (mem_unknownInItems_iff_visits hVisits (hFiles i)).mp hk
    · rintro ⟨j, es, hVisits, hk⟩
      obtain ⟨item, hItem⟩ := hVisits.exists_outer (q := .clarification i) rfl
      refine ⟨item, (h.entry_iff (hClarify.around i) (hClarify.path i)).mp hItem, ?_⟩
      exact (mem_unknownInItems_iff_visits hItem (hFiles i)).mpr ⟨j, es, hVisits, hk⟩
  rw [unknownInLicenses, List.mem_append, List.mem_append, List.mem_append, or_assoc, or_assoc]
  exact or_congr Iff.rfl (or_congr (mem_unknownInItems_iff_visits h hExceptions)
    (or_congr (mem_unknownInItems_iff_visits h hClarify) hInner))

theorem mem_unknownInBans_iff (h : Visits tree .bans outer) :
    k ∈ unknownInBans source outer ↔ Reports source .bans outer k ∨
      (∃ i es, Visits tree (.skip i) es ∧ Reports source (.skip i) es k) ∨
      (∃ i es, Visits tree (.treeSkip i) es ∧ Reports source (.treeSkip i) es k) ∨
      ReportsUnread source outer k := by
  have hSkip : Lists .bans bansRecord "skip" KnownKeys.skip .skip :=
    ⟨fun _ => rfl, fun _ => rfl, fun _ => rfl, fun _ => rfl⟩
  have hTreeSkip : Lists .bans bansRecord "skip-tree" KnownKeys.treeSkip .treeSkip :=
    ⟨fun _ => rfl, fun _ => rfl, fun _ => rfl, fun _ => rfl⟩
  have hUnread : k ∈ unknownInItems source "bans" "deny" KnownKeys.skip outer ∨
      k ∈ unknownInItems source "bans" "allow" KnownKeys.skip outer ↔ ReportsUnread source outer k := by
    simp only [ReportsUnread, List.mem_cons, List.not_mem_nil, or_false, exists_eq_or_imp, exists_eq_left,
      mem_unknownInItems_iff]
  rw [unknownInBans, List.mem_append, List.mem_append, List.mem_append, List.mem_append, or_assoc, hUnread,
    or_assoc, or_assoc]
  exact or_congr Iff.rfl (or_congr (mem_unknownInItems_iff_visits h hSkip)
    (or_congr (mem_unknownInItems_iff_visits h hTreeSkip) Iff.rfl))

/-- The walk reports the unknown keys of the tables that it visits, and those below the bans that the loader
does not read. -/
theorem mem_unknownInTree_iff (span : Span) (form : Form) : k ∈ unknownInTree source root ↔
    (∃ p es, Visits (.table span form root) p es ∧ Reports source p es k) ∨
      ∃ bans, Visits (.table span form root) .bans bans ∧ ReportsUnread source bans k := by
  rw [unknownInTree, List.mem_append, List.mem_append, List.mem_append,
    mem_unknownInSection_iff_visits span form (p := .licenses) rfl rfl,
    mem_unknownInSection_iff_visits span form (p := .bans) rfl rfl,
    mem_unknownInSection_iff_visits span form (p := .sources) rfl rfl]
  constructor
  · rintro (((hk | ⟨es, hVisits, hk⟩) | ⟨es, hVisits, hk⟩) | ⟨es, hVisits, hk⟩)
    · exact .inl ⟨.document, root, Visits.document_iff.mpr rfl, hk⟩
    · rcases (mem_unknownInLicenses_iff hVisits).mp hk with
        hk | ⟨i, es, hEntry, hk⟩ | ⟨i, es, hEntry, hk⟩ | ⟨i, j, es, hEntry, hk⟩
      · exact .inl ⟨.licenses, es, hVisits, hk⟩
      · exact .inl ⟨.exception i, es, hEntry, hk⟩
      · exact .inl ⟨.clarification i, es, hEntry, hk⟩
      · exact .inl ⟨.licenseFile i j, es, hEntry, hk⟩
    · rcases (mem_unknownInBans_iff hVisits).mp hk with hk | ⟨i, es, hEntry, hk⟩ | ⟨i, es, hEntry, hk⟩ | hk
      · exact .inl ⟨.bans, es, hVisits, hk⟩
      · exact .inl ⟨.skip i, es, hEntry, hk⟩
      · exact .inl ⟨.treeSkip i, es, hEntry, hk⟩
      · exact .inr ⟨es, hVisits, hk⟩
    · exact .inl ⟨.sources, es, hVisits, hk⟩
  · have hLicenses {outer : Entries} (hVisits : Visits (.table span form root) .licenses outer) :=
      (@mem_unknownInLicenses_iff source k _ _ hVisits).mpr
    have hBans {outer : Entries} (hVisits : Visits (.table span form root) .bans outer) :=
      (@mem_unknownInBans_iff source k _ _ hVisits).mpr
    rintro (⟨p, es, hVisits, hk⟩ | ⟨es, hVisits, hk⟩)
    · cases p with
      | document => exact .inl (.inl (.inl (Visits.document_iff.mp hVisits ▸ hk)))
      | licenses => exact .inl (.inl (.inr ⟨es, hVisits, hLicenses hVisits (.inl hk)⟩))
      | bans => exact .inl (.inr ⟨es, hVisits, hBans hVisits (.inl hk)⟩)
      | sources => exact .inr ⟨es, hVisits, hk⟩
      | exception i =>
        obtain ⟨outer, hOuter⟩ := hVisits.exists_outer (q := .licenses) rfl
        exact .inl (.inl (.inr ⟨outer, hOuter, hLicenses hOuter (.inr (.inl ⟨i, es, hVisits, hk⟩))⟩))
      | clarification i =>
        obtain ⟨outer, hOuter⟩ := hVisits.exists_outer (q := .licenses) rfl
        exact .inl (.inl (.inr ⟨outer, hOuter, hLicenses hOuter (.inr (.inr (.inl ⟨i, es, hVisits, hk⟩)))⟩))
      | licenseFile i j =>
        obtain ⟨middle, hMiddle⟩ := hVisits.exists_outer (q := .clarification i) rfl
        obtain ⟨outer, hOuter⟩ := hMiddle.exists_outer (q := .licenses) rfl
        exact .inl (.inl (.inr
          ⟨outer, hOuter, hLicenses hOuter (.inr (.inr (.inr ⟨i, j, es, hVisits, hk⟩)))⟩))
      | skip i =>
        obtain ⟨outer, hOuter⟩ := hVisits.exists_outer (q := .bans) rfl
        exact .inl (.inr ⟨outer, hOuter, hBans hOuter (.inr (.inl ⟨i, es, hVisits, hk⟩))⟩)
      | treeSkip i =>
        obtain ⟨outer, hOuter⟩ := hVisits.exists_outer (q := .bans) rfl
        exact .inl (.inr ⟨outer, hOuter, hBans hOuter (.inr (.inr (.inl ⟨i, es, hVisits, hk⟩)))⟩)
    · exact .inl (.inr ⟨es, hVisits, hBans hVisits (.inr (.inr (.inr hk)))⟩)

end

end PolicyLint.Policy
