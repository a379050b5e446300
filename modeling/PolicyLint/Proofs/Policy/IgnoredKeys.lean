import Mathlib
import PolicyLint.Proofs.Policy.Walk

/-!
# Keys without effect

A key has no effect if the document is the same whatever its value. Where the records around a table are
tables too, every such key belongs to the schema or is reported. Where one of them is written as an array,
the walk does not get to the table and reports none of its keys.
-/
namespace PolicyLint.Policy
open Text Toml Toml.Decode
set_option autoImplicit false

/-- The tree that the loader reads from a text. From blanks alone it reads none. -/
def ReadsTree (s : String) (tree : Node) : Prop := isAllBlank s = false ∧ Toml.parse s = .ok tree

theorem ReadsTree.ofTree_eq_ok {s : String} {tree : Node} {doc : Document} (h : ReadsTree s tree)
    (hLoad : load s = .ok doc) : ofTree tree = .ok doc := by
  rw [load, h.1, h.2] at hLoad
  simp only [Bool.false_eq_true, if_false] at hLoad
  split at hLoad
  · cases hLoad
  · rename_i doc' hTree
    cases hLoad
    exact hTree

theorem exists_eq_table {s : String} {tree : Node} (h : Toml.parse s = .ok tree) :
    ∃ span form root, tree = .table span form root := by
  obtain ⟨ss, -, h⟩ := Outcome.bind_eq_ok_iff.mp h
  obtain ⟨draft, -, h⟩ := Outcome.bind_eq_ok_iff.mp h
  obtain ⟨root, -, h⟩ := Outcome.bind_eq_ok_iff.mp h
  cases h
  exact ⟨_, _, root, rfl⟩

/-- Whatever the value of a key of the table at a place, no other document can be loaded. -/
def HasNoEffect (tree : Node) (p : Place) (name : String) : Prop :=
  ∀ new doc, ofTree (tree.setAt (p.path ++ [.field p.kind.fields name]) new) = .ok doc →
    ofTree tree = .ok doc

/-- The keys without effect are those that are no fields. -/
theorem hasNoEffect_iff {tree : Node} {doc : Document} (hTree : tree.HasDistinctKeys)
    (hDoc : ofTree tree = .ok doc) {p : Place} {es : Entries} (hTable : p.HasTable tree es) {key : Key}
    {value : Node} (hKey : (key, value) ∈ es) :
    HasNoEffect tree p key.name ↔ key.name ∉ p.kind.fields := by
  obtain ⟨span, form, hAt⟩ := hTable
  obtain ⟨α, d, part, hPart, hHeeds, -⟩ := p.exists_reader
  have hes := Entries.areDistinct_iff.mp (hTree.at? hAt)
  rw [← hPart.eq_of_setAt_iff hHeeds hTree hDoc hAt (Entries.find?_of_mem hes.names hKey), HasNoEffect]
  apply forall₂_congr
  intro new doc'
  rw [hDoc, Except.ok.injEq]
  exact imp_congr_right fun _ => eq_comm

/-- A key that the schema does not know is reported if and only if its table is visited. -/
theorem report_mem_unknownKeys_iff {s : String} {tree : Node} (hParse : Toml.parse s = .ok tree) {p : Place}
    {es : Entries} (hTable : p.HasTable tree es) {key : Key} {value : Node} (hKey : (key, value) ∈ es)
    (hUnknown : key.name ∉ p.kind.known) : report s p.text key ∈ unknownKeys s ↔ p.InTables tree := by
  obtain ⟨span, form, root, rfl⟩ := exists_eq_table hParse
  have hKeys : unknownKeys s = unknownInTree s root := by
    rw [unknownKeys, hParse]
    rfl
  rw [hKeys, mem_unknownInTree_iff span form]
  constructor
  · rintro (⟨q, items, hVisits, hReports⟩ | ⟨bans, -, name, hName, i, item, -, hReports⟩)
    · obtain ⟨e, -, -, hReport⟩ := mem_unknownIn_iff.mp hReports
      obtain ⟨hText, hSame, -⟩ := UnknownKey.mk.inj hReport
      rw [hSame] at hText
      rw [Place.text_injective (dotted_inj hText)]
      exact hVisits.inTables
    · obtain ⟨e, -, -, hReport⟩ := mem_unknownIn_iff.mp hReports
      obtain ⟨hText, hSame, -⟩ := UnknownKey.mk.inj hReport
      rw [hSame] at hText
      exact absurd (dotted_inj hText) (Place.text_ne_unread hName)
  · intro hTables
    exact .inl ⟨p, es, ⟨hTables, hTable⟩, mem_unknownIn_iff.mpr ⟨_, hKey, hUnknown, rfl⟩⟩

/-- A key without effect belongs to the schema or is reported, exactly if it belongs to the schema or all
records around its table are tables. -/
theorem unmodelled_or_reported_iff {s : String} {tree : Node} {doc : Document} (hRead : ReadsTree s tree)
    (hLoad : load s = .ok doc) {p : Place} {es : Entries} (hTable : p.HasTable tree es) {key : Key}
    {value : Node} (hKey : (key, value) ∈ es) (hEffect : HasNoEffect tree p key.name) :
    key.name ∈ p.kind.unmodelled ∨ report s p.text key ∈ unknownKeys s ↔
      key.name ∈ p.kind.unmodelled ∨ p.InTables tree := by
  have hDistinct := hasDistinctKeys_of_parse hRead.2
  have hField := (hasNoEffect_iff hDistinct (hRead.ofTree_eq_ok hLoad) hTable hKey).mp hEffect
  apply or_congr_right'
  intro hUnmodelled
  have hUnknown : key.name ∉ p.kind.known := fun hKnown =>
    (Kind.mem_known_iff.mp hKnown).elim hField hUnmodelled
  exact report_mem_unknownKeys_iff hRead.2 hTable hKey hUnknown

/-- A table of the bans with a misspelled key in its list of skips. -/
def tablePolicy : String := "bans=\x7bskip=[\x7bnmae='syn'\x7d]\x7d"

def skipTable (start : Nat) : Node :=
  .table ⟨start, start + 12⟩ .inline
    [(⟨"nmae", ⟨start + 1, start + 5⟩⟩, .string ⟨start + 6, start + 11⟩ "syn")]

def tableTree : Node :=
  .table ⟨0, 26⟩ .header [(⟨"bans", ⟨0, 4⟩⟩, .table ⟨5, 26⟩ .inline
    [(⟨"skip", ⟨6, 10⟩⟩, .array ⟨11, 25⟩ false [skipTable 12])])]

set_option maxRecDepth 20000 in
theorem readsTree_tablePolicy : ReadsTree tablePolicy tableTree := ⟨by decide, by cbv⟩

theorem load_tablePolicy : load tablePolicy = .ok { bans := some { skip := [{}] } } := by
  decide +kernel

theorem nmae_reported_in_tablePolicy :
    (ReadsTree tablePolicy tableTree ∧ HasNoEffect tableTree (.skip 0) "nmae") ∧
      report tablePolicy "bans.skip[0]" ⟨"nmae", ⟨13, 17⟩⟩ ∈ unknownKeys tablePolicy := by
  have hTable : (Place.skip 0).HasTable tableTree [(⟨"nmae", ⟨13, 17⟩⟩, .string ⟨18, 23⟩ "syn")] :=
    ⟨⟨12, 24⟩, .inline, by cbv⟩
  have hTree : ofTree tableTree = .ok { bans := some { skip := [{}] } } :=
    readsTree_tablePolicy.ofTree_eq_ok load_tablePolicy
  have hEffect : HasNoEffect tableTree (.skip 0) "nmae" :=
    (hasNoEffect_iff (hasDistinctKeys_of_parse readsTree_tablePolicy.2) hTree hTable
      List.mem_cons_self).mpr (by decide)
  have hTables : (Place.skip 0).InTables tableTree := by
    rintro q (_ | ⟨_, _ | ⟨_, ⟨⟩⟩⟩)
    · exact ⟨_, ⟨5, 26⟩, .inline, by cbv⟩
    · exact ⟨_, Place.hasTable_document _ _ _⟩
  have hEither := (unmodelled_or_reported_iff readsTree_tablePolicy load_tablePolicy hTable
    List.mem_cons_self hEffect).mpr (.inr hTables)
  have hUnmodelled : "nmae" ∉ (Place.skip 0).kind.unmodelled := by decide
  exact ⟨⟨readsTree_tablePolicy, hEffect⟩, hEither.resolve_left hUnmodelled⟩

/-- The same list, with the bans written as an array of their fields. -/
def arrayPolicy : String := "bans=['deny','deny',[\x7bnmae='syn'\x7d]]"

def arrayTree : Node :=
  .table ⟨0, 35⟩ .header [(⟨"bans", ⟨0, 4⟩⟩, .array ⟨5, 35⟩ false
    [.string ⟨6, 12⟩ "deny", .string ⟨13, 19⟩ "deny", .array ⟨20, 34⟩ false [skipTable 21]])]

set_option maxRecDepth 20000 in
theorem readsTree_arrayPolicy : ReadsTree arrayPolicy arrayTree := ⟨by decide, by cbv⟩

theorem load_arrayPolicy : load arrayPolicy =
    .ok { bans := some { multipleVersions := some .deny, wildcards := some .deny, skip := [{}] } } := by
  decide +kernel

theorem unknownKeys_arrayPolicy : unknownKeys arrayPolicy = [] := by
  decide +kernel

/-- The key is as useless as in a table, but nothing is reported. -/
theorem nmae_ignored_in_arrayPolicy :
    (ReadsTree arrayPolicy arrayTree ∧ ∃ doc, load arrayPolicy = .ok doc) ∧
      (Place.skip 0).HasTable arrayTree [(⟨"nmae", ⟨22, 26⟩⟩, .string ⟨27, 32⟩ "syn")] ∧
      HasNoEffect arrayTree (.skip 0) "nmae" ∧
      ¬ ("nmae" ∈ (Place.skip 0).kind.unmodelled ∨
        report arrayPolicy (Place.skip 0).text ⟨"nmae", ⟨22, 26⟩⟩ ∈ unknownKeys arrayPolicy) := by
  have hTable : (Place.skip 0).HasTable arrayTree [(⟨"nmae", ⟨22, 26⟩⟩, .string ⟨27, 32⟩ "syn")] :=
    ⟨⟨21, 33⟩, .inline, by cbv⟩
  have hTree := readsTree_arrayPolicy.ofTree_eq_ok load_arrayPolicy
  have hDistinct := hasDistinctKeys_of_parse readsTree_arrayPolicy.2
  refine ⟨⟨readsTree_arrayPolicy, _, load_arrayPolicy⟩, hTable, ?_, ?_⟩
  · exact (hasNoEffect_iff hDistinct hTree hTable List.mem_cons_self).mpr (by decide)
  · rw [unknownKeys_arrayPolicy]
    rintro (hUnmodelled | hReported)
    · exact absurd hUnmodelled (by decide)
    · exact absurd hReported List.not_mem_nil

end PolicyLint.Policy
